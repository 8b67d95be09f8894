/-
  The writing half of HTTP/3 and QPACK (`put_varint`, `put_varint_slice`, `put_int`, `put_string` and
  `encode_connect_headers` in `src/warp/h3.rs`).

  1. **Program** — the writers, each appending to what is there; `putVarintSliceChecked` writes into a slice,
     which has to be long enough.

  2. **Reading a section** — `readSection` is a reader of the field section that knows the three
     representations of a line; it reads back every `EncodesSection` (`readSection_encodes`).

  3. **The crux (`putInt_encodes`)** — the loop of `put_int` emits seven bits a byte.  Nine bytes hold 63
     bits, as many as the loop of `get_int` takes: that is where the bound of 2^63 comes from.

  The theorem is `h3_round_trips`.
-/
import Httproxy.Lib.Slice
import Httproxy.Warp.Status

namespace Httproxy.H3

open Bytes

/-! ## Program -/

def INDEXED_STATIC : UInt8 := 0xC0
def STATIC_METHOD_CONNECT : UInt8 := 15
def STATIC_AUTHORITY : Nat := 0

def putVarint (out : Bytes) (value : Nat) : Bytes :=
  match varintLen value with
  | 1 => out ++ [UInt8.ofNat value]
  | 2 => out ++ putBe 2 (0x4000 ||| value % 2 ^ 16)
  | 4 => out ++ putBe 4 (0x80000000 ||| value % 2 ^ 32)
  | _ => out ++ putBe 8 (0xC000000000000000 ||| value)

/-- `put_varint_slice`, with its index or its range checked. -/
def putVarintSliceChecked (out : Bytes) (value : Nat) : Option (Bytes × Nat) :=
  match varintLen value with
  | 1 => (Slice.put out 0 (UInt8.ofNat value)).map (·, 1)
  | 2 => (Slice.copyFrom out 0 (putBe 2 (0x4000 ||| value % 2 ^ 16))).map (·, 2)
  | 4 => (Slice.copyFrom out 0 (putBe 4 (0x80000000 ||| value % 2 ^ 32))).map (·, 4)
  | _ => (Slice.copyFrom out 0 (putBe 8 (0xC000000000000000 ||| value))).map (·, 8)

/-- The loop of `put_int`. -/
def putIntLoop (out : Bytes) (value : Nat) : Bytes :=
  if value ≥ 128 then putIntLoop (out ++ [(UInt8.ofNat value &&& 0x7F) ||| 0x80]) (value >>> 7)
  else out ++ [UInt8.ofNat value]
termination_by value
decreasing_by
  rw [Nat.shiftRight_eq_div_pow]
  omega

def putInt (out : Bytes) (first : UInt8) (prefixBits value : Nat) : Bytes :=
  let mask := (1 <<< prefixBits) - 1
  if value < mask then out ++ [first ||| UInt8.ofNat value]
  else putIntLoop (out ++ [first ||| UInt8.ofNat mask]) (value - mask)

def putString (out value : Bytes) : Bytes := putInt out 0 7 value.length ++ value

/-- `encode_connect_headers` on the bytes of the authority. -/
def encodeConnectHeaders (authority : Bytes) : Bytes :=
  let out := [0, 0, INDEXED_STATIC ||| STATIC_METHOD_CONNECT]
  let out := putInt out 0b01010000 4 STATIC_AUTHORITY
  putString out authority

/-! ## Reading a section -/

/-- The line at the front of `buf`, and how long it is; no Huffman coding and no dynamic table. -/
def readLine (buf : Bytes) : Option (Line × Nat) :=
  match buf with
  | [] => none
  | first :: _ =>
    if first.toNat / 64 = 3 then do
      let (index, used) ← getInt buf 6
      some (.indexed index, used)
    else if first.toNat / 16 = 5 ∨ first.toNat / 16 = 7 then do
      let (index, used) ← getInt buf 4
      let (value, used', huffman) ← getString (buf.drop used)
      if huffman then none else some (.nameRef index value, used + used')
    else if first.toNat / 8 = 4 ∨ first.toNat / 8 = 6 then do
      let (nameLen, used) ← getInt buf 3
      let (value, used', huffman) ← getString (buf.drop (used + nameLen))
      if huffman then none
      else some (.literal ((buf.drop used).take nameLen) value, used + nameLen + used')
    else none

/-- The lines of `buf`; `fuel` bounds their number. -/
def readLines : Nat → Bytes → Option (List Line)
  | _, [] => some []
  | 0, _ :: _ => none
  | fuel + 1, first :: rest => do
    let (line, used) ← readLine (first :: rest)
    let lines ← readLines fuel ((first :: rest).drop used)
    some (line :: lines)

/-- The lines of a section that needs no dynamic table.  No line is empty, so there are at most as many
    lines as bytes. -/
def readSection (block : Bytes) : Option (List Line) := do
  let (insertCount, used) ← getInt block 8
  if insertCount ≠ 0 then none
  else
    let (_, used') ← getInt (block.drop used) 7
    readLines block.length (block.drop (used + used'))

/-- The bytes of `:method`, `CONNECT` and `:authority`. -/
def METHOD : Bytes := [58, 109, 101, 116, 104, 111, 100]
def CONNECT : Bytes := [67, 79, 78, 78, 69, 67, 84]
def AUTHORITY : Bytes := [58, 97, 117, 116, 104, 111, 114, 105, 116, 121]

/-- The entries 0 and 15 of the static table of RFC 9204, Appendix A. -/
def rfcField : Nat → Option (Bytes × Bytes)
  | 0 => some (AUTHORITY, [])
  | 15 => some (METHOD, CONNECT)
  | _ => none

/-- The field a line stands for. -/
def lineField : Line → Option (Bytes × Bytes)
  | .indexed index => rfcField index
  | .nameRef index value => (rfcField index).map fun field => (field.1, value)
  | .literal name value => some (name, value)

/-- The fields of a section. -/
def readFields (block : Bytes) : Option (List (Bytes × Bytes)) := do
  let lines ← readSection block
  lines.mapM lineField

/-! ## Varints -/

theorem varintLen_four (value : Nat) :
    varintLen value = 1 ∨ varintLen value = 2 ∨ varintLen value = 4 ∨ varintLen value = 8 := by
  unfold varintLen
  split
  · exact .inl rfl
  split
  · exact .inr (.inl rfl)
  split
  · exact .inr (.inr (.inl rfl))
  · exact .inr (.inr (.inr rfl))

/-- `put_varint` appends what `put_varint_slice` writes. -/
theorem putVarint_slice (out : Bytes) (value : Nat) :
    putVarint out value = out ++ (putVarintSlice [] value).1 := by
  have hempty : ∀ b, copyFromSlice [] b = b := by
    intro b
    rw [copyFromSlice, List.drop_nil, List.append_nil]
  unfold putVarint putVarintSlice
  obtain hlen | hlen | hlen | hlen := varintLen_four value
  all_goals
    rw [hlen]
    exact congrArg (out ++ ·) (hempty _).symm

/-- The slice has room for the varint, and then nothing panics. -/
theorem putVarintSliceChecked_eq {out : Bytes} {value : Nat} (hroom : varintLen value ≤ out.length) :
    putVarintSliceChecked out value = some (putVarintSlice out value) := by
  have hcopy : ∀ b : Bytes, b.length = varintLen value →
      Slice.copyFrom out 0 b = some (copyFromSlice out b) :=
    fun b hb => Slice.copyFrom_zero (hb ▸ hroom)
  unfold putVarintSliceChecked putVarintSlice
  obtain hlen | hlen | hlen | hlen := varintLen_four value
  · rw [hlen] at hcopy ⊢
    exact congrArg (Option.map (·, 1)) (hcopy _ rfl)
  · rw [hlen] at hcopy ⊢
    exact congrArg (Option.map (·, 2)) (hcopy _ (length_putBe ..))
  · rw [hlen] at hcopy ⊢
    exact congrArg (Option.map (·, 4)) (hcopy _ (length_putBe ..))
  · rw [hlen] at hcopy ⊢
    exact congrArg (Option.map (·, 8)) (hcopy _ (length_putBe ..))

section Varint
variable {value : Nat} (h : value < 2 ^ 62)
include h

theorem putVarint_eq (out : Bytes) : putVarint out value = out ++ varint value := by
  rw [putVarint_slice, putVarintSlice_eq h, copyFromSlice, List.drop_nil, List.append_nil]

/-- Less than a varint is not read as one. -/
theorem getVarint_short {b : Bytes} (hpre : b <+: varint value) (hne : b ≠ varint value) :
    getVarint b = none := by
  obtain ⟨more, hmore⟩ := hpre
  cases hget : getVarint b with
  | none => rfl
  | some r =>
    obtain ⟨v, n⟩ := r
    have hwhole := getVarint_append hget more
    have hall := getVarint_varint h []
    rw [List.append_nil] at hall
    rw [hmore, hall] at hwhole
    obtain ⟨-, rfl⟩ := Prod.mk.inj (Option.some.inj hwhole)
    have hlen := congrArg List.length hmore
    have hused := (getVarint_used hget).2
    rw [List.length_append, length_varint] at hlen
    obtain rfl : more = [] := List.length_eq_zero_iff.1 (by omega)
    rw [List.append_nil] at hmore
    exact absurd hmore hne

end Varint

/-! ## Prefix integers -/

/-- What the loop of `put_int` writes. -/
def contBytes (value : Nat) : Bytes :=
  if value ≥ 128 then ((UInt8.ofNat value &&& 0x7F) ||| 0x80) :: contBytes (value >>> 7)
  else [UInt8.ofNat value]
termination_by value
decreasing_by
  rw [Nat.shiftRight_eq_div_pow]
  omega

theorem putIntLoop_eq (out : Bytes) (value : Nat) : putIntLoop out value = out ++ contBytes value := by
  fun_induction putIntLoop out value with
  | case1 out value hmore ih =>
    rw [ih, List.append_assoc]
    conv => rhs; rw [contBytes, if_pos hmore]
    rfl
  | case2 out value hlast =>
    rw [contBytes, if_neg hlast]

/-- A byte with its upper bit set, and seven bits of the value. -/
theorem toNat_more (value : Nat) : ((UInt8.ofNat value &&& 0x7F) ||| 0x80).toNat = 128 + value % 128 := by
  have hlow : (UInt8.ofNat value &&& 0x7F).toNat = value % 128 := by
    rw [and_7f, UInt8.toNat_ofNat']
    omega
  rw [UInt8.toNat_or, hlow, Nat.or_comm]
  exact (Nat.shiftLeft_add_eq_or_of_lt (show value % 128 < 2 ^ 7 from Nat.mod_lt _ (by decide)) 1).symm

theorem contBytes_ne_nil (value : Nat) : contBytes value ≠ [] := by
  rw [contBytes]
  split
  · exact List.cons_ne_nil _ _
  · exact List.cons_ne_nil _ _

/-- **The continuation of a value**: it ends where it should, stands for the value, and has a byte for
every seven bits. -/
theorem contBytes_spec (value : Nat) : Continued (contBytes value) ∧ contValue (contBytes value) = value ∧
    ∀ k, 0 < k → value < 128 ^ k → (contBytes value).length ≤ k := by
  fun_induction contBytes value with
  | case1 value hmore ih =>
    obtain ⟨hcont, hvalue, hlen⟩ := ih
    have hbyte := toNat_more value
    rw [Nat.shiftRight_eq_div_pow] at hvalue hlen hcont
    refine ⟨?_, ?_, fun k hk hlt => ?_⟩
    · rw [Nat.shiftRight_eq_div_pow]
      cases hrest : contBytes (value / 2 ^ 7) with
      | nil => exact absurd hrest (contBytes_ne_nil _)
      | cons b bs =>
        rw [hrest] at hcont
        exact ⟨by omega, hcont⟩
    · rw [Nat.shiftRight_eq_div_pow, contValue, hvalue, hbyte]
      omega
    · obtain ⟨k, rfl⟩ : ∃ j, k = j + 1 := ⟨k - 1, by omega⟩
      have hpos : 0 < k := by
        apply Nat.pos_of_ne_zero
        rintro rfl
        omega
      rw [Nat.shiftRight_eq_div_pow, List.length_cons]
      refine Nat.succ_le_succ (hlen k hpos ?_)
      rw [Nat.pow_succ] at hlt
      exact Nat.div_lt_of_lt_mul (by rw [Nat.mul_comm]; exact hlt)
  | case2 value hlast =>
    have hbyte : (UInt8.ofNat value).toNat = value := by
      rw [UInt8.toNat_ofNat']
      omega
    refine ⟨?_, ?_, fun k hk _ => hk⟩
    · show (UInt8.ofNat value).toNat < 128
      omega
    · rw [contValue, contValue, hbyte]
      omega

/-- A value below free low bits. -/
theorem toNat_or_low {first : UInt8} {bits value : Nat} (hfirst : first.toNat % 2 ^ bits = 0)
    (hvalue : value < 2 ^ bits) (hbits : bits ≤ 8) :
    (first ||| UInt8.ofNat value).toNat = first.toNat + value := by
  have hpow : 2 ^ bits ≤ 2 ^ 8 := Nat.pow_le_pow_right (by decide) hbits
  have hbyte : (UInt8.ofNat value).toNat = value := by
    rw [UInt8.toNat_ofNat']
    omega
  have hhigh : first.toNat = (first.toNat / 2 ^ bits) <<< bits := by
    rw [Nat.shiftLeft_eq, Nat.div_mul_cancel (Nat.dvd_of_mod_eq_zero hfirst)]
  rw [UInt8.toNat_or, hbyte, hhigh, Nat.shiftLeft_add_eq_or_of_lt hvalue]

/-- **What `put_int` appends is a wire form of the value**, and the flags are untouched. -/
theorem putInt_encodes {first : UInt8} {bits value : Nat} (hbits : 1 ≤ bits ∧ bits ≤ 8)
    (hfirst : first.toNat % 2 ^ bits = 0) (hvalue : value < 2 ^ 63) (out : Bytes) :
    ∃ byte cont, putInt out first bits value = out ++ byte :: cont ∧ EncodesInt bits byte cont value ∧
      byte.toNat / 2 ^ bits = first.toNat / 2 ^ bits := by
  have hpow : 0 < 2 ^ bits := Nat.two_pow_pos bits
  have hmask : (1 <<< bits) - 1 = 2 ^ bits - 1 := by rw [Nat.shiftLeft_eq, Nat.one_mul]
  have hword : value < U64 := Nat.lt_trans hvalue (by decide)
  have hlow : ∀ v, v < 2 ^ bits → (first.toNat + v) % 2 ^ bits = v ∧
      (first.toNat + v) / 2 ^ bits = first.toNat / 2 ^ bits := by
    intro v hv
    obtain ⟨q, hq⟩ := Nat.dvd_of_mod_eq_zero hfirst
    rw [hq, Nat.mul_add_mod, Nat.mod_eq_of_lt hv, Nat.mul_add_div hpow, Nat.div_eq_of_lt hv,
      Nat.mul_div_cancel_left _ hpow]
    exact ⟨rfl, rfl⟩
  unfold putInt
  dsimp only
  rw [hmask]
  split
  · rename_i hshort
    have hbyte := toNat_or_low hfirst (by omega : value < 2 ^ bits) hbits.2
    obtain ⟨hmod, hdiv⟩ := hlow value (by omega)
    exact ⟨_, [], rfl, ⟨hword, .inl ⟨hshort, by rw [hbyte, hmod], rfl⟩⟩, by rw [hbyte, hdiv]⟩
  · rename_i hlong
    have hbyte := toNat_or_low hfirst (by omega : 2 ^ bits - 1 < 2 ^ bits) hbits.2
    obtain ⟨hmod, hdiv⟩ := hlow (2 ^ bits - 1) (by omega)
    obtain ⟨hcont, hrest, hlen⟩ := contBytes_spec (value - (2 ^ bits - 1))
    rw [putIntLoop_eq, List.append_assoc]
    refine ⟨_, contBytes (value - (2 ^ bits - 1)), rfl, ⟨hword, .inr ⟨by rw [hbyte, hmod], hcont, ?_, ?_⟩⟩,
      by rw [hbyte, hdiv]⟩
    · -- nine bytes of seven bits
      exact hlen 9 (by decide) (Nat.lt_of_le_of_lt (Nat.sub_le _ _) hvalue)
    · rw [hrest]
      omega

theorem getInt_putInt {first : UInt8} {bits value : Nat} (hbits : 1 ≤ bits ∧ bits ≤ 8)
    (hfirst : first.toNat % 2 ^ bits = 0) (hvalue : value < 2 ^ 63) (rest : Bytes) :
    getInt (putInt [] first bits value ++ rest) bits =
      some (value, (putInt [] first bits value).length) := by
  obtain ⟨byte, cont, hput, hint, -⟩ := putInt_encodes hbits hfirst hvalue []
  rw [hput, List.nil_append, List.cons_append, getInt_encodes hbits.2 hint, List.length_cons, Nat.add_comm]

/-! ## Strings -/

theorem putString_encodes {s : Bytes} (h : s.length < 2 ^ 63) (out : Bytes) :
    ∃ str, putString out s = out ++ str ∧ EncodesString s str ∧ str.length ≤ 10 + s.length := by
  obtain ⟨byte, cont, hput, hint, hflag⟩ :=
    @putInt_encodes 0 7 s.length ⟨by decide, by decide⟩ rfl h out
  have hcont : cont.length ≤ 9 := by
    obtain ⟨-, ⟨-, -, rfl⟩ | ⟨-, -, hlen, -⟩⟩ := id hint
    · exact Nat.zero_le 9
    · exact hlen
  have hlow : byte.toNat < 128 := by
    have hzero : byte.toNat / 2 ^ 7 = 0 := hflag
    omega
  refine ⟨byte :: (cont ++ s), ?_, ⟨byte, cont, rfl, hlow, hint⟩, ?_⟩
  · rw [putString, hput, List.append_assoc]
    rfl
  · rw [List.length_cons, List.length_append]
    omega

/-- A string literal is read back, as the string it is. -/
theorem EncodesString.read {s str : Bytes} (h : EncodesString s str) (hfit : str.length < U64)
    (rest : Bytes) : getString (str ++ rest) = some (s, str.length, false) := by
  obtain ⟨first, cont, rfl, hflag, hint⟩ := h
  have hlen : (first :: (cont ++ s)).length = 1 + cont.length + s.length := by
    rw [List.length_cons, List.length_append]
    omega
  rw [hlen] at hfit ⊢
  rw [List.cons_append, List.append_assoc]
  exact getString_encodes hint hflag hfit rest

/-! ## Sections -/

theorem EncodesLine.read {l : Line} {bs : Bytes} (h : EncodesLine l bs) (hfit : bs.length < U64)
    (rest : Bytes) : readLine (bs ++ rest) = some (l, bs.length) := by
  cases l with
  | indexed index =>
    obtain ⟨first, cont, rfl, hf, hi⟩ := h
    rw [List.cons_append, readLine, if_pos hf, getInt_encodes (by decide) hi, List.length_cons,
      Nat.add_comm]
    rfl
  | nameRef index value =>
    obtain ⟨first, cont, str, rfl, hf, hi, hs⟩ := h
    have hlen : (first :: (cont ++ str)).length = 1 + cont.length + str.length := by
      rw [List.length_cons, List.length_append]
      omega
    have hdrop : (first :: (cont ++ (str ++ rest))).drop (1 + cont.length) = str ++ rest := by
      rw [Nat.add_comm, List.drop_succ_cons, List.drop_left]
    rw [hlen] at hfit ⊢
    rw [List.cons_append, List.append_assoc, readLine, if_neg (by omega), if_pos hf,
      getInt_encodes (by decide) hi, Option.bind_eq_bind, Option.bind_some]
    dsimp only
    rw [hdrop, hs.read (by omega)]
    rfl
  | literal name value =>
    obtain ⟨first, cont, str, rfl, hf, hi, hs⟩ := h
    have hlen : (first :: (cont ++ (name ++ str))).length = 1 + cont.length + name.length + str.length := by
      rw [List.length_cons, List.length_append, List.length_append]
      omega
    have hname : (first :: (cont ++ (name ++ (str ++ rest)))).drop (1 + cont.length) =
        name ++ (str ++ rest) := by
      rw [Nat.add_comm, List.drop_succ_cons, List.drop_left]
    have hdrop : (first :: (cont ++ (name ++ (str ++ rest)))).drop (1 + cont.length + name.length) =
        str ++ rest := by
      rw [← List.drop_drop, hname, List.drop_left]
    rw [hlen] at hfit ⊢
    rw [List.cons_append, List.append_assoc, List.append_assoc, readLine, if_neg (by omega),
      if_neg (by omega), if_pos hf, getInt_encodes (by decide) hi, Option.bind_eq_bind, Option.bind_some]
    dsimp only
    rw [hdrop, hs.read (by omega), hname, List.take_left]
    rfl

theorem readLines_encodes {lines : List Line} {body : Bytes} (h : EncodesLines lines body) :
    ∀ fuel, body.length ≤ fuel → body.length < U64 → readLines fuel body = some lines := by
  induction h with
  | nil =>
    intro fuel _ _
    cases fuel with
    | zero => rfl
    | succ fuel => rfl
  | @cons l ls bs rest hl hls ih =>
    intro fuel hfuel hfit
    have hpos := encodesLine_pos hl
    rw [List.length_append] at hfuel hfit
    obtain ⟨fuel, rfl⟩ : ∃ n, fuel = n + 1 := ⟨fuel - 1, by omega⟩
    have hread := hl.read (by omega) rest
    cases hbytes : bs ++ rest with
    | nil =>
      have hnil := congrArg List.length hbytes
      rw [List.length_append, List.length_nil] at hnil
      omega
    | cons first tail =>
      rw [hbytes] at hread
      have hdrop : (first :: tail).drop bs.length = rest := by rw [← hbytes, List.drop_left]
      rw [readLines, hread, Option.bind_eq_bind, Option.bind_some]
      dsimp only
      rw [hdrop, ih fuel (by omega) (by omega)]
      rfl

/-- **The reader reads back every section.** -/
theorem readSection_encodes {lines : List Line} {block : Bytes} (h : EncodesSection lines block) :
    readSection block = some lines := by
  obtain ⟨first, cont, body, base, rfl, hbase, hlines⟩ := h.form
  have hfit := h.fits
  rw [List.length_cons, List.length_cons, List.length_append] at hfit
  have hzero : getInt (0 :: first :: (cont ++ body)) 8 = some (0, 1) := rfl
  have hdrop : (0 :: first :: (cont ++ body)).drop (1 + (1 + cont.length)) = body := by
    rw [Nat.add_comm, List.drop_succ_cons, Nat.add_comm, List.drop_succ_cons, List.drop_left]
  have hlen : body.length ≤ (0 :: first :: (cont ++ body)).length := by
    rw [List.length_cons, List.length_cons, List.length_append]
    omega
  unfold readSection
  rw [hzero, Option.bind_eq_bind, Option.bind_some]
  dsimp only
  rw [if_neg (fun hne => hne rfl), List.drop_succ_cons, List.drop_zero, getInt_encodes (by decide) hbase,
    Option.bind_some]
  dsimp only
  rw [hdrop]
  exact readLines_encodes hlines _ hlen (by omega)

/-- The block of a CONNECT request is a section of two lines. -/
theorem encodeConnectHeaders_section {authority : Bytes} (h : authority.length < 2 ^ 63) :
    EncodesSection [.indexed 15, .nameRef 0 authority] (encodeConnectHeaders authority) := by
  obtain ⟨str, hput, hstr, hlen⟩ := putString_encodes h [0, 0, 0xCF, 80]
  have hblock : encodeConnectHeaders authority = 0 :: 0 :: ([] ++ ([0xCF] ++ ((80 :: ([] ++ str)) ++ []))) := by
    rw [List.append_nil]
    exact hput
  have hmethod : EncodesLine (.indexed 15) [0xCF] :=
    ⟨0xCF, [], rfl, rfl, by decide, .inl ⟨by decide, rfl, rfl⟩⟩
  have hauthority : EncodesLine (.nameRef 0 authority) (80 :: ([] ++ str)) :=
    ⟨80, [], str, rfl, .inl rfl, ⟨by decide, .inl ⟨by decide, rfl, rfl⟩⟩, hstr⟩
  constructor
  · exact ⟨0, [], _, 0, hblock, ⟨by decide, .inl ⟨by decide, rfl, rfl⟩⟩,
      .cons hmethod (.cons hauthority .nil)⟩
  · rw [hblock]
    simp only [List.length_cons, List.length_append, List.length_nil]
    unfold U64
    omega

/-- **Main result.**  Integers in both forms, strings and the block of a CONNECT request are read back;
a varint that is cut off is not.  (A slice has at most `isize::MAX` bytes.) -/
theorem h3_round_trips :
    (∀ value < 2 ^ 62, ∀ rest out,
      getVarint (putVarint [] value ++ rest) = some (value, varintLen value) ∧
      putVarint out value = out ++ putVarint [] value ∧
      (varintLen value ≤ out.length → putVarintSliceChecked out value =
        some (putVarint [] value ++ out.drop (varintLen value), varintLen value)) ∧
      ∀ b : Bytes, b <+: putVarint [] value → b ≠ putVarint [] value → getVarint b = none) ∧
    (∀ bits, 1 ≤ bits ∧ bits ≤ 8 → ∀ first : UInt8, first.toNat % 2 ^ bits = 0 → ∀ value < 2 ^ 63, ∀ rest,
      getInt (putInt [] first bits value ++ rest) bits =
        some (value, (putInt [] first bits value).length)) ∧
    (∀ s : Bytes, s.length < 2 ^ 63 → ∀ rest,
      getString (putString [] s ++ rest) = some (s, (putString [] s).length, false)) ∧
    (∀ authority : Bytes, authority.length < 2 ^ 63 →
      readFields (encodeConnectHeaders authority) = some [(METHOD, CONNECT), (AUTHORITY, authority)]) := by
  refine ⟨fun value hvalue rest out => ?_, fun bits hbits first hfirst value hvalue rest => ?_,
    fun s hs rest => ?_, fun authority hauthority => ?_⟩
  · rw [putVarint_eq hvalue, putVarint_eq hvalue, List.nil_append]
    refine ⟨getVarint_varint hvalue rest, rfl, fun hroom => ?_,
      fun b hpre hne => getVarint_short hvalue hpre hne⟩
    rw [putVarintSliceChecked_eq hroom, putVarintSlice_eq hvalue, copyFromSlice, length_varint]
  · exact getInt_putInt hbits hfirst hvalue rest
  · obtain ⟨str, hput, hstr, hlen⟩ := putString_encodes hs []
    rw [hput, List.nil_append]
    refine hstr.read ?_ rest
    unfold U64
    omega
  · unfold readFields
    rw [readSection_encodes (encodeConnectHeaders_section hauthority)]
    rfl

/-- A varint, an integer that leaves its prefix, a string, and the block of a CONNECT request. -/
theorem h3_round_trips_demo :
    getVarint (putVarint [] 16384 ++ [7]) = some (16384, 4) ∧
    getInt (putInt [] 0xC0 6 1000 ++ [7]) 6 = some (1000, (putInt [] 0xC0 6 1000).length) ∧
    getString (putString [] [97, 98] ++ [7]) = some ([97, 98], (putString [] [97, 98]).length, false) ∧
    readFields (encodeConnectHeaders [97, 58, 49]) =
      some [(METHOD, CONNECT), (AUTHORITY, [97, 58, 49])] := by
  obtain ⟨hvarint, hint, hstring, hblock⟩ := h3_round_trips
  exact ⟨(hvarint 16384 (by decide) [7] []).1,
    hint 6 ⟨by decide, by decide⟩ 0xC0 rfl 1000 (by decide) [7],
    hstring [97, 98] (by decide) [7], hblock [97, 58, 49] (by decide)⟩

end Httproxy.H3
