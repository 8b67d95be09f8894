/-
  HTTP/3 and QPACK primitives (`src/warp/h3.rs`).

  1. **Varints and frame headers** — `getVarint`, `getFrameHeader`.  Both are PREFIX-STABLE: once a
     buffer decodes, more bytes behind it change nothing (`getFrameHeader_append`), so a decoder
     may be handed a buffer that is still filling up.

  2. **Writing varints** — `putVarintSlice` over a buffer that is already there.  `varint v` is the
     wire form in arithmetic: the value, and ABOVE it in two bits the logarithm of the length.  What
     is written is that form (`putVarintSlice_eq`), and it is read back (`getVarint_varint`).

  3. **Prefix integers and strings** — `getInt` with its continuation loop and overflow checks,
     `getString`.  `EncodesInt bits first cont v` says what the wire form of `v` is: `first`
     carries flags in its upper bits, `cont` is the continuation, minimal or not, of at most nine
     bytes.  `getInt_encodes` reads every such form back.

  `u64` and `usize` values are `Nat`, with the checked additions written out; shifts stay below
  64 and lose no bits.
-/
import Httproxy.Lib.Bytes

namespace Httproxy.H3

open Bytes

/-! ## Constants -/

def FRAME_DATA : Nat := 0x00
def FRAME_HEADERS : Nat := 0x01

/-- `u64::MAX + 1`, the bound of the checked additions. -/
def U64 : Nat := 2 ^ 64

/-! ## Varints -/

def getVarint (buf : Bytes) : Option (Nat × Nat) :=
  match buf with
  | [] => none
  | first :: rest =>
    let len := 1 <<< (first >>> 6).toNat
    if buf.length < len then none
    else some ((rest.take (len - 1)).foldl (fun value byte => (value <<< 8) ||| byte.toNat)
      (first &&& 0x3F).toNat, len)

def getFrameHeader (buf : Bytes) : Option (Nat × Nat × Nat) :=
  match getVarint buf with
  | none => none
  | some (ty, n) =>
    match getVarint (buf.drop n) with
    | none => none
    | some (len, m) => some (ty, len, n + m)

theorem getVarint_used {buf : Bytes} {v n : Nat} (h : getVarint buf = some (v, n)) :
    1 ≤ n ∧ n ≤ buf.length := by
  unfold getVarint at h
  split at h
  · cases h
  · rename_i first rest
    dsimp only at h
    split at h
    · cases h
    · rename_i hlen
      obtain ⟨-, rfl⟩ := Prod.mk.inj (Option.some.inj h)
      refine ⟨?_, Nat.le_of_not_lt hlen⟩
      rw [Nat.shiftLeft_eq, Nat.one_mul]
      exact Nat.one_le_two_pow

theorem getVarint_append {buf : Bytes} {v n : Nat} (h : getVarint buf = some (v, n))
    (more : Bytes) : getVarint (buf ++ more) = some (v, n) := by
  cases buf with
  | nil => cases h
  | cons first rest =>
    have hn := (getVarint_used h).2
    simp only [getVarint] at h
    split at h
    · cases h
    · rename_i hlen
      obtain ⟨rfl, rfl⟩ := Prod.mk.inj (Option.some.inj h)
      have hshort : ¬ (first :: (rest ++ more)).length < 1 <<< (first >>> 6).toNat := by
        rw [← List.cons_append, List.length_append]
        omega
      have htake : (rest ++ more).take (1 <<< (first >>> 6).toNat - 1) =
          rest.take (1 <<< (first >>> 6).toNat - 1) := by
        refine List.take_append_of_le_length ?_
        rw [List.length_cons] at hn
        omega
      simp only [List.cons_append, getVarint, htake]
      rw [if_neg hshort]

theorem getFrameHeader_eq_some {buf : Bytes} {ty len used : Nat} :
    getFrameHeader buf = some (ty, len, used) ↔
      ∃ n m, getVarint buf = some (ty, n) ∧ getVarint (buf.drop n) = some (len, m) ∧
        used = n + m := by
  constructor
  · intro h
    unfold getFrameHeader at h
    split at h
    · cases h
    · rename_i ty' n hn
      split at h
      · cases h
      · rename_i len' m hm
        simp only [Option.some.injEq, Prod.mk.injEq] at h
        obtain ⟨rfl, rfl, rfl⟩ := h
        exact ⟨n, m, hn, hm, rfl⟩
  · rintro ⟨n, m, hn, hm, rfl⟩
    unfold getFrameHeader
    rw [hn]
    dsimp only
    rw [hm]

theorem getFrameHeader_used {buf : Bytes} {ty len used : Nat}
    (h : getFrameHeader buf = some (ty, len, used)) : 2 ≤ used ∧ used ≤ buf.length := by
  obtain ⟨n, m, hn, hm, rfl⟩ := getFrameHeader_eq_some.mp h
  have h1 := getVarint_used hn
  have h2 := getVarint_used hm
  rw [List.length_drop] at h2
  omega

theorem getFrameHeader_append {buf : Bytes} {x : Nat × Nat × Nat}
    (h : getFrameHeader buf = some x) (more : Bytes) : getFrameHeader (buf ++ more) = some x := by
  obtain ⟨ty, len, used⟩ := x
  obtain ⟨n, m, hn, hm, rfl⟩ := getFrameHeader_eq_some.mp h
  refine getFrameHeader_eq_some.mpr ⟨n, m, getVarint_append hn more, ?_, rfl⟩
  rw [List.drop_append_of_le_length (getVarint_used hn).2]
  exact getVarint_append hm more

@[simp] theorem getFrameHeader_nil : getFrameHeader [] = none := rfl

/-! ## Writing varints -/

def varintLen (value : Nat) : Nat :=
  if value < 1 <<< 6 then 1
  else if value < 1 <<< 14 then 2
  else if value < 1 <<< 30 then 4
  else 8

/-- `out[..bytes.len()].copy_from_slice(bytes)`. -/
def copyFromSlice (out bytes : Bytes) : Bytes := bytes ++ out.drop bytes.length

/-- `put_varint_slice`: what `out` holds afterwards, and how many bytes of it were written. -/
def putVarintSlice (out : Bytes) (value : Nat) : Bytes × Nat :=
  match varintLen value with
  | 1 => (copyFromSlice out [UInt8.ofNat value], 1)
  | 2 => (copyFromSlice out (putBe 2 (0x4000 ||| value % 2 ^ 16)), 2)
  | 4 => (copyFromSlice out (putBe 4 (0x80000000 ||| value % 2 ^ 32)), 4)
  | _ => (copyFromSlice out (putBe 8 (0xC000000000000000 ||| value)), 8)

/-- The wire form of `value`: above it, in two bits, the logarithm of its length. -/
def varint (value : Nat) : Bytes :=
  putBe (varintLen value) (Nat.log2 (varintLen value) * 2 ^ (8 * varintLen value - 2) + value)

theorem and_3f (b : UInt8) : (b &&& 0x3F).toNat = b.toNat % 64 := by
  rw [UInt8.toNat_and]
  exact Nat.and_two_pow_sub_one_eq_mod _ 6

theorem shr_6 (b : UInt8) : (b >>> 6).toNat = b.toNat / 64 := by
  rw [UInt8.toNat_shiftRight]
  exact Nat.shiftRight_eq_div_pow _ 6

/-- The loop of `get_varint` reads on in base 256. -/
theorem foldl_shift (b : Bytes) (v : Nat) :
    b.foldl (fun value byte => (value <<< 8) ||| byte.toNat) v = v * 256 ^ b.length + readBe b := by
  induction b using List.reverseRecOn with
  | nil => simp [readBe]
  | append_singleton b x ih =>
    have hx : x.toNat < 2 ^ 8 := x.toNat_lt
    rw [List.foldl_append, List.foldl_cons, List.foldl_nil, ih, ← Nat.shiftLeft_add_eq_or_of_lt hx,
      Nat.shiftLeft_eq, readBe_concat, List.length_append, List.length_singleton, Nat.pow_succ]
    ring

/-- **Reading a varint** whose two upper bits say how long it is. -/
theorem getVarint_of_readBe {b : Bytes} {c v : Nat} (hlen : b.length = 2 ^ c)
    (hread : readBe b = c * (64 * 256 ^ (2 ^ c - 1)) + v) (hv : v < 64 * 256 ^ (2 ^ c - 1))
    (more : Bytes) : getVarint (b ++ more) = some (v, 2 ^ c) := by
  cases b with
  | nil =>
    have := Nat.one_le_two_pow (n := c)
    rw [List.length_nil] at hlen
    omega
  | cons first rest =>
    rw [List.length_cons] at hlen
    have hrest : rest.length = 2 ^ c - 1 := by omega
    have hlt := readBe_lt rest
    rw [readBe_cons, hrest] at hread
    rw [hrest] at hlt
    obtain ⟨B, hBdef⟩ : ∃ B, 256 ^ (2 ^ c - 1) = B := ⟨_, rfl⟩
    rw [hBdef] at hread hlt hv
    have hB : 0 < B := by omega
    -- the first byte holds `c` above and the leading digits of `v` below
    have hsplit : first.toNat * B + readBe rest = B * (c * 64) + v := by
      rw [hread]
      ring
    have hfirst : first.toNat = c * 64 + v / B := by
      have h1 := congrArg (· / B) hsplit
      simp only [Nat.mul_add_div hB] at h1
      rwa [Nat.mul_comm, Nat.mul_add_div hB, Nat.div_eq_of_lt hlt, Nat.add_zero] at h1
    have hlast : readBe rest = v % B := by
      have h1 := congrArg (· % B) hsplit
      simp only [Nat.mul_add_mod] at h1
      rwa [Nat.mul_comm, Nat.mul_add_mod, Nat.mod_eq_of_lt hlt] at h1
    obtain ⟨q, hq⟩ : ∃ q, v / B = q := ⟨_, rfl⟩
    have hq64 : q < 64 := by
      rw [← hq, Nat.div_lt_iff_lt_mul hB]
      exact hv
    rw [hq] at hfirst
    have hup : first.toNat / 64 = c := by omega
    have hlow : first.toNat % 64 = q := by omega
    have hshift : 1 <<< (first >>> 6).toNat = 2 ^ c := by
      rw [shr_6, hup, Nat.shiftLeft_eq, Nat.one_mul]
    simp only [getVarint, List.cons_append, hshift]
    rw [if_neg (by simp only [List.length_cons, List.length_append]; omega), ← hrest,
      List.take_left, foldl_shift, and_3f, hlow, hlast, hrest, hBdef, ← hq, Nat.mul_comm,
      Nat.div_add_mod]

/-- The four lengths of a varint and the values they are for. -/
theorem varintLen_cases {value : Nat} (h : value < 2 ^ 62) :
    ∃ c < 4, varintLen value = 2 ^ c ∧ value < 2 ^ (8 * 2 ^ c - 2) := by
  unfold varintLen
  simp only [Nat.shiftLeft_eq, Nat.one_mul]
  split
  · exact ⟨0, by omega, rfl, by assumption⟩
  split
  · exact ⟨1, by omega, rfl, by assumption⟩
  split
  · exact ⟨2, by omega, rfl, by assumption⟩
  · exact ⟨3, by omega, rfl, h⟩

theorem varint_eq {value c : Nat} (h : varintLen value = 2 ^ c) :
    varint value = putBe (2 ^ c) (c * 2 ^ (8 * 2 ^ c - 2) + value) := by
  rw [varint, h, Nat.log2_two_pow]

@[simp] theorem length_varint (value : Nat) : (varint value).length = varintLen value :=
  length_putBe ..

/-- **A varint is read back**, whatever follows it. -/
theorem getVarint_varint {value : Nat} (h : value < 2 ^ 62) (more : Bytes) :
    getVarint (varint value ++ more) = some (value, varintLen value) := by
  obtain ⟨c, hc, hlen, hlt⟩ := varintLen_cases h
  have hpow : 64 * 256 ^ (2 ^ c - 1) = 2 ^ (8 * 2 ^ c - 2) := by
    have := Nat.one_le_two_pow (n := c)
    rw [show 256 = 2 ^ 8 from rfl, show 64 = 2 ^ 6 from rfl, ← Nat.pow_mul, ← Nat.pow_add]
    congr 1
    omega
  rw [hlen, varint_eq hlen]
  refine getVarint_of_readBe (length_putBe ..) ?_ (hpow ▸ hlt) more
  rw [readBe_putBe, hpow]
  -- two more bits above the value still fit
  have hall : 4 * 2 ^ (8 * 2 ^ c - 2) = 256 ^ 2 ^ c := by
    have := Nat.one_le_two_pow (n := c)
    rw [show 256 = 2 ^ 8 from rfl, show 4 = 2 ^ 2 from rfl, ← Nat.pow_mul, ← Nat.pow_add]
    congr 1
    omega
  apply Nat.mod_eq_of_lt
  rw [← hall]
  have := Nat.mul_le_mul_right (2 ^ (8 * 2 ^ c - 2)) (show c ≤ 3 by omega)
  omega

theorem putVarintSlice_eq {value : Nat} (h : value < 2 ^ 62) (out : Bytes) :
    putVarintSlice out value = (copyFromSlice out (varint value), varintLen value) := by
  obtain ⟨c, hc, hlen, hlt⟩ := varintLen_cases h
  have hor : c * 2 ^ (8 * 2 ^ c - 2) ||| value = c * 2 ^ (8 * 2 ^ c - 2) + value := by
    rw [← Nat.shiftLeft_eq, Nat.shiftLeft_add_eq_or_of_lt hlt]
  rw [putVarintSlice, varint_eq hlen, hlen, ← hor]
  rcases (show c = 0 ∨ c = 1 ∨ c = 2 ∨ c = 3 by omega) with rfl | rfl | rfl | rfl
  · show (copyFromSlice out [UInt8.ofNat value], 1) = _
    simp [putBe]
  · show (copyFromSlice out (putBe 2 (0x4000 ||| value % 2 ^ 16)), 2) = _
    rw [Nat.mod_eq_of_lt (Nat.lt_trans hlt (by decide))]
    rfl
  · show (copyFromSlice out (putBe 4 (0x80000000 ||| value % 2 ^ 32)), 4) = _
    rw [Nat.mod_eq_of_lt (Nat.lt_trans hlt (by decide))]
    rfl
  · rfl

/-- A frame header of two varints is read back. -/
theorem getFrameHeader_varint {ty len : Nat} (hty : ty < 2 ^ 62) (hlen : len < 2 ^ 62)
    (more : Bytes) : getFrameHeader (varint ty ++ (varint len ++ more)) =
      some (ty, len, varintLen ty + varintLen len) := by
  refine getFrameHeader_eq_some.mpr ⟨_, _, getVarint_varint hty _, ?_, rfl⟩
  rw [List.drop_left' (length_varint ty)]
  exact getVarint_varint hlen more

/-! ## Prefix integers -/

/-- The loop of `get_int` over `buf[idx..]`. -/
def getIntLoop : Bytes → Nat → Nat → Nat → Option (Nat × Nat)
  | [], _, _, _ => none
  | byte :: rest, value, shift, idx =>
    let value := value + ((byte &&& 0x7F).toNat <<< shift)
    if value ≥ U64 then none
    else if byte &&& 0x80 = 0 then some (value, idx + 1)
    else if shift + 7 > 56 then none
    else getIntLoop rest value (shift + 7) (idx + 1)

def getInt (buf : Bytes) (prefixBits : Nat) : Option (Nat × Nat) :=
  match buf with
  | [] => none
  | first :: rest =>
    let mask : UInt8 := UInt8.ofNat ((1 <<< prefixBits) - 1)
    let value := (first &&& mask).toNat
    if value < mask.toNat then some (value, 1) else getIntLoop rest value 0 1

/-- `get_string`: the bytes, where they end, and the Huffman flag. -/
def getString (buf : Bytes) : Option (Bytes × Nat × Bool) :=
  match buf with
  | [] => none
  | first :: _ =>
    match getInt buf 7 with
    | none => none
    | some (len, used) =>
      if used + len ≥ U64 then none
      else if used + len ≤ buf.length then
        some ((buf.drop used).take len, used + len, decide (first &&& 0x80 ≠ 0))
      else none

theorem getIntLoop_used {buf : Bytes} {value shift idx v n : Nat}
    (h : getIntLoop buf value shift idx = some (v, n)) : idx < n ∧ n ≤ idx + buf.length := by
  induction buf generalizing value shift idx with
  | nil => cases h
  | cons byte rest ih =>
    simp only [getIntLoop] at h
    split at h
    · cases h
    split at h
    · obtain ⟨-, rfl⟩ := Prod.mk.inj (Option.some.inj h)
      rw [List.length_cons]
      omega
    split at h
    · cases h
    · have := ih h
      rw [List.length_cons]
      omega

theorem getInt_used {buf : Bytes} {bits v n : Nat} (h : getInt buf bits = some (v, n)) :
    1 ≤ n ∧ n ≤ buf.length := by
  cases buf with
  | nil => cases h
  | cons first rest =>
    simp only [getInt] at h
    split at h
    · obtain ⟨-, rfl⟩ := Prod.mk.inj (Option.some.inj h)
      simp
    · have := getIntLoop_used h
      rw [List.length_cons]
      omega

theorem getString_used {buf value : Bytes} {n : Nat} {huffman : Bool}
    (h : getString buf = some (value, n, huffman)) : 1 ≤ n ∧ n ≤ buf.length := by
  unfold getString at h
  split at h
  · cases h
  · split at h
    · cases h
    · rename_i len used hint
      have hused := getInt_used hint
      split at h
      · cases h
      split at h
      · rename_i hin
        obtain ⟨-, rfl, -⟩ := by simpa only [Option.some.injEq, Prod.mk.injEq] using h
        omega
      · cases h

/-! ## The wire form of prefix integers -/

/-- The value of a continuation: seven bits a byte, the least significant first. -/
def contValue : Bytes → Nat
  | [] => 0
  | b :: bs => b.toNat % 128 + 128 * contValue bs

/-- A continuation ends with its first byte below 128. -/
def Continued : Bytes → Prop
  | [] => False
  | [b] => b.toNat < 128
  | b :: bs => 128 ≤ b.toNat ∧ Continued bs

/-- `first :: cont` is a wire form of `v` with a prefix of `bits` bits. -/
def EncodesInt (bits : Nat) (first : UInt8) (cont : Bytes) (v : Nat) : Prop :=
  v < U64 ∧
  ((v < 2 ^ bits - 1 ∧ first.toNat % 2 ^ bits = v ∧ cont = []) ∨
    (first.toNat % 2 ^ bits = 2 ^ bits - 1 ∧ Continued cont ∧ cont.length ≤ 9 ∧
      v = 2 ^ bits - 1 + contValue cont))

theorem and_7f (b : UInt8) : (b &&& 0x7F).toNat = b.toNat % 128 := by
  rw [UInt8.toNat_and]
  exact Nat.and_two_pow_sub_one_eq_mod _ 7

theorem and_80_eq_zero (b : UInt8) : b &&& 0x80 = 0 ↔ b.toNat < 128 := by
  have hall : ∀ n : Fin 256, UInt8.ofNat n.val &&& 0x80 = 0 ↔ n.val < 128 := by decide +kernel
  have hb := hall ⟨b.toNat, b.toNat_lt⟩
  rwa [UInt8.ofNat_toNat] at hb

theorem and_mask (b : UInt8) {bits : Nat} (h : bits ≤ 8) :
    (UInt8.ofNat ((1 <<< bits) - 1)).toNat = 2 ^ bits - 1 ∧
      (b &&& UInt8.ofNat ((1 <<< bits) - 1)).toNat = b.toNat % 2 ^ bits := by
  have hlt : 2 ^ bits ≤ 2 ^ 8 := Nat.pow_le_pow_right (by omega) h
  have hmask : (UInt8.ofNat ((1 <<< bits) - 1)).toNat = 2 ^ bits - 1 := by
    rw [Nat.shiftLeft_eq, Nat.one_mul, UInt8.toNat_ofNat']
    exact Nat.mod_eq_of_lt (by omega)
  refine ⟨hmask, ?_⟩
  rw [UInt8.toNat_and, hmask]
  exact Nat.and_two_pow_sub_one_eq_mod _ bits

/-- The loop adds up a continuation of at most nine bytes; what is added never exceeds the final
    value, so no checked addition fails. -/
theorem getIntLoop_continued {cont : Bytes} (hc : Continued cont) (more : Bytes) :
    ∀ value k idx : Nat, k + cont.length ≤ 9 → value + contValue cont * 128 ^ k < U64 →
      getIntLoop (cont ++ more) value (7 * k) idx =
        some (value + contValue cont * 128 ^ k, idx + cont.length) := by
  induction cont with
  | nil => exact absurd hc id
  | cons b bs ih =>
    intro value k idx hk hlt
    have hshift : (b &&& 0x7F).toNat <<< (7 * k) = b.toNat % 128 * 128 ^ k := by
      rw [and_7f, Nat.shiftLeft_eq, Nat.pow_mul]
    have hsum : value + contValue (b :: bs) * 128 ^ k =
        value + b.toNat % 128 * 128 ^ k + contValue bs * 128 ^ (k + 1) := by
      simp only [contValue]
      ring
    rw [hsum] at hlt ⊢
    rw [List.cons_append, getIntLoop]
    simp only [hshift]
    rw [if_neg (by omega)]
    cases bs with
    | nil =>
      have hb : b.toNat < 128 := hc
      rw [if_pos ((and_80_eq_zero b).mpr hb)]
      simp [contValue]
    | cons b' bs =>
      obtain ⟨hb, hc'⟩ := hc
      have h80 : ¬ b &&& 0x80 = 0 := fun h => by
        have := (and_80_eq_zero b).mp h
        omega
      simp only [List.length_cons] at hk
      rw [if_neg h80, if_neg (by omega)]
      have hstep := ih hc' (value + b.toNat % 128 * 128 ^ k) (k + 1) (idx + 1)
        (by rw [List.length_cons]; omega) hlt
      rw [show 7 * k + 7 = 7 * (k + 1) by ring, hstep]
      simp only [List.length_cons, Option.some.injEq, Prod.mk.injEq, true_and]
      omega

/-- **Every wire form of an integer is read back**, whatever follows it. -/
theorem getInt_encodes {bits v : Nat} {first : UInt8} {cont : Bytes} (hbits : bits ≤ 8)
    (h : EncodesInt bits first cont v) (more : Bytes) :
    getInt (first :: (cont ++ more)) bits = some (v, 1 + cont.length) := by
  obtain ⟨hv, hform⟩ := h
  obtain ⟨hmask, hand⟩ := and_mask first hbits
  simp only [getInt]
  rw [hmask, hand]
  rcases hform with ⟨hlt, hmod, rfl⟩ | ⟨hmod, hc, hlen, rfl⟩
  · rw [hmod, if_pos hlt]
    rfl
  · rw [hmod, if_neg (by omega)]
    have hone : contValue cont * 128 ^ 0 = contValue cont := by rw [Nat.pow_zero, Nat.mul_one]
    have := getIntLoop_continued hc more (2 ^ bits - 1) 0 1 (by omega)
      (by rw [hone]; exact hv)
    rw [hone] at this
    exact this

/-- A string literal that is not Huffman-coded is read back. -/
theorem getString_encodes {first : UInt8} {cont s : Bytes}
    (h : EncodesInt 7 first cont s.length) (hflag : first.toNat < 128)
    (hlen : 1 + cont.length + s.length < U64) (more : Bytes) :
    getString (first :: (cont ++ (s ++ more))) =
      some (s, 1 + cont.length + s.length, false) := by
  simp only [getString]
  rw [getInt_encodes (by omega) h]
  dsimp only
  rw [if_neg (by omega)]
  have hl : (first :: (cont ++ (s ++ more))).length =
      1 + cont.length + s.length + more.length := by
    simp only [List.length_cons, List.length_append]
    omega
  have hdrop : (first :: (cont ++ (s ++ more))).drop (1 + cont.length) = s ++ more := by
    rw [Nat.add_comm, List.drop_succ_cons, List.drop_left]
  have h80 : decide (first &&& 0x80 ≠ 0) = false := by
    simpa using (and_80_eq_zero first).mpr hflag
  rw [if_pos (by omega), hdrop, List.take_left, h80]

end Httproxy.H3
