/-
  The status of a CONNECT response (`decode_status` in `src/warp/h3.rs`, `MasqueConn::open`).

  The response is a QPACK field section.  `decode_status` walks its field lines and stops at the
  first one named `:status`, which it recognises by the literal name or by the index of a static
  table entry.  The static table is that of RFC 9204, Appendix A; the code carries its own copy of
  the part it needs, and the copy is WRONG: it has the eight values 103, 200, 204, 206, 304, 400,
  404, 500 at the consecutive indices 24..31, while in the table 24..28 are 103, 200, 304, 404, 503,
  29..31 are no `:status` entries at all, and nine more `:status` entries stand at 63..71.

  1. **Program** — `decodeLine` (the three representations and every error), `decodeLoop`,
     `decodeStatus`, and `openDecision`, what `MasqueConn::open` makes of the section.

  2. **Wire form** — `Line` is a field line, `EncodesSection lines block` its encodings: any
     integer form, any N bit, any Delta Base.  `sectionStatus table lines` is the status a reader
     with a given static table finds.

  3. **Bridge** — `decodeStatus_eq`: the code reads a section exactly as a reader with ITS table
     does.  So the only defect is the table, and `status_reported_iff` says for which sections it
     does no harm.
-/
import Httproxy.Warp.H3

namespace Httproxy.H3

/-! ## Program -/

def STATIC_STATUS_FIRST : Nat := 24
def STATIC_STATUS_VALUES : List Nat := [103, 200, 204, 206, 304, 400, 404, 500]

/-- The bytes of `":status"`. -/
def statusName : Bytes := [58, 115, 116, 97, 116, 117, 115]

def staticStatus (index : Nat) : Option Nat :=
  if index < STATIC_STATUS_FIRST then none else STATIC_STATUS_VALUES[index - STATIC_STATUS_FIRST]?

/-- `u8::is_ascii_digit`. -/
def isAsciiDigit (b : UInt8) : Bool := decide (48 ≤ b.toNat ∧ b.toNat ≤ 57)

def parseStatusCode (value : Bytes) : Except String Nat :=
  if value.length ≠ 3 ∨ ¬ value.all isAsciiDigit then .error "malformed :status value"
  else
    let code := value.foldl (fun code b => code * 10 + (b.toNat - 48)) 0
    if 100 ≤ code ∧ code < 600 then .ok code else .error ":status out of range"

/-- How one turn of the loop of `decode_status` ends. -/
inductive LineResult where
  | stop (r : Except String Nat)
  | next (offset : Nat)

/-- The value of a line that was recognised as `:status`. -/
def statusValue (huffman : Bool) (value : Bytes) : Except String Nat :=
  if huffman then .error "huffman-coded :status" else parseStatusCode value

/-- One turn of the loop at `offset`, where `rest = block[offset..]` starts with `first`. -/
def decodeLine (offset : Nat) (first : UInt8) (rest : Bytes) : LineResult :=
  if first &&& 0x80 ≠ 0 then
    match getInt rest 6 with
    | none => .stop (.error "truncated indexed field")
    | some (index, used) =>
      if first &&& 0x40 = 0 then .stop (.error "dynamic table reference")
      else match staticStatus index with
        | some code => .stop (.ok code)
        | none => .next (offset + used)
  else if first &&& 0x40 ≠ 0 then
    match getInt rest 4 with
    | none => .stop (.error "truncated field name")
    | some (nameIndex, used) =>
      match getString (rest.drop used) with
      | none => .stop (.error "truncated field value")
      | some (value, used', huffman) =>
        if first &&& 0x10 ≠ 0 ∧ (staticStatus nameIndex).isSome then
          .stop (statusValue huffman value)
        else .next (offset + used + used')
  else if first &&& 0x20 ≠ 0 then
    match getInt rest 3 with
    | none => .stop (.error "truncated literal field name")
    | some (nameLen, used) =>
      if offset + used + nameLen ≥ U64 then .stop (.error "literal field name overflow")
      else if rest.length < used + nameLen then .stop (.error "truncated literal field name")
      else
        match getString (rest.drop (used + nameLen)) with
        | none => .stop (.error "truncated literal field value")
        | some (value, used', huffman) =>
          if first &&& 0x08 = 0 ∧ (rest.drop used).take nameLen = statusName then
            .stop (statusValue huffman value)
          else .next (offset + used + nameLen + used')
  else .stop (.error "post-base index")

/-- A turn that goes on has moved `offset`, and no further than the line reaches. -/
theorem decodeLine_moves {offset o : Nat} {first : UInt8} {rest : Bytes}
    (h : decodeLine offset first rest = .next o) : offset < o ∧ o ≤ offset + rest.length := by
  unfold decodeLine at h
  split at h
  · split at h
    · cases h
    · rename_i index used hint
      have hused := getInt_used hint
      split at h
      · cases h
      · split at h
        · cases h
        · obtain rfl := LineResult.next.inj h
          omega
  split at h
  · split at h
    · cases h
    · rename_i nameIndex used hint
      have hused := getInt_used hint
      split at h
      · cases h
      · rename_i value used' huffman hstr
        have hused' := getString_used hstr
        rw [List.length_drop] at hused'
        split at h
        · cases h
        · obtain rfl := LineResult.next.inj h
          omega
  split at h
  · split at h
    · cases h
    · rename_i nameLen used hint
      have hused := getInt_used hint
      split at h
      · cases h
      split at h
      · cases h
      split at h
      · cases h
      · rename_i value used' huffman hstr
        have hused' := getString_used hstr
        rw [List.length_drop] at hused'
        split at h
        · cases h
        · obtain rfl := LineResult.next.inj h
          omega
  · cases h

theorem decodeLine_next {offset o : Nat} {first : UInt8} {rest : Bytes}
    (h : decodeLine offset first rest = .next o) : offset < o :=
  (decodeLine_moves h).1

/-- `while offset < block.len()`. -/
def decodeLoop (block : Bytes) (offset : Nat) : Except String Nat :=
  match _hb : block.drop offset with
  | [] => .error ":status not found in response"
  | first :: rest =>
    match _hl : decodeLine offset first (first :: rest) with
    | .stop r => r
    | .next o => decodeLoop block o
termination_by block.length - offset
decreasing_by
  have h1 := decodeLine_next _hl
  have h2 := congrArg List.length _hb
  rw [List.length_drop, List.length_cons] at h2
  omega

def decodeStatus (block : Bytes) : Except String Nat :=
  match getInt block 8 with
  | none => .error "truncated field section prefix"
  | some (insertCount, offset) =>
    if insertCount ≠ 0 then .error "peer referenced the QPACK dynamic table"
    else match getInt (block.drop offset) 7 with
      | none => .error "truncated delta base"
      | some (_, used) => decodeLoop block (offset + used)

/-- What `MasqueConn::open` (with `read_response_head`) makes of the section. -/
def openDecision (authority : String) (block : Bytes) : Except String Unit :=
  match decodeStatus block with
  | .error e => .error ("warp: unusable CONNECT response for " ++ authority ++ ": " ++ e)
  | .ok status =>
    if 200 ≤ status ∧ status < 300 then .ok ()
    else .error ("warp: CONNECT " ++ authority ++ " rejected with status " ++ toString status)

/-! ## Wire form -/

/-- A field line with static references and without Huffman coding. -/
inductive Line where
  | indexed (index : Nat)
  | nameRef (index : Nat) (value : Bytes)
  | literal (name value : Bytes)
  deriving DecidableEq, Repr

/-- A string literal with the H bit clear. -/
def EncodesString (s bs : Bytes) : Prop :=
  ∃ first cont, bs = first :: (cont ++ s) ∧ first.toNat < 128 ∧ EncodesInt 7 first cont s.length

/-- `1 1 index(6)`; `0 1 N 1 index(4) value`; `0 0 1 N 0 len(3) name value`. -/
def EncodesLine : Line → Bytes → Prop
  | .indexed index, bs =>
    ∃ first cont, bs = first :: cont ∧ first.toNat / 64 = 3 ∧ EncodesInt 6 first cont index
  | .nameRef index value, bs =>
    ∃ first cont str, bs = first :: (cont ++ str) ∧
      (first.toNat / 16 = 5 ∨ first.toNat / 16 = 7) ∧ EncodesInt 4 first cont index ∧
      EncodesString value str
  | .literal name value, bs =>
    ∃ first cont str, bs = first :: (cont ++ (name ++ str)) ∧
      (first.toNat / 8 = 4 ∨ first.toNat / 8 = 6) ∧ EncodesInt 3 first cont name.length ∧
      EncodesString value str

inductive EncodesLines : List Line → Bytes → Prop where
  | nil : EncodesLines [] []
  | cons {l : Line} {ls : List Line} {bs rest : Bytes} (hl : EncodesLine l bs)
      (hls : EncodesLines ls rest) : EncodesLines (l :: ls) (bs ++ rest)

/-- Required Insert Count 0, any Delta Base, and the lines. -/
structure EncodesSection (lines : List Line) (block : Bytes) : Prop where
  form : ∃ first cont body base, block = 0 :: first :: (cont ++ body) ∧
    EncodesInt 7 first cont base ∧ EncodesLines lines body
  /-- A slice has a length. -/
  fits : block.length < U64

/-- The `:status` entries of the static table of RFC 9204, Appendix A. -/
def rfcStatic (index : Nat) : Option Nat :=
  match index with
  | 24 => some 103 | 25 => some 200 | 26 => some 304 | 27 => some 404 | 28 => some 503
  | 63 => some 100 | 64 => some 204 | 65 => some 206 | 66 => some 302 | 67 => some 400
  | 68 => some 403 | 69 => some 421 | 70 => some 425 | 71 => some 500
  | _ => none

/-- A three-digit value in 100..599. -/
def threeDigits : Bytes → Option Nat
  | [a, b, c] =>
    let n := (a.toNat - 48) * 100 + (b.toNat - 48) * 10 + (c.toNat - 48)
    if isAsciiDigit a ∧ isAsciiDigit b ∧ isAsciiDigit c ∧ 100 ≤ n ∧ n < 600 then some n else none
  | _ => none

/-- `none` if the line is not named `:status` under `table`, else the status it carries, if any. -/
def lineStatus (table : Nat → Option Nat) : Line → Option (Option Nat)
  | .indexed index => (table index).map some
  | .nameRef index value => if (table index).isSome then some (threeDigits value) else none
  | .literal name value => if name = statusName then some (threeDigits value) else none

/-- The status carried by the first line named `:status` under `table`. -/
def sectionStatus (table : Nat → Option Nat) : List Line → Option Nat
  | [] => none
  | l :: ls =>
    match lineStatus table l with
    | some r => r
    | none => sectionStatus table ls

/-! ## Bridge: the code reads a section with its own table -/

/-- The flag bits of a first byte, read off its value. -/
theorem flags (b : UInt8) :
    (b &&& 0x80 = 0 ↔ b.toNat / 128 % 2 = 0) ∧ (b &&& 0x40 = 0 ↔ b.toNat / 64 % 2 = 0) ∧
    (b &&& 0x20 = 0 ↔ b.toNat / 32 % 2 = 0) ∧ (b &&& 0x10 = 0 ↔ b.toNat / 16 % 2 = 0) ∧
    (b &&& 0x08 = 0 ↔ b.toNat / 8 % 2 = 0) := by
  have hall : ∀ n : Fin 256,
      (UInt8.ofNat n.val &&& 0x80 = 0 ↔ n.val / 128 % 2 = 0) ∧
      (UInt8.ofNat n.val &&& 0x40 = 0 ↔ n.val / 64 % 2 = 0) ∧
      (UInt8.ofNat n.val &&& 0x20 = 0 ↔ n.val / 32 % 2 = 0) ∧
      (UInt8.ofNat n.val &&& 0x10 = 0 ↔ n.val / 16 % 2 = 0) ∧
      (UInt8.ofNat n.val &&& 0x08 = 0 ↔ n.val / 8 % 2 = 0) := by decide +kernel
  have hb := hall ⟨b.toNat, b.toNat_lt⟩
  rwa [UInt8.ofNat_toNat] at hb

theorem parseStatusCode_toOption (value : Bytes) :
    (parseStatusCode value).toOption = threeDigits value := by
  unfold parseStatusCode threeDigits
  match value with
  | [] => rfl
  | [_] => rfl
  | [_, _] => rfl
  | _ :: _ :: _ :: _ :: _ => simp [Except.toOption]
  | [a, b, c] =>
    have hcode : [a, b, c].foldl (fun code (b : UInt8) => code * 10 + (b.toNat - 48)) 0 =
        (a.toNat - 48) * 100 + (b.toNat - 48) * 10 + (c.toNat - 48) := by
      simp only [List.foldl_cons, List.foldl_nil]
      omega
    simp only [hcode, List.length_cons, List.length_nil, List.all_cons, List.all_nil]
    generalize (a.toNat - 48) * 100 + (b.toNat - 48) * 10 + (c.toNat - 48) = n
    by_cases hr : 100 ≤ n ∧ n < 600 <;>
      cases isAsciiDigit a <;> cases isAsciiDigit b <;> cases isAsciiDigit c <;>
      simp [Except.toOption, hr]

theorem statusValue_toOption (value : Bytes) :
    (statusValue false value).toOption = threeDigits value :=
  parseStatusCode_toOption value

/-- One turn of the loop on an encoded line: it stops with the status if the code's table names
    the line `:status`, and otherwise goes on behind it. -/
def Reads (offset : Nat) (first : UInt8) (rest : Bytes) (l : Line) (len : Nat) : Prop :=
  match lineStatus staticStatus l with
  | some r => ∃ x, decodeLine offset first rest = .stop x ∧ x.toOption = r
  | none => decodeLine offset first rest = .next (offset + len)

theorem reads_indexed {index : Nat} {first : UInt8} {cont : Bytes} (hf : first.toNat / 64 = 3)
    (hi : EncodesInt 6 first cont index) (offset : Nat) (rest : Bytes) :
    Reads offset first (first :: (cont ++ rest)) (.indexed index) (1 + cont.length) := by
  obtain ⟨h80, h40, -⟩ := flags first
  have h1 : ¬ first &&& 0x80 = 0 := by rw [h80]; omega
  have h2 : ¬ first &&& 0x40 = 0 := by rw [h40]; omega
  unfold Reads lineStatus decodeLine
  rw [if_pos h1, getInt_encodes (by omega) hi]
  dsimp only
  rw [if_neg h2]
  cases hs : staticStatus index with
  | some code => exact ⟨.ok code, rfl, rfl⟩
  | none => rfl

theorem reads_nameRef {index : Nat} {value str : Bytes} {first : UInt8} {cont : Bytes}
    (hf : first.toNat / 16 = 5 ∨ first.toNat / 16 = 7) (hi : EncodesInt 4 first cont index)
    (hs : EncodesString value str) (offset : Nat) (rest : Bytes)
    (hfit : str.length < U64) :
    Reads offset first (first :: (cont ++ (str ++ rest))) (.nameRef index value)
      (1 + cont.length + str.length) := by
  obtain ⟨h80, h40, -, h10, -⟩ := flags first
  have h1 : ¬ first &&& 0x80 ≠ 0 := by rw [ne_eq, h80]; omega
  have h2 : ¬ first &&& 0x40 = 0 := by rw [h40]; omega
  have h3 : ¬ first &&& 0x10 = 0 := by rw [h10]; omega
  obtain ⟨sfirst, scont, rfl, hflag, hsi⟩ := hs
  have hlen : (sfirst :: (scont ++ value)).length = 1 + scont.length + value.length := by
    simp only [List.length_cons, List.length_append]
    omega
  have hdrop : (first :: (cont ++ ((sfirst :: (scont ++ value)) ++ rest))).drop
      (1 + cont.length) = sfirst :: (scont ++ (value ++ rest)) := by
    rw [Nat.add_comm, List.drop_succ_cons, List.drop_left, List.cons_append, List.append_assoc]
  have hdec : decodeLine offset first
      (first :: (cont ++ ((sfirst :: (scont ++ value)) ++ rest))) =
      if (staticStatus index).isSome then .stop (statusValue false value)
      else .next (offset + (1 + cont.length) + (1 + scont.length + value.length)) := by
    unfold decodeLine
    rw [if_neg h1, if_pos h2, getInt_encodes (by omega) hi]
    dsimp only
    rw [hdrop, getString_encodes hsi hflag (by omega)]
    simp [h3]
  unfold Reads lineStatus
  rw [hdec, hlen]
  by_cases hst : (staticStatus index).isSome = true
  · simp only [if_pos hst]
    exact ⟨_, rfl, statusValue_toOption value⟩
  · simp only [if_neg hst, Nat.add_assoc]

theorem reads_literal {name value str : Bytes} {first : UInt8} {cont : Bytes}
    (hf : first.toNat / 8 = 4 ∨ first.toNat / 8 = 6) (hi : EncodesInt 3 first cont name.length)
    (hs : EncodesString value str) (offset : Nat) (rest : Bytes)
    (hfit : offset + (1 + cont.length + name.length + str.length) < U64) :
    Reads offset first (first :: (cont ++ (name ++ (str ++ rest)))) (.literal name value)
      (1 + cont.length + name.length + str.length) := by
  obtain ⟨h80, h40, h20, -, h08⟩ := flags first
  have h1 : ¬ first &&& 0x80 ≠ 0 := by rw [ne_eq, h80]; omega
  have h2 : ¬ first &&& 0x40 ≠ 0 := by rw [ne_eq, h40]; omega
  have h3 : ¬ first &&& 0x20 = 0 := by rw [h20]; omega
  have h4 : first &&& 0x08 = 0 := by rw [h08]; omega
  obtain ⟨sfirst, scont, rfl, hflag, hsi⟩ := hs
  have hlen : (sfirst :: (scont ++ value)).length = 1 + scont.length + value.length := by
    simp only [List.length_cons, List.length_append]
    omega
  have hdrop1 : (first :: (cont ++ (name ++ ((sfirst :: (scont ++ value)) ++ rest)))).drop
      (1 + cont.length) = name ++ ((sfirst :: (scont ++ value)) ++ rest) := by
    rw [Nat.add_comm, List.drop_succ_cons, List.drop_left]
  have hdrop2 : (first :: (cont ++ (name ++ ((sfirst :: (scont ++ value)) ++ rest)))).drop
      (1 + cont.length + name.length) = sfirst :: (scont ++ (value ++ rest)) := by
    rw [← List.drop_drop, hdrop1, List.drop_left, List.cons_append, List.append_assoc]
  have hwhole : ¬ (first :: (cont ++ (name ++ ((sfirst :: (scont ++ value)) ++ rest)))).length <
      1 + cont.length + name.length := by
    simp only [List.length_cons, List.length_append]
    omega
  have hdec : decodeLine offset first
      (first :: (cont ++ (name ++ ((sfirst :: (scont ++ value)) ++ rest)))) =
      if name = statusName then .stop (statusValue false value)
      else .next (offset + (1 + cont.length) + name.length +
        (1 + scont.length + value.length)) := by
    unfold decodeLine
    rw [if_neg h1, if_neg h2, if_pos h3, getInt_encodes (by omega) hi]
    dsimp only
    rw [if_neg (by omega), if_neg hwhole, hdrop2, getString_encodes hsi hflag (by omega), hdrop1,
      List.take_left]
    simp [h4]
  unfold Reads lineStatus
  rw [hdec, hlen]
  by_cases hn : name = statusName
  · simp only [if_pos hn]
    exact ⟨_, rfl, statusValue_toOption value⟩
  · simp only [if_neg hn, Nat.add_assoc]

theorem reads_line {l : Line} {bs : Bytes} (h : EncodesLine l bs) (offset : Nat) (rest : Bytes)
    (hfit : offset + bs.length < U64) :
    ∃ first tail, bs ++ rest = first :: tail ∧ Reads offset first (first :: tail) l bs.length := by
  cases l with
  | indexed index =>
    obtain ⟨first, cont, rfl, hf, hi⟩ := h
    refine ⟨first, cont ++ rest, rfl, ?_⟩
    rw [List.length_cons, Nat.add_comm]
    exact reads_indexed hf hi offset rest
  | nameRef index value =>
    obtain ⟨first, cont, str, rfl, hf, hi, hs⟩ := h
    have hlen : (first :: (cont ++ str)).length = 1 + cont.length + str.length := by
      simp only [List.length_cons, List.length_append]
      omega
    refine ⟨first, cont ++ (str ++ rest), by simp, ?_⟩
    rw [hlen]
    exact reads_nameRef hf hi hs offset rest (by omega)
  | literal name value =>
    obtain ⟨first, cont, str, rfl, hf, hi, hs⟩ := h
    have hlen : (first :: (cont ++ (name ++ str))).length =
        1 + cont.length + name.length + str.length := by
      simp only [List.length_cons, List.length_append]
      omega
    refine ⟨first, cont ++ (name ++ (str ++ rest)), by simp, ?_⟩
    rw [hlen] at hfit ⊢
    exact reads_literal hf hi hs offset rest hfit

theorem encodesLine_pos {l : Line} {bs : Bytes} (h : EncodesLine l bs) : 0 < bs.length := by
  cases l with
  | indexed index =>
    obtain ⟨first, cont, rfl, -⟩ := h
    exact Nat.succ_pos _
  | nameRef index value =>
    obtain ⟨first, cont, str, rfl, -⟩ := h
    exact Nat.succ_pos _
  | literal name value =>
    obtain ⟨first, cont, str, rfl, -⟩ := h
    exact Nat.succ_pos _

theorem decodeLoop_nil {block : Bytes} {offset : Nat} (h : block.drop offset = []) :
    decodeLoop block offset = .error ":status not found in response" := by
  rw [decodeLoop]
  split
  · rfl
  · rename_i first rest hb
    rw [h] at hb
    cases hb

theorem decodeLoop_cons {block : Bytes} {offset : Nat} {first : UInt8} {rest : Bytes}
    (h : block.drop offset = first :: rest) :
    decodeLoop block offset =
      match decodeLine offset first (first :: rest) with
      | .stop r => r
      | .next o => decodeLoop block o := by
  rw [decodeLoop]
  split
  · rename_i hb
    rw [h] at hb
    cases hb
  · rename_i first' rest' hb
    rw [h] at hb
    obtain ⟨rfl, rfl⟩ := List.cons.inj hb
    split <;> simp_all

/-- The loop finds what a reader with the code's table finds, by induction on the lines. -/
theorem decodeLoop_encodes {lines : List Line} {body : Bytes} (h : EncodesLines lines body) :
    ∀ (block : Bytes) (offset : Nat), block.drop offset = body → block.length < U64 →
      (decodeLoop block offset).toOption = sectionStatus staticStatus lines := by
  induction h with
  | nil =>
    intro block offset hb _
    rw [decodeLoop_nil hb]
    rfl
  | @cons l ls bs rest hl hls ih =>
    intro block offset hb hfit
    have hlen := congrArg List.length hb
    rw [List.length_drop, List.length_append] at hlen
    have hpos := encodesLine_pos hl
    obtain ⟨first, tail, heq, hreads⟩ := reads_line hl offset rest (by omega)
    rw [decodeLoop_cons (hb.trans heq)]
    unfold Reads at hreads
    unfold sectionStatus
    split at hreads
    · rename_i r hr
      obtain ⟨x, hx, hxr⟩ := hreads
      rw [hx]
      exact hxr
    · rename_i hr
      rw [hreads]
      refine ih block (offset + bs.length) ?_ hfit
      rw [← List.drop_drop, hb, List.drop_left]

/-- **The code reads a section with its own copy of the table**, and with nothing else wrong. -/
theorem decodeStatus_eq {lines : List Line} {block : Bytes} (h : EncodesSection lines block) :
    (decodeStatus block).toOption = sectionStatus staticStatus lines := by
  obtain ⟨first, cont, body, base, rfl, hbase, hlines⟩ := h.form
  have hzero : getInt (0 :: first :: (cont ++ body)) 8 = some (0, 1) := rfl
  unfold decodeStatus
  rw [hzero]
  dsimp only
  rw [if_neg (by omega), List.drop_succ_cons, List.drop_zero, getInt_encodes (by omega) hbase]
  dsimp only
  refine decodeLoop_encodes hlines _ _ ?_ h.fits
  rw [← List.drop_drop, List.drop_succ_cons, List.drop_zero, Nat.add_comm, List.drop_succ_cons,
    List.drop_left]

/-! ## Where the two tables agree -/

/-- The sections that both tables read alike.  The first line that either of them takes for
    `:status` must be one that both take for it with the same status; or a line that only one of
    them takes for it must carry the very status that the other one finds further on. -/
def alike : List Line → Bool
  | [] => true
  | .indexed i :: ls =>
    if i = 24 ∨ i = 25 then true
    -- 204 for 304, 206 for 404, 304 for 503
    else if 26 ≤ i ∧ i ≤ 28 then false
    -- no `:status` entries, but in the copy
    else if 29 ≤ i ∧ i ≤ 31 then decide (sectionStatus rfcStatic ls = staticStatus i)
    -- `:status` entries that the copy lacks
    else if 63 ≤ i ∧ i ≤ 71 then decide (sectionStatus staticStatus ls = rfcStatic i)
    else alike ls
  | .nameRef i value :: ls =>
    if 24 ≤ i ∧ i ≤ 28 then true
    else if 29 ≤ i ∧ i ≤ 31 then decide (sectionStatus rfcStatic ls = threeDigits value)
    else if 63 ≤ i ∧ i ≤ 71 then decide (sectionStatus staticStatus ls = threeDigits value)
    else alike ls
  | .literal name _ :: ls => decide (name = statusName) || alike ls

/-- Outside 24..31 and 63..71 neither table has a `:status` entry. -/
theorem tables_none {i : Nat} (h1 : i < 24 ∨ 31 < i) (h2 : i < 63 ∨ 71 < i) :
    staticStatus i = none ∧ rfcStatic i = none := by
  constructor
  · unfold staticStatus
    split
    · rfl
    · rename_i h
      refine List.getElem?_eq_none ?_
      show 8 ≤ i - 24
      unfold STATIC_STATUS_FIRST at h
      omega
  · unfold rfcStatic
    split <;> first | omega | rfl

/-- The two tables on the indices where either has an entry. -/
theorem tables_some {i : Nat} (h : (24 ≤ i ∧ i ≤ 31) ∨ (63 ≤ i ∧ i ≤ 71)) :
    ((i = 24 ∨ i = 25) → staticStatus i = rfcStatic i) ∧
    ((26 ≤ i ∧ i ≤ 28) → staticStatus i ≠ rfcStatic i) ∧
    (i ≤ 28 → (staticStatus i).isSome ∧ (rfcStatic i).isSome) ∧
    ((29 ≤ i ∧ i ≤ 31) → (staticStatus i).isSome ∧ rfcStatic i = none) ∧
    (63 ≤ i → staticStatus i = none ∧ (rfcStatic i).isSome) := by
  have hi : i < 72 := by omega
  interval_cases i <;> first | omega | decide

theorem sectionStatus_indexed (table : Nat → Option Nat) (i : Nat) (ls : List Line) :
    sectionStatus table (.indexed i :: ls) = (table i).or (sectionStatus table ls) := by
  rw [sectionStatus, lineStatus]
  cases table i <;> rfl

theorem sectionStatus_nameRef (table : Nat → Option Nat) (i : Nat) (value : Bytes)
    (ls : List Line) :
    sectionStatus table (.nameRef i value :: ls) =
      if (table i).isSome then threeDigits value else sectionStatus table ls := by
  rw [sectionStatus, lineStatus]
  by_cases h : (table i).isSome = true
  · rw [if_pos h, if_pos h]
  · rw [if_neg h, if_neg h]

theorem sectionStatus_literal (table : Nat → Option Nat) (name value : Bytes) (ls : List Line) :
    sectionStatus table (.literal name value :: ls) =
      if name = statusName then threeDigits value else sectionStatus table ls := by
  rw [sectionStatus, lineStatus]
  by_cases h : name = statusName
  · rw [if_pos h, if_pos h]
  · rw [if_neg h, if_neg h]

/-- The condition is exact: it holds iff both tables find the same status. -/
theorem alike_iff (lines : List Line) :
    alike lines = true ↔
      sectionStatus staticStatus lines = sectionStatus rfcStatic lines := by
  induction lines with
  | nil => exact ⟨fun _ => rfl, fun _ => rfl⟩
  | cons l ls ih =>
    cases l with
    | indexed i =>
      rw [sectionStatus_indexed, sectionStatus_indexed, alike]
      by_cases h : (24 ≤ i ∧ i ≤ 31) ∨ (63 ≤ i ∧ i ≤ 71)
      · obtain ⟨hsame, hdiff, hboth, hcopy, hreal⟩ := tables_some h
        by_cases h1 : i = 24 ∨ i = 25
        · obtain ⟨-, hsome⟩ := hboth (by omega)
          obtain ⟨c, hc⟩ := Option.isSome_iff_exists.mp hsome
          rw [if_pos h1, hsame h1, hc]
          simp
        by_cases h2 : 26 ≤ i ∧ i ≤ 28
        · obtain ⟨hs, hr⟩ := hboth h2.2
          obtain ⟨c, hc⟩ := Option.isSome_iff_exists.mp hs
          obtain ⟨d, hd⟩ := Option.isSome_iff_exists.mp hr
          have hne := hdiff h2
          rw [if_neg h1, if_pos h2, hc, hd]
          rw [hc, hd] at hne
          simpa using hne
        by_cases h3 : 29 ≤ i ∧ i ≤ 31
        · obtain ⟨hs, hr⟩ := hcopy h3
          obtain ⟨c, hc⟩ := Option.isSome_iff_exists.mp hs
          rw [if_neg h1, if_neg h2, if_pos h3, hc, hr]
          simp [eq_comm]
        · obtain ⟨hs, hr⟩ := hreal (by omega)
          obtain ⟨c, hc⟩ := Option.isSome_iff_exists.mp hr
          rw [if_neg h1, if_neg h2, if_neg h3, if_pos (by omega), hc, hs]
          simp
      · obtain ⟨hs, hr⟩ := tables_none (i := i) (by omega) (by omega)
        rw [if_neg (by omega), if_neg (by omega), if_neg (by omega), if_neg (by omega), hs, hr]
        exact ih
    | nameRef i value =>
      rw [sectionStatus_nameRef, sectionStatus_nameRef, alike]
      by_cases h : (24 ≤ i ∧ i ≤ 31) ∨ (63 ≤ i ∧ i ≤ 71)
      · obtain ⟨-, -, hboth, hcopy, hreal⟩ := tables_some h
        by_cases h1 : 24 ≤ i ∧ i ≤ 28
        · obtain ⟨hs, hr⟩ := hboth h1.2
          rw [if_pos h1, if_pos hs, if_pos hr]
          simp
        by_cases h2 : 29 ≤ i ∧ i ≤ 31
        · obtain ⟨hs, hr⟩ := hcopy h2
          rw [if_neg h1, if_pos h2, if_pos hs, hr]
          simp [eq_comm]
        · obtain ⟨hs, hr⟩ := hreal (by omega)
          rw [if_neg h1, if_neg h2, if_pos (by omega), if_pos hr, hs]
          simp
      · obtain ⟨hs, hr⟩ := tables_none (i := i) (by omega) (by omega)
        rw [if_neg (by omega), if_neg (by omega), if_neg (by omega), hs, hr]
        exact ih
    | literal name value =>
      rw [sectionStatus_literal, sectionStatus_literal, alike]
      by_cases h : name = statusName
      · rw [if_pos h, if_pos h]
        simp [h]
      · rw [if_neg h, if_neg h]
        simpa [h] using ih

/-! ## The guarantee -/

theorem decodeStatus_ok {lines : List Line} {block : Bytes} (h : EncodesSection lines block)
    (c : Nat) : decodeStatus block = .ok c ↔ sectionStatus staticStatus lines = some c := by
  rw [← decodeStatus_eq h]
  cases decodeStatus block <;> simp [Except.toOption]

/-- `MasqueConn::open` accepts exactly the 2xx statuses that `decode_status` reports. -/
theorem openDecision_ok {authority : String} {block : Bytes} :
    openDecision authority block = .ok () ↔
      ∃ c, decodeStatus block = .ok c ∧ 200 ≤ c ∧ c < 300 := by
  unfold openDecision
  cases h : decodeStatus block with
  | error e => simp
  | ok status =>
    dsimp only
    split <;> simp_all

/-- **The reported status is the one that was sent, and only real 2xx responses open a tunnel,
    IFF the section is one that both tables read alike.** -/
theorem status_reported_iff {lines : List Line} {block : Bytes} (h : EncodesSection lines block) :
    ((∀ c, decodeStatus block = .ok c ↔ sectionStatus rfcStatic lines = some c) ∧
      (∀ authority, openDecision authority block = .ok () →
        ∃ c, sectionStatus rfcStatic lines = some c ∧ 200 ≤ c ∧ c < 300)) ↔
      alike lines = true := by
  rw [alike_iff]
  constructor
  · rintro ⟨hall, -⟩
    refine Option.ext ?_
    intro c
    rw [← decodeStatus_ok h]
    exact hall c
  · intro heq
    refine ⟨fun c => by rw [decodeStatus_ok h, heq], ?_⟩
    intro authority hopen
    obtain ⟨c, hc, hrange⟩ := openDecision_ok.mp hopen
    exact ⟨c, by rw [← heq]; exact (decodeStatus_ok h c).mp hc, hrange⟩

/-- A response that is one indexed line. -/
theorem encodes_indexed {i : Nat} (hi : i < 63) :
    EncodesSection [.indexed i] [0, 0, UInt8.ofNat (192 + i)] := by
  have hbyte : (UInt8.ofNat (192 + i)).toNat = 192 + i := by
    rw [UInt8.toNat_ofNat']
    exact Nat.mod_eq_of_lt (by omega)
  have hline : EncodesLine (.indexed i) [UInt8.ofNat (192 + i)] := by
    refine ⟨_, [], rfl, by omega, ?_, .inl ⟨by omega, by omega, rfl⟩⟩
    unfold U64
    omega
  refine ⟨⟨0, [], [UInt8.ofNat (192 + i)], 0, rfl, ⟨by decide, .inl ⟨by decide, rfl, rfl⟩⟩, ?_⟩, ?_⟩
  · exact .cons hline .nil
  · show 3 < U64
    decide

/-- `:status: 200` as static index 25. -/
theorem status_reported_iff_demo :
    EncodesSection [.indexed 25] [0, 0, 217] ∧ alike [.indexed 25] = true ∧
      decodeStatus [0, 0, 217] = .ok 200 ∧
      (∀ c, decodeStatus [0, 0, 217] = .ok c ↔ sectionStatus rfcStatic [.indexed 25] = some c) :=
  ⟨encodes_indexed (i := 25) (by decide), rfl,
    ((status_reported_iff (encodes_indexed (i := 25) (by decide))).mpr rfl).1 200 |>.mpr rfl,
    ((status_reported_iff (encodes_indexed (i := 25) (by decide))).mpr rfl).1⟩

/-- **The defect.**  A `304` sent as static index 26 is reported as `204`, and the tunnel opens. -/
theorem not_modified_opens_tunnel :
    EncodesSection [.indexed 26] [0, 0, 218] ∧
      sectionStatus rfcStatic [.indexed 26] = some 304 ∧ decodeStatus [0, 0, 218] = .ok 204 ∧
      openDecision "example.com:443" [0, 0, 218] = .ok () := by
  refine ⟨encodes_indexed (i := 26) (by decide), rfl, ?_, ?_⟩
  · exact (decodeStatus_ok (encodes_indexed (i := 26) (by decide)) 204).mpr rfl
  · exact openDecision_ok.mpr
      ⟨204, (decodeStatus_ok (encodes_indexed (i := 26) (by decide)) 204).mpr rfl, by decide⟩

end Httproxy.H3
