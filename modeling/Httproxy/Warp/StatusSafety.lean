/-
  `decode_status` on whatever the network sends (`src/warp/h3.rs`).

  A panic here ends the whole server, so every operation that can panic is CHECKED: the index and the
  slices of `block`, the shift in `get_int`, and all the sums.

  1. **Program** — the functions of `Httproxy.Warp.H3` and `Httproxy.Warp.Status` once more, with
     `Stop.panic` and `Halt.panic` wherever an index is out of range, a shift is too wide or pushes bits
     out, or a sum leaves its word.

  2. **`get_int` and `get_string`** — a shift is at most 56 and what is shifted has seven bits; an index
     is in range before it is counted up.

  3. **The loop** — `decodeLineChecked_next`: a turn moves `offset`, so the loop ends.  `decodeLineChecked_eq`:
     a turn within the block does not panic and does what `decodeLine` does, which stays within the block
     (`decodeLine_moves`).

  The theorem is `decode_status_safe`, for every block that a slice can hold.
-/
import Httproxy.Lib.Slice
import Httproxy.Warp.Status

namespace Httproxy.H3

open Slice

/-! ## Program -/

/-- `a << n` on a `u64`, where no bit is lost. -/
def shlU64 (a n : Nat) : Option Nat := if n < 64 ∧ a <<< n < 2 ^ 64 then some (a <<< n) else none

/-- The loop of `get_int`. -/
def getIntLoopChecked (buf : Bytes) (value shift idx : Nat) : Except Stop (Nat × Nat) := do
  let byte ← question buf[idx]?
  let part ← orPanic (shlU64 (byte &&& 0x7F).toNat shift)
  let value ← question (addUsize value part)
  let idx ← orPanic (addUsize idx 1)
  if byte &&& 0x80 = 0 then .ok (value, idx)
  -- `shift` is a `u32`
  else if shift + 7 ≥ 2 ^ 32 then .error .panic
  else if shift + 7 > 56 then .error .nothing
  else getIntLoopChecked buf value (shift + 7) idx
termination_by 57 - shift

def getIntChecked (buf : Bytes) (prefixBits : Nat) : Except Stop (Nat × Nat) := do
  let first ← question buf[0]?
  let mask : UInt8 := UInt8.ofNat ((1 <<< prefixBits) - 1)
  let value := (first &&& mask).toNat
  if value < mask.toNat then .ok (value, 1) else getIntLoopChecked buf value 0 1

def getStringChecked (buf : Bytes) : Except Stop (Bytes × Nat × Bool) := do
  let first ← question buf[0]?
  let (len, used) ← getIntChecked buf 7
  let stop ← question (addUsize used len)
  let s ← question (range buf used stop)
  .ok (s, stop, decide (first &&& 0x80 ≠ 0))

/-- How `decode_status` ends before its end: it returns `Err`, or it panics. -/
inductive Halt where
  | err (message : String)
  | panic
  deriving DecidableEq, Repr

/-- `ok_or`, and `?`. -/
def okOr {α : Type} (x : Except Stop α) (message : String) : Except Halt α :=
  match x with
  | .ok a => .ok a
  | .error .nothing => .error (.err message)
  | .error .panic => .error .panic

/-- An operation that panics where it has no result. -/
def must {α : Type} (o : Option α) : Except Halt α := o.elim (.error .panic) .ok

/-- The result of an operation on `u16`. -/
def u16 (n : Nat) : Option Nat := if n < 2 ^ 16 then some n else none

/-- `code * 10 + (b - b'0') as u16`. -/
def pushDigit (code : Nat) (b : UInt8) : Except Halt Nat := do
  let tens ← must (u16 (code * 10))
  let digit ← must (subUsize b.toNat 48)
  must (u16 (tens + digit))

def parseStatusCodeChecked (value : Bytes) : Except Halt Nat :=
  if value.length ≠ 3 ∨ ¬ value.all isAsciiDigit then .error (.err "malformed :status value")
  else do
    let code ← value.foldlM pushDigit 0
    if 100 ≤ code ∧ code < 600 then .ok code else .error (.err ":status out of range")

/-- The value of a line that was recognised as `:status`. -/
def statusValueChecked (huffman : Bool) (value : Bytes) : Except Halt LineResult := do
  if huffman then .error (.err "huffman-coded :status")
  else
    let code ← parseStatusCodeChecked value
    .ok (.stop (.ok code))

/-- A turn on an indexed line. -/
def indexedChecked (block : Bytes) (offset : Nat) (first : UInt8) : Except Halt LineResult := do
  let buf ← must (range block offset block.length)
  let (index, used) ← okOr (getIntChecked buf 6) "truncated indexed field"
  let offset ← must (addUsize offset used)
  if first &&& 0x40 = 0 then .error (.err "dynamic table reference")
  else match staticStatus index with
    | some code => .ok (.stop (.ok code))
    | none => .ok (.next offset)

/-- A turn on a line with an indexed name. -/
def nameRefChecked (block : Bytes) (offset : Nat) (first : UInt8) : Except Halt LineResult := do
  let buf ← must (range block offset block.length)
  let (nameIndex, used) ← okOr (getIntChecked buf 4) "truncated field name"
  let offset ← must (addUsize offset used)
  let buf ← must (range block offset block.length)
  let (value, used, huffman) ← okOr (getStringChecked buf) "truncated field value"
  let offset ← must (addUsize offset used)
  if first &&& 0x10 ≠ 0 ∧ (staticStatus nameIndex).isSome then statusValueChecked huffman value
  else .ok (.next offset)

/-- A turn on a line with a literal name. -/
def literalChecked (block : Bytes) (offset : Nat) (first : UInt8) : Except Halt LineResult := do
  let buf ← must (range block offset block.length)
  let (nameLen, used) ← okOr (getIntChecked buf 3) "truncated literal field name"
  let nameStart ← must (addUsize offset used)
  let nameEnd ← okOr (question (addUsize nameStart nameLen)) "literal field name overflow"
  let name ← okOr (question (range block nameStart nameEnd)) "truncated literal field name"
  let buf ← must (range block nameEnd block.length)
  let (value, used, huffman) ← okOr (getStringChecked buf) "truncated literal field value"
  let offset ← must (addUsize nameEnd used)
  if first &&& 0x08 = 0 ∧ name = statusName then statusValueChecked huffman value
  else .ok (.next offset)

/-- One turn of the loop of `decode_status`. -/
def decodeLineChecked (block : Bytes) (offset : Nat) : Except Halt LineResult := do
  let first ← must block[offset]?
  if first &&& 0x80 ≠ 0 then indexedChecked block offset first
  else if first &&& 0x40 ≠ 0 then nameRefChecked block offset first
  else if first &&& 0x20 ≠ 0 then literalChecked block offset first
  else .error (.err "post-base index")

/-! ## `get_int` and `get_string` -/

/-- What a loop of `get_int` shifts: seven bits, by at most 56. -/
theorem shlU64_low {shift : Nat} (h : shift ≤ 56) (byte : UInt8) :
    shlU64 (byte &&& 0x7F).toNat shift = some ((byte &&& 0x7F).toNat <<< shift) := by
  have hlow : (byte &&& 0x7F).toNat < 2 ^ 7 := by
    rw [and_7f]
    exact Nat.mod_lt _ (by decide)
  have hpow : (byte &&& 0x7F).toNat * 2 ^ shift < 2 ^ 7 * 2 ^ 56 :=
    Nat.lt_of_lt_of_le ((Nat.mul_lt_mul_right (Nat.two_pow_pos shift)).2 hlow)
      (Nat.mul_le_mul_left _ (Nat.pow_le_pow_right (by decide) h))
  refine if_pos ⟨by omega, ?_⟩
  rw [Nat.shiftLeft_eq]
  exact Nat.lt_trans hpow (by decide)

section Checked
variable {buf : Bytes} (hfit : buf.length < 2 ^ 64)
include hfit

theorem getIntLoopChecked_eq (rest : Bytes) (value shift idx : Nat) (hrest : buf.drop idx = rest)
    (hshift : shift ≤ 56) :
    getIntLoopChecked buf value shift idx = question (getIntLoop rest value shift idx) := by
  have hget : buf[idx]? = rest[0]? := by rw [← hrest, List.getElem?_drop, Nat.add_zero]
  induction rest generalizing value shift idx with
  | nil =>
    rw [getIntLoopChecked, hget]
    rfl
  | cons byte rest ih =>
    have hlen := congrArg List.length hrest
    rw [List.length_drop, List.length_cons] at hlen
    have hnext : buf.drop (idx + 1) = rest := by rw [← List.drop_drop, hrest, List.drop_succ_cons, List.drop_zero]
    rw [getIntLoopChecked, hget, List.getElem?_cons_zero, question_some, bind_ok, shlU64_low hshift,
      orPanic_some, bind_ok, getIntLoop]
    by_cases hsum : value + (byte &&& 0x7F).toNat <<< shift < U64
    · rw [addUsize_of_lt hsum, question_some, bind_ok, addUsize_of_lt (by omega), orPanic_some, bind_ok,
        if_neg (Nat.not_le.2 hsum)]
      by_cases hlast : byte &&& 0x80 = 0
      · rw [if_pos hlast, if_pos hlast]
        rfl
      · rw [if_neg hlast, if_neg hlast, if_neg (by omega)]
        split
        · rfl
        · rename_i hmore
          exact ih _ _ _ hnext (Nat.le_of_not_lt hmore) (by rw [← hnext, List.getElem?_drop, Nat.add_zero])
    · have hnone : addUsize value ((byte &&& 0x7F).toNat <<< shift) = none := if_neg hsum
      rw [if_pos (Nat.le_of_not_lt hsum), hnone]
      rfl

theorem getIntChecked_eq (bits : Nat) : getIntChecked buf bits = question (getInt buf bits) := by
  unfold getIntChecked getInt
  cases buf with
  | nil => rfl
  | cons first rest =>
    rw [List.getElem?_cons_zero, question_some, bind_ok]
    dsimp only
    split
    · rfl
    · exact getIntLoopChecked_eq hfit rest _ 0 1 rfl (by decide)

theorem getStringChecked_eq : getStringChecked buf = question (getString buf) := by
  unfold getStringChecked getString
  rw [getIntChecked_eq hfit]
  cases buf with
  | nil => rfl
  | cons first rest =>
    rw [List.getElem?_cons_zero, question_some, bind_ok]
    cases hint : getInt (first :: rest) 7 with
    | none => rfl
    | some r =>
      obtain ⟨len, used⟩ := r
      rw [question_some, bind_ok]
      dsimp only
      by_cases hsum : used + len < U64
      · rw [addUsize_of_lt hsum, question_some, bind_ok, if_neg (Nat.not_le.2 hsum)]
        by_cases hin : used + len ≤ (first :: rest).length
        · rw [range_of_le (Nat.le_add_right _ _) hin, if_pos hin, question_some, bind_ok, List.drop_take,
            Nat.add_sub_cancel_left]
          rfl
        · rw [range, if_neg (fun h => hin h.2), if_neg hin]
          rfl
      · have hnone : addUsize used len = none := if_neg hsum
        rw [hnone, if_pos (Nat.le_of_not_lt hsum)]
        rfl

end Checked

/-! ## A turn of the loop -/

theorem must_eq_ok {α : Type} {o : Option α} {a : α} : must o = .ok a ↔ o = some a := by
  cases o with
  | none => exact ⟨by rintro ⟨⟩, by rintro ⟨⟩⟩
  | some b =>
    exact ⟨fun h => congrArg some (Except.ok.inj h), fun h => congrArg Except.ok (Option.some.inj h)⟩

theorem okOr_eq_ok {α : Type} {x : Except Stop α} {message : String} {a : α} :
    okOr x message = .ok a ↔ x = .ok a := by
  cases x with
  | ok b => exact ⟨fun h => congrArg Except.ok (Except.ok.inj h), fun h => congrArg Except.ok (Except.ok.inj h)⟩
  | error e =>
    cases e with
    | nothing => exact ⟨by rintro ⟨⟩, by rintro ⟨⟩⟩
    | panic => exact ⟨by rintro ⟨⟩, by rintro ⟨⟩⟩

theorem addUsize_eq_some {a b c : Nat} (h : addUsize a b = some c) : a + b = c := by
  unfold addUsize at h
  split at h
  · exact Option.some.inj h
  · cases h

theorem getIntLoopChecked_used {buf : Bytes} {value shift idx v n : Nat}
    (h : getIntLoopChecked buf value shift idx = .ok (v, n)) : idx < n := by
  induction hroom : 57 - shift using Nat.strongRecOn generalizing value shift idx with
  | ind room ih =>
    rw [getIntLoopChecked] at h
    obtain ⟨byte, -, h⟩ := bind_eq_ok.1 h
    obtain ⟨part, -, h⟩ := bind_eq_ok.1 h
    obtain ⟨sum, -, h⟩ := bind_eq_ok.1 h
    obtain ⟨next, hnext, h⟩ := bind_eq_ok.1 h
    have hidx := addUsize_eq_some (orPanic_eq_ok.1 hnext)
    split at h
    · obtain ⟨-, rfl⟩ := Prod.mk.inj (Except.ok.inj h)
      omega
    split at h
    · cases h
    split at h
    · cases h
    · have hlt := ih (57 - (shift + 7)) (by omega) h rfl
      omega

theorem getIntChecked_used {buf : Bytes} {bits v n : Nat} (h : getIntChecked buf bits = .ok (v, n)) :
    1 ≤ n := by
  obtain ⟨first, -, h⟩ := bind_eq_ok.1 h
  dsimp only at h
  split at h
  · obtain ⟨-, rfl⟩ := Prod.mk.inj (Except.ok.inj h)
    exact Nat.le_refl 1
  · exact Nat.le_of_lt (getIntLoopChecked_used h)

theorem statusValueChecked_stops {huffman : Bool} {value : Bytes} {o : Nat} :
    statusValueChecked huffman value ≠ .ok (.next o) := by
  intro h
  unfold statusValueChecked at h
  split at h
  · cases h
  · obtain ⟨code, -, h⟩ := bind_eq_ok.1 h
    cases h

section Next
variable {block : Bytes} {offset o : Nat} {first : UInt8}

theorem indexedChecked_next (h : indexedChecked block offset first = .ok (.next o)) : offset < o := by
  obtain ⟨buf, -, h⟩ := bind_eq_ok.1 h
  obtain ⟨⟨index, used⟩, hint, h⟩ := bind_eq_ok.1 h
  have hused := getIntChecked_used (okOr_eq_ok.1 hint)
  obtain ⟨next, hnext, h⟩ := bind_eq_ok.1 h
  have hsum := addUsize_eq_some (must_eq_ok.1 hnext)
  split at h
  · cases h
  split at h
  · cases h
  · obtain rfl := LineResult.next.inj (Except.ok.inj h)
    omega

theorem nameRefChecked_next (h : nameRefChecked block offset first = .ok (.next o)) : offset < o := by
  obtain ⟨buf, -, h⟩ := bind_eq_ok.1 h
  obtain ⟨⟨nameIndex, used⟩, hint, h⟩ := bind_eq_ok.1 h
  have hused := getIntChecked_used (okOr_eq_ok.1 hint)
  obtain ⟨middle, hmiddle, h⟩ := bind_eq_ok.1 h
  have hsum := addUsize_eq_some (must_eq_ok.1 hmiddle)
  obtain ⟨buf', -, h⟩ := bind_eq_ok.1 h
  obtain ⟨⟨value, used', huffman⟩, -, h⟩ := bind_eq_ok.1 h
  obtain ⟨next, hnext, h⟩ := bind_eq_ok.1 h
  have hsum' := addUsize_eq_some (must_eq_ok.1 hnext)
  split at h
  · exact absurd h statusValueChecked_stops
  · obtain rfl := LineResult.next.inj (Except.ok.inj h)
    omega

theorem literalChecked_next (h : literalChecked block offset first = .ok (.next o)) : offset < o := by
  obtain ⟨buf, -, h⟩ := bind_eq_ok.1 h
  obtain ⟨⟨nameLen, used⟩, hint, h⟩ := bind_eq_ok.1 h
  have hused := getIntChecked_used (okOr_eq_ok.1 hint)
  obtain ⟨nameStart, hstart, h⟩ := bind_eq_ok.1 h
  have hsum := addUsize_eq_some (must_eq_ok.1 hstart)
  obtain ⟨nameEnd, hend, h⟩ := bind_eq_ok.1 h
  have hsum' := addUsize_eq_some (question_eq_ok.1 (okOr_eq_ok.1 hend))
  obtain ⟨name, -, h⟩ := bind_eq_ok.1 h
  obtain ⟨buf', -, h⟩ := bind_eq_ok.1 h
  obtain ⟨⟨value, used', huffman⟩, -, h⟩ := bind_eq_ok.1 h
  obtain ⟨next, hnext, h⟩ := bind_eq_ok.1 h
  have hsum'' := addUsize_eq_some (must_eq_ok.1 hnext)
  split at h
  · exact absurd h statusValueChecked_stops
  · obtain rfl := LineResult.next.inj (Except.ok.inj h)
    omega

/-- **A turn that goes on has moved `offset`**, on any block. -/
theorem decodeLineChecked_next (h : decodeLineChecked block offset = .ok (.next o)) : offset < o := by
  obtain ⟨first, -, h⟩ := bind_eq_ok.1 h
  split at h
  · exact indexedChecked_next h
  split at h
  · exact nameRefChecked_next h
  split at h
  · exact literalChecked_next h
  · cases h

end Next

/-- `while offset < block.len()`. -/
def decodeLoopChecked (block : Bytes) (offset : Nat) : Except Halt Nat :=
  if _h : offset < block.length then
    match _hl : decodeLineChecked block offset with
    | .error e => .error e
    | .ok (.stop (.ok code)) => .ok code
    | .ok (.stop (.error e)) => .error (.err e)
    | .ok (.next o) => decodeLoopChecked block o
  else .error (.err ":status not found in response")
termination_by block.length - offset
decreasing_by
  have hmove := decodeLineChecked_next _hl
  omega

def decodeStatusChecked (block : Bytes) : Except Halt Nat := do
  let (insertCount, offset) ← okOr (getIntChecked block 8) "truncated field section prefix"
  if insertCount ≠ 0 then .error (.err "peer referenced the QPACK dynamic table")
  else
    let buf ← must (range block offset block.length)
    let (_, used) ← okOr (getIntChecked buf 7) "truncated delta base"
    let offset ← must (addUsize offset used)
    decodeLoopChecked block offset

/-! ## A turn within the block -/

/-- The same result, as the checked functions return it. -/
def LineResult.halting : LineResult → Except Halt LineResult
  | .stop (.error e) => .error (.err e)
  | r => .ok r

theorem must_some {α : Type} (a : α) : must (some a) = .ok a := rfl

theorem okOr_question {α : Type} (o : Option α) (message : String) :
    okOr (question o) message = o.elim (.error (.err message)) .ok := by
  cases o with
  | none => rfl
  | some a => rfl

/-- The digits that were checked fit: a code of `j` digits is below `10 ^ j`. -/
theorem foldlM_pushDigit (digits : Bytes) (code j : Nat) (hdigits : digits.all isAsciiDigit)
    (hcode : code < 10 ^ j) (hlen : j + digits.length ≤ 4) :
    digits.foldlM pushDigit code =
      .ok (digits.foldl (fun code b => code * 10 + (b.toNat - 48)) code) := by
  induction digits generalizing code j with
  | nil => rfl
  | cons b digits ih =>
    rw [List.all_cons, Bool.and_eq_true] at hdigits
    obtain ⟨hlow, hhigh⟩ := of_decide_eq_true hdigits.1
    rw [List.length_cons] at hlen
    have hpow : 10 ^ (j + 1) ≤ 10 ^ 4 := Nat.pow_le_pow_right (by decide) (by omega)
    rw [Nat.pow_succ] at hpow
    have htens : u16 (code * 10) = some (code * 10) := if_pos (by omega)
    have hsum : u16 (code * 10 + (b.toNat - 48)) = some (code * 10 + (b.toNat - 48)) := if_pos (by omega)
    have hpush : pushDigit code b = .ok (code * 10 + (b.toNat - 48)) := by
      rw [pushDigit, htens, subUsize_of_le hlow]
      exact must_eq_ok.2 hsum
    rw [List.foldlM_cons, hpush, bind_ok, List.foldl_cons]
    exact ih _ (j + 1) hdigits.2 (by rw [Nat.pow_succ]; omega) (by omega)

theorem statusValueChecked_eq (huffman : Bool) (value : Bytes) :
    statusValueChecked huffman value = (LineResult.stop (statusValue huffman value)).halting := by
  unfold statusValueChecked statusValue
  split
  · rfl
  · unfold parseStatusCodeChecked parseStatusCode
    split
    · rfl
    · rename_i hform
      rw [not_or, not_not, not_not] at hform
      rw [foldlM_pushDigit value 0 0 hform.2 (by decide) (by omega), bind_ok]
      dsimp only
      split
      · rfl
      · rfl

section Turn
variable {block rest : Bytes} {offset : Nat} {first : UInt8} (hfit : block.length < 2 ^ 64)
  (hrest : block.drop offset = first :: rest)
include hrest

theorem length_at : block.length = offset + (first :: rest).length := by
  have hlen := congrArg List.length hrest
  rw [List.length_drop, List.length_cons] at hlen
  rw [List.length_cons]
  omega

/-- `&block[offset + used..]`. -/
theorem range_at {used : Nat} (h : used ≤ (first :: rest).length) :
    range block (offset + used) block.length = some ((first :: rest).drop used) := by
  have hlen := length_at hrest
  rw [range_length (by omega), ← List.drop_drop, hrest]

/-- `&block[offset..]`. -/
theorem front_at : range block offset block.length = some (first :: rest) :=
  range_at hrest (Nat.zero_le _)

include hfit

/-- Slices of the block are no longer than it. -/
theorem length_at_lt (used : Nat) : ((first :: rest).drop used).length < 2 ^ 64 := by
  have hlen := length_at hrest
  rw [List.length_drop]
  omega

theorem indexedChecked_eq (h80 : first &&& 0x80 ≠ 0) :
    indexedChecked block offset first = (decodeLine offset first (first :: rest)).halting := by
  have hlen := length_at hrest
  have hbuf : (first :: rest).length < 2 ^ 64 := length_at_lt hfit hrest 0
  unfold indexedChecked decodeLine
  rw [if_pos h80, front_at hrest, must_some, bind_ok,
    getIntChecked_eq hbuf, okOr_question]
  cases hint : getInt (first :: rest) 6 with
  | none => rfl
  | some r =>
    obtain ⟨index, used⟩ := r
    have hused := getInt_used hint
    rw [Option.elim_some, bind_ok]
    dsimp only
    rw [addUsize_of_lt (by omega), must_some, bind_ok]
    split
    · rfl
    · cases staticStatus index with
      | none => rfl
      | some code => rfl

theorem nameRefChecked_eq (h80 : ¬ first &&& 0x80 ≠ 0) (h40 : first &&& 0x40 ≠ 0) :
    nameRefChecked block offset first = (decodeLine offset first (first :: rest)).halting := by
  have hlen := length_at hrest
  have hbuf : (first :: rest).length < 2 ^ 64 := length_at_lt hfit hrest 0
  unfold nameRefChecked decodeLine
  rw [if_neg h80, if_pos h40, front_at hrest, must_some, bind_ok,
    getIntChecked_eq hbuf, okOr_question]
  cases hint : getInt (first :: rest) 4 with
  | none => rfl
  | some r =>
    obtain ⟨nameIndex, used⟩ := r
    have hused := getInt_used hint
    rw [Option.elim_some, bind_ok]
    dsimp only
    rw [addUsize_of_lt (by omega), must_some, bind_ok, range_at hrest hused.2, must_some, bind_ok,
      getStringChecked_eq (length_at_lt hfit hrest used), okOr_question]
    cases hstr : getString ((first :: rest).drop used) with
    | none => rfl
    | some r =>
      obtain ⟨value, used', huffman⟩ := r
      have hused' := getString_used hstr
      rw [List.length_drop] at hused'
      rw [Option.elim_some, bind_ok]
      dsimp only
      rw [addUsize_of_lt (by omega), must_some, bind_ok]
      split
      · exact statusValueChecked_eq huffman value
      · rfl

theorem literalChecked_eq (h80 : ¬ first &&& 0x80 ≠ 0) (h40 : ¬ first &&& 0x40 ≠ 0)
    (h20 : first &&& 0x20 ≠ 0) :
    literalChecked block offset first = (decodeLine offset first (first :: rest)).halting := by
  have hlen := length_at hrest
  have hbuf : (first :: rest).length < 2 ^ 64 := length_at_lt hfit hrest 0
  unfold literalChecked decodeLine
  rw [if_neg h80, if_neg h40, if_pos h20, front_at hrest, must_some, bind_ok,
    getIntChecked_eq hbuf, okOr_question]
  cases hint : getInt (first :: rest) 3 with
  | none => rfl
  | some r =>
    obtain ⟨nameLen, used⟩ := r
    have hused := getInt_used hint
    rw [Option.elim_some, bind_ok]
    dsimp only
    rw [addUsize_of_lt (by omega), must_some, bind_ok, okOr_question]
    by_cases hsum : offset + used + nameLen < U64
    · rw [addUsize_of_lt hsum, Option.elim_some, bind_ok, if_neg (Nat.not_le.2 hsum), okOr_question]
      by_cases hin : used + nameLen ≤ (first :: rest).length
      · -- the name lies in the block, and so does its end
        have hname : range block (offset + used) (offset + used + nameLen) =
            some (((first :: rest).drop used).take nameLen) := by
          rw [range_of_le (Nat.le_add_right _ _) (by omega), List.drop_take, Nat.add_sub_cancel_left,
            ← List.drop_drop, hrest]
        rw [hname, Option.elim_some, bind_ok, if_neg (Nat.not_lt.2 hin), Nat.add_assoc, range_at hrest hin,
          must_some, bind_ok, getStringChecked_eq (length_at_lt hfit hrest _), okOr_question]
        cases hstr : getString ((first :: rest).drop (used + nameLen)) with
        | none => rfl
        | some r =>
          obtain ⟨value, used', huffman⟩ := r
          have hused' := getString_used hstr
          rw [List.length_drop] at hused'
          rw [Option.elim_some, bind_ok]
          dsimp only
          rw [addUsize_of_lt (by omega), must_some, bind_ok]
          split
          · exact statusValueChecked_eq huffman value
          · rfl
      · have hout : range block (offset + used) (offset + used + nameLen) = none :=
          if_neg fun hle => hin (by omega)
        rw [hout, if_pos (Nat.lt_of_not_le hin)]
        rfl
    · have hnone : addUsize (offset + used) nameLen = none := if_neg hsum
      rw [hnone, if_pos (Nat.le_of_not_lt hsum)]
      rfl

/-- **A turn within the block does not panic**, and does what `decodeLine` does. -/
theorem decodeLineChecked_eq :
    decodeLineChecked block offset = (decodeLine offset first (first :: rest)).halting := by
  have hget : block[offset]? = some first := by
    have hhead := congrArg (·[0]?) hrest
    rwa [List.getElem?_drop, Nat.add_zero] at hhead
  rw [decodeLineChecked, hget, must_some, bind_ok]
  split
  · exact indexedChecked_eq hfit hrest ‹_›
  split
  · exact nameRefChecked_eq hfit hrest ‹_› ‹_›
  split
  · exact literalChecked_eq hfit hrest ‹_› ‹_› ‹_›
  · rename_i h80 h40 h20
    rw [decodeLine, if_neg h80, if_neg h40, if_neg h20]
    rfl

end Turn

/-! ## The loop -/

section Loop
variable {block : Bytes} {offset : Nat}

theorem decodeLoopChecked_error (h : offset < block.length) {e : Halt}
    (hline : decodeLineChecked block offset = .error e) : decodeLoopChecked block offset = .error e := by
  rw [decodeLoopChecked, dif_pos h]
  split <;> simp_all

theorem decodeLoopChecked_stop (h : offset < block.length) {code : Nat}
    (hline : decodeLineChecked block offset = .ok (.stop (.ok code))) :
    decodeLoopChecked block offset = .ok code := by
  rw [decodeLoopChecked, dif_pos h]
  split <;> simp_all

theorem decodeLoopChecked_next (h : offset < block.length) {o : Nat}
    (hline : decodeLineChecked block offset = .ok (.next o)) :
    decodeLoopChecked block offset = decodeLoopChecked block o := by
  rw [decodeLoopChecked, dif_pos h]
  split <;> simp_all

/-- The loop, from any `offset` within the block. -/
theorem decodeLoopChecked_eq (hfit : block.length < 2 ^ 64) (h : offset ≤ block.length) :
    decodeLoopChecked block offset = (decodeLoop block offset).mapError .err := by
  induction hroom : block.length - offset using Nat.strongRecOn generalizing offset with
  | ind room ih =>
    cases hrest : block.drop offset with
    | nil =>
      have hlen := congrArg List.length hrest
      rw [List.length_drop, List.length_nil] at hlen
      rw [decodeLoop_nil hrest, decodeLoopChecked, dif_neg (by omega)]
      rfl
    | cons first rest =>
      have hlen := length_at hrest
      rw [List.length_cons] at hlen
      have hline := decodeLineChecked_eq hfit hrest
      rw [decodeLoop_cons hrest]
      cases hturn : decodeLine offset first (first :: rest) with
      | stop r =>
        rw [hturn] at hline
        cases r with
        | error e => exact decodeLoopChecked_error (by omega) hline
        | ok code => exact decodeLoopChecked_stop (by omega) hline
      | next o =>
        rw [hturn] at hline
        obtain ⟨hmove, hwithin⟩ := decodeLine_moves hturn
        rw [List.length_cons] at hwithin
        rw [decodeLoopChecked_next (by omega) hline]
        exact ih (block.length - o) (by omega) (by omega) rfl

end Loop

/-- The offsets at which the loop's condition is tested. -/
inductive Visited (block : Bytes) : Nat → Prop where
  | start {offset base used : Nat} (hcount : getIntChecked block 8 = .ok (0, offset))
      (hbase : getIntChecked (block.drop offset) 7 = .ok (base, used)) : Visited block (offset + used)
  | next {offset o : Nat} (h : Visited block offset) (hin : offset < block.length)
      (hline : decodeLineChecked block offset = .ok (.next o)) : Visited block o

/-- The two integers in front of the lines end within the block. -/
theorem prefix_within {block : Bytes} {offset count base used : Nat} (hcount : getInt block 8 = some (count, offset))
    (hbase : getInt (block.drop offset) 7 = some (base, used)) :
    offset + used ≤ block.length := by
  have hoffset := getInt_used hcount
  have hused := getInt_used hbase
  rw [List.length_drop] at hused
  omega

section Block
variable {block : Bytes} (hfit : block.length < 2 ^ 64)
include hfit

theorem Visited.within {offset : Nat} (h : Visited block offset) : offset ≤ block.length := by
  induction h with
  | @start offset base used hcount hbase =>
    have hshort : (block.drop offset).length < 2 ^ 64 := by
      rw [List.length_drop]
      omega
    rw [getIntChecked_eq hfit] at hcount
    rw [getIntChecked_eq hshort] at hbase
    exact prefix_within (question_eq_ok.1 hcount) (question_eq_ok.1 hbase)
  | @next offset o _ hin hline _ =>
    cases hrest : block.drop offset with
    | nil =>
      have hlen := congrArg List.length hrest
      rw [List.length_drop, List.length_nil] at hlen
      omega
    | cons first rest =>
      have hlen := length_at hrest
      rw [decodeLineChecked_eq hfit hrest] at hline
      cases hturn : decodeLine offset first (first :: rest) with
      | stop r =>
        rw [hturn] at hline
        cases r with
        | error e => cases hline
        | ok code => cases hline
      | next o' =>
        rw [hturn] at hline
        obtain rfl := LineResult.next.inj (Except.ok.inj hline)
        rw [hlen]
        exact (decodeLine_moves hturn).2

theorem decodeStatusChecked_eq : decodeStatusChecked block = (decodeStatus block).mapError .err := by
  unfold decodeStatusChecked decodeStatus
  rw [getIntChecked_eq hfit, okOr_question]
  cases hcount : getInt block 8 with
  | none => rfl
  | some r =>
    obtain ⟨insertCount, offset⟩ := r
    have hoffset := getInt_used hcount
    have hshort : (block.drop offset).length < 2 ^ 64 := by
      rw [List.length_drop]
      omega
    rw [Option.elim_some, bind_ok]
    dsimp only
    split
    · rfl
    · rw [range_length hoffset.2, must_some, bind_ok, getIntChecked_eq hshort, okOr_question]
      cases hbase : getInt (block.drop offset) 7 with
      | none => rfl
      | some r =>
        obtain ⟨base, used⟩ := r
        have hwithin := prefix_within hcount hbase
        rw [Option.elim_some, bind_ok]
        dsimp only
        rw [addUsize_of_lt (by omega), must_some, bind_ok]
        exact decodeLoopChecked_eq hfit hwithin

end Block

/-- **Main result.**  On every block that a slice can hold `decode_status` returns, and what it returns is
not a panic; the loop tests only offsets within the block, and every turn that goes on has moved on. -/
theorem decode_status_safe (block : Bytes) (hfit : block.length < 2 ^ 64) :
    decodeStatusChecked block = (decodeStatus block).mapError .err ∧
    decodeStatusChecked block ≠ .error .panic ∧
    ∀ offset, Visited block offset → offset ≤ block.length ∧
      decodeLoopChecked block offset ≠ .error .panic ∧
      ∀ o, decodeLineChecked block offset = .ok (.next o) → offset < o := by
  have hresult : ∀ r : Except String Nat, r.mapError Halt.err ≠ .error .panic := by
    intro r
    cases r with
    | error e => rintro ⟨⟩
    | ok code => rintro ⟨⟩
  refine ⟨decodeStatusChecked_eq hfit, ?_, fun offset h => ⟨h.within hfit, ?_, fun o hline =>
    decodeLineChecked_next hline⟩⟩
  · rw [decodeStatusChecked_eq hfit]
    exact hresult _
  · rw [decodeLoopChecked_eq hfit (h.within hfit)]
    exact hresult _

/-- A literal name of 2^63 bytes, in a block of 12. -/
def demoBlock : Bytes := [0, 0, 0x27, 0xF9, 0xFF, 0xFF, 0xFF, 0xFF, 0xFF, 0xFF, 0xFF, 0x7F]

theorem decode_status_safe_demo :
    decodeStatusChecked demoBlock = .error (.err "truncated literal field name") ∧
      Visited demoBlock 2 ∧ decodeLoopChecked demoBlock 2 ≠ .error .panic := by
  obtain ⟨hchecked, -, hloop⟩ := decode_status_safe demoBlock (by decide)
  have hrest : demoBlock.drop 2 = 0x27 :: demoBlock.drop 3 := rfl
  have hline : decodeLine 2 0x27 (0x27 :: demoBlock.drop 3) =
      .stop (.error "truncated literal field name") := rfl
  have hstatus : decodeStatus demoBlock = .error "truncated literal field name" := by
    show decodeLoop demoBlock 2 = _
    rw [decodeLoop_cons hrest, hline]
  have hvisited : Visited demoBlock 2 :=
    @Visited.start demoBlock 1 0 1 rfl rfl
  exact ⟨by rw [hchecked, hstatus]; rfl, hvisited, (hloop 2 hvisited).2.1⟩

end Httproxy.H3
