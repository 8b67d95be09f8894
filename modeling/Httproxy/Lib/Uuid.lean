/-
  128-bit identifiers as sixteen bytes, and their text.

  `to_string` writes 32 lower-case digits in five groups.  `parse_str` takes that form, the digits alone,
  and the form with the groups in braces or behind `urn:uuid:`; the case of a digit does not matter.
-/
import Httproxy.Lib.Bytes

/-- `[u8; 16]`. -/
def Uuid := { b : Bytes // b.length = 16 }

namespace Uuid

instance : DecidableEq Uuid := inferInstanceAs (DecidableEq { b : Bytes // b.length = 16 })

/-- `Uuid::as_bytes`. -/
def asBytes (u : Uuid) : Bytes := u.val

/-- `<[u8; 16]>::try_from` followed by `Uuid::from_bytes`. -/
def ofBytes (b : Bytes) : Option Uuid := if h : b.length = 16 then some ⟨b, h⟩ else none

@[simp] theorem length_asBytes (u : Uuid) : u.asBytes.length = 16 := u.property

@[simp] theorem ofBytes_asBytes (u : Uuid) : ofBytes u.asBytes = some u := dif_pos u.property

/-! ## Hexadecimal digits -/

def hexDigit (d : Nat) : UInt8 := UInt8.ofNat (if d < 10 then 48 + d else 87 + d)

def hexValue (c : UInt8) : Option Nat :=
  if 48 ≤ c ∧ c ≤ 57 then some (c.toNat - 48)
  else if 97 ≤ c ∧ c ≤ 102 then some (c.toNat - 87)
  else if 65 ≤ c ∧ c ≤ 70 then some (c.toNat - 55)
  else none

theorem hexValue_hexDigit {d : Nat} (h : d < 16) : hexValue (hexDigit d) = some d := by
  revert d
  decide

def hex : Bytes → Bytes
  | [] => []
  | b :: s => hexDigit (b.toNat / 16) :: hexDigit (b.toNat % 16) :: hex s

def fromHex : Bytes → Option Bytes
  | [] => some []
  | [_] => none
  | x :: y :: s => do
    let i ← hexValue x
    let j ← hexValue y
    let more ← fromHex s
    some (UInt8.ofNat (i * 16 + j) :: more)

@[simp] theorem length_hex (b : Bytes) : (hex b).length = 2 * b.length := by
  induction b with
  | nil => rfl
  | cons b s ih =>
    rw [hex, List.length_cons, List.length_cons, ih, List.length_cons]
    omega

theorem fromHex_hex (b : Bytes) : fromHex (hex b) = some b := by
  induction b with
  | nil => rfl
  | cons b s ih =>
    have hb := b.toNat_lt
    have hbyte : UInt8.ofNat (b.toNat / 16 * 16 + b.toNat % 16) = b := by
      rw [Nat.div_add_mod', UInt8.ofNat_toNat]
    rw [hex, fromHex, hexValue_hexDigit (by omega), hexValue_hexDigit (by omega), ih]
    simp only [Option.bind_eq_bind, Option.bind_some, hbyte]

/-! ## The text -/

/-- `Uuid::to_string`. -/
def hyphenated (u : Uuid) : Bytes :=
  let digits := hex u.asBytes
  Bytes.slice digits 0 8 ++ [45] ++ Bytes.slice digits 8 12 ++ [45] ++ Bytes.slice digits 12 16 ++ [45] ++
    Bytes.slice digits 16 20 ++ [45] ++ Bytes.slice digits 20 32

/-- Five groups of digits with hyphens between them. -/
def parseHyphenated (s : Bytes) : Option Uuid :=
  if s.length = 36 ∧ s[8]? = some 45 ∧ s[13]? = some 45 ∧ s[18]? = some 45 ∧ s[23]? = some 45 then
    (fromHex (Bytes.slice s 0 8 ++ Bytes.slice s 9 13 ++ Bytes.slice s 14 18 ++ Bytes.slice s 19 23 ++
      Bytes.slice s 24 36)).bind ofBytes
  else none

/-- The bytes of `urn:uuid:`. -/
def URN : Bytes := [117, 114, 110, 58, 117, 117, 105, 100, 58]

/-- `Uuid::parse_str`. -/
def parseStr (s : Bytes) : Option Uuid :=
  if s.length = 32 then (fromHex s).bind ofBytes
  else if s.length = 36 then parseHyphenated s
  else if s.length = 38 then
    if s.head? = some 123 ∧ s.getLast? = some 125 then parseHyphenated (Bytes.slice s 1 37) else none
  else if s.length = 45 then (Bytes.dropStart URN s).bind parseHyphenated
  else none

/-- A byte string cut at growing places. -/
theorem slice_append_slice (s : Bytes) {i j k : Nat} (hij : i ≤ j) (hjk : j ≤ k) :
    Bytes.slice s i j ++ Bytes.slice s j k = Bytes.slice s i k := by
  have hfront : (s.take k).take j = s.take j := by
    rw [List.take_take, Nat.min_eq_left hjk]
  rw [Bytes.slice, Bytes.slice, Bytes.slice, ← hfront, List.drop_take]
  nth_rewrite 2 [← Nat.add_sub_cancel' hij]
  rw [← List.drop_drop, List.take_append_drop]

/-- Where the hyphens are does not depend on the digits. -/
theorem parseStr_groups {a b c d e : Bytes} (ha : a.length = 8) (hb : b.length = 4) (hc : c.length = 4)
    (hd : d.length = 4) (he : e.length = 12) :
    parseStr (a ++ [45] ++ b ++ [45] ++ c ++ [45] ++ d ++ [45] ++ e) =
      (fromHex (a ++ b ++ c ++ d ++ e)).bind ofBytes := by
  have hlen : (a ++ [45] ++ b ++ [45] ++ c ++ [45] ++ d ++ [45] ++ e).length = 36 := by
    simp [ha, hb, hc, hd, he]
  have hhyphens : (a ++ [45] ++ b ++ [45] ++ c ++ [45] ++ d ++ [45] ++ e)[8]? = some 45 ∧
      (a ++ [45] ++ b ++ [45] ++ c ++ [45] ++ d ++ [45] ++ e)[13]? = some 45 ∧
      (a ++ [45] ++ b ++ [45] ++ c ++ [45] ++ d ++ [45] ++ e)[18]? = some 45 ∧
      (a ++ [45] ++ b ++ [45] ++ c ++ [45] ++ d ++ [45] ++ e)[23]? = some 45 := by
    refine ⟨?_, ?_, ?_, ?_⟩ <;> simp [List.getElem?_append, ha, hb, hc, hd]
  rw [parseStr, if_neg (by omega), if_pos hlen, parseHyphenated, if_pos ⟨hlen, hhyphens⟩]
  match a, ha, b, hb, c, hc, d, hd, e, he with
  | [_, _, _, _, _, _, _, _], _, [_, _, _, _], _, [_, _, _, _], _, [_, _, _, _], _,
    [_, _, _, _, _, _, _, _, _, _, _, _], _ => rfl

/-- **The text is read back.** -/
theorem parseStr_hyphenated (u : Uuid) : parseStr u.hyphenated = some u := by
  have hlen : (hex u.asBytes).length = 32 := by simp
  have hdigits : Bytes.slice (hex u.asBytes) 0 8 ++ Bytes.slice (hex u.asBytes) 8 12 ++
      Bytes.slice (hex u.asBytes) 12 16 ++ Bytes.slice (hex u.asBytes) 16 20 ++
      Bytes.slice (hex u.asBytes) 20 32 = hex u.asBytes := by
    rw [slice_append_slice _ (by decide) (by decide), slice_append_slice _ (by decide) (by decide),
      slice_append_slice _ (by decide) (by decide), slice_append_slice _ (by decide) (by decide),
      Bytes.slice, List.drop_zero, List.take_of_length_le (by omega)]
  rw [hyphenated, parseStr_groups, hdigits, fromHex_hex, Option.bind_some, ofBytes_asBytes]
  all_goals simp [Bytes.slice, hlen]

/-- A lower-case digit or a hyphen. -/
def isTextByte (c : UInt8) : Bool := (48 ≤ c && c ≤ 57) || (97 ≤ c && c ≤ 102) || c == 45

theorem isTextByte_hex (b : Bytes) : ∀ c ∈ hex b, isTextByte c = true := by
  have hdigit : ∀ d < 16, isTextByte (hexDigit d) = true := by decide
  induction b with
  | nil => exact fun c h => absurd h List.not_mem_nil
  | cons b s ih =>
    have hb := b.toNat_lt
    rw [hex, List.forall_mem_cons, List.forall_mem_cons]
    exact ⟨hdigit _ (by omega), hdigit _ (by omega), ih⟩

theorem isTextByte_hyphenated (u : Uuid) : ∀ c ∈ u.hyphenated, isTextByte c = true := by
  intro c hc
  have hslice {start stop : Nat} (h : c ∈ Bytes.slice (hex u.asBytes) start stop) : isTextByte c = true :=
    isTextByte_hex u.asBytes c (List.mem_of_mem_take (List.mem_of_mem_drop h))
  simp only [hyphenated, List.mem_append, List.mem_singleton] at hc
  rcases hc with (((((((h | h) | h) | h) | h) | h) | h) | h) | h
  · exact hslice h
  · rw [h]
    rfl
  · exact hslice h
  · rw [h]
    rfl
  · exact hslice h
  · rw [h]
    rfl
  · exact hslice h
  · rw [h]
    rfl
  · exact hslice h

@[simp] theorem length_hyphenated (u : Uuid) : u.hyphenated.length = 36 := by
  simp [hyphenated, Bytes.slice]

end Uuid
