/-
  The `Cookie` header, written by the client (`build_cookie_into` in `src/client/utils.rs`) and searched by
  the server (`extract_cookie_value` in `src/server/utils.rs`).

  The client writes one pair and behind it padding of a random length, which looks like a second pair.
  The server asks for several names one after the other, and the FIRST one it finds decides what the
  request is: so it matters also which names are not found.
-/
import Httproxy.Lib.Text

namespace Httproxy.Cookies

open Bytes Text

/-! ## Writing -/

def MIN_PADDING : Nat := 16

/-- The bytes of `padding`. -/
def PADDING : Bytes := [112, 97, 100, 100, 105, 110, 103]

/-- `PADDING_POOL` of the client: `padding=` and 26 times `X`. -/
def PADDING_POOL : Bytes := PADDING ++ [61] ++ .replicate 26 88

/-- What `random_range(MIN_PADDING..PADDING_POOL.len())` can return. -/
abbrev PaddingLen := { n : Nat // MIN_PADDING ≤ n ∧ n < PADDING_POOL.length }

/-- `build_cookie_into`. -/
def buildCookieInto (name value : Bytes) (paddingLen : PaddingLen) : Bytes :=
  name ++ [61] ++ value ++ [59, 32] ++ PADDING_POOL.take paddingLen

/-- The bytes of `session`. -/
def SESSION : Bytes := [115, 101, 115, 115, 105, 111, 110]
/-- The bytes of `stream`. -/
def STREAM : Bytes := [115, 116, 114, 101, 97, 109]
/-- The bytes of `eph_pk_a`. -/
def EPH_PK_A : Bytes := [101, 112, 104, 95, 112, 107, 95, 97]

def buildTunnelCookie (sessionVal : Bytes) (paddingLen : PaddingLen) : Bytes :=
  buildCookieInto SESSION sessionVal paddingLen

/-! ## Searching -/

/-- A space or a semicolon. -/
def isSeparator (b : UInt8) : Bool := b == 32 || b == 59

/-- The loop of `extract_cookie_value` on what lies behind `pos`. -/
def scanCookies (key haystack : Bytes) : Option Bytes :=
  let rest := haystack.dropWhile isSeparator
  if _hrest : rest = [] then none
  else if key.length < rest.length ∧ rest.take key.length = key ∧ rest[key.length]? = some 61 then
    some (trim (firstPart 59 (rest.drop (key.length + 1))))
  else
    match rest.idxOf? 59 with
    | some i => scanCookies key (rest.drop (i + 1))
    | none => none
termination_by haystack.length
decreasing_by
  have hle : (haystack.dropWhile isSeparator).length ≤ haystack.length :=
    (List.dropWhile_sublist isSeparator).length_le
  have hpos : 0 < (haystack.dropWhile isSeparator).length := List.length_pos_iff.mpr _hrest
  rw [List.length_drop]
  omega

/-- `extract_cookie_value`, on the value of the `Cookie` header if there is one. -/
def extractCookieValue (cookie : Option Bytes) (key : Bytes) : Option Bytes :=
  cookie.bind fun cookieHeader =>
    if validUtf8 cookieHeader then scanCookies key cookieHeader else none

/-! ## What is found -/

/-- A name: without separators and equals signs. -/
def IsName (name : Bytes) : Prop := name ≠ [] ∧ ∀ b ∈ name, b ≠ 61 ∧ isSeparator b = false

instance (name : Bytes) : Decidable (IsName name) :=
  inferInstanceAs (Decidable (name ≠ [] ∧ ∀ b ∈ name, b ≠ 61 ∧ isSeparator b = false))

/-- Two names with an equals sign behind each. -/
theorem name_unique {x y u v : Bytes} (hx : 61 ∉ x) (hy : 61 ∉ y) (h : x ++ 61 :: u = y ++ 61 :: v) :
    x = y := by
  have hsplit := congrArg (splitOnce 61) h
  rw [splitOnce_append hx, splitOnce_append hy] at hsplit
  exact (Prod.mk.inj (Option.some.inj hsplit)).1

/-- The test of the loop, where a pair begins. -/
theorem matches_iff {key name tail : Bytes} (hkey : 61 ∉ key) (hname : 61 ∉ name) :
    (key.length < (name ++ 61 :: tail).length ∧ (name ++ 61 :: tail).take key.length = key ∧
      (name ++ 61 :: tail)[key.length]? = some 61) ↔ name = key := by
  constructor
  · rintro ⟨hlen, htake, hat⟩
    have hsplit : name ++ 61 :: tail = key ++ 61 :: (name ++ 61 :: tail).drop (key.length + 1) := by
      obtain ⟨_, hat⟩ := List.getElem?_eq_some_iff.mp hat
      conv_lhs => rw [← List.take_append_drop key.length (name ++ 61 :: tail), htake,
        List.drop_eq_getElem_cons hlen, hat]
    exact name_unique hname hkey hsplit
  · rintro rfl
    simp

theorem scanCookies_space (key s : Bytes) : scanCookies key (32 :: s) = scanCookies key s := by
  conv_lhs => rw [scanCookies]
  conv_rhs => rw [scanCookies]
  rfl

theorem idxOf?_append_of_not_mem {c : UInt8} {name : Bytes} (h : c ∉ name) (tail : Bytes) :
    (name ++ tail).idxOf? c = (tail.idxOf? c).map (name.length + ·) := by
  induction name with
  | nil => simp
  | cons b name ih =>
    obtain ⟨hb, hname⟩ : c ≠ b ∧ c ∉ name := by simpa using h
    rw [List.cons_append, List.idxOf?_cons, ih hname]
    simp [hb.symm, Function.comp_def, Nat.add_right_comm]

/-- A pair where the loop stands. -/
theorem scanCookies_pair {key name : Bytes} (hkey : 61 ∉ key) (hname : IsName name) (tail : Bytes) :
    scanCookies key (name ++ 61 :: tail) =
      if name = key then some (trim (firstPart 59 tail))
      else (tail.idxOf? 59).bind fun i => scanCookies key (tail.drop (i + 1)) := by
  obtain ⟨hne, hall⟩ := hname
  have hdrop : (name ++ 61 :: tail).dropWhile isSeparator = name ++ 61 :: tail := by
    cases name with
    | nil => exact absurd rfl hne
    | cons b name => exact List.dropWhile_cons_of_neg (by simp [(hall b List.mem_cons_self).2])
  have hequals : 61 ∉ name := fun hmem => (hall 61 hmem).1 rfl
  have hsemi : 59 ∉ name ++ [61] := by
    rw [List.mem_append, not_or]
    exact ⟨fun hmem => absurd (hall 59 hmem).2 (by decide), by decide⟩
  have hnext : (name ++ 61 :: tail).idxOf? 59 = (tail.idxOf? 59).map (name.length + 1 + ·) := by
    rw [← List.singleton_append, ← List.append_assoc, idxOf?_append_of_not_mem hsemi]
    simp
  rw [scanCookies, hdrop, dif_neg (by simp)]
  simp only [matches_iff hkey hequals, hnext]
  split
  · rename_i heq
    subst heq
    rw [List.drop_append, List.drop_of_length_le (Nat.le_succ _), Nat.add_sub_cancel_left]
    rfl
  · cases tail.idxOf? 59 with
    | none => rfl
    | some i =>
      have hdrop : (name ++ 61 :: tail).drop (name.length + 1 + i + 1) = tail.drop (i + 1) := by
        rw [show name.length + 1 + i + 1 = name.length + (i + 2) by omega, List.drop_length_add_append]
        rfl
      rw [Option.map_some, Option.bind_some]
      dsimp only
      rw [hdrop]

/-! ## A header of the client -/

/-- Bytes that can stand in a value: visible, and no semicolon. -/
def IsValue (value : Bytes) : Prop := ∀ b ∈ value, isGraphic b = true ∧ b ≠ 59

/-- The padding is a pair of its own, without a semicolon. -/
theorem scanCookies_padding {key : Bytes} (hkey : 61 ∉ key) (hother : key ≠ PADDING)
    (paddingLen : PaddingLen) : scanCookies key (PADDING_POOL.take paddingLen) = none := by
  obtain ⟨n, hmin, hmax⟩ := paddingLen
  have hpool : PADDING_POOL.take n = PADDING ++ 61 :: .replicate (n - 8) 88 := by
    have hlen : (PADDING ++ [61]).length = 8 := rfl
    have hmin : 16 ≤ n := hmin
    have hmax : n < 34 := by
      rwa [PADDING_POOL, List.length_append, hlen, List.length_replicate] at hmax
    rw [PADDING_POOL, List.take_append, hlen, List.take_of_length_le (by omega), List.take_replicate,
      Nat.min_eq_left (by omega), List.append_assoc, List.singleton_append]
  have hsemi : (List.replicate (n - 8) (88 : UInt8)).idxOf? 59 = none := by
    rw [List.idxOf?_eq_none_iff, List.mem_replicate]
    exact fun h => absurd h.2 (by decide)
  have hname : IsName PADDING := by decide +kernel
  show scanCookies key (PADDING_POOL.take n) = none
  rw [hpool, scanCookies_pair hkey hname, if_neg (Ne.symm hother), hsemi]
  rfl

/-- **The server finds the value under its name, and nothing under another.** -/
theorem extractCookieValue_buildCookieInto {key name value : Bytes} (hkey : 61 ∉ key)
    (hother : key ≠ PADDING) (hname : IsName name) (hascii : ∀ b ∈ name, b < 128)
    (hvalue : IsValue value) (paddingLen : PaddingLen) :
    extractCookieValue (some (buildCookieInto name value paddingLen)) key =
      if name = key then some value else none := by
  have hsemi : 59 ∉ value := fun hmem => (hvalue 59 hmem).2 rfl
  have hpool : ∀ b ∈ PADDING_POOL, b < 128 := by decide +kernel
  have hshape : buildCookieInto name value paddingLen =
      name ++ 61 :: (value ++ 59 :: 32 :: PADDING_POOL.take paddingLen) := by
    simp [buildCookieInto]
  have hutf8 : validUtf8 (buildCookieInto name value paddingLen) = true := by
    apply validUtf8_ascii
    intro b hb
    simp only [buildCookieInto, List.mem_append, List.mem_cons, List.not_mem_nil, or_false] at hb
    rcases hb with (((hb | rfl) | hb) | rfl | rfl) | hb
    · exact hascii b hb
    · decide
    · have := (hvalue b hb).1
      simp only [isGraphic, Bool.and_eq_true, decide_eq_true_eq] at this
      exact UInt8.lt_of_le_of_lt this.2 (by decide)
    · decide
    · decide
    · exact hpool b (List.mem_of_mem_take hb)
  rw [extractCookieValue, Option.bind_some, if_pos hutf8, hshape, scanCookies_pair hkey hname,
    firstPart_append hsemi, trim_graphic fun b hb => (hvalue b hb).1, idxOf?_line hsemi]
  split
  · rfl
  · have hdrop : (value ++ 59 :: 32 :: PADDING_POOL.take paddingLen).drop (value.length + 1) =
        32 :: PADDING_POOL.take paddingLen := by
      rw [List.drop_append, List.drop_of_length_le (Nat.le_succ _), Nat.add_sub_cancel_left]
      rfl
    rw [Option.bind_some, hdrop, scanCookies_space, scanCookies_padding hkey hother]

end Httproxy.Cookies
