/-
  The scan of the `Cookie` header, position by position (`extract_cookie_value` in
  `src/server/utils.rs`).

  The header is the attacker's.  What the server finds in it decides whether the request is an upload,
  the start of a tunnel or a handshake.

  1. **Program** — `scanFrom` walks over the bytes as the source does, and has a result only if every
     index is in range and every slice of the string is cut at characters.

  2. **Specification** — `assigned key segment` is what one segment between semicolons gives to a name,
     and `lookup` takes the first segment that gives it anything.

  3. **Correctness** — `scanFrom` always has a result, that of `scanCookies` (`scanFrom_eq`), and
     `scanCookies` is `lookup` (`scanCookies_eq_lookup`).  Both are inductions on what the outer loop has
     left; the point is that it stands at the start of a segment whenever it tests for the name.
-/
import Httproxy.Cookies

namespace Httproxy.Cookies

open Bytes Text Slice

/-! ## Program -/

/-- The inner loop: `while pos < haystack_len && (haystack[pos] == b' ' || haystack[pos] == b';')`. -/
def skipFrom (haystack : Bytes) (pos : Nat) : Option Nat :=
  if _h : pos < haystack.length then
    match haystack[pos]? with
    | none => none
    | some b => if isSeparator b then skipFrom haystack (pos + 1) else some pos
  else some pos
termination_by haystack.length - pos

/-- The test for the name and an equals sign; each part is only looked at behind the one before. -/
def keyAt (key haystack : Bytes) (pos : Nat) : Option Bool :=
  if pos + key.length < haystack.length then
    (range haystack pos (pos + key.length)).bind fun name =>
      if name = key then (haystack[pos + key.length]?).map (· == 61) else some false
  else some false

/-- `cookie_str[val_start..val_end].trim()`. -/
def valueAt (cookieStr : Bytes) (valStart : Nat) : Option Bytes :=
  (range cookieStr valStart cookieStr.length).bind fun rest =>
    let valEnd := ((rest.idxOf? 59).map (valStart + ·)).getD cookieStr.length
    (strRange cookieStr valStart valEnd).map trim

theorem skipFrom_ge {haystack : Bytes} {pos p : Nat} (h : skipFrom haystack pos = some p) :
    pos ≤ p := by
  fun_induction skipFrom haystack pos with
  | case1 => cases h
  | case2 pos hlt b hb hsep ih => exact Nat.le_of_succ_le (ih h)
  | case3 =>
    obtain rfl := Option.some.inj h
    exact Nat.le_refl _
  | case4 =>
    obtain rfl := Option.some.inj h
    exact Nat.le_refl _

/-- The outer loop. -/
def scanFrom (key cookieStr : Bytes) (pos : Nat) : Option (Option Bytes) :=
  if _h : pos < cookieStr.length then
    match _hp : skipFrom cookieStr pos with
    | none => none
    | some p =>
      if p ≥ cookieStr.length then some none
      else
        match keyAt key cookieStr p with
        | none => none
        | some true => (valueAt cookieStr (p + key.length + 1)).map some
        | some false =>
          match range cookieStr p cookieStr.length with
          | none => none
          | some rest =>
            match rest.idxOf? 59 with
            | some i => scanFrom key cookieStr (p + (i + 1))
            | none => some none
  else some none
termination_by cookieStr.length - pos
decreasing_by
  have hge := skipFrom_ge _hp
  omega

/-- `extract_cookie_value` with its indices; without a result, it panics. -/
def extractChecked (cookie : Option Bytes) (key : Bytes) : Option (Option Bytes) :=
  match cookie with
  | none => some none
  | some cookieHeader => if validUtf8 cookieHeader then scanFrom key cookieHeader 0 else some none

/-! ## Specification -/

/-- What a segment gives to a name: behind its leading spaces stand the name, an equals sign and the
    value. -/
def assigned (key segment : Bytes) : Option Bytes :=
  (dropStart (key ++ [61]) (segment.dropWhile (· == 32))).map trim

/-- The first segment that gives the name a value. -/
def lookup (key cookie : Bytes) : Option Bytes := (cookie.splitOn 59).findSome? (assigned key)

/-! ## Indices -/

/-- Behind the inner loop, no separator is left. -/
theorem skipFrom_eq {haystack : Bytes} {pos : Nat} (hle : pos ≤ haystack.length) :
    ∃ p, skipFrom haystack pos = some p ∧ p ≤ haystack.length ∧
      haystack.drop p = (haystack.drop pos).dropWhile isSeparator := by
  fun_induction skipFrom haystack pos with
  | case1 pos hlt hnone =>
    rw [List.getElem?_eq_none_iff] at hnone
    omega
  | case2 pos hlt b hb hsep ih =>
    obtain ⟨p, hp, hle', hdrop⟩ := ih hlt
    refine ⟨p, hp, hle', ?_⟩
    obtain ⟨_, rfl⟩ := List.getElem?_eq_some_iff.mp hb
    rw [hdrop, List.drop_eq_getElem_cons hlt, List.dropWhile_cons_of_pos hsep]
  | case3 pos hlt b hb hother =>
    refine ⟨pos, rfl, hle, ?_⟩
    obtain ⟨_, rfl⟩ := List.getElem?_eq_some_iff.mp hb
    rw [List.drop_eq_getElem_cons hlt, List.dropWhile_cons_of_neg hother]
  | case4 pos hge =>
    refine ⟨pos, rfl, hle, ?_⟩
    rw [List.drop_of_length_le (Nat.le_of_not_lt hge)]
    rfl

theorem skipFrom_some {haystack : Bytes} {pos p : Nat} (hle : pos ≤ haystack.length)
    (h : skipFrom haystack pos = some p) :
    (haystack.drop pos).dropWhile isSeparator = haystack.drop p := by
  obtain ⟨p', hp', -, hdrop⟩ := skipFrom_eq hle
  obtain rfl := Option.some.inj (h.symm.trans hp')
  exact hdrop.symm

/-- A segment begins with the name and an equals sign. -/
abbrev Keyed (key rest : Bytes) : Prop :=
  key.length < rest.length ∧ rest.take key.length = key ∧ rest[key.length]? = some 61

/-- One turn of the outer loop, behind the separators. -/
theorem scanCookies_turn (key : Bytes) {s rest : Bytes} (hrest : s.dropWhile isSeparator = rest)
    (hsome : rest ≠ []) : scanCookies key s =
      if Keyed key rest then some (trim (firstPart 59 (rest.drop (key.length + 1))))
      else (rest.idxOf? 59).bind fun i => scanCookies key (rest.drop (i + 1)) := by
  rw [scanCookies, hrest, dif_neg hsome]
  by_cases hkeyed : Keyed key rest
  · rw [if_pos hkeyed, if_pos hkeyed]
  · rw [if_neg hkeyed, if_neg hkeyed]
    cases rest.idxOf? 59 with
    | none => rfl
    | some i => rfl

theorem range_drop {s : Bytes} {p n : Nat} (h : p + n ≤ s.length) :
    range s p (p + n) = some ((s.drop p).take n) := by
  rw [range_of_le (Nat.le_add_right p n) h, List.drop_take, Nat.add_sub_cancel_left]

theorem keyAt_eq (key : Bytes) {haystack : Bytes} {p : Nat} (hp : p ≤ haystack.length) :
    keyAt key haystack p = some (decide (Keyed key (haystack.drop p))) := by
  obtain ⟨rest, hdrop⟩ : ∃ rest, haystack.drop p = rest := ⟨_, rfl⟩
  have hlen : rest.length = haystack.length - p := by rw [← hdrop, List.length_drop]
  rw [keyAt, hdrop]
  by_cases hfits : p + key.length < haystack.length
  · have hname : range haystack p (p + key.length) = some (rest.take key.length) := by
      rw [range_drop (Nat.le_of_lt hfits), hdrop]
    have hnext : haystack[p + key.length]? = rest[key.length]? := by
      rw [← hdrop, List.getElem?_drop]
    have hin : key.length < rest.length := by omega
    rw [if_pos hfits, hname, Option.bind_some, hnext]
    split
    · rename_i hkey
      conv_lhs => rw [List.getElem?_eq_getElem hin, Option.map_some]
      rw [Option.some.injEq, Bool.eq_iff_iff, beq_iff_eq, decide_eq_true_iff]
      refine ⟨fun heq => ⟨hin, hkey, ?_⟩, fun hall => ?_⟩
      · rw [List.getElem?_eq_getElem hin, heq]
      · exact Option.some.inj ((List.getElem?_eq_getElem hin).symm.trans hall.2.2)
    · rename_i hkey
      rw [Option.some.injEq, eq_comm, decide_eq_false_iff_not]
      exact fun hall => hkey hall.2.1
  · rw [if_neg hfits, Option.some.injEq, eq_comm, decide_eq_false_iff_not]
    intro hall
    have := hall.1
    omega

/-- The value lies between two ASCII bytes, or ends with the string: it is cut at characters. -/
theorem valueAt_eq {s : Bytes} (hs : validUtf8 s = true) {p : Nat} (hp : s[p]? = some 61) :
    valueAt s (p + 1) = some (trim (firstPart 59 (s.drop (p + 1)))) := by
  obtain ⟨hlt, -⟩ := List.getElem?_eq_some_iff.mp hp
  have hstart := (isCharBoundary_ascii hs hp (by decide)).2
  rw [valueAt, range_length hlt, Option.bind_some, firstPart_eq]
  cases hend : (s.drop (p + 1)).idxOf? 59 with
  | none =>
    dsimp only [Option.map_none, Option.getD_none]
    rw [strRange_eq hstart (isCharBoundary_length s) hlt (Nat.le_refl _), List.take_length]
    rfl
  | some i =>
    obtain ⟨hi, hsemi, -⟩ := List.idxOf?_eq_some_iff.mp hend
    rw [List.length_drop] at hi
    have hat : s[p + 1 + i]? = some 59 := by
      rw [← List.getElem?_drop, List.getElem?_eq_getElem (by rw [List.length_drop]; omega), hsemi]
    dsimp only [Option.map_some, Option.getD_some]
    rw [strRange_eq hstart (isCharBoundary_ascii hs hat (by decide)).1 (by omega) (by omega),
      List.drop_take, Nat.add_sub_cancel_left]
    rfl

/-- **No index of the scan is out of range, and no slice cuts a character.** -/
theorem scanFrom_eq {s : Bytes} (hs : validUtf8 s = true) (key : Bytes) {pos : Nat}
    (hle : pos ≤ s.length) : scanFrom key s pos = some (scanCookies key (s.drop pos)) := by
  have hsome : ∀ {p}, ¬ p ≥ s.length → s.drop p ≠ [] := by
    intro p hmore
    rw [Ne, List.drop_eq_nil_iff]
    exact hmore
  fun_induction scanFrom key s pos with
  | case1 pos hlt hnone =>
    obtain ⟨p, hp, -⟩ := skipFrom_eq hle
    rw [hp] at hnone
    cases hnone
  | case2 pos hlt p hp hend =>
    rw [scanCookies, skipFrom_some hle hp, List.drop_of_length_le hend]
    rfl
  | case3 pos hlt p hp hmore hnone =>
    rw [keyAt_eq key (by omega)] at hnone
    cases hnone
  | case4 pos hlt p hp hmore hfound =>
    rw [keyAt_eq key (by omega), Option.some.injEq, decide_eq_true_iff] at hfound
    have hequals : s[p + key.length]? = some 61 := by
      rw [← List.getElem?_drop]
      exact hfound.2.2
    rw [valueAt_eq hs hequals, scanCookies_turn key (skipFrom_some hle hp) (hsome hmore),
      if_pos hfound, List.drop_drop]
    rfl
  | case5 pos hlt p hp hmore hother hnone =>
    rw [range_length (by omega)] at hnone
    cases hnone
  | case6 pos hlt p hp hmore hother rest hrest i hi ih =>
    rw [keyAt_eq key (by omega), Option.some.injEq, decide_eq_false_iff_not] at hother
    rw [range_length (by omega)] at hrest
    obtain rfl := Option.some.inj hrest
    obtain ⟨hin, -⟩ := List.idxOf?_eq_some_iff.mp hi
    rw [List.length_drop] at hin
    rw [ih (by omega), scanCookies_turn key (skipFrom_some hle hp) (hsome hmore), if_neg hother, hi,
      Option.bind_some, List.drop_drop]
  | case7 pos hlt p hp hmore hother rest hrest hnone =>
    rw [keyAt_eq key (by omega), Option.some.injEq, decide_eq_false_iff_not] at hother
    rw [range_length (by omega)] at hrest
    obtain rfl := Option.some.inj hrest
    rw [scanCookies_turn key (skipFrom_some hle hp) (hsome hmore), if_neg hother, hnone]
    rfl
  | case8 pos hge =>
    rw [scanCookies, List.drop_of_length_le (Nat.le_of_not_lt hge)]
    rfl

/-! ## Segments -/

/-- Leading spaces do not matter to a segment. -/
theorem assigned_space (key segment : Bytes) : assigned key (32 :: segment) = assigned key segment := rfl

theorem assigned_nil (key : Bytes) : assigned key [] = none := by
  rw [assigned, dropStart, if_neg]
  · rfl
  · intro hfront
    have hlen := (List.isPrefixOf_iff_prefix.mp hfront).length_le
    rw [List.length_append, List.length_singleton] at hlen
    exact absurd hlen (Nat.not_succ_le_zero _)

/-- What the inner loop skips holds no segment that matters. -/
theorem lookup_dropWhile (key s : Bytes) : lookup key (s.dropWhile isSeparator) = lookup key s := by
  induction s with
  | nil => rfl
  | cons b s ih =>
    by_cases hb : isSeparator b = true
    · rw [List.dropWhile_cons_of_pos hb, ih, lookup, lookup, List.splitOn_cons_eq_if_modifyHead]
      rcases Bool.or_eq_true_iff.mp hb with hspace | hsemi
      · obtain rfl := beq_iff_eq.mp hspace
        obtain ⟨first, more, hcons⟩ := List.exists_cons_of_ne_nil (List.splitOn_ne_nil 59 s)
        rw [if_neg (by decide), hcons, List.modifyHead_cons, List.findSome?_cons, List.findSome?_cons,
          assigned_space]
      · obtain rfl := beq_iff_eq.mp hsemi
        rw [if_pos (by decide), List.findSome?_cons, assigned_nil]
    · rw [List.dropWhile_cons_of_neg hb]

theorem keyed_iff {key rest : Bytes} : Keyed key rest ↔ ∃ value, rest = key ++ 61 :: value := by
  constructor
  · rintro ⟨hlen, htake, hat⟩
    obtain ⟨_, hat⟩ := List.getElem?_eq_some_iff.mp hat
    refine ⟨rest.drop (key.length + 1), ?_⟩
    conv_lhs => rw [← List.take_append_drop key.length rest, htake, List.drop_eq_getElem_cons hlen, hat]
  · rintro ⟨value, rfl⟩
    exact ⟨by simp, by simp, by simp⟩

theorem assigned_eq_some {key segment v : Bytes} :
    assigned key segment = some v ↔
      ∃ value, segment.dropWhile (· == 32) = key ++ 61 :: value ∧ trim value = v := by
  rw [assigned, Option.map_eq_some_iff]
  constructor
  · rintro ⟨value, hvalue, rfl⟩
    refine ⟨value, ?_, rfl⟩
    rw [dropStart, Option.ite_none_right_eq_some] at hvalue
    obtain ⟨hfront, hdrop⟩ := hvalue
    obtain ⟨more, hmore⟩ := List.isPrefixOf_iff_prefix.mp hfront
    rw [← hmore, Option.some.injEq, List.drop_left] at hdrop
    rw [← hmore, hdrop, List.append_assoc, List.singleton_append]
  · rintro ⟨value, hsegment, rfl⟩
    refine ⟨value, ?_, rfl⟩
    have hshape : key ++ 61 :: value = key ++ [61] ++ value := by simp
    rw [hsegment, hshape, dropStart_append]

/-- Only the first segment decides whether the text begins with the name: no name has a semicolon. -/
theorem keyed_first {key first tail : Bytes} (hname : IsName key)
    (htail : tail = [] ∨ ∃ more, tail = 59 :: more) {value : Bytes}
    (h : first ++ tail = key ++ 61 :: value) :
    ∃ front, first = key ++ 61 :: front ∧ value = front ++ tail := by
  have hsemi : 59 ∉ key ++ [61] := by
    rw [List.mem_append, not_or]
    exact ⟨fun hmem => absurd (hname.2 59 hmem).2 (by decide), by decide⟩
  have hsplit : first ++ tail = (key ++ [61]) ++ value := by rw [h, List.append_assoc, List.singleton_append]
  rcases List.append_eq_append_iff.mp hsplit with ⟨cut, hcut, hvalue⟩ | ⟨front, hfront, hvalue⟩
  · -- the first segment would end inside the name
    have hnil : cut = [] := by
      rcases htail with rfl | ⟨more, rfl⟩
      · exact (List.append_eq_nil_iff.mp hvalue.symm).1
      · cases cut with
        | nil => rfl
        | cons b cut =>
          obtain rfl := (List.cons.inj hvalue).1
          exact absurd (hcut ▸ by simp) hsemi
    subst hnil
    rw [List.append_nil] at hcut
    exact ⟨[], hcut.symm, hvalue.symm⟩
  · refine ⟨front, ?_, hvalue⟩
    rw [hfront, List.append_assoc, List.singleton_append]

/-- What the first segment assigns, told by the loop's test on the whole text. -/
theorem assigned_first {key first tail : Bytes} (hname : IsName key)
    (hspace : (first ++ tail).head? ≠ some 32) (hfirst : 59 ∉ first)
    (htail : tail = [] ∨ ∃ more, tail = 59 :: more) :
    assigned key first =
      if Keyed key (first ++ tail) then
        some (trim (firstPart 59 ((first ++ tail).drop (key.length + 1)))) else none := by
  have hstart : first.dropWhile (· == 32) = first := by
    cases first with
    | nil => rfl
    | cons b first =>
      rw [List.dropWhile_cons_of_neg]
      rw [beq_iff_eq]
      rintro rfl
      exact hspace rfl
  split
  · rename_i hkeyed
    obtain ⟨value, hvalue⟩ := keyed_iff.mp hkeyed
    obtain ⟨front, rfl, rfl⟩ := keyed_first hname htail hvalue
    have hfront : 59 ∉ front := fun hmem => hfirst (by simp [hmem])
    have hpart : firstPart 59 (front ++ tail) = front := by
      rcases htail with rfl | ⟨more, rfl⟩
      · rw [List.append_nil, firstPart_eq, List.idxOf?_eq_none_iff.mpr hfront]
      · exact firstPart_append hfront more
    have hdrop : (key ++ 61 :: (front ++ tail)).drop (key.length + 1) = front ++ tail := by
      rw [← List.drop_drop, List.drop_left]
      rfl
    rw [hvalue, hdrop, hpart]
    exact assigned_eq_some.mpr ⟨front, hstart, rfl⟩
  · rename_i hother
    rw [Option.eq_none_iff_forall_ne_some]
    intro v hv
    obtain ⟨value, hsegment, -⟩ := assigned_eq_some.mp hv
    rw [hstart] at hsegment
    exact hother (keyed_iff.mpr ⟨value ++ tail, by rw [hsegment, List.append_assoc]; rfl⟩)

/-- **The scan is the lookup by segments.** -/
theorem scanCookies_eq_lookup {key : Bytes} (hname : IsName key) (s : Bytes) :
    scanCookies key s = lookup key s := by
  induction hn : s.length using Nat.strongRecOn generalizing s with
  | ind n ih =>
    obtain ⟨rest, hrest⟩ : ∃ rest, s.dropWhile isSeparator = rest := ⟨_, rfl⟩
    rw [← lookup_dropWhile, hrest]
    by_cases hsome : rest = []
    · rw [scanCookies, hrest, dif_pos hsome, hsome, lookup, List.splitOn_nil, List.findSome?_cons,
        assigned_nil]
      rfl
    · have hspace : rest.head? ≠ some 32 := by
        intro hhead
        have hnot := List.head?_dropWhile_not isSeparator s
        rw [hrest, hhead] at hnot
        cases hnot
      rw [scanCookies_turn key hrest hsome, lookup]
      cases hend : rest.idxOf? 59 with
      | none =>
        have hno := List.idxOf?_eq_none_iff.mp hend
        have hone := @assigned_first key rest [] hname (by rwa [List.append_nil]) hno (.inl rfl)
        rw [List.append_nil] at hone
        rw [List.splitOn_eq_singleton hno, List.findSome?_singleton, hone]
        rfl
      | some i =>
        obtain ⟨hi, -⟩ := List.idxOf?_eq_some_iff.mp hend
        obtain ⟨hparts, hno⟩ := idxOf?_parts hend
        have hone := @assigned_first key (rest.take i) (59 :: rest.drop (i + 1)) hname
          (hparts ▸ hspace) hno (.inr ⟨_, rfl⟩)
        have hshorter : (rest.drop (i + 1)).length < n := by
          have hle := (List.dropWhile_suffix (l := s) isSeparator).length_le
          rw [hrest, hn] at hle
          rw [List.length_drop]
          omega
        rw [Option.bind_some, ih _ hshorter _ rfl, lookup]
        conv_rhs => rw [hparts, List.splitOn_append_cons_self, List.splitOn_eq_singleton hno,
          List.singleton_append, List.findSome?_cons, hone, ← hparts]
        split
        · rfl
        · rfl

theorem extractChecked_eq (cookie : Option Bytes) (key : Bytes) :
    extractChecked cookie key = some (extractCookieValue cookie key) := by
  cases cookie with
  | none => rfl
  | some cookieHeader =>
    rw [extractChecked, extractCookieValue, Option.bind_some]
    split
    · rename_i hutf8
      exact scanFrom_eq hutf8 key (Nat.zero_le _)
    · rfl

/-- A segment begins with the name and an equals sign exactly when the name is all that stands before
    its first equals sign. -/
theorem name_of_segment {key : Bytes} (hname : IsName key) (segment value : Bytes) :
    segment = key ++ 61 :: value ↔ splitOnce 61 segment = some (key, value) := by
  have hequals : 61 ∉ key := fun hmem => (hname.2 61 hmem).1 rfl
  constructor
  · rintro rfl
    exact splitOnce_append hequals value
  · exact splitOnce_eq_some

/-- **Cookie lookup implements the grammar of cookie pairs.**  The value found for a name is the trimmed
    rest of the first segment that begins, behind its leading spaces, with the name and an equals sign;
    such a segment has exactly this name; and the scan that finds it keeps its indices in range and cuts
    the string at characters. -/
theorem cookie_lookup (key : Bytes) (hname : IsName key) (cookie : Bytes)
    (hutf8 : validUtf8 cookie = true) :
    (∀ v, extractCookieValue (some cookie) key = some v ↔
      ∃ before segment after value, cookie.splitOn 59 = before ++ segment :: after ∧
        segment.dropWhile (· == 32) = key ++ 61 :: value ∧ v = trim value ∧
        ∀ earlier ∈ before, ¬ key ++ [61] <+: earlier.dropWhile (· == 32)) ∧
    (∀ segment value : Bytes, segment.dropWhile (· == 32) = key ++ 61 :: value ↔
      splitOnce 61 (segment.dropWhile (· == 32)) = some (key, value)) ∧
    extractChecked (some cookie) key = some (extractCookieValue (some cookie) key) := by
  refine ⟨fun v => ?_, fun segment => name_of_segment hname _, extractChecked_eq _ _⟩
  have hnone : ∀ segment, assigned key segment = none ↔
      ¬ key ++ [61] <+: segment.dropWhile (· == 32) := by
    intro segment
    rw [assigned, Option.map_eq_none_iff, dropStart, ite_eq_right_iff, ← List.isPrefixOf_iff_prefix]
    simp
  rw [extractCookieValue, Option.bind_some, if_pos hutf8, scanCookies_eq_lookup hname, lookup,
    List.findSome?_eq_some_iff]
  constructor
  · rintro ⟨before, segment, after, hsplit, hfound, hbefore⟩
    obtain ⟨value, hsegment, rfl⟩ := assigned_eq_some.mp hfound
    exact ⟨before, segment, after, value, hsplit, hsegment, rfl,
      fun earlier hmem => (hnone earlier).mp (hbefore earlier hmem)⟩
  · rintro ⟨before, segment, after, value, hsplit, hsegment, rfl, hbefore⟩
    exact ⟨before, segment, after, hsplit, assigned_eq_some.mpr ⟨value, hsegment, rfl⟩,
      fun earlier hmem => (hnone earlier).mpr (hbefore earlier hmem)⟩

/-- The bytes of `xsession=1;  session=a`. -/
def DEMO_COOKIE : Bytes := [120] ++ SESSION ++ [61, 49, 59, 32, 32] ++ SESSION ++ [61, 97]

theorem cookie_lookup_demo :
    extractCookieValue (some DEMO_COOKIE) SESSION = some [97] ∧
      extractChecked (some DEMO_COOKIE) SESSION = some (some [97]) := by
  obtain ⟨hfound, -, hchecked⟩ := cookie_lookup SESSION (by decide +kernel) DEMO_COOKIE
    (validUtf8_ascii (by decide +kernel))
  have hvalue : extractCookieValue (some DEMO_COOKIE) SESSION = some [97] := by
    refine (hfound [97]).mpr ⟨[[120] ++ SESSION ++ [61, 49]], [32, 32] ++ SESSION ++ [61, 97], [], [97],
      by decide +kernel, by decide +kernel, (trim_graphic ?_).symm, by decide +kernel⟩
    rintro b hb
    obtain rfl := List.mem_singleton.mp hb
    rfl
  rw [hchecked, hvalue]
  exact ⟨rfl, rfl⟩

end Httproxy.Cookies
