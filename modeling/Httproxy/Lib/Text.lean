/-
  Text as its UTF-8 bytes: splitting at a separator, white space, the boundaries of characters, and
  decimal numbers.

  Every separator here is ASCII, and no byte of a longer UTF-8 sequence is, so that splitting the bytes
  and splitting the characters come to the same.
-/
import Httproxy.Lib.Bytes
import Httproxy.Lib.Slice

namespace Text

/-- `str::from_utf8` accepts the bytes. -/
def validUtf8 (b : Bytes) : Bool := (ByteArray.mk b.toArray).validateUTF8

/-! ## Splitting -/

/-- `split_once`: at the FIRST separator. -/
def splitOnce (sep : UInt8) : Bytes → Option (Bytes × Bytes)
  | [] => none
  | b :: s => if b = sep then some ([], s) else (splitOnce sep s).map fun p => (b :: p.1, p.2)

/-- `rsplit_once`: at the LAST separator. -/
def rsplitOnce (sep : UInt8) : Bytes → Option (Bytes × Bytes)
  | [] => none
  | b :: s =>
    match rsplitOnce sep s with
    | some p => some (b :: p.1, p.2)
    | none => if b = sep then some ([], s) else none

/-- `split(sep).next()`. -/
def firstPart (sep : UInt8) (s : Bytes) : Bytes := s.takeWhile (· ≠ sep)

theorem splitOnce_append {sep : UInt8} {x : Bytes} (h : sep ∉ x) (y : Bytes) :
    splitOnce sep (x ++ sep :: y) = some (x, y) := by
  induction x with
  | nil => exact if_pos rfl
  | cons b x ih =>
    obtain ⟨hb, hx⟩ : sep ≠ b ∧ sep ∉ x := by simpa using h
    rw [List.cons_append, splitOnce, if_neg hb.symm, ih hx]
    rfl

theorem splitOnce_eq_some {sep : UInt8} {s x y : Bytes} (h : splitOnce sep s = some (x, y)) :
    s = x ++ sep :: y := by
  induction s generalizing x with
  | nil => cases h
  | cons b s ih =>
    rw [splitOnce] at h
    split at h
    · rename_i hb
      obtain ⟨rfl, rfl⟩ := Prod.mk.inj (Option.some.inj h)
      rw [hb]
      rfl
    · obtain ⟨p, hp, heq⟩ := Option.map_eq_some_iff.mp h
      obtain ⟨rfl, rfl⟩ := Prod.mk.inj heq
      exact congrArg (b :: ·) (ih hp)

theorem rsplitOnce_none {sep : UInt8} {y : Bytes} (h : sep ∉ y) : rsplitOnce sep y = none := by
  induction y with
  | nil => rfl
  | cons b y ih =>
    obtain ⟨hb, hy⟩ : sep ≠ b ∧ sep ∉ y := by simpa using h
    rw [rsplitOnce, ih hy]
    exact if_neg hb.symm

theorem rsplitOnce_append {sep : UInt8} (x : Bytes) {y : Bytes} (h : sep ∉ y) :
    rsplitOnce sep (x ++ sep :: y) = some (x, y) := by
  induction x with
  | nil =>
    rw [List.nil_append, rsplitOnce, rsplitOnce_none h]
    exact if_pos rfl
  | cons b x ih =>
    rw [List.cons_append, rsplitOnce, ih]

theorem rsplitOnce_eq_none {sep : UInt8} {s : Bytes} (h : rsplitOnce sep s = none) : sep ∉ s := by
  induction s with
  | nil => simp
  | cons b s ih =>
    rw [rsplitOnce] at h
    split at h
    · cases h
    · rename_i hnone
      rw [ite_eq_right_iff] at h
      rw [List.mem_cons, not_or]
      refine ⟨fun hb => ?_, ih hnone⟩
      cases h hb.symm

/-- The second part goes up to the end. -/
theorem rsplitOnce_not_mem {sep : UInt8} {s x y : Bytes} (h : rsplitOnce sep s = some (x, y)) :
    sep ∉ y := by
  induction s generalizing x with
  | nil => cases h
  | cons b s ih =>
    rw [rsplitOnce] at h
    split at h
    · rename_i p hp
      obtain ⟨-, rfl⟩ := Prod.mk.inj (Option.some.inj h)
      exact ih hp
    · rename_i hnone
      rw [Option.ite_none_right_eq_some] at h
      obtain ⟨-, heq⟩ := h
      obtain ⟨-, rfl⟩ := Prod.mk.inj (Option.some.inj heq)
      exact rsplitOnce_eq_none hnone

theorem rsplitOnce_eq_some {sep : UInt8} {s x y : Bytes} (h : rsplitOnce sep s = some (x, y)) :
    s = x ++ sep :: y := by
  induction s generalizing x with
  | nil => cases h
  | cons b s ih =>
    rw [rsplitOnce] at h
    split at h
    · rename_i p hp
      obtain ⟨rfl, rfl⟩ := Prod.mk.inj (Option.some.inj h)
      rw [ih hp]
      rfl
    · rw [Option.ite_none_right_eq_some] at h
      obtain ⟨rfl, heq⟩ := h
      obtain ⟨rfl, rfl⟩ := Prod.mk.inj (Option.some.inj heq)
      rfl

theorem firstPart_append {sep : UInt8} {x : Bytes} (h : sep ∉ x) (y : Bytes) :
    firstPart sep (x ++ sep :: y) = x := by
  have hall : ∀ b ∈ x, decide (b ≠ sep) = true := fun b hb => by
    rw [decide_eq_true_eq]
    exact fun heq => h (heq ▸ hb)
  rw [firstPart, List.takeWhile_append_of_pos hall, List.takeWhile_cons_of_neg (by simp),
    List.append_nil]

/-- A text at its first separator. -/
theorem idxOf?_parts {sep : UInt8} {s : Bytes} {i : Nat} (h : s.idxOf? sep = some i) :
    s = s.take i ++ sep :: s.drop (i + 1) ∧ sep ∉ s.take i := by
  obtain ⟨hi, hat, hbefore⟩ := List.idxOf?_eq_some_iff.mp h
  constructor
  · conv_lhs => rw [← List.take_append_drop i s, List.drop_eq_getElem_cons hi, hat]
  · intro hmem
    obtain ⟨j, hj, heq⟩ := List.getElem_of_mem hmem
    rw [List.length_take] at hj
    rw [List.getElem_take] at heq
    exact hbefore j (by omega) heq

/-- The first part ends at the first separator. -/
theorem firstPart_eq (sep : UInt8) (s : Bytes) :
    firstPart sep s = match s.idxOf? sep with
      | some i => s.take i
      | none => s := by
  cases hfirst : s.idxOf? sep with
  | none =>
    have hno := List.idxOf?_eq_none_iff.mp hfirst
    rw [firstPart, List.takeWhile_eq_self_iff]
    intro b hb
    rw [decide_eq_true_iff]
    rintro rfl
    exact hno hb
  | some i =>
    obtain ⟨hparts, hno⟩ := idxOf?_parts hfirst
    conv_lhs => rw [hparts]
    exact firstPart_append hno _

/-! ## Plain text -/

theorem utf8EncodeChar_ascii {b : UInt8} (h : b < 128) :
    String.utf8EncodeChar (Char.ofNat b.toNat) = [b] := by
  have hb : b.toNat < 128 := UInt8.lt_iff_toNat_lt.mp h
  have hval : (Char.ofNat b.toNat).val.toNat = b.toNat := by
    rw [Char.ofNat, dif_pos (.inl (by omega))]
    simp [Char.ofNatAux]
  simp only [String.utf8EncodeChar, hval]
  rw [if_pos (by omega), UInt8.ofNat_toNat]

/-- ASCII text is UTF-8. -/
theorem validUtf8_ascii {s : Bytes} (h : ∀ b ∈ s, b < 128) : validUtf8 s = true := by
  rw [validUtf8, ByteArray.validateUTF8_eq_true_iff]
  refine .intro (s.map fun b => Char.ofNat b.toNat) ?_
  have hbytes : (s.map fun b => Char.ofNat b.toNat).flatMap String.utf8EncodeChar = s := by
    induction s with
    | nil => rfl
    | cons b s ih =>
      rw [List.map_cons, List.flatMap_cons, utf8EncodeChar_ascii (h b List.mem_cons_self),
        ih fun c hc => h c (List.mem_cons_of_mem b hc)]
      rfl
  apply ByteArray.ext
  rw [List.utf8Encode, hbytes, List.data_toByteArray]

theorem validUtf8_append {s t : Bytes} (hs : validUtf8 s = true) (ht : validUtf8 t = true) :
    validUtf8 (s ++ t) = true := by
  rw [validUtf8, ByteArray.validateUTF8_eq_true_iff] at hs ht ⊢
  have happend : ByteArray.mk (s ++ t).toArray = ByteArray.mk s.toArray ++ ByteArray.mk t.toArray := by
    apply ByteArray.ext
    rw [ByteArray.data_append, List.append_toArray]
  rw [happend]
  exact hs.append ht

/-- The characters with the property `White_Space`. -/
def WHITE_SPACE : List Bytes :=
  [[9], [10], [11], [12], [13], [32], [0xC2, 0x85], [0xC2, 0xA0], [0xE1, 0x9A, 0x80],
   [0xE2, 0x80, 0x80], [0xE2, 0x80, 0x81], [0xE2, 0x80, 0x82], [0xE2, 0x80, 0x83], [0xE2, 0x80, 0x84],
   [0xE2, 0x80, 0x85], [0xE2, 0x80, 0x86], [0xE2, 0x80, 0x87], [0xE2, 0x80, 0x88], [0xE2, 0x80, 0x89],
   [0xE2, 0x80, 0x8A], [0xE2, 0x80, 0xA8], [0xE2, 0x80, 0xA9], [0xE2, 0x80, 0xAF], [0xE2, 0x81, 0x9F],
   [0xE3, 0x80, 0x80]]

theorem length_white {w : Bytes} (h : w ∈ WHITE_SPACE) : 0 < w.length := by
  revert w
  decide

/-- `trim_start`. -/
def trimStart (s : Bytes) : Bytes :=
  match _hw : WHITE_SPACE.find? (·.isPrefixOf s) with
  | some w => trimStart (s.drop w.length)
  | none => s
termination_by s.length
decreasing_by
  have hpos := length_white (List.mem_of_find?_eq_some _hw)
  have hstart := List.find?_some _hw
  have hlen := (List.isPrefixOf_iff_prefix.mp hstart).length_le
  rw [List.length_drop]
  omega

/-- `trim_end`. -/
def trimEnd (s : Bytes) : Bytes :=
  match _hw : WHITE_SPACE.find? (·.isSuffixOf s) with
  | some w => trimEnd (s.take (s.length - w.length))
  | none => s
termination_by s.length
decreasing_by
  have hpos := length_white (List.mem_of_find?_eq_some _hw)
  have hend := List.find?_some _hw
  have hlen := (List.isSuffixOf_iff_suffix.mp hend).length_le
  rw [List.length_take]
  omega

/-- `str::trim`. -/
def trim (s : Bytes) : Bytes := trimEnd (trimStart s)

/-- A visible ASCII character. -/
def isGraphic (b : UInt8) : Bool := 33 ≤ b && b ≤ 126

theorem not_graphic_white {w : Bytes} (h : w ∈ WHITE_SPACE) : ∀ b ∈ w, isGraphic b = false := by
  have hall : WHITE_SPACE.all (fun w => w.all fun b => !isGraphic b) = true := by decide +kernel
  intro b hb
  have hb := List.all_eq_true.mp (List.all_eq_true.mp hall w h) b hb
  simpa using hb

/-- Text without white space is not trimmed. -/
theorem trim_graphic {s : Bytes} (h : ∀ b ∈ s, isGraphic b = true) : trim s = s := by
  have hnone {w : Bytes} (hw : w ∈ WHITE_SPACE) (hsub : w ⊆ s) : False := by
    obtain ⟨b, hb⟩ := List.exists_mem_of_length_pos (length_white hw)
    have := not_graphic_white hw b hb
    rw [h b (hsub hb)] at this
    cases this
  have hstart : WHITE_SPACE.find? (·.isPrefixOf s) = none := by
    rw [List.find?_eq_none]
    intro w hw hstart
    exact hnone hw (List.isPrefixOf_iff_prefix.mp hstart).subset
  have hend : WHITE_SPACE.find? (·.isSuffixOf s) = none := by
    rw [List.find?_eq_none]
    intro w hw hend
    exact hnone hw (List.isSuffixOf_iff_suffix.mp hend).subset
  have hkeep : trimStart s = s := by
    rw [trimStart]
    split
    · rename_i w hw
      rw [hstart] at hw
      cases hw
    · rfl
  rw [trim, hkeep, trimEnd]
  split
  · rename_i w hw
    rw [hend] at hw
    cases hw
  · rfl

/-! ## Character boundaries -/

/-- A byte of a longer UTF-8 sequence that is not its first. -/
def isContinuation (b : UInt8) : Bool := 128 ≤ b && b < 192

/-- `str::is_char_boundary`. -/
def isCharBoundary (s : Bytes) (i : Nat) : Bool :=
  if i = 0 then true
  else if i ≥ s.length then i = s.length
  else (s[i]?).any fun b => !isContinuation b

/-- `&s[start..stop]` of a string. -/
def strRange (s : Bytes) (start stop : Nat) : Option Bytes :=
  if isCharBoundary s start ∧ isCharBoundary s stop then Slice.range s start stop else none

theorem toNat_ofNat_add {m k : Nat} (h : m + k < 256) : (UInt8.ofNat (m + k)).toNat = m + k :=
  UInt8.toNat_ofNat_of_lt' h

/-- The encoding of a character: one byte below 128, or a first byte and continuations. -/
theorem utf8EncodeChar_shape (c : Char) :
    (∃ b, String.utf8EncodeChar c = [b] ∧ b < 128) ∨
      ((∃ b more, String.utf8EncodeChar c = b :: more ∧ 192 ≤ b) ∧ ∀ b ∈ String.utf8EncodeChar c, 128 ≤ b) := by
  have hbyte : ∀ {m k : Nat} (n : UInt8), m + k < 256 → n.toNat ≤ k → n ≤ UInt8.ofNat (m + k) := by
    intro m k n hlt hle
    rw [UInt8.le_iff_toNat_le, toNat_ofNat_add hlt]
    omega
  unfold String.utf8EncodeChar
  dsimp only
  split
  · rename_i hone
    refine .inl ⟨_, rfl, ?_⟩
    rw [UInt8.lt_iff_toNat_lt, UInt8.toNat_ofNat_of_lt' (by show _ < 256; omega)]
    show c.val.toNat < 128
    omega
  split
  · refine .inr ⟨⟨_, _, rfl, hbyte 192 (by omega) (by decide)⟩, ?_⟩
    simp only [List.forall_mem_cons, List.not_mem_nil, false_implies, implies_true, and_true]
    exact ⟨hbyte 128 (by omega) (by decide), hbyte 128 (by omega) (by decide)⟩
  split
  · refine .inr ⟨⟨_, _, rfl, hbyte 192 (by omega) (by decide)⟩, ?_⟩
    simp only [List.forall_mem_cons, List.not_mem_nil, false_implies, implies_true, and_true]
    exact ⟨hbyte 128 (by omega) (by decide), hbyte 128 (by omega) (by decide),
      hbyte 128 (by omega) (by decide)⟩
  · refine .inr ⟨⟨_, _, rfl, hbyte 192 (by omega) (by decide)⟩, ?_⟩
    simp only [List.forall_mem_cons, List.not_mem_nil, false_implies, implies_true, and_true]
    exact ⟨hbyte 128 (by omega) (by decide), hbyte 128 (by omega) (by decide),
      hbyte 128 (by omega) (by decide), hbyte 128 (by omega) (by decide)⟩

theorem validUtf8_iff {s : Bytes} :
    validUtf8 s = true ↔ ∃ cs : List Char, s = cs.flatMap String.utf8EncodeChar := by
  rw [validUtf8, ByteArray.validateUTF8_eq_true_iff]
  constructor
  · rintro ⟨cs, hcs⟩
    refine ⟨cs, ?_⟩
    have hdata := congrArg ByteArray.data hcs
    rw [List.utf8Encode, List.data_toByteArray] at hdata
    simpa using hdata
  · rintro ⟨cs, rfl⟩
    refine .intro cs ?_
    apply ByteArray.ext
    rw [List.utf8Encode, List.data_toByteArray]

/-- The byte behind one below 128 is not a continuation. -/
theorem next_of_ascii {cs : List Char} {i : Nat} {a b : UInt8}
    (ha : (cs.flatMap String.utf8EncodeChar)[i]? = some a) (hascii : a < 128)
    (hb : (cs.flatMap String.utf8EncodeChar)[i + 1]? = some b) : isContinuation b = false := by
  induction cs generalizing i with
  | nil => cases ha
  | cons c cs ih =>
    rw [List.flatMap_cons] at ha hb
    by_cases hi : (String.utf8EncodeChar c).length ≤ i
    · rw [List.getElem?_append_right hi] at ha
      rw [List.getElem?_append_right (by omega), Nat.sub_add_comm hi] at hb
      exact ih ha hb
    · -- the byte is its character, and the next one begins a character
      rw [List.getElem?_append_left (by omega)] at ha
      rcases utf8EncodeChar_shape c with ⟨x, hx, -⟩ | ⟨-, hall⟩
      · rw [hx] at hb hi
        obtain rfl : i = 0 := by simpa using hi
        cases cs with
        | nil => cases hb
        | cons d cs =>
          have hfirst : ∃ more, String.utf8EncodeChar d = b :: more := by
            obtain ⟨y, hy, -⟩ | ⟨⟨y, more, hy, -⟩, -⟩ := utf8EncodeChar_shape d
            · rw [List.flatMap_cons, hy] at hb
              exact ⟨[], Option.some.inj hb ▸ hy⟩
            · rw [List.flatMap_cons, hy] at hb
              exact ⟨more, Option.some.inj hb ▸ hy⟩
          obtain ⟨more, hmore⟩ := hfirst
          rw [isContinuation]
          obtain ⟨y, hy, hlow⟩ | ⟨⟨y, more', hy, hhigh⟩, -⟩ := utf8EncodeChar_shape d
          · obtain ⟨rfl, -⟩ := List.cons.inj (hmore.symm.trans hy)
            simp [UInt8.not_le.mpr hlow]
          · obtain ⟨rfl, -⟩ := List.cons.inj (hmore.symm.trans hy)
            simp [UInt8.not_lt.mpr hhigh]
      · exact absurd hascii (UInt8.not_lt.mpr (hall a (List.mem_of_getElem? ha)))

/-- **A byte below 128 is a character by itself**: it begins and ends at a boundary. -/
theorem isCharBoundary_ascii {s : Bytes} (hs : validUtf8 s = true) {i : Nat} {a : UInt8}
    (ha : s[i]? = some a) (hascii : a < 128) :
    isCharBoundary s i = true ∧ isCharBoundary s (i + 1) = true := by
  obtain ⟨cs, rfl⟩ := validUtf8_iff.mp hs
  obtain ⟨hlt, -⟩ := List.getElem?_eq_some_iff.mp ha
  constructor
  · unfold isCharBoundary
    split
    · rfl
    · rw [if_neg (by omega), ha]
      simp [isContinuation, UInt8.not_le.mpr hascii]
  · unfold isCharBoundary
    rw [if_neg (by omega)]
    split
    · exact decide_eq_true (by omega)
    · rename_i hmore
      rw [List.getElem?_eq_getElem (by omega)]
      have hnext := next_of_ascii ha hascii (List.getElem?_eq_getElem (by omega))
      rw [Option.any_some, hnext]
      rfl

theorem isCharBoundary_length (s : Bytes) : isCharBoundary s s.length = true := by
  unfold isCharBoundary
  split
  · rfl
  · rw [if_pos (Nat.le_refl _)]
    exact decide_eq_true rfl

theorem strRange_eq {s : Bytes} {start stop : Nat} (hstart : isCharBoundary s start = true)
    (hstop : isCharBoundary s stop = true) (hle : start ≤ stop) (hb : stop ≤ s.length) :
    strRange s start stop = some ((s.take stop).drop start) := by
  rw [strRange, if_pos ⟨hstart, hstop⟩, Slice.range_of_le hle hb]

/-! ## Decimal numbers -/

def digit (d : Nat) : UInt8 := UInt8.ofNat (48 + d)

/-- `Display` of an unsigned integer. -/
def decimal (n : Nat) : Bytes :=
  if n = 0 then [digit 0] else (Nat.digits 10 n).reverse.map digit

/-- One digit of `from_str_radix(10)`, with its checked multiplication and addition. -/
def pushDigit (bound acc : Nat) (b : UInt8) : Option Nat :=
  if 48 ≤ b ∧ b ≤ 57 then
    let v := acc * 10 + (b.toNat - 48)
    if v < bound then some v else none
  else none

/-- `str::parse` for an unsigned type with `bound` values: an optional `+` and digits. -/
def parseUnsigned (bound : Nat) : Bytes → Option Nat
  | [] => none
  | [43] => none
  | 43 :: ds => ds.foldlM (pushDigit bound) 0
  | ds => ds.foldlM (pushDigit bound) 0

theorem toNat_digit {d : Nat} (h : d < 10) : (digit d).toNat = 48 + d := by
  rw [digit, UInt8.toNat_ofNat']
  omega

theorem pushDigit_digit {bound acc d : Nat} (hd : d < 10) (h : acc * 10 + d < bound) :
    pushDigit bound acc (digit d) = some (acc * 10 + d) := by
  have hn := toNat_digit hd
  have hrange : 48 ≤ digit d ∧ digit d ≤ 57 := by
    rw [UInt8.le_iff_toNat_le, UInt8.le_iff_toNat_le, hn]
    show 48 ≤ 48 + d ∧ 48 + d ≤ 57
    omega
  have hv : acc * 10 + ((digit d).toNat - 48) = acc * 10 + d := by omega
  rw [pushDigit, if_pos hrange]
  dsimp only
  rw [hv, if_pos h]

/-- Digits, most significant first, are read as the number they write. -/
theorem foldlM_digits {bound : Nat} (ds : List Nat) (hds : ∀ d ∈ ds, d < 10)
    (h : ds.foldl (fun acc d => acc * 10 + d) 0 < bound) :
    (ds.map digit).foldlM (pushDigit bound) 0 =
      some (ds.foldl (fun acc d => acc * 10 + d) 0) := by
  induction ds using List.reverseRecOn with
  | nil => rfl
  | append_singleton ds d ih =>
    rw [List.foldl_append] at h ⊢
    have hlt : ds.foldl (fun acc d => acc * 10 + d) 0 * 10 + d < bound := h
    rw [List.map_append, List.foldlM_append,
      ih (fun x hx => hds x (List.mem_append_left _ hx)) (by omega)]
    simp only [Option.bind_eq_bind, Option.bind_some, List.map_cons, List.map_nil, List.foldlM_cons,
      List.foldlM_nil, List.foldl_cons, List.foldl_nil]
    rw [pushDigit_digit (hds d (by simp)) hlt]
    rfl

theorem foldl_digits_reverse (n : Nat) :
    (Nat.digits 10 n).reverse.foldl (fun acc d => acc * 10 + d) 0 = n := by
  rw [List.foldl_reverse]
  conv_rhs => rw [← Nat.ofDigits_digits 10 n, Nat.ofDigits_eq_foldr]
  congr 1
  funext d acc
  simp only [Nat.cast_id]
  omega

theorem mem_decimal {n : Nat} {b : UInt8} (h : b ∈ decimal n) : ∃ d, d < 10 ∧ b = digit d := by
  rw [decimal] at h
  split at h
  · exact ⟨0, by omega, List.mem_singleton.mp h⟩
  · obtain ⟨d, hd, rfl⟩ := List.mem_map.mp h
    exact ⟨d, Nat.digits_lt_base (by omega) (List.mem_reverse.mp hd), rfl⟩

/-- A decimal text has only digits. -/
theorem decimal_between {n : Nat} {b : UInt8} (h : b ∈ decimal n) :
    48 ≤ b.toNat ∧ b.toNat ≤ 57 := by
  obtain ⟨d, hd, rfl⟩ := mem_decimal h
  rw [toNat_digit hd]
  omega

theorem not_mem_decimal {n : Nat} {b : UInt8} (h : b.toNat < 48 ∨ 57 < b.toNat) :
    b ∉ decimal n := by
  intro hb
  have := decimal_between hb
  omega

theorem parseUnsigned_digits {bound : Nat} {s : Bytes} (hne : s ≠ []) (hplus : 43 ∉ s) :
    parseUnsigned bound s = s.foldlM (pushDigit bound) 0 := by
  match s with
  | [] => exact absurd rfl hne
  | b :: s =>
    have hb : b ≠ 43 := fun heq => hplus (heq ▸ List.mem_cons_self)
    rw [parseUnsigned]
    · exact hne
    · intro heq
      exact hb (List.cons.inj heq).1
    · intro ds heq
      exact hb (List.cons.inj heq).1

/-- **A number is read back** from its decimal text. -/
theorem parseUnsigned_decimal {bound n : Nat} (h : n < bound) :
    parseUnsigned bound (decimal n) = some n := by
  have hplus : (43 : UInt8) ∉ decimal n := not_mem_decimal (.inl (by decide))
  by_cases h0 : n = 0
  · subst h0
    rw [parseUnsigned_digits (by simp [decimal]) hplus]
    show (List.map digit [0]).foldlM (pushDigit bound) 0 = some 0
    exact foldlM_digits [0] (by simp) h
  · have hne : decimal n ≠ [] := by
      rw [decimal, if_neg h0]
      simpa using Nat.digits_ne_nil_iff_ne_zero.mpr h0
    rw [parseUnsigned_digits hne hplus, decimal, if_neg h0, foldlM_digits, foldl_digits_reverse]
    · intro d hd
      exact Nat.digits_lt_base (by omega) (List.mem_reverse.mp hd)
    · rw [foldl_digits_reverse]
      exact h

end Text
