/-
  What the domain rules match (`domain_to_fst_key`, `DomainFst::matches`, and `build` in
  `src/bypass/mod.rs`).

  1. **Specification (`LabelSuffix`)** — without dots at its ends a name is a list of labels.  A rule
     matches a host if its labels are the last labels of the host's, letter case apart.

  2. **Scanning** — the code finds the labels from the end, with two indices into the bytes
     (`domainToFstKeyScan`, `matchesScan`).  That gives the labels of `Bypass`, because a name without a
     dot in front is not left early (`keyScan_eq`, `matchScan_eq`).

  3. **Keys** — a key is the labels from the last to the first, in lower case and with a zero byte
     between them.  Without zero bytes in the labels it determines them (`key_inj`).

  4. **The set** — the keys are sorted and each is kept once, so the set is built from strictly
     increasing keys and contains exactly them (`sortedKeys_increasing`, `mem_sortedKeys`).

  The theorem is `matchDomain_iff_suffix`.
-/
import Httproxy.Client.Bypass

namespace Httproxy.Bypass

open Bytes Text Proxy

/-! ## Specification -/

/-- The labels of `rule` are the last labels of `host`, letter case apart. -/
def LabelSuffix (rule host : Bytes) : Prop :=
  ∃ last, last <:+ (trimDots host).splitOn 46 ∧
    List.Forall₂ (fun a b => eqIgnoreAsciiCase a b = true) ((trimDots rule).splitOn 46) last

/-- What `fst` promises: a set from strictly increasing keys contains exactly them. -/
def Tables.ExactSets (lib : Tables) : Prop :=
  ∀ keys : List Bytes, keys.Pairwise (· < ·) →
    ∃ set, lib.setOf keys = some set ∧ ∀ key, lib.contains set key = true ↔ key ∈ keys

/-! ## Scanning -/

/-- `while start > 0 && bytes[start - 1] != b'.' { start -= 1; }`. -/
def labelStart (bytes : Bytes) : Nat → Nat
  | 0 => 0
  | start + 1 => if bytes.getD start 0 = 46 then start + 1 else labelStart bytes start

theorem labelStart_le (bytes : Bytes) (stop : Nat) : labelStart bytes stop ≤ stop := by
  induction stop with
  | zero => exact Nat.le_refl 0
  | succ stop ih =>
    unfold labelStart
    split
    · exact Nat.le_refl _
    · omega

/-- The loop of `domain_to_fst_key`, from `stop` on. -/
def keyScan (bytes : Bytes) (stop : Nat) (first : Bool) (buf : Bytes) : Bytes :=
  if _h : stop > 0 then
    let start := labelStart bytes stop
    let buf := pushLabel first buf (slice bytes start stop)
    keyScan bytes (if start > 0 then start - 1 else 0) false buf
  else buf
termination_by stop
decreasing_by
  have := labelStart_le bytes stop
  split <;> omega

/-- `domain_to_fst_key`. -/
def domainToFstKeyScan (domain : Bytes) : Option Bytes :=
  let domain := trimDots domain
  if domain = [] then none else some (keyScan domain domain.length true [])

/-- The loop of `DomainFst::matches`. -/
def matchScan (contains : Bytes → Bool) (bytes : Bytes) (stop : Nat) (first : Bool) (buf : Bytes) :
    Bool :=
  if _h : stop > 0 then
    let start := labelStart bytes stop
    let buf := pushLabel first buf (slice bytes start stop)
    if contains buf then true
    else matchScan contains bytes (if start > 0 then start - 1 else 0) false buf
  else false
termination_by stop
decreasing_by
  have := labelStart_le bytes stop
  split <;> omega

/-- `DomainFst::matches`. -/
def matchesScan (contains : Bytes → Bool) (domain : Bytes) : Bool :=
  let domain := trimDots domain
  if domain = [] then false else matchScan contains domain domain.length true []

/-- Where the last label starts: behind a dot, with none in it. -/
theorem labelStart_spec {bytes : Bytes} {stop : Nat} (h : stop ≤ bytes.length) :
    46 ∉ slice bytes (labelStart bytes stop) stop ∧
      (0 < labelStart bytes stop → bytes.take stop =
        bytes.take (labelStart bytes stop - 1) ++ 46 :: slice bytes (labelStart bytes stop) stop) := by
  induction stop with
  | zero =>
    refine ⟨?_, fun hpos => absurd hpos (Nat.lt_irrefl 0)⟩
    show 46 ∉ (bytes.take 0).drop 0
    rw [List.take_zero, List.drop_nil]
    exact List.not_mem_nil
  | succ stop ih =>
    have hlt : stop < bytes.length := h
    have htake : bytes.take (stop + 1) = bytes.take stop ++ [bytes[stop]] :=
      List.take_succ_eq_append_getElem hlt
    unfold labelStart
    rw [List.getD_eq_getElem _ _ hlt]
    split
    · rename_i hdot
      have hempty : slice bytes (stop + 1) (stop + 1) = [] := by
        rw [slice, List.drop_eq_nil_iff, List.length_take]
        omega
      rw [hempty]
      refine ⟨List.not_mem_nil, fun _ => ?_⟩
      rw [htake, hdot]
      rfl
    · rename_i hother
      obtain ⟨hno, hsplit⟩ := ih (Nat.le_of_lt hlt)
      have hle := labelStart_le bytes stop
      have hmore : slice bytes (labelStart bytes stop) (stop + 1) =
          slice bytes (labelStart bytes stop) stop ++ [bytes[stop]] := by
        rw [slice, htake, List.drop_append_of_le_length (by rw [List.length_take]; omega)]
        rfl
      rw [hmore]
      constructor
      · rw [List.mem_append, List.mem_singleton, not_or]
        exact ⟨hno, fun heq => hother heq.symm⟩
      · intro hpos
        rw [htake, hsplit hpos, List.append_assoc, List.cons_append]

/-! ## Labels -/

theorem labels_no_dot {label : Bytes} (h : 46 ∉ label) : labels label = [label] := by
  rw [labels, List.splitOn_eq_singleton h]
  rfl

theorem labels_snoc (front : Bytes) {label : Bytes} (h : 46 ∉ label) :
    labels (front ++ 46 :: label) = label :: labels front := by
  rw [labels, List.splitOn_append_cons_self, List.splitOn_eq_singleton h, List.reverse_append]
  rfl

/-- The label that a scan finds is the last one, and the next scan ends behind the ones before it. -/
theorem labels_take {bytes : Bytes} {stop : Nat} (h : stop ≤ bytes.length)
    (hhead : bytes.head? ≠ some 46) (hstop : 0 < stop) :
    (labelStart bytes stop = 0 ∧
      labels (bytes.take stop) = [slice bytes (labelStart bytes stop) stop]) ∨
    (0 < labelStart bytes stop - 1 ∧ labels (bytes.take stop) =
      slice bytes (labelStart bytes stop) stop ::
        labels (bytes.take (labelStart bytes stop - 1))) := by
  obtain ⟨hno, hsplit⟩ := labelStart_spec h
  rcases Nat.eq_zero_or_pos (labelStart bytes stop) with hzero | hpos
  · refine .inl ⟨hzero, ?_⟩
    rw [hzero] at hno ⊢
    have hall : slice bytes 0 stop = bytes.take stop := List.drop_zero
    rw [hall] at hno ⊢
    exact labels_no_dot hno
  · refine .inr ⟨?_, by rw [hsplit hpos]; exact labels_snoc _ hno⟩
    by_contra hend
    -- otherwise the name begins with the dot
    have htake := hsplit hpos
    rw [show labelStart bytes stop - 1 = 0 by omega, List.take_zero, List.nil_append] at htake
    apply hhead
    have hfirst : (bytes.take stop).head? = bytes.head? := by
      rw [List.head?_take, if_neg (by omega)]
    rw [← hfirst, htake]
    rfl

theorem keyScan_eq {bytes : Bytes} (hhead : bytes.head? ≠ some 46) (stop : Nat) (first : Bool)
    (buf : Bytes) (hle : stop ≤ bytes.length) (hstop : 0 < stop) :
    keyScan bytes stop first buf = keyLoop first buf (labels (bytes.take stop)) := by
  fun_induction keyScan bytes stop first buf with
  | case1 stop first buf h start buf' ih =>
    have hstart : start ≤ stop := labelStart_le bytes stop
    rcases labels_take hle hhead hstop with ⟨hzero, hlabels⟩ | ⟨hpos, hlabels⟩
    · rw [hlabels, if_neg (show ¬ start > 0 by omega), keyScan, dif_neg (Nat.lt_irrefl 0)]
      rfl
    · have hmore : start > 0 := by omega
      rw [dif_pos hmore] at ih
      rw [if_pos hmore]
      rw [hlabels, ih (by omega) hpos]
      rfl
  | case2 => omega

theorem matchScan_eq {contains : Bytes → Bool} {bytes : Bytes} (hhead : bytes.head? ≠ some 46)
    (stop : Nat) (first : Bool) (buf : Bytes) (hle : stop ≤ bytes.length) (hstop : 0 < stop) :
    matchScan contains bytes stop first buf =
      matchLoop contains first buf (labels (bytes.take stop)) := by
  fun_induction matchScan contains bytes stop first buf with
  | case1 stop first buf h start buf' hfound =>
    -- whatever is behind this label, the lookup stops here
    obtain ⟨more, hlabels⟩ : ∃ more, labels (bytes.take stop) = slice bytes start stop :: more := by
      rcases labels_take hle hhead hstop with ⟨-, hlabels⟩ | ⟨-, hlabels⟩
      · exact ⟨[], hlabels⟩
      · exact ⟨_, hlabels⟩
    rw [hlabels, matchLoop]
    show true = (contains buf' || _)
    rw [hfound, Bool.true_or]
  | case2 stop first buf h start buf' hnone ih =>
    have hstart : start ≤ stop := labelStart_le bytes stop
    have hfalse : contains buf' = false := by simpa using hnone
    rcases labels_take hle hhead hstop with ⟨hzero, hlabels⟩ | ⟨hpos, hlabels⟩
    · rw [hlabels, if_neg (show ¬ start > 0 by omega), matchScan, dif_neg (Nat.lt_irrefl 0), matchLoop]
      show false = (contains buf' || false)
      rw [hfalse]
      rfl
    · have hmore : start > 0 := by omega
      rw [dif_pos hmore] at ih
      rw [if_pos hmore]
      rw [hlabels, ih (by omega) hpos, matchLoop]
      show _ = (contains buf' || _)
      rw [hfalse, Bool.false_or]
  | case3 => omega

/-- A trimmed name does not begin with a dot. -/
theorem head_trimDots (domain : Bytes) : (trimDots domain).head? ≠ some 46 := by
  obtain ⟨rest, hrest⟩ : ∃ rest, domain.dropWhile (· == 46) = rest := ⟨_, rfl⟩
  have hhead : rest.head? ≠ some 46 := by
    intro hdot
    have hnot := List.head?_dropWhile_not (· == 46) domain
    rw [hrest, hdot] at hnot
    cases hnot
  rw [trimDots, hrest]
  obtain ⟨dots, hdots⟩ := List.rdropWhile_prefix (· == 46) rest
  intro hdot
  cases htrim : rest.rdropWhile (· == 46) with
  | nil =>
    rw [htrim] at hdot
    cases hdot
  | cons b more =>
    rw [htrim] at hdots hdot
    apply hhead
    rw [← hdots]
    exact hdot

/-- **The scans find the labels.** -/
theorem domainToFstKeyScan_eq (domain : Bytes) :
    domainToFstKeyScan domain = domainToFstKey domain := by
  unfold domainToFstKeyScan domainToFstKey
  dsimp only
  split
  · rfl
  · rename_i hne
    rw [keyScan_eq (head_trimDots domain) _ _ _ (Nat.le_refl _) (List.length_pos_of_ne_nil hne),
      List.take_length]

theorem matchesScan_eq {lib : Tables} (rules : Rules lib) (domain : Bytes) :
    matchesScan (lib.contains rules.domainFst) domain = matchDomain rules domain := by
  unfold matchesScan matchDomain
  dsimp only
  split
  · rfl
  · rename_i hne
    rw [matchScan_eq (head_trimDots domain) _ _ _ (Nat.le_refl _) (List.length_pos_of_ne_nil hne),
      List.take_length]

/-! ## Keys -/

/-- The labels of a key. -/
def lowered (ls : List Bytes) : List Bytes := ls.map fun label => label.map toAsciiLowercase

theorem keyLoop_cons (buf label : Bytes) (more : List Bytes) :
    keyLoop true buf (label :: more) = buf ++ List.intercalate [0] (lowered (label :: more)) := by
  have hmore : ∀ (more : List Bytes) (buf label : Bytes),
      keyLoop false (buf ++ label.map toAsciiLowercase) more =
        buf ++ List.intercalate [0] (lowered (label :: more)) := by
    intro more
    induction more with
    | nil =>
      intro buf label
      show _ = buf ++ List.intercalate [0] [label.map toAsciiLowercase]
      rw [List.intercalate_singleton]
      rfl
    | cons next more ih =>
      intro buf label
      have hpush : pushLabel false (buf ++ label.map toAsciiLowercase) next =
          (buf ++ label.map toAsciiLowercase ++ [0]) ++ next.map toAsciiLowercase := rfl
      rw [keyLoop, hpush, ih]
      show _ = buf ++ List.intercalate [0]
        (label.map toAsciiLowercase :: next.map toAsciiLowercase :: lowered more)
      rw [List.intercalate_cons_cons]
      simp only [List.append_assoc]
      rfl
  exact hmore more buf label

/-- Letters become letters: a byte below them is not made and not lost. -/
theorem toAsciiLowercase_eq_iff {b c : UInt8} (hc : c.toNat < 65) :
    toAsciiLowercase b = c ↔ b = c := by
  unfold toAsciiLowercase
  split
  · rename_i hupper
    have hlow : 65 ≤ b.toNat := hupper.1
    have hhigh : b.toNat ≤ 90 := hupper.2
    constructor
    · intro heq
      have hnat := congrArg UInt8.toNat heq
      rw [UInt8.toNat_add] at hnat
      have hsum : (b.toNat + 32) % 2 ^ 8 = c.toNat := hnat
      omega
    · rintro rfl
      omega
  · exact Iff.rfl

/-- **A key determines its labels**, when they have no zero bytes. -/
theorem key_inj {ls ms : List Bytes} (hls : ∀ l ∈ ls, 0 ∉ l) (hms : ∀ l ∈ ms, 0 ∉ l)
    (hl : ls ≠ []) (hm : ms ≠ []) (h : keyLoop true [] ls = keyLoop true [] ms) :
    lowered ls = lowered ms := by
  -- the zero bytes of a key are its separators, so it can be split again
  have hsplit : ∀ {ls : List Bytes}, (∀ l ∈ ls, 0 ∉ l) → ls ≠ [] →
      (keyLoop true [] ls).splitOn 0 = lowered ls := by
    intro ls hls hne
    obtain ⟨label, more, rfl⟩ := List.exists_cons_of_ne_nil hne
    rw [keyLoop_cons, List.nil_append]
    apply List.splitOn_intercalate
    · intro l hmem hzero
      obtain ⟨l', hl', rfl⟩ := List.mem_map.mp hmem
      obtain ⟨b, hb, heq⟩ := List.mem_map.mp hzero
      rw [toAsciiLowercase_eq_iff (by decide)] at heq
      rw [heq] at hb
      exact hls l' hl' hb
    · simp [lowered]
  rw [← hsplit hls hl, ← hsplit hms hm, h]

/-- The lookup takes the labels from the last one on, and stops at the first run that is a key. -/
theorem matchLoop_iff (contains : Bytes → Bool) (first : Bool) (buf : Bytes) (ls : List Bytes) :
    matchLoop contains first buf ls = true ↔
      ∃ run, run ≠ [] ∧ run <+: ls ∧ contains (keyLoop first buf run) = true := by
  induction ls generalizing first buf with
  | nil =>
    constructor
    · rintro ⟨⟩
    · rintro ⟨run, hne, hrun, -⟩
      exact absurd (List.prefix_nil.mp hrun) hne
  | cons label more ih =>
    rw [matchLoop, Bool.or_eq_true, ih]
    constructor
    · rintro (hhere | ⟨run, hne, hrun, hlater⟩)
      · exact ⟨[label], by simp, ⟨more, rfl⟩, hhere⟩
      · exact ⟨label :: run, by simp, List.cons_prefix_cons.mpr ⟨rfl, hrun⟩, hlater⟩
    · rintro ⟨run, hne, hrun, hcontains⟩
      obtain ⟨label', run', rfl⟩ := List.exists_cons_of_ne_nil hne
      obtain ⟨rfl, hrun'⟩ := List.cons_prefix_cons.mp hrun
      -- a run of one label is found here, a longer one later
      by_cases hend : run' = []
      · subst hend
        exact .inl hcontains
      · exact .inr ⟨run', hend, hrun', hcontains⟩

/-! ## The set -/

theorem sortedKeys_increasing (keys : List Bytes) : (sortedKeys keys).Pairwise (· < ·) := by
  have hsorted : (keys.mergeSort fun a b => decide (a ≤ b)).Pairwise (· ≤ ·) := by
    have hpairs := @List.pairwise_mergeSort _ (fun a b : Bytes => decide (a ≤ b))
      (fun a b c hab hbc => decide_eq_true (List.le_trans (of_decide_eq_true hab)
        (of_decide_eq_true hbc)))
      (fun a b => by
        rw [Bool.or_eq_true, decide_eq_true_eq, decide_eq_true_eq]
        exact List.le_total a b) keys
    exact hpairs.imp fun h => of_decide_eq_true h
  have hle : (sortedKeys keys).IsChain (· ≤ ·) :=
    (hsorted.sublist (List.destutter_sublist (· ≠ ·) _)).isChain
  have hne : (sortedKeys keys).IsChain (· ≠ ·) := List.isChain_destutter (· ≠ ·) _
  -- neighbours are in order, and not equal
  have hlt : (sortedKeys keys).IsChain (· < ·) := by
    rw [List.isChain_iff_getElem] at hle hne ⊢
    intro i hi
    by_contra hnot
    exact hne i hi (List.le_antisymm (hle i hi) (List.not_lt.mp hnot))
  exact List.isChain_iff_pairwise.mp hlt

theorem mem_sortedKeys {keys : List Bytes} {key : Bytes} : key ∈ sortedKeys keys ↔ key ∈ keys := by
  have hkeep : ∀ (keys : List Bytes) (first : Bytes),
      key ∈ keys.destutter' (· ≠ ·) first ↔ key ∈ first :: keys := by
    intro keys
    induction keys with
    | nil =>
      intro first
      exact Iff.rfl
    | cons next keys ih =>
      intro first
      rw [List.destutter'_cons]
      split
      · rw [List.mem_cons, ih, ← List.mem_cons]
      -- only a copy of the key before it is left out
      · rename_i hsame
        obtain rfl := not_not.mp hsame
        rw [ih]
        simp
  rw [sortedKeys, ← @List.mem_mergeSort _ (fun a b : Bytes => decide (a ≤ b)) key keys]
  cases keys.mergeSort fun a b => decide (a ≤ b) with
  | nil => exact Iff.rfl
  | cons first rest =>
    rw [List.destutter_cons']
    exact hkeep rest first

/-! ## Matching -/

theorem mem_of_splitOn {sep b : UInt8} {s label : Bytes} (hl : label ∈ s.splitOn sep)
    (hb : b ∈ label) : b ∈ s := by
  induction s generalizing label with
  | nil =>
    rw [List.splitOn_nil, List.mem_singleton] at hl
    rw [hl] at hb
    cases hb
  | cons c s ih =>
    rw [List.splitOn_cons_eq_if_modifyHead] at hl
    split at hl
    · rcases List.mem_cons.mp hl with rfl | hl
      · cases hb
      · exact List.mem_cons_of_mem _ (ih hl hb)
    · obtain ⟨first, more, hcons⟩ := List.exists_cons_of_ne_nil (List.splitOn_ne_nil sep s)
      rw [hcons, List.modifyHead_cons] at hl
      rcases List.mem_cons.mp hl with rfl | hl
      · rcases List.mem_cons.mp hb with rfl | hb
        · exact List.mem_cons_self
        · exact List.mem_cons_of_mem _ (ih (hcons ▸ List.mem_cons_self) hb)
      · exact List.mem_cons_of_mem _ (ih (hcons ▸ List.mem_cons_of_mem _ hl) hb)

theorem trimDots_subset (domain : Bytes) : trimDots domain ⊆ domain :=
  fun _ h => (List.dropWhile_suffix _).subset ((List.rdropWhile_prefix _ _).subset h)

theorem labels_nul_free {domain : Bytes} (h : 0 ∉ domain) :
    ∀ label ∈ labels (trimDots domain), 0 ∉ label := by
  intro label hmem hzero
  rw [labels, List.mem_reverse] at hmem
  exact h (trimDots_subset domain (mem_of_splitOn hmem hzero))

theorem labels_ne_nil (domain : Bytes) : labels domain ≠ [] := by
  rw [labels, Ne, List.reverse_eq_nil_iff]
  exact List.splitOn_ne_nil 46 domain

theorem forall₂_lowered {ls ms : List Bytes} :
    List.Forall₂ (fun a b => eqIgnoreAsciiCase a b = true) ls ms ↔ lowered ls = lowered ms := by
  rw [lowered, lowered, ← List.forall₂_eq_eq_eq, List.forall₂_map_left_iff,
    List.forall₂_map_right_iff]
  simp only [eqIgnoreAsciiCase, decide_eq_true_eq]

/-- The specification on the labels as the loops have them. -/
theorem labelSuffix_iff (rule host : Bytes) :
    LabelSuffix rule host ↔ ∃ run, run <+: labels (trimDots host) ∧
      lowered (labels (trimDots rule)) = lowered run := by
  have hreverse : ∀ ls ms : List Bytes, lowered ls.reverse = lowered ms.reverse ↔
      lowered ls = lowered ms := by
    intro ls ms
    rw [lowered, lowered, List.map_reverse, List.map_reverse, List.reverse_inj]
    rfl
  constructor
  · rintro ⟨last, hlast, hpairs⟩
    exact ⟨last.reverse, List.reverse_prefix.mpr hlast, (hreverse _ _).mpr (forall₂_lowered.mp hpairs)⟩
  · rintro ⟨run, hrun, heq⟩
    refine ⟨run.reverse, ?_, ?_⟩
    · rw [← List.reverse_prefix, List.reverse_reverse]
      exact hrun
    · rw [forall₂_lowered, ← hreverse, List.reverse_reverse]
      exact heq

theorem intercalate_append {sep : UInt8} {front pieces : List Bytes} (hf : front ≠ [])
    (hp : pieces ≠ []) : List.intercalate [sep] (front ++ pieces) =
      List.intercalate [sep] front ++ sep :: List.intercalate [sep] pieces := by
  induction front with
  | nil => exact absurd rfl hf
  | cons piece front ih =>
    rw [List.cons_append, List.intercalate_cons_of_ne_nil (by simp [hp])]
    by_cases hend : front = []
    · subst hend
      rw [List.intercalate_singleton, List.append_assoc]
      rfl
    · rw [ih hend, List.intercalate_cons_of_ne_nil hend]
      simp only [List.append_assoc]

/-- A list of pieces is a suffix of another if and only if the joined text is one, behind a separator
    or from the start. -/
theorem splitOn_suffix_iff {sep : UInt8} {x y : Bytes} :
    y.splitOn sep <:+ x.splitOn sep ↔ x = y ∨ ∃ front, x = front ++ sep :: y := by
  constructor
  · rintro ⟨front, hfront⟩
    have hx : List.intercalate [sep] (x.splitOn sep) = x := List.intercalate_splitOn sep
    have hy : List.intercalate [sep] (y.splitOn sep) = y := List.intercalate_splitOn sep
    rw [← hfront] at hx
    by_cases hempty : front = []
    · subst hempty
      exact .inl (hx.symm.trans hy)
    · rw [intercalate_append hempty (List.splitOn_ne_nil sep y), hy] at hx
      exact .inr ⟨_, hx.symm⟩
  · rintro (rfl | ⟨front, rfl⟩)
    · exact List.suffix_refl _
    · rw [List.splitOn_append_cons_self]
      exact List.suffix_append _ _

theorem splitOn_lower (s : Bytes) :
    (s.map toAsciiLowercase).splitOn 46 = lowered (s.splitOn 46) := by
  induction s with
  | nil => rfl
  | cons b s ih =>
    rw [List.map_cons, List.splitOn_cons_eq_if_modifyHead, List.splitOn_cons_eq_if_modifyHead, ih]
    have hdot : (toAsciiLowercase b == 46) = (b == 46) := by
      rw [Bool.eq_iff_iff, beq_iff_eq, beq_iff_eq]
      exact toAsciiLowercase_eq_iff (by decide)
    rw [hdot]
    split
    · rfl
    · obtain ⟨first, more, hcons⟩ := List.exists_cons_of_ne_nil (List.splitOn_ne_nil 46 s)
      rw [hcons]
      rfl

/-- The specification on the text: the host is the rule, or ends in it behind a dot. -/
theorem labelSuffix_iff_text (rule host : Bytes) :
    LabelSuffix rule host ↔
      (trimDots host).map toAsciiLowercase = (trimDots rule).map toAsciiLowercase ∨
        ∃ front, (trimDots host).map toAsciiLowercase =
          front ++ 46 :: (trimDots rule).map toAsciiLowercase := by
  rw [← splitOn_suffix_iff, splitOn_lower, splitOn_lower]
  show _ ↔ _ <:+ List.map _ _
  rw [List.suffix_map_iff, LabelSuffix]
  simp only [forall₂_lowered]
  rfl

theorem domainToFstKey_eq_some {domain key : Bytes} :
    domainToFstKey domain = some key ↔
      trimDots domain ≠ [] ∧ keyLoop true [] (labels (trimDots domain)) = key := by
  unfold domainToFstKey
  dsimp only
  split
  · rename_i hnil
    simp [hnil]
  · rename_i hne
    simp [hne]

variable {lib : Tables}

theorem addDomains_eq (b : Builder lib) (rules : List Bytes) :
    rules.foldl Builder.addDomain b =
      { b with domainKeys := b.domainKeys ++ rules.filterMap domainToFstKey } := by
  induction rules generalizing b with
  | nil =>
    rw [List.foldl_nil, List.filterMap_nil, List.append_nil]
  | cons rule rules ih =>
    rw [List.foldl_cons, ih, List.filterMap_cons, Builder.addDomain]
    cases domainToFstKey rule with
    | none => rfl
    | some key =>
      dsimp only
      rw [List.append_assoc]
      rfl

/-- **The lookup in a set of the rules' keys.** -/
theorem matchDomain_iff {built : Rules lib} {rules : List Bytes} (hrules : ∀ r ∈ rules, 0 ∉ r)
    (hset : ∀ key, lib.contains built.domainFst key = true ↔
      key ∈ rules.filterMap domainToFstKey) {d : Bytes} (hd : 0 ∉ d) :
    matchDomain built d = true ↔
      trimDots d ≠ [] ∧ ∃ r ∈ rules, trimDots r ≠ [] ∧ LabelSuffix r d := by
  unfold matchDomain
  dsimp only
  split
  · rename_i hnil
    simp [hnil]
  · rename_i hne
    rw [matchLoop_iff]
    constructor
    · rintro ⟨run, hrun, hfront, hcontains⟩
      obtain ⟨r, hr, hkey⟩ := List.mem_filterMap.mp ((hset _).mp hcontains)
      obtain ⟨hrne, hkey⟩ := domainToFstKey_eq_some.mp hkey
      refine ⟨hne, r, hr, hrne, (labelSuffix_iff r d).mpr ⟨run, hfront, ?_⟩⟩
      exact key_inj (labels_nul_free (hrules r hr))
        (fun l hl => labels_nul_free hd l (hfront.subset hl)) (labels_ne_nil _) hrun hkey
    · rintro ⟨-, r, hr, hrne, hsuffix⟩
      obtain ⟨run, hfront, heq⟩ := (labelSuffix_iff r d).mp hsuffix
      have hrun : run ≠ [] := by
        rintro rfl
        exact labels_ne_nil _ (List.map_eq_nil_iff.mp heq)
      refine ⟨run, hrun, hfront, (hset _).mpr (List.mem_filterMap.mpr ⟨r, hr, ?_⟩)⟩
      rw [domainToFstKey_eq_some]
      refine ⟨hrne, ?_⟩
      obtain ⟨a, as, hra⟩ := List.exists_cons_of_ne_nil (labels_ne_nil (trimDots r))
      obtain ⟨b, bs, rfl⟩ := List.exists_cons_of_ne_nil hrun
      rw [hra] at heq ⊢
      rw [keyLoop_cons, keyLoop_cons, heq]

theorem build_ok {b : Builder lib} {set : lib.Set}
    (h : lib.setOf (sortedKeys b.domainKeys) = some set) : b.build = .ok ⟨set, b.ipTable⟩ := by
  rw [Builder.build, h]

/-- The set of the rules can be built, and contains their keys. -/
theorem build_domains (hlib : lib.ExactSets) (rules : List Bytes) :
    ∃ built, (rules.foldl Builder.addDomain (Builder.new lib)).build = .ok built ∧
      ∀ key, lib.contains built.domainFst key = true ↔ key ∈ rules.filterMap domainToFstKey := by
  -- the keys are sorted and without copies, as the builder of the set wants them
  obtain ⟨set, hset, hmem⟩ := hlib _ (sortedKeys_increasing (rules.filterMap domainToFstKey))
  have hkeys : (rules.foldl Builder.addDomain (Builder.new lib)).domainKeys =
      rules.filterMap domainToFstKey := by
    rw [addDomains_eq]
    exact List.nil_append _
  exact ⟨_, build_ok (hkeys ▸ hset), fun key => (hmem key).trans mem_sortedKeys⟩

/-- **Domain bypass is label-suffix matching.**  The set of the rules can be built; a name is matched
    if and only if its last labels are those of a rule; and neither the order nor the multiplicity of
    the rules matters.  The scans over the bytes do the same as the loops over the labels. -/
theorem matchDomain_iff_suffix (lib : Tables) (hlib : lib.ExactSets) (rules : List Bytes)
    (hrules : ∀ r ∈ rules, 0 ∉ r) :
    (∃ built, (rules.foldl Builder.addDomain (Builder.new lib)).build = .ok built ∧
      (∀ d, 0 ∉ d → (matchDomain built d = true ↔
        trimDots d ≠ [] ∧ ∃ r ∈ rules, trimDots r ≠ [] ∧ LabelSuffix r d)) ∧
      (∀ d, matchesScan (lib.contains built.domainFst) d = matchDomain built d) ∧
      ∀ others : List Bytes, (∀ r, r ∈ others ↔ r ∈ rules) → ∃ built',
        (others.foldl Builder.addDomain (Builder.new lib)).build = .ok built' ∧
        ∀ d, 0 ∉ d → matchDomain built' d = matchDomain built d) ∧
    ∀ r, domainToFstKeyScan r = domainToFstKey r := by
  refine ⟨?_, domainToFstKeyScan_eq⟩
  obtain ⟨built, hbuild, hset⟩ := build_domains hlib rules
  refine ⟨built, hbuild, fun d hd => matchDomain_iff hrules hset hd, matchesScan_eq built, ?_⟩
  intro others hsame
  obtain ⟨built', hbuild', hset'⟩ := build_domains hlib others
  refine ⟨built', hbuild', fun d hd => ?_⟩
  rw [Bool.eq_iff_iff, matchDomain_iff (fun r hr => hrules r ((hsame r).mp hr)) hset' hd,
    matchDomain_iff hrules hset hd]
  simp only [hsame]

/-! ## A rule with capitals -/

theorem listTables_exactSets : listTables.ExactSets := by
  intro keys _
  exact ⟨keys, rfl, fun key => decide_eq_true_iff⟩

/-- The bytes of `.Ab.c` and of `x.aB.C.`. -/
def DEMO_RULE : Bytes := [46, 65, 98, 46, 99]
def DEMO_HOST : Bytes := [120, 46, 97, 66, 46, 67, 46]

theorem matchDomain_demo :
    trimDots DEMO_HOST = [120, 46, 97, 66, 46, 67] ∧
    ∃ built, ([DEMO_RULE].foldl Builder.addDomain (Builder.new listTables)).build = .ok built ∧
      (matchDomain built DEMO_HOST = true ↔
        trimDots DEMO_HOST ≠ [] ∧ ∃ r ∈ [DEMO_RULE], trimDots r ≠ [] ∧ LabelSuffix r DEMO_HOST) :=
  let ⟨built, hbuild, hiff, _⟩ := (matchDomain_iff_suffix listTables listTables_exactSets [DEMO_RULE]
    (by decide)).1
  ⟨by decide +kernel, built, hbuild, hiff DEMO_HOST (by decide)⟩

end Httproxy.Bypass
