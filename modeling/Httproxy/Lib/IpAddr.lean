/-
  The text of IP addresses, as the standard library of Rust reads it (`IpAddr::from_str`).

  1. **Parser** — every reader takes the bytes that are left and returns a value and the bytes behind
     it, or nothing.  An address in dotted form has four decimal numbers without a leading zero; the
     other form has eight groups, of which one run may be left out as `::` and the last two may be
     written in dotted form.

  2. **Which texts are read** — only hexadecimal digits, colons and dots (`fromStr_chars`); the first
     form without a colon (`fromStr_v4`), the second with one (`fromStr_v6`); and what stands before
     the first colon of the second form is not an address itself (`fromStr_firstPart`).
-/
import Httproxy.Lib.Text

namespace IpAddr

/-! ## Parser -/

inductive Addr where
  | v4 (octets : List Nat)
  | v6 (groups : List Nat)
  deriving DecidableEq, Repr

/-- `char::to_digit`. -/
def toDigit (radix : Nat) (b : UInt8) : Option Nat :=
  let d :=
    if 48 ≤ b ∧ b ≤ 57 then b.toNat - 48
    else if 97 ≤ b ∧ b ≤ 102 then b.toNat - 87
    else if 65 ≤ b ∧ b ≤ 70 then b.toNat - 55
    else radix
  if d < radix then some d else none

def isDigit (radix : Nat) (b : UInt8) : Bool := (toDigit radix b).isSome

/-- `read_given_char`. -/
def readGivenChar (c : UInt8) : Bytes → Option Bytes
  | [] => none
  | b :: s => if b = c then some s else none

/-- `read_number`: at most `maxDigits` digits of a number below `bound`. -/
def readNumber (radix maxDigits : Nat) (allowZeroPrefix : Bool) (bound : Nat) (s : Bytes) :
    Option (Nat × Bytes) :=
  let digits := s.takeWhile (isDigit radix)
  let hasLeadingZero := s.head? = some 48
  let result := digits.foldl (fun acc b => acc * radix + (toDigit radix b).getD 0) 0
  if digits.length > maxDigits then none
  else if digits = [] then none
  else if allowZeroPrefix = false ∧ hasLeadingZero ∧ digits.length > 1 then none
  else if result < bound then some (result, s.dropWhile (isDigit radix)) else none

/-- `read_separator`. -/
def readSeparator {α : Type} (sep : UInt8) (index : Nat) (inner : Bytes → Option (α × Bytes))
    (s : Bytes) : Option (α × Bytes) :=
  if index > 0 then (readGivenChar sep s).bind inner else inner s

/-- An octet of the dotted form. -/
def readOctet (index : Nat) (s : Bytes) : Option (Nat × Bytes) :=
  readSeparator 46 index (readNumber 10 3 false 256) s

/-- `read_ipv4_addr`. -/
def readIpv4Addr (s : Bytes) : Option (List Nat × Bytes) := do
  let (a, s) ← readOctet 0 s
  let (b, s) ← readOctet 1 s
  let (c, s) ← readOctet 2 s
  let (d, s) ← readOctet 3 s
  return ([a, b, c, d], s)

/-- The two groups that an address in dotted form stands for. -/
def groupsOfOctets : List Nat → List Nat
  | [a, b, c, d] => [a * 256 + b, c * 256 + d]
  | _ => []

/-- `read_groups`, from the group `index` on, with room for `room` more: the groups, and whether the
    last two were in dotted form. -/
def readGroups : (index room : Nat) → Bytes → List Nat × Bool × Bytes
  | _, 0, s => ([], false, s)
  | index, room + 1, s =>
    match if room ≥ 1 then readSeparator 58 index readIpv4Addr s else none with
    | some (octets, rest) => (groupsOfOctets octets, true, rest)
    | none =>
      match readSeparator 58 index (readNumber 16 4 true 65536) s with
      | none => ([], false, s)
      | some (g, rest) =>
        let r := readGroups (index + 1) room rest
        (g :: r.1, r.2)

/-- `read_ipv6_addr`. -/
def readIpv6Addr (s : Bytes) : Option (List Nat × Bytes) :=
  let (head, headIpv4, rest) := readGroups 0 8 s
  if head.length = 8 then some (head, rest)
  else if headIpv4 then none
  else do
    let rest ← readGivenChar 58 rest
    let rest ← readGivenChar 58 rest
    let (tail, _, rest) := readGroups 0 (8 - (head.length + 1)) rest
    return (head ++ List.replicate (8 - head.length - tail.length) 0 ++ tail, rest)

/-- `read_ip_addr`. -/
def readIpAddr (s : Bytes) : Option (Addr × Bytes) :=
  match readIpv4Addr s with
  | some (octets, rest) => some (.v4 octets, rest)
  | none => (readIpv6Addr s).map fun p => (.v6 p.1, p.2)

/-- `IpAddr::from_str`: the whole text must be read. -/
def fromStr (s : Bytes) : Option Addr :=
  match readIpAddr s with
  | some (addr, []) => some addr
  | _ => none

/-! ## What a reader takes -/

/-- `rest` is what is left of `s` after some bytes that all satisfy `P`. -/
def Takes (P : UInt8 → Prop) (s rest : Bytes) : Prop := ∃ used, s = used ++ rest ∧ ∀ b ∈ used, P b

theorem Takes.refl {P : UInt8 → Prop} (s : Bytes) : Takes P s s := ⟨[], rfl, by simp⟩

theorem Takes.trans {P : UInt8 → Prop} {s t u : Bytes} (h : Takes P s t) (h' : Takes P t u) :
    Takes P s u := by
  obtain ⟨x, rfl, hx⟩ := h
  obtain ⟨y, rfl, hy⟩ := h'
  refine ⟨x ++ y, by rw [List.append_assoc], ?_⟩
  intro b hb
  rcases List.mem_append.mp hb with hb | hb
  · exact hx b hb
  · exact hy b hb

theorem Takes.mono {P Q : UInt8 → Prop} {s t : Bytes} (h : Takes P s t) (hPQ : ∀ b, P b → Q b) :
    Takes Q s t := by
  obtain ⟨x, rfl, hx⟩ := h
  exact ⟨x, rfl, fun b hb => hPQ b (hx b hb)⟩

theorem readGivenChar_takes {c : UInt8} {s rest : Bytes} (h : readGivenChar c s = some rest) :
    s = c :: rest := by
  cases s with
  | nil => cases h
  | cons b s =>
    rw [readGivenChar, Option.ite_none_right_eq_some] at h
    obtain ⟨rfl, heq⟩ := h
    rw [Option.some.inj heq]

theorem readNumber_takes {radix maxDigits bound v : Nat} {z : Bool} {s rest : Bytes}
    (h : readNumber radix maxDigits z bound s = some (v, rest)) :
    Takes (fun b => isDigit radix b = true) s rest := by
  simp only [readNumber, Option.ite_none_left_eq_some, Option.ite_none_right_eq_some,
    Option.some.injEq, Prod.mk.injEq] at h
  obtain ⟨-, -, -, -, -, hrest⟩ := h
  refine ⟨s.takeWhile (isDigit radix), by rw [← hrest, List.takeWhile_append_dropWhile], ?_⟩
  intro b hb
  exact List.mem_takeWhile_imp hb

theorem readSeparator_takes {α : Type} {P : UInt8 → Prop} {sep : UInt8} {index : Nat}
    {inner : Bytes → Option (α × Bytes)} {s rest : Bytes} {v : α} (hsep : P sep)
    (hinner : ∀ s rest v, inner s = some (v, rest) → Takes P s rest)
    (h : readSeparator sep index inner s = some (v, rest)) : Takes P s rest := by
  rw [readSeparator] at h
  split at h
  · obtain ⟨t, ht, hv⟩ := Option.bind_eq_some_iff.mp h
    rw [readGivenChar_takes ht]
    refine Takes.trans ⟨[sep], rfl, ?_⟩ (hinner t rest v hv)
    intro b hb
    exact List.mem_singleton.mp hb ▸ hsep
  · exact hinner s rest v h

/-- The bytes of the dotted form. -/
def Dotted (b : UInt8) : Prop := isDigit 10 b = true ∨ b = 46

/-- The bytes of any address. -/
def Allowed (b : UInt8) : Prop := isDigit 16 b = true ∨ b = 46 ∨ b = 58

theorem isDigit_iff {radix : Nat} {b : UInt8} :
    isDigit radix b = true ↔
      (48 ≤ b.toNat ∧ b.toNat ≤ 57 ∧ b.toNat - 48 < radix) ∨
      (97 ≤ b.toNat ∧ b.toNat ≤ 102 ∧ b.toNat - 87 < radix) ∨
      (65 ≤ b.toNat ∧ b.toNat ≤ 70 ∧ b.toNat - 55 < radix) := by
  rw [isDigit, toDigit]
  simp only [UInt8.le_iff_toNat_le, UInt8.reduceToNat]
  split_ifs <;> simp <;> omega

theorem isDigit_mono {b : UInt8} (h : isDigit 10 b = true) : isDigit 16 b = true := by
  rw [isDigit_iff] at h ⊢
  omega

theorem Dotted.allowed {b : UInt8} (h : Dotted b) : Allowed b := by
  rcases h with h | h
  · exact .inl (isDigit_mono h)
  · exact .inr (.inl h)

theorem readOctet_takes {index v : Nat} {s rest : Bytes} (h : readOctet index s = some (v, rest)) :
    Takes Dotted s rest :=
  readSeparator_takes (.inr rfl) (fun _ _ _ hn => (readNumber_takes hn).mono fun _ => .inl) h

theorem readIpv4Addr_eq_some {s rest : Bytes} {octets : List Nat}
    (h : readIpv4Addr s = some (octets, rest)) :
    ∃ a b c d s₁ s₂ s₃, readOctet 0 s = some (a, s₁) ∧ readOctet 1 s₁ = some (b, s₂) ∧
      readOctet 2 s₂ = some (c, s₃) ∧ readOctet 3 s₃ = some (d, rest) ∧ octets = [a, b, c, d] := by
  simp only [readIpv4Addr, Option.bind_eq_bind, Option.bind_eq_some_iff, Prod.exists,
    Option.pure_def, Option.some.injEq, Prod.mk.injEq] at h
  obtain ⟨a, s₁, ha, b, s₂, hb, c, s₃, hc, d, s₄, hd, rfl, rfl⟩ := h
  exact ⟨a, b, c, d, s₁, s₂, s₃, ha, hb, hc, hd, rfl⟩

theorem readIpv4Addr_takes {s rest : Bytes} {octets : List Nat}
    (h : readIpv4Addr s = some (octets, rest)) : Takes Dotted s rest := by
  obtain ⟨a, b, c, d, s₁, s₂, s₃, ha, hb, hc, hd, -⟩ := readIpv4Addr_eq_some h
  exact (readOctet_takes ha).trans ((readOctet_takes hb).trans
    ((readOctet_takes hc).trans (readOctet_takes hd)))

theorem readGroups_takes (index room : Nat) (s : Bytes) :
    Takes Allowed s (readGroups index room s).2.2 := by
  fun_induction readGroups index room s with
  | case1 => exact Takes.refl _
  | case2 index room s octets rest hv4 =>
    rw [Option.ite_none_right_eq_some] at hv4
    exact readSeparator_takes (.inr (.inr rfl))
      (fun _ _ _ h => (readIpv4Addr_takes h).mono fun _ => Dotted.allowed) hv4.2
  | case3 => exact Takes.refl _
  | case4 index room s hv4 g rest hg r ih =>
    refine Takes.trans ?_ ih
    exact readSeparator_takes (.inr (.inr rfl))
      (fun _ _ _ h => (readNumber_takes h).mono fun _ => .inl) hg

theorem readIpv6Addr_takes {s rest : Bytes} {groups : List Nat}
    (h : readIpv6Addr s = some (groups, rest)) : Takes Allowed s rest := by
  have hhead := readGroups_takes 0 8 s
  rw [readIpv6Addr] at h
  generalize readGroups 0 8 s = head at h hhead
  obtain ⟨head, headIpv4, s₁⟩ := head
  dsimp only at h
  split at h
  · obtain ⟨-, rfl⟩ := Prod.mk.inj (Option.some.inj h)
    exact hhead
  · split at h
    · cases h
    · obtain ⟨s₂, hs₂, h⟩ := Option.bind_eq_some_iff.mp h
      obtain ⟨s₃, hs₃, h⟩ := Option.bind_eq_some_iff.mp h
      have htail := readGroups_takes 0 (8 - (head.length + 1)) s₃
      generalize readGroups 0 (8 - (head.length + 1)) s₃ = tail at h htail
      obtain ⟨tail, tailIpv4, s₄⟩ := tail
      obtain ⟨-, rfl⟩ := Prod.mk.inj (Option.some.inj h)
      rw [readGivenChar_takes hs₂, readGivenChar_takes hs₃] at hhead
      refine hhead.trans (Takes.trans ⟨[58, 58], rfl, ?_⟩ htail)
      intro b hb
      right
      right
      simpa using hb

/-! ## Which texts are read -/

theorem fromStr_eq_some {s : Bytes} {addr : Addr} (h : fromStr s = some addr) :
    readIpAddr s = some (addr, []) := by
  rw [fromStr] at h
  split at h
  · rename_i heq
    rw [heq, Option.some.inj h]
  · cases h

theorem fromStr_v4_eq {s : Bytes} {octets : List Nat} (h : fromStr s = some (.v4 octets)) :
    readIpv4Addr s = some (octets, []) := by
  have h := fromStr_eq_some h
  rw [readIpAddr] at h
  split at h
  · rename_i heq
    obtain ⟨ho, hr⟩ := Prod.mk.inj (Option.some.inj h)
    rw [heq, Addr.v4.inj ho, hr]
  · obtain ⟨p, -, hp⟩ := Option.map_eq_some_iff.mp h
    cases hp

theorem fromStr_v6_eq {s : Bytes} {groups : List Nat} (h : fromStr s = some (.v6 groups)) :
    readIpv4Addr s = none ∧ readIpv6Addr s = some (groups, []) := by
  have h := fromStr_eq_some h
  rw [readIpAddr] at h
  split at h
  · cases h
  · rename_i hnone
    obtain ⟨⟨groups', rest⟩, hp, heq⟩ := Option.map_eq_some_iff.mp h
    obtain ⟨hg, hr⟩ := Prod.mk.inj heq
    obtain rfl : groups' = groups := Addr.v6.inj hg
    obtain rfl : rest = [] := hr
    exact ⟨hnone, hp⟩

/-- Only hexadecimal digits, dots and colons are read. -/
theorem fromStr_chars {s : Bytes} {addr : Addr} (h : fromStr s = some addr) :
    ∀ b ∈ s, Allowed b := by
  have htakes : Takes Allowed s [] := by
    cases addr with
    | v4 octets => exact (readIpv4Addr_takes (fromStr_v4_eq h)).mono fun _ => Dotted.allowed
    | v6 groups => exact readIpv6Addr_takes (fromStr_v6_eq h).2
  obtain ⟨used, hused, hall⟩ := htakes
  rw [List.append_nil] at hused
  exact hused ▸ hall

/-- No address is written with brackets. -/
theorem fromStr_no_bracket {s : Bytes} {addr : Addr} (h : fromStr s = some addr) :
    91 ∉ s ∧ 93 ∉ s := by
  constructor <;> intro hb
  · have := fromStr_chars h _ hb
    simp [Allowed, isDigit_iff] at this
  · have := fromStr_chars h _ hb
    simp [Allowed, isDigit_iff] at this

/-- The dotted form has no colon. -/
theorem fromStr_v4_no_colon {s : Bytes} {octets : List Nat} (h : fromStr s = some (.v4 octets)) :
    58 ∉ s := by
  obtain ⟨used, hused, hall⟩ := readIpv4Addr_takes (fromStr_v4_eq h)
  rw [List.append_nil] at hused
  intro hb
  have := hall _ (hused ▸ hb)
  simp [Dotted, isDigit_iff] at this

/-- Behind the first group every group is led by a colon. -/
theorem readSeparator_colon {α : Type} {index : Nat} {inner : Bytes → Option (α × Bytes)}
    {s : Bytes} {p : α × Bytes} (hi : index > 0) (h : readSeparator 58 index inner s = some p) :
    58 ∈ s := by
  rw [readSeparator, if_pos hi] at h
  obtain ⟨t, ht, -⟩ := Option.bind_eq_some_iff.mp h
  rw [readGivenChar_takes ht]
  exact List.mem_cons_self

theorem readGroups_colon {index room : Nat} {s : Bytes} (hi : index > 0)
    (h : (readGroups index room s).1 ≠ []) : 58 ∈ s := by
  cases room with
  | zero => exact absurd rfl h
  | succ room =>
    rw [readGroups] at h
    split at h
    · rename_i hv4
      rw [Option.ite_none_right_eq_some] at hv4
      exact readSeparator_colon hi hv4.2
    · split at h
      · exact absurd rfl h
      · rename_i hg
        exact readSeparator_colon hi hg

theorem Takes.mem {P : UInt8 → Prop} {s t : Bytes} {b : UInt8} (h : Takes P s t) (hb : b ∈ t) :
    b ∈ s := by
  obtain ⟨used, rfl, -⟩ := h
  exact List.mem_append_right _ hb

/-- Eight groups cannot be read without a colon. -/
theorem readGroups_eight {s : Bytes} (h : (readGroups 0 8 s).1.length = 8) : 58 ∈ s := by
  rw [readGroups] at h
  split at h
  · rename_i octets rest hv4
    rw [Option.ite_none_right_eq_some] at hv4
    obtain ⟨a, b, c, d, -, -, -, -, -, -, -, rfl⟩ := readIpv4Addr_eq_some hv4.2
    cases h
  · split at h
    · cases h
    · rename_i g rest hg
      have hne : (readGroups 1 7 rest).1 ≠ [] := by
        intro hnil
        rw [List.length_cons, hnil] at h
        cases h
      have htakes : Takes (fun b => isDigit 16 b = true) s rest := readNumber_takes hg
      exact htakes.mem (readGroups_colon (by omega) hne)

/-- The second form has a colon. -/
theorem fromStr_v6_colon {s : Bytes} {groups : List Nat} (h : fromStr s = some (.v6 groups)) :
    58 ∈ s := by
  have h := (fromStr_v6_eq h).2
  have hhead := readGroups_takes 0 8 s
  have height := readGroups_eight (s := s)
  rw [readIpv6Addr] at h
  generalize readGroups 0 8 s = head at h hhead height
  obtain ⟨head, headIpv4, s₁⟩ := head
  dsimp only at h
  split at h
  · rename_i hlen
    exact height hlen
  · split at h
    · cases h
    · obtain ⟨s₂, hs₂, -⟩ := Option.bind_eq_some_iff.mp h
      exact hhead.mem (readGivenChar_takes hs₂ ▸ List.mem_cons_self)

/-- A colon ends a number. -/
theorem readNumber_append {radix maxDigits bound v : Nat} {z : Bool} {s rest : Bytes}
    (hcolon : isDigit radix 58 = false) (h : readNumber radix maxDigits z bound s = some (v, rest))
    (more : Bytes) :
    readNumber radix maxDigits z bound (s ++ 58 :: more) = some (v, rest ++ 58 :: more) := by
  have htake : (s ++ 58 :: more).takeWhile (isDigit radix) = s.takeWhile (isDigit radix) := by
    rw [List.takeWhile_append]
    split
    · rename_i hlen
      rw [List.takeWhile_cons_of_neg (by simp [hcolon]), List.append_nil]
      exact ((List.takeWhile_prefix _).eq_of_length hlen).symm
    · rfl
  have hdrop : (s ++ 58 :: more).dropWhile (isDigit radix) =
      s.dropWhile (isDigit radix) ++ 58 :: more := by
    rw [List.dropWhile_append]
    split
    · rename_i hempty
      rw [List.isEmpty_iff.mp hempty, List.dropWhile_cons_of_neg (by simp [hcolon])]
      rfl
    · rfl
  have hne : s ≠ [] := by
    rintro rfl
    simp [readNumber] at h
  have hhead : (s ++ 58 :: more).head? = s.head? := by
    cases s with
    | nil => exact absurd rfl hne
    | cons b s => rfl
  simp only [readNumber, Option.ite_none_left_eq_some, Option.ite_none_right_eq_some,
    Option.some.injEq, Prod.mk.injEq] at h ⊢
  rw [htake, hdrop, hhead]
  obtain ⟨h1, h2, h3, h4, h5, rfl⟩ := h
  exact ⟨h1, h2, h3, h4, h5, rfl⟩

theorem readOctet_append {index v : Nat} {s rest : Bytes} (h : readOctet index s = some (v, rest))
    (more : Bytes) : readOctet index (s ++ 58 :: more) = some (v, rest ++ 58 :: more) := by
  have hcolon : isDigit 10 58 = false := by decide
  rw [readOctet, readSeparator] at h ⊢
  split at h
  · rename_i hi
    obtain ⟨t, ht, hv⟩ := Option.bind_eq_some_iff.mp h
    obtain rfl := readGivenChar_takes ht
    rw [if_pos hi]
    exact readNumber_append hcolon hv more
  · rename_i hi
    rw [if_neg hi]
    exact readNumber_append hcolon h more

/-- A colon ends the dotted form. -/
theorem readIpv4Addr_append {s rest : Bytes} {octets : List Nat}
    (h : readIpv4Addr s = some (octets, rest)) (more : Bytes) :
    readIpv4Addr (s ++ 58 :: more) = some (octets, rest ++ 58 :: more) := by
  obtain ⟨a, b, c, d, s₁, s₂, s₃, ha, hb, hc, hd, rfl⟩ := readIpv4Addr_eq_some h
  simp only [readIpv4Addr, readOctet_append ha, readOctet_append hb, readOctet_append hc,
    readOctet_append hd, Option.bind_eq_bind, Option.bind_some, Option.pure_def]

/-- What stands before the first colon of the second form is not an address. -/
theorem fromStr_firstPart {s : Bytes} {groups : List Nat} (h : fromStr s = some (.v6 groups)) :
    fromStr (Text.firstPart 58 s) = none := by
  obtain ⟨x, y, rfl, hx⟩ := List.eq_append_cons_of_mem (fromStr_v6_colon h)
  rw [Text.firstPart_append hx]
  cases haddr : fromStr x with
  | none => rfl
  | some addr =>
    cases addr with
    | v4 octets =>
      have hv4 := readIpv4Addr_append (fromStr_v4_eq haddr) y
      rw [(fromStr_v6_eq h).1] at hv4
      cases hv4
    | v6 groups' => exact absurd (fromStr_v6_colon haddr) hx

end IpAddr
