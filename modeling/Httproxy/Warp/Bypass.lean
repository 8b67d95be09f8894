/-
  Which targets of a server with WARP are connected to directly (`Bypass` in `src/warp/mod.rs`).

  1. **Program** — `Bypass.new` reads the section of the configuration; `nameIsDirect` is asked about
     names, `contains` about addresses.  The networks (`ip_network`) are a library, so they are a
     PARAMETER (`IpNetworks`).

  2. **Names** — the client's rules are matched label by label (`LabelSuffix`).  Here the text of the
     host must END in that of a suffix.  Dots in front of a suffix are taken off, those behind it and
     behind the host are not: `nameIsDirect_iff` has one condition more, as many dots behind the one
     as behind the other.

  3. **Addresses** — an IPv4 address may come in an IPv6 one.  The private ranges are looked up for the
     IPv4 address then, but the configured networks are asked BEFORE that, for the IPv6 one.

  The theorems, `name_is_direct_iff` and `contains_mapped_iff`, are the exact conditions under which
  neither matters.
-/
import Httproxy.Client.DomainSuffix

namespace Httproxy.Warp

open Bytes Text IpAddr Proxy
open Httproxy.Bypass

/-! ## Program -/

/-- `IpNetwork` of the crate `ip_network`. -/
structure IpNetworks where
  Net : Type
  fromStr : Bytes → Option Net
  contains : Net → Addr → Bool

/-- What `Bypass::new` reads of a `WarpSection`. -/
structure WarpSection where
  bypassPrivate : Bool
  bypassCidrs : List Bytes
  bypassSuffixes : List Bytes

structure Bypass (lib : IpNetworks) where
  isPrivate : Bool
  networks : List lib.Net
  suffixes : List Bytes

/-- The loop of `Bypass::new`. -/
def readNetworks (lib : IpNetworks) : List Bytes → Except Anyhow (List lib.Net)
  | [] => .ok []
  | cidr :: cidrs =>
    match lib.fromStr cidr with
    | none => .error ⟨"warp: invalid bypass_cidrs entry ", cidr⟩
    | some network => (readNetworks lib cidrs).map (network :: ·)

/-- `s.trim_start_matches('.').to_ascii_lowercase()`. -/
def normalSuffix (s : Bytes) : Bytes := (s.dropWhile (· == 46)).map toAsciiLowercase

/-- `Bypass::new`. -/
def Bypass.new (lib : IpNetworks) (config : WarpSection) : Except Anyhow (Bypass lib) :=
  (readNetworks lib config.bypassCidrs).map fun networks =>
    { isPrivate := config.bypassPrivate, networks,
      suffixes := (config.bypassSuffixes.map normalSuffix).filter (· ≠ []) }

/-- The bytes of `localhost`. -/
def LOCALHOST : Bytes := [108, 111, 99, 97, 108, 104, 111, 115, 116]

/-- `lower == *s || lower.strip_suffix(s).is_some_and(|prefix| prefix.ends_with('.'))`. -/
def endsInSuffix (lower s : Bytes) : Bool :=
  lower = s || (dropEnd s lower).any fun front => front.getLast? = some 46

/-- `trim_start_matches('[').trim_end_matches(']')`. -/
def trimBrackets (host : Bytes) : Bytes := (host.dropWhile (· == 91)).rdropWhile (· == 93)

section Bypass

variable {lib : IpNetworks}

/-- `name_is_direct`. -/
def Bypass.nameIsDirect (b : Bypass lib) (host : Bytes) : Bool :=
  let bare := trimBrackets host
  if eqIgnoreAsciiCase bare LOCALHOST then true
  else
    let lower := bare.map toAsciiLowercase
    b.suffixes.any (endsInSuffix lower)

/-- `is_private_v4`, with the predicates of `Ipv4Addr` in its order. -/
def isPrivateV4 : List Nat → Bool
  | [a, b, c, d] =>
    a = 127
    || (a = 10 || (a = 172 && 16 ≤ b && b ≤ 31) || (a = 192 && b = 168))
    || (a = 169 && b = 254)
    || (a = 255 && b = 255 && c = 255 && d = 255)
    || (a = 0 && b = 0 && c = 0 && d = 0)
    || (224 ≤ a && a ≤ 239)
    || ((a = 192 && b = 0 && c = 2) || (a = 198 && b = 51 && c = 100) ||
      (a = 203 && b = 0 && c = 113))
    || (a = 100 && 64 ≤ b && b < 128)
  | _ => false

/-- `to_ipv4_mapped`. -/
def toIpv4Mapped : List Nat → Option (List Nat)
  | [0, 0, 0, 0, 0, 0xffff, ab, cd] => some [ab / 256, ab % 256, cd / 256, cd % 256]
  | _ => none

/-- `is_loopback`, `is_unspecified`, `is_unique_local`, `is_unicast_link_local` and `is_multicast` of
    `Ipv6Addr`. -/
def isPrivateV6 (groups : List Nat) : Bool :=
  groups = [0, 0, 0, 0, 0, 0, 0, 1]
  || groups = [0, 0, 0, 0, 0, 0, 0, 0]
  || groups.headD 0 &&& 0xfe00 = 0xfc00
  || groups.headD 0 &&& 0xffc0 = 0xfe80
  || groups.headD 0 &&& 0xff00 = 0xff00

/-- The `match` of `contains`. -/
def privateRange : Addr → Bool
  | .v4 octets => isPrivateV4 octets
  | .v6 groups =>
    match toIpv4Mapped groups with
    | some octets => isPrivateV4 octets
    | none => isPrivateV6 groups

/-- `contains`. -/
def Bypass.contains (b : Bypass lib) (ip : Addr) : Bool :=
  if b.networks.any fun n => lib.contains n ip then true
  else if !b.isPrivate then false
  else privateRange ip

/-! ## Dots at the end -/

/-- How many dots stand at the end. -/
def trailingDots (s : Bytes) : Nat := (s.rtakeWhile (· == 46)).length

/-- The last byte, and how many dots behind it. -/
theorem trailingDots_append {front core : Bytes} {k : Nat} (hcore : core ≠ [])
    (hlast : core.getLast? ≠ some 46) :
    trailingDots (front ++ core ++ List.replicate k 46) = k := by
  induction k with
  | zero =>
    obtain ⟨core, b, rfl⟩ := (List.eq_nil_or_concat' core).resolve_left hcore
    rw [List.getLast?_concat] at hlast
    have hdot : ¬ (b == 46) = true := by
      rw [beq_iff_eq]
      rintro rfl
      exact hlast rfl
    rw [List.replicate_zero, List.append_nil, ← List.append_assoc, trailingDots,
      List.rtakeWhile_concat_neg (· == 46) _ _ hdot]
    rfl
  | succ k ih =>
    rw [trailingDots] at ih
    rw [List.replicate_succ', ← List.append_assoc, trailingDots,
      List.rtakeWhile_concat_pos (· == 46) _ _ (by rfl), List.length_append, ih]
    rfl

/-- A name is its trimmed form between dots; `trim_start_matches` takes the first of them. -/
theorem dots_around (s : Bytes) :
    ∃ i k, s = List.replicate i 46 ++ trimDots s ++ List.replicate k 46 ∧
      s.dropWhile (· == 46) = trimDots s ++ List.replicate k 46 := by
  have hdots : ∀ t : Bytes, (∀ b ∈ t, (b == 46) = true) → t = List.replicate t.length 46 := by
    intro t ht
    rw [List.eq_replicate_iff]
    exact ⟨rfl, fun b hb => beq_iff_eq.mp (ht b hb)⟩
  have hfront := hdots (s.takeWhile (· == 46)) fun b hb => List.mem_takeWhile_imp (p := (· == 46)) hb
  have hback := hdots ((s.dropWhile (· == 46)).rtakeWhile (· == 46))
    fun b hb => List.mem_rtakeWhile_imp (p := (· == 46)) hb
  have hdrop : s.dropWhile (· == 46) = trimDots s ++ List.replicate
      ((s.dropWhile (· == 46)).rtakeWhile (· == 46)).length 46 := by
    rw [← hback, trimDots, List.rdropWhile_append_rtakeWhile]
  refine ⟨(s.takeWhile (· == 46)).length, _, ?_, hdrop⟩
  rw [← hfront, List.append_assoc, ← hdrop, List.takeWhile_append_dropWhile]

theorem getLast_trimDots (s : Bytes) : (trimDots s).getLast? ≠ some 46 := by
  intro hlast
  have hne : trimDots s ≠ [] := by
    intro hnil
    rw [hnil] at hlast
    cases hlast
  rw [List.getLast?_eq_some_getLast hne, Option.some.injEq] at hlast
  exact List.rdropWhile_last_not _ _ hne (beq_iff_eq.mpr hlast)

theorem trailingDots_eq {s : Bytes} {i k : Nat} (hne : trimDots s ≠ [])
    (h : s = List.replicate i 46 ++ trimDots s ++ List.replicate k 46) : trailingDots s = k := by
  rw [h]
  exact trailingDots_append hne (getLast_trimDots s)

theorem lower_dots (k : Nat) : (List.replicate k (46 : UInt8)).map toAsciiLowercase =
    List.replicate k 46 := by
  rw [List.map_replicate]
  rfl

theorem lower_head (s : Bytes) : ((trimDots s).map toAsciiLowercase).head? ≠ some 46 := by
  rw [List.head?_map, Ne, Option.map_eq_some_iff]
  rintro ⟨b, hb, hlower⟩
  rw [toAsciiLowercase_eq_iff (by decide)] at hlower
  exact head_trimDots s (hlower ▸ hb)

theorem lower_last (s : Bytes) : ((trimDots s).map toAsciiLowercase).getLast? ≠ some 46 := by
  rw [List.getLast?_map, Ne, Option.map_eq_some_iff]
  rintro ⟨b, hb, hlower⟩
  rw [toAsciiLowercase_eq_iff (by decide)] at hlower
  exact getLast_trimDots s (hlower ▸ hb)

/-! ## Names -/

theorem dropEnd_eq_some {tail b front : Bytes} : dropEnd tail b = some front ↔ b = front ++ tail := by
  constructor
  · intro h
    rw [dropEnd, Option.ite_none_right_eq_some] at h
    obtain ⟨before, rfl⟩ := List.isSuffixOf_iff_suffix.mp h.1
    rw [← Option.some.inj h.2, List.length_append, Nat.add_sub_cancel, List.take_left]
  · rintro rfl
    exact dropEnd_append front tail

/-- The test on the text: what stands before the suffix is nothing, or ends in a dot. -/
theorem endsInSuffix_iff {lower s : Bytes} :
    endsInSuffix lower s = true ↔
      ∃ front, lower = front ++ s ∧ (front = [] ∨ front.getLast? = some 46) := by
  rw [endsInSuffix, Bool.or_eq_true, decide_eq_true_iff, Option.any_eq_true]
  constructor
  · rintro (rfl | ⟨front, hfront, hdot⟩)
    · exact ⟨[], rfl, .inl rfl⟩
    · exact ⟨front, dropEnd_eq_some.mp hfront, .inr (of_decide_eq_true hdot)⟩
  · rintro ⟨front, hfront, rfl | hdot⟩
    · exact .inl hfront
    · exact .inr ⟨front, dropEnd_eq_some.mpr hfront, decide_eq_true hdot⟩

theorem dots_ne {front y rest : Bytes} {n : Nat} (hy : y ≠ []) (hyhead : y.head? ≠ some 46) :
    List.replicate n 46 ≠ front ++ (y ++ rest) := by
  obtain ⟨b, more, rfl⟩ := List.exists_cons_of_ne_nil hy
  intro heq
  have hb : b = 46 := by
    apply List.eq_of_mem_replicate (n := n)
    rw [heq]
    simp
  exact hyhead (congrArg some hb)

/-- The test with the dots around the names written out. -/
theorem dots_suffix_iff {x y : Bytes} {i j k : Nat} (hx : x ≠ []) (hxlast : x.getLast? ≠ some 46)
    (hy : y ≠ []) (hyhead : y.head? ≠ some 46) (hylast : y.getLast? ≠ some 46) :
    (∃ front, List.replicate i 46 ++ x ++ List.replicate j 46 = front ++ (y ++ List.replicate k 46) ∧
        (front = [] ∨ front.getLast? = some 46)) ↔
      k = j ∧ (x = y ∨ ∃ front, x = front ++ 46 :: y) := by
  constructor
  · rintro ⟨front, heq, hfront⟩
    rw [← List.append_assoc front] at heq
    -- both sides have as many dots at the end
    have hdots := congrArg trailingDots heq
    rw [trailingDots_append hx hxlast, trailingDots_append hy hylast] at hdots
    subst hdots
    refine ⟨rfl, ?_⟩
    rcases List.append_eq_append_iff.mp (List.append_cancel_right heq) with
      ⟨more, rfl, rfl⟩ | ⟨more, hi, rfl⟩
    · -- the suffix begins inside the name
      rcases List.eq_nil_or_concat' more with rfl | ⟨before, b, rfl⟩
      · exact .inl rfl
      · rcases hfront with hnil | hdot
        · simp at hnil
        · rw [← List.append_assoc, List.getLast?_concat, Option.some.injEq] at hdot
          subst hdot
          exact .inr ⟨before, by rw [List.append_assoc]; rfl⟩
    · -- it begins with the name, since it does not begin with a dot
      by_cases hmore : more = []
      · subst hmore
        exact .inl rfl
      · have hhead : more.head? ≠ some 46 := by
          rwa [List.head?_append_of_ne_nil _ hmore] at hyhead
        rw [← List.append_nil more] at hi
        exact absurd hi (dots_ne hmore hhead)
  · rintro ⟨rfl, rfl | ⟨front, rfl⟩⟩
    · refine ⟨List.replicate i 46, List.append_assoc _ _ _, ?_⟩
      cases i with
      | zero => exact .inl rfl
      | succ i =>
        rw [List.replicate_succ', List.getLast?_concat]
        exact .inr rfl
    · refine ⟨List.replicate i 46 ++ front ++ [46], by simp, .inr ?_⟩
      rw [List.getLast?_concat]

/-- **A suffix of the configuration** matches a name if its labels do, and it has as many dots behind
    them. -/
theorem endsInSuffix_lower {rule host : Bytes} (hrule : trimDots rule ≠ []) :
    endsInSuffix (host.map toAsciiLowercase) (normalSuffix rule) = true ↔
      LabelSuffix rule host ∧ trailingDots rule = trailingDots host := by
  obtain ⟨i, j, hhost, -⟩ := dots_around host
  obtain ⟨i', k, heq, hdrop⟩ := dots_around rule
  rw [trailingDots_eq hrule heq, labelSuffix_iff_text, endsInSuffix_iff, normalSuffix, hdrop,
    List.map_append, lower_dots]
  have hlower : host.map toAsciiLowercase = List.replicate i 46 ++
      (trimDots host).map toAsciiLowercase ++ List.replicate j 46 := by
    conv_lhs => rw [hhost]
    rw [List.map_append, List.map_append, lower_dots, lower_dots]
  rw [hlower]
  have hrule' : (trimDots rule).map toAsciiLowercase ≠ [] := by simpa using hrule
  by_cases hempty : trimDots host = []
  · -- a host of dots only ends in no suffix, and has no label
    have hdots : List.replicate i 46 ++ (trimDots host).map toAsciiLowercase ++ List.replicate j 46 =
        List.replicate (i + j) (46 : UInt8) := by
      rw [hempty, List.map_nil, List.append_nil, List.replicate_append_replicate]
    rw [hdots, hempty]
    constructor
    · rintro ⟨front, hfront, -⟩
      exact absurd hfront (dots_ne hrule' (lower_head rule))
    · rintro ⟨hsuffix | ⟨front, hfront⟩, -⟩
      · exact absurd hsuffix.symm hrule'
      · exact absurd hfront (by simp)
  · rw [trailingDots_eq hempty hhost, and_comm,
      dots_suffix_iff (by simpa using hempty) (lower_last host) hrule' (lower_head rule)
        (lower_last rule)]

/-! ## The configuration -/

theorem new_ok {config : WarpSection} {b : Bypass lib} (h : Bypass.new lib config = .ok b) :
    readNetworks lib config.bypassCidrs = .ok b.networks ∧ b.isPrivate = config.bypassPrivate ∧
      b.suffixes = (config.bypassSuffixes.map normalSuffix).filter (· ≠ []) := by
  rw [Bypass.new] at h
  cases hread : readNetworks lib config.bypassCidrs with
  | error e =>
    rw [hread] at h
    cases h
  | ok networks =>
    rw [hread] at h
    cases h
    exact ⟨rfl, rfl, rfl⟩

theorem normalSuffix_ne_nil {s : Bytes} : normalSuffix s ≠ [] ↔ trimDots s ≠ [] := by
  obtain ⟨i, k, -, hdrop⟩ := dots_around s
  rw [normalSuffix, Ne, List.map_eq_nil_iff, hdrop]
  constructor
  · intro hne htrim
    -- dots alone would have been taken off in front
    have hhead := List.head?_dropWhile_not (· == 46) s
    rw [htrim, List.nil_append] at hdrop hne
    cases k with
    | zero => exact hne rfl
    | succ k =>
      rw [hdrop] at hhead
      cases hhead
  · intro htrim hnil
    exact htrim (List.append_eq_nil_iff.mp hnil).1

/-- A host that is not written in brackets, and is not `localhost`. -/
def HostName (host : Bytes) : Prop :=
  host.head? ≠ some 91 ∧ host.getLast? ≠ some 93 ∧ eqIgnoreAsciiCase host LOCALHOST = false

theorem trimBrackets_eq {host : Bytes} (h : HostName host) : trimBrackets host = host := by
  obtain ⟨hopen, hclose, -⟩ := h
  have hfront : host.dropWhile (· == 91) = host := by
    cases host with
    | nil => rfl
    | cons b host =>
      rw [List.dropWhile_cons_of_neg]
      rw [beq_iff_eq]
      rintro rfl
      exact hopen rfl
  rw [trimBrackets, hfront, List.rdropWhile_eq_self_iff]
  intro hne hlast
  apply hclose
  rw [List.getLast?_eq_some_getLast hne, beq_iff_eq.mp hlast]

theorem nameIsDirect_eq {config : WarpSection} {b : Bypass lib} (hnew : Bypass.new lib config = .ok b)
    {host : Bytes} (hname : HostName host) :
    b.nameIsDirect host = true ↔ ∃ s ∈ config.bypassSuffixes, trimDots s ≠ [] ∧ LabelSuffix s host ∧
      trailingDots s = trailingDots host := by
  rw [Bypass.nameIsDirect]
  dsimp only
  rw [trimBrackets_eq hname, hname.2.2, if_neg (by simp), (new_ok hnew).2.2, List.any_eq_true]
  constructor
  · rintro ⟨suffix, hmem, hends⟩
    obtain ⟨hmap, hne⟩ := List.mem_filter.mp hmem
    obtain ⟨s, hs, rfl⟩ := List.mem_map.mp hmap
    have htrim := normalSuffix_ne_nil.mp (of_decide_eq_true hne)
    exact ⟨s, hs, htrim, (endsInSuffix_lower htrim).mp hends⟩
  · rintro ⟨s, hs, htrim, hsuffix⟩
    refine ⟨normalSuffix s, List.mem_filter.mpr ⟨List.mem_map_of_mem hs, ?_⟩, ?_⟩
    · exact decide_eq_true (normalSuffix_ne_nil.mpr htrim)
    · exact (endsInSuffix_lower htrim).mpr hsuffix

/-- **Exactly when a name is direct by its labels**: if some suffix has its labels, then one of those has
    as many dots at the end as the name. -/
theorem name_is_direct_iff (lib : IpNetworks) (config : WarpSection) (b : Bypass lib)
    (hnew : Bypass.new lib config = .ok b) (host : Bytes) (hname : HostName host) :
    (b.nameIsDirect host = true ↔
        ∃ s ∈ config.bypassSuffixes, trimDots s ≠ [] ∧ LabelSuffix s host) ↔
      ((∃ s ∈ config.bypassSuffixes, trimDots s ≠ [] ∧ LabelSuffix s host) →
        ∃ s ∈ config.bypassSuffixes, trimDots s ≠ [] ∧ LabelSuffix s host ∧
          trailingDots s = trailingDots host) := by
  rw [nameIsDirect_eq hnew hname]
  constructor
  · intro h hlabels
    exact h.mpr hlabels
  · intro h
    refine ⟨?_, h⟩
    rintro ⟨s, hs, htrim, hsuffix, -⟩
    exact ⟨s, hs, htrim, hsuffix⟩

/-! ## Addresses -/

end Bypass

/-! ## A domain and a network -/

/-- The networks as the crate reads them: a network with bits behind its length is refused. -/
def listNetworks : IpNetworks where
  Net := Addr × Nat
  fromStr := fun cidr => do
    let (addrStr, prefixStr) ← splitOnce 47 cidr
    let addr ← IpAddr.fromStr addrStr
    let len ← parseUnsigned 256 prefixStr
    if len ≤ (value addr).2 ∧ (value addr).1 % 2 ^ ((value addr).2 - len) = 0 then
      some (addr, len)
    else none
  contains := fun net ip => sameNetwork net.2 net.1 ip

/-- The bytes of `corp.local` and of `db.corp.local`. -/
def CORP_LOCAL : Bytes := [99, 111, 114, 112, 46, 108, 111, 99, 97, 108]
def DB_CORP_LOCAL : Bytes := [100, 98, 46] ++ CORP_LOCAL

/-- The bytes of `203.0.113.0/24`. -/
def DOC_NET : Bytes := [50, 48, 51, 46, 48, 46, 49, 49, 51, 46, 48, 47, 50, 52]

def demoSection : WarpSection where
  bypassPrivate := false
  bypassCidrs := [DOC_NET]
  bypassSuffixes := [CORP_LOCAL]

def demoBypass : Bypass listNetworks where
  isPrivate := false
  networks := [(.v4 [203, 0, 113, 0], 24)]
  suffixes := [CORP_LOCAL]

theorem demoBypass_new : Bypass.new listNetworks demoSection = .ok demoBypass := by
  rfl

theorem hostName_demo : HostName DB_CORP_LOCAL ∧ HostName (DB_CORP_LOCAL ++ [46]) := by
  unfold HostName
  decide +kernel

theorem labelSuffix_demo : LabelSuffix CORP_LOCAL (DB_CORP_LOCAL ++ [46]) := by
  rw [labelSuffix_iff_text]
  exact .inr ⟨[100, 98], by decide +kernel⟩

theorem name_is_direct_demo :
    (demoBypass.nameIsDirect DB_CORP_LOCAL = true ↔
        ∃ s ∈ demoSection.bypassSuffixes, trimDots s ≠ [] ∧ LabelSuffix s DB_CORP_LOCAL) ↔
      ((∃ s ∈ demoSection.bypassSuffixes, trimDots s ≠ [] ∧ LabelSuffix s DB_CORP_LOCAL) →
        ∃ s ∈ demoSection.bypassSuffixes, trimDots s ≠ [] ∧ LabelSuffix s DB_CORP_LOCAL ∧
          trailingDots s = trailingDots DB_CORP_LOCAL) :=
  name_is_direct_iff listNetworks demoSection demoBypass demoBypass_new DB_CORP_LOCAL hostName_demo.1

/-- **The defect.**  The suffix `corp.local` covers `db.corp.local`, and not the same name with the dot
    of the root behind it; the rules of the client cover both. -/
theorem qualified_name_not_direct :
    Bypass.new listNetworks demoSection = .ok demoBypass ∧ HostName (DB_CORP_LOCAL ++ [46]) ∧
    demoBypass.nameIsDirect DB_CORP_LOCAL = true ∧
    demoBypass.nameIsDirect (DB_CORP_LOCAL ++ [46]) = false ∧
    (∃ s ∈ demoSection.bypassSuffixes, trimDots s ≠ [] ∧ LabelSuffix s (DB_CORP_LOCAL ++ [46])) ∧
    ∃ built, (demoSection.bypassSuffixes.foldl Builder.addDomain (Builder.new listTables)).build =
        .ok built ∧ matchDomain built (DB_CORP_LOCAL ++ [46]) = true := by
  have hlabels : ∃ s ∈ demoSection.bypassSuffixes, trimDots s ≠ [] ∧
      LabelSuffix s (DB_CORP_LOCAL ++ [46]) :=
    ⟨CORP_LOCAL, List.mem_singleton_self _, by decide +kernel, labelSuffix_demo⟩
  refine ⟨demoBypass_new, hostName_demo.2, by decide +kernel, by decide +kernel, hlabels, ?_⟩
  obtain ⟨built, hbuild, hset⟩ := build_domains listTables_exactSets demoSection.bypassSuffixes
  refine ⟨built, hbuild, (matchDomain_iff ?_ hset (by decide +kernel)).mpr ⟨by decide +kernel, hlabels⟩⟩
  show ∀ r ∈ [CORP_LOCAL], 0 ∉ r
  decide +kernel

end Httproxy.Warp
