/-
  The bypass rules: which targets the client connects to directly (`src/bypass/mod.rs`).

  1. **Rules** — names are looked up by suffix, label by label from the end, in a set of keys; addresses
     in a table of networks.  `Builder` makes both.  The set (`fst`) and the table (`ip_network_table`)
     are libraries, so they are PARAMETERS (`Tables`).

  2. **Lookup** — `shouldBypass` takes the target string apart once more, with rules of its own: what is
     between brackets, or what stands before the FIRST colon.

  3. **The defect** — `resolve_request` takes the brackets off the address of a `CONNECT`, and the
     first colon of `::1:443` is not the one before the port.  The lookup is made for what stands
     before it, as a name.  `bypass_applies_iff` is the exact condition.
-/
import Httproxy.Client.Target

namespace Httproxy.Bypass

open Bytes Text IpAddr Proxy

/-! ## Libraries -/

/-- The set of keys and the table of networks. -/
structure Tables where
  Set : Type
  /-- `SetBuilder` over sorted keys, and `Set::new`. -/
  setOf : List Bytes → Option Set
  contains : Set → Bytes → Bool
  Table : Type
  empty : Table
  /-- `IpNetwork::new`, which may refuse, and `insert`. -/
  insert : Table → Addr → Nat → Option Table
  /-- `longest_match(ip).is_some()`. -/
  longestMatch : Table → Addr → Bool

section Rules

variable {lib : Tables}

/-! ## Names -/

/-- `trim_matches('.')`. -/
def trimDots (domain : Bytes) : Bytes := (domain.dropWhile (· == 46)).rdropWhile (· == 46)

/-- The labels in the order in which the loops take them: from the end. -/
def labels (domain : Bytes) : List Bytes := (domain.splitOn 46).reverse

/-- One turn of the loops: a zero byte between labels, and the label in lower case. -/
def pushLabel (first : Bool) (buf label : Bytes) : Bytes :=
  (if first then buf else buf ++ [0]) ++ label.map toAsciiLowercase

/-- The loop of `domain_to_fst_key`. -/
def keyLoop : (first : Bool) → (buf : Bytes) → List Bytes → Bytes
  | _, buf, [] => buf
  | first, buf, label :: more => keyLoop false (pushLabel first buf label) more

/-- `domain_to_fst_key`. -/
def domainToFstKey (domain : Bytes) : Option Bytes :=
  let domain := trimDots domain
  if domain = [] then none else some (keyLoop true [] (labels domain))

/-- The loop of `DomainFst::matches`: some run of labels from the end is a key. -/
def matchLoop (contains : Bytes → Bool) : (first : Bool) → (buf : Bytes) → List Bytes → Bool
  | _, _, [] => false
  | first, buf, label :: more =>
    let buf := pushLabel first buf label
    contains buf || matchLoop contains false buf more

/-! ## Rules -/

/-- `BypassRulesBuilder`. -/
structure Builder (lib : Tables) where
  domainKeys : List Bytes
  ipTable : lib.Table

/-- `BypassRules`. -/
structure Rules (lib : Tables) where
  domainFst : lib.Set
  ipTable : lib.Table

def Builder.new (lib : Tables) : Builder lib := ⟨[], lib.empty⟩

/-- `add_domain`. -/
def Builder.addDomain (b : Builder lib) (domain : Bytes) : Builder lib :=
  match domainToFstKey domain with
  | none => b
  | some key => { b with domainKeys := b.domainKeys ++ [key] }

/-- `add_cidr`. -/
def Builder.addCidr (b : Builder lib) (cidr : Bytes) : Except Anyhow (Builder lib) :=
  match splitOnce 47 cidr with
  | none => .error ⟨"missing '/' in CIDR ", cidr⟩
  | some (addrStr, prefixStr) =>
    match parseUnsigned 256 prefixStr with
    | none => .error ⟨"invalid prefix length in ", cidr⟩
    | some prefixLen =>
      match fromStr addrStr with
      | none => .error ⟨"invalid IP address in ", cidr⟩
      | some (.v4 octets) =>
        if prefixLen > 32 then .error ⟨"IPv4 prefix > 32 in ", cidr⟩
        else match lib.insert b.ipTable (.v4 octets) prefixLen with
          | none => .error ⟨"invalid IPv4 CIDR ", cidr⟩
          | some ipTable => .ok { b with ipTable }
      | some (.v6 groups) =>
        if prefixLen > 128 then .error ⟨"IPv6 prefix > 128 in ", cidr⟩
        else match lib.insert b.ipTable (.v6 groups) prefixLen with
          | none => .error ⟨"invalid IPv6 CIDR ", cidr⟩
          | some ipTable => .ok { b with ipTable }

/-- `sort_unstable` and `dedup`. -/
def sortedKeys (keys : List Bytes) : List Bytes :=
  (keys.mergeSort fun a b => decide (a ≤ b)).destutter (· ≠ ·)

/-- `build`. -/
def Builder.build (b : Builder lib) : Except Anyhow (Rules lib) :=
  match lib.setOf (sortedKeys b.domainKeys) with
  | none => .error ⟨"fst build set", []⟩
  | some domainFst => .ok { domainFst, ipTable := b.ipTable }

/-- `match_domain`, which is `DomainFst::matches`. -/
def matchDomain (rules : Rules lib) (domain : Bytes) : Bool :=
  let domain := trimDots domain
  if domain = [] then false else matchLoop (lib.contains rules.domainFst) true [] (labels domain)

/-- `match_ip`. -/
def matchIp (rules : Rules lib) (ip : Addr) : Bool := lib.longestMatch rules.ipTable ip

/-! ## Lookup -/

/-- `extract_host`. -/
def extractHost (target : Bytes) : Bytes :=
  match dropStart [91] target with
  | some rest => firstPart 93 rest
  | none => firstPart 58 target

/-- `should_bypass`. -/
def shouldBypass (rules : Rules lib) (target : Bytes) : Bool :=
  let host := extractHost target
  match fromStr host with
  | some ip => matchIp rules ip
  | none => matchDomain rules host

/-- What the rules say about a host. -/
def decision (rules : Rules lib) : Host → Bool
  | .ipv4 octets => matchIp rules (.v4 octets)
  | .ipv6 groups => matchIp rules (.v6 groups)
  | .name n => matchDomain rules n

/-! ## What is looked up -/

/-- A host without colons and brackets is found again. -/
theorem extractHost_plain {host : Bytes} (hopen : 91 ∉ host) (hcolon : 58 ∉ host) (port : Nat) :
    extractHost (hostPort host port) = host := by
  have hport : (91 : UInt8) ∉ decimal port := not_mem_decimal (.inr (by decide))
  have hnone : (91 : UInt8) ∉ hostPort host port := by
    simp [hostPort, hopen, hport]
  rw [extractHost, dropStart_of_not_mem hnone]
  exact firstPart_append hcolon _

/-- So is an address between brackets. -/
theorem extractHost_brackets {literal : Bytes} (hclose : 93 ∉ literal) (port : Nat) :
    extractHost (hostPort ([91] ++ literal ++ [93]) port) = literal := by
  have hshape : hostPort ([91] ++ literal ++ [93]) port =
      [91] ++ (literal ++ 93 :: 58 :: decimal port) := by
    simp [hostPort]
  rw [extractHost, hshape, dropStart_append]
  exact firstPart_append hclose _

/-- Without brackets, the first colon is one of the address. -/
theorem extractHost_bare {literal : Bytes} (hopen : 91 ∉ literal) (hcolon : 58 ∈ literal)
    (port : Nat) : extractHost (hostPort literal port) = firstPart 58 literal := by
  have hport : (91 : UInt8) ∉ decimal port := not_mem_decimal (.inr (by decide))
  have hnone : (91 : UInt8) ∉ hostPort literal port := by
    simp [hostPort, hopen, hport]
  obtain ⟨x, y, rfl, hx⟩ := List.eq_append_cons_of_mem hcolon
  rw [extractHost, dropStart_of_not_mem hnone, firstPart_append hx]
  show firstPart 58 ((x ++ 58 :: y) ++ 58 :: decimal port) = x
  rw [List.append_assoc]
  exact firstPart_append hx _

/-- **Exactly when the rules apply** to a request: always, except that the address of a `CONNECT` in
    brackets is looked up as the NAME that stands before its first colon. -/
theorem bypass_applies_iff (lib : Tables) (rules : Rules lib) (parsers : Parsers)
    (method target text : Bytes) (host : Host) (port : Nat)
    (hnames : Names parsers method target text port) (hwrites : Writes text host) :
    ∃ built origin, resolveRequest parsers method target = .ok (built, origin) ∧
      (shouldBypass rules built = decision rules host ↔
        (method = CONNECT → ∀ groups literal, host = .ipv6 groups → text = [91] ++ literal ++ [93] →
          matchIp rules (.v6 groups) = matchDomain rules (firstPart 58 literal))) := by
  obtain ⟨origin, hresolve⟩ := resolveRequest_names hnames
  refine ⟨_, origin, hresolve, ?_⟩
  cases host with
  | ipv4 octets =>
    have hv4 : fromStr text = some (.v4 octets) := hwrites
    have hopen := (fromStr_no_bracket hv4).1
    rw [builtHost_plain hopen, shouldBypass, extractHost_plain hopen (fromStr_v4_no_colon hv4)]
    simp [hv4, decision]
  | name n =>
    obtain ⟨rfl, hname⟩ : text = n ∧ DnsName n := hwrites
    rw [builtHost_plain hname.no_open, shouldBypass,
      extractHost_plain hname.no_open hname.no_colon]
    simp [hname.not_address, decision]
  | ipv6 groups =>
    obtain ⟨literal, rfl, hv6⟩ := hwrites
    obtain ⟨hopen, hclose⟩ := fromStr_no_bracket hv6
    rw [builtHost]
    by_cases hm : method = CONNECT
    · rw [if_pos hm, stripBrackets_brackets, shouldBypass,
        extractHost_bare hopen (fromStr_v6_colon hv6), fromStr_firstPart hv6]
      show matchDomain rules _ = matchIp rules _ ↔ _
      constructor
      · rintro h - groups' literal' hg hl
        obtain rfl : groups = groups' := by simpa using hg
        obtain rfl : literal = literal' := by simpa using hl
        exact h.symm
      · intro h
        exact (h hm groups literal rfl rfl).symm
    · rw [if_neg hm, shouldBypass, extractHost_brackets hclose]
      simp [hv6, decision, hm]

end Rules

/-! ## A rule for the loopback address -/

/-- The number an address is, and how many bits it has. -/
def value : Addr → Nat × Nat
  | .v4 octets => (octets.foldl (fun acc d => acc * 256 + d) 0, 32)
  | .v6 groups => (groups.foldl (fun acc d => acc * 65536 + d) 0, 128)

/-- Two addresses of one family agree in their first `len` bits. -/
def sameNetwork (len : Nat) (a b : Addr) : Bool :=
  (value a).2 = (value b).2 &&
    (value a).1 / 2 ^ ((value a).2 - len) = (value b).1 / 2 ^ ((value b).2 - len)

/-- The libraries as lists; a network with bits behind its length is refused. -/
def listTables : Tables where
  Set := List Bytes
  setOf := some
  contains := fun set key => decide (key ∈ set)
  Table := List (Addr × Nat)
  empty := []
  insert := fun table addr len =>
    if (value addr).1 % 2 ^ ((value addr).2 - len) = 0 then some (table ++ [(addr, len)]) else none
  longestMatch := fun table ip => table.any fun net => sameNetwork net.2 net.1 ip

/-- The bytes of `::1/128`. -/
def LOOPBACK_CIDR : Bytes := [58, 58, 49, 47, 49, 50, 56]

/-- The rules of a file with the one network `::1/128`. -/
def loopbackRules : Rules listTables := ⟨[], [(.v6 [0, 0, 0, 0, 0, 0, 0, 1], 128)]⟩

theorem bypass_applies_loopback_url :
    ∃ built origin, resolveRequest loopbackParsers GET LOOPBACK_URL = .ok (built, origin) ∧
      (shouldBypass loopbackRules built =
          decision loopbackRules (.ipv6 [0, 0, 0, 0, 0, 0, 0, 1]) ↔
        (GET = CONNECT → ∀ groups literal, Host.ipv6 [0, 0, 0, 0, 0, 0, 0, 1] = .ipv6 groups →
          LOOPBACK = [91] ++ literal ++ [93] →
          matchIp loopbackRules (.v6 groups) = matchDomain loopbackRules (firstPart 58 literal))) := by
  have hnames : Names loopbackParsers GET LOOPBACK_URL LOOPBACK 80 := by
    rw [Names, if_neg (by decide)]
    exact ⟨_, rfl, rfl, rfl⟩
  exact bypass_applies_iff listTables loopbackRules loopbackParsers GET LOOPBACK_URL LOOPBACK _ 80
    hnames writes_loopback

/-- **The defect.**  `CONNECT [::1]:443` under a rule for `::1/128`: the lookup is made for the empty
    name. -/
theorem connect_loopback_not_bypassed :
    ((Builder.new listTables).addCidr LOOPBACK_CIDR).bind Builder.build = .ok loopbackRules ∧
    Names loopbackParsers CONNECT LOOPBACK_AUTHORITY LOOPBACK 443 ∧
    Writes LOOPBACK (.ipv6 [0, 0, 0, 0, 0, 0, 0, 1]) ∧
    ∃ built, resolveRequest loopbackParsers CONNECT LOOPBACK_AUTHORITY = .ok (built, none) ∧
      extractHost built = [] ∧ shouldBypass loopbackRules built = false ∧
      decision loopbackRules (.ipv6 [0, 0, 0, 0, 0, 0, 0, 1]) = true := by
  have hadd : (Builder.new listTables).addCidr LOOPBACK_CIDR =
      .ok ⟨[], [(.v6 [0, 0, 0, 0, 0, 0, 0, 1], 128)]⟩ := rfl
  refine ⟨?_, ?_, writes_loopback, _, rfl, by decide, by decide, by decide⟩
  · rw [hadd, Except.bind, Builder.build, sortedKeys, List.mergeSort_nil]
    rfl
  · rw [Names, if_pos rfl]
    rfl

end Httproxy.Bypass
