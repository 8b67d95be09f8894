/-
  What a target string means on the two sides of the tunnel.

  The client builds `host:port` in `resolve_request`, from a `CONNECT` authority or from an absolute
  URL.  The server takes it apart in `spawn_encrypted_tunnel` at the LAST colon, and reads the host with
  `IpAddr::from_str` before it asks the resolver.

  1. **Hosts (`Host`, `Writes`)** — a host is an address or a name; `Writes text host` says that `text`
     is how the parsers hand it on.  Both keep the brackets around an address of the second form.

  2. **Meaning (`MeansSame`)** — the server gets back the port, and a host string that it reads as the
     same address, or the same name.

  3. **The defect** — the `CONNECT` path takes the brackets off, the URL path does not, and the server
     does not either: `[::1]:80` gives the host `[::1]`, which is not an address.  `target_means_same_iff`
     is the exact condition.
-/
import Httproxy.Client.Proxy
import Httproxy.Lib.IpAddr

namespace Httproxy.Proxy

open Bytes Text IpAddr

/-! ## The server's side -/

/-- `ServerError`: the status and the text. -/
structure ServerError where
  status : Nat
  text : String
  deriving DecidableEq, Repr

/-- The end of `spawn_encrypted_tunnel`: host and port of a target. -/
def splitTarget (target : Bytes) : Except ServerError (Bytes × Nat) :=
  match rsplitOnce 58 target with
  | none => .error ⟨400, "target must be host:port"⟩
  | some (host, portStr) =>
    match parseUnsigned 65536 portStr with
    | none => .error ⟨400, "invalid port"⟩
    | some port => .ok (host, port)

theorem splitTarget_hostPort (host : Bytes) {port : Nat} (hport : port < 65536) :
    splitTarget (hostPort host port) = .ok (host, port) := by
  have hcolon : (58 : UInt8) ∉ decimal port := not_mem_decimal (.inr (by decide))
  rw [splitTarget, hostPort, rsplitOnce_append host hcolon]
  dsimp only
  rw [parseUnsigned_decimal hport]

/-! ## Hosts -/

inductive Host where
  | ipv4 (octets : List Nat)
  | ipv6 (groups : List Nat)
  | name (n : Bytes)
  deriving DecidableEq, Repr

/-- A name: no text of an address, and without colons and brackets. -/
structure DnsName (n : Bytes) : Prop where
  no_colon : 58 ∉ n
  no_open : 91 ∉ n
  no_close : 93 ∉ n
  not_address : fromStr n = none

/-- `text` is what `Authority::host` or `host_str` returns for the host. -/
def Writes (text : Bytes) : Host → Prop
  | .ipv4 octets => fromStr text = some (.v4 octets)
  | .ipv6 groups => ∃ literal, text = [91] ++ literal ++ [93] ∧ fromStr literal = some (.v6 groups)
  | .name n => text = n ∧ DnsName n

/-- The parsers find the host in the request, written as `text`, with the port. -/
def Names (parsers : Parsers) (method target text : Bytes) (port : Nat) : Prop :=
  if method = CONNECT then parsers.authority target = some ⟨text, some port⟩
  else ∃ url, parsers.url target = some url ∧ url.hostStr = some text ∧
    url.portOrKnownDefault = some port

/-- The server reads the target string as that host and that port. -/
def MeansSame (host : Host) (port : Nat) (target : Bytes) : Prop :=
  ∃ text, splitTarget target = .ok (text, port) ∧
    match host with
    | .ipv4 octets => fromStr text = some (.v4 octets)
    | .ipv6 groups => fromStr text = some (.v6 groups)
    | .name n => text = n

/-! ## Brackets -/

theorem dropStart_of_not_mem {b : UInt8} {s : Bytes} (h : b ∉ s) : dropStart [b] s = none := by
  rw [dropStart, if_neg]
  intro hp
  rw [List.isPrefixOf_iff_prefix] at hp
  exact h (hp.subset List.mem_cons_self)

theorem stripBrackets_of_not_mem {s : Bytes} (h : 91 ∉ s) : stripBrackets s = s := by
  rw [stripBrackets, dropStart_of_not_mem h]
  rfl

theorem stripBrackets_brackets (s : Bytes) : stripBrackets ([91] ++ s ++ [93]) = s := by
  rw [stripBrackets, List.append_assoc, dropStart_append]
  show (dropEnd [93] (s ++ [93])).getD _ = s
  rw [dropEnd_append]
  rfl

/-! ## What the client builds -/

/-- The host string in the target that `resolve_request` returns. -/
def builtHost (method text : Bytes) : Bytes := if method = CONNECT then stripBrackets text else text

theorem resolveRequest_names {parsers : Parsers} {method target text : Bytes} {port : Nat}
    (h : Names parsers method target text port) :
    ∃ origin, resolveRequest parsers method target =
      .ok (hostPort (builtHost method text) port, origin) := by
  rw [Names] at h
  rw [resolveRequest, builtHost]
  by_cases hm : method = CONNECT
  · rw [if_pos hm] at h
    refine ⟨none, ?_⟩
    rw [if_pos hm, if_pos hm, resolveConnectHost, h]
    rfl
  · rw [if_neg hm] at h
    obtain ⟨url, hurl, hhost, hport⟩ := h
    refine ⟨some (originForm url), ?_⟩
    rw [if_neg hm, if_neg hm, hurl]
    dsimp only
    rw [hhost, hport]

/-- A host string without brackets goes through unchanged. -/
theorem builtHost_plain {method text : Bytes} (h : 91 ∉ text) : builtHost method text = text := by
  rw [builtHost, stripBrackets_of_not_mem h]
  split <;> rfl

theorem meansSame_hostPort {host : Host} {port : Nat} (hport : port < 65536) (text : Bytes) :
    MeansSame host port (hostPort text port) ↔
      match host with
      | .ipv4 octets => fromStr text = some (.v4 octets)
      | .ipv6 groups => fromStr text = some (.v6 groups)
      | .name n => text = n := by
  rw [MeansSame, splitTarget_hostPort text hport]
  constructor
  · rintro ⟨text', heq, h⟩
    obtain ⟨rfl, -⟩ : text = text' ∧ port = port := by simpa using heq
    exact h
  · intro h
    exact ⟨text, rfl, h⟩

/-- **Exactly when the target means the same** on both sides: for every request whose host is an
    address or a name, unless an absolute URL has an address in brackets. -/
theorem target_means_same_iff (parsers : Parsers) (method target text : Bytes) (host : Host)
    (port : Nat) (hnames : Names parsers method target text port) (hwrites : Writes text host)
    (hport : port < 65536) :
    ∃ built origin, resolveRequest parsers method target = .ok (built, origin) ∧
      (MeansSame host port built ↔ (method = CONNECT ∨ ∀ groups, host ≠ .ipv6 groups)) := by
  obtain ⟨origin, hresolve⟩ := resolveRequest_names hnames
  refine ⟨_, origin, hresolve, ?_⟩
  rw [meansSame_hostPort hport]
  cases host with
  | ipv4 octets =>
    have hv4 : fromStr text = some (.v4 octets) := hwrites
    rw [builtHost_plain (fromStr_no_bracket hv4).1]
    simp [hv4]
  | name n =>
    obtain ⟨rfl, hname⟩ : text = n ∧ DnsName n := hwrites
    rw [builtHost_plain hname.no_open]
    simp
  | ipv6 groups =>
    obtain ⟨literal, rfl, hv6⟩ := hwrites
    by_cases hm : method = CONNECT
    · rw [builtHost, if_pos hm, stripBrackets_brackets]
      simp [hm, hv6]
    · rw [builtHost, if_neg hm]
      constructor
      · intro h
        exact absurd (fromStr_no_bracket h).1 (by simp)
      · rintro (h | h)
        · exact absurd h hm
        · exact absurd rfl (h groups)

/-! ## The loopback address in both forms -/

/-- The bytes of `[::1]`. -/
def LOOPBACK : Bytes := [91, 58, 58, 49, 93]
/-- The bytes of `[::1]:443`. -/
def LOOPBACK_AUTHORITY : Bytes := LOOPBACK ++ [58, 52, 52, 51]
/-- The bytes of `http://[::1]/`. -/
def LOOPBACK_URL : Bytes := [104, 116, 116, 112, 58, 47, 47] ++ LOOPBACK ++ [47]
/-- The bytes of `GET`. -/
def GET : Bytes := [71, 69, 84]

/-- What the libraries return for the loopback address. -/
def loopbackParsers : Parsers where
  head := fun _ => .ok none
  authority := fun b => if b = LOOPBACK_AUTHORITY then some ⟨LOOPBACK, some 443⟩ else none
  url := fun b => if b = LOOPBACK_URL then some ⟨some LOOPBACK, some 80, [47], none⟩ else none

theorem writes_loopback : Writes LOOPBACK (.ipv6 [0, 0, 0, 0, 0, 0, 0, 1]) :=
  ⟨[58, 58, 49], rfl, by decide⟩

theorem target_means_same_loopback :
    ∃ built origin, resolveRequest loopbackParsers CONNECT LOOPBACK_AUTHORITY = .ok (built, origin) ∧
      (MeansSame (.ipv6 [0, 0, 0, 0, 0, 0, 0, 1]) 443 built ↔
        (CONNECT = CONNECT ∨ ∀ groups, Host.ipv6 [0, 0, 0, 0, 0, 0, 0, 1] ≠ .ipv6 groups)) :=
  target_means_same_iff loopbackParsers CONNECT LOOPBACK_AUTHORITY LOOPBACK _ 443
    (by rw [Names, if_pos rfl]; rfl) writes_loopback (by decide)

/-- **The defect.**  `GET http://[::1]/`: the server is asked for the host `[::1]`, and that is not an
    address. -/
theorem bracketed_url_not_an_address :
    Names loopbackParsers GET LOOPBACK_URL LOOPBACK 80 ∧
    Writes LOOPBACK (.ipv6 [0, 0, 0, 0, 0, 0, 0, 1]) ∧
    resolveRequest loopbackParsers GET LOOPBACK_URL = .ok (hostPort LOOPBACK 80, some [47]) ∧
    splitTarget (hostPort LOOPBACK 80) = .ok (LOOPBACK, 80) ∧ fromStr LOOPBACK = none ∧
    ¬ MeansSame (.ipv6 [0, 0, 0, 0, 0, 0, 0, 1]) 80 (hostPort LOOPBACK 80) := by
  refine ⟨?_, writes_loopback, rfl, splitTarget_hostPort _ (by decide), by decide, ?_⟩
  · rw [Names, if_neg (by decide)]
    exact ⟨_, rfl, rfl, rfl⟩
  · rw [meansSame_hostPort (by decide)]
    decide

end Httproxy.Proxy
