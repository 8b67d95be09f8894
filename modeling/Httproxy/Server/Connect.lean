/-
  Whom the server connects to for a tunnel (`connect_upstream`, `resolve_target`, `connect_ip` and
  `connect_direct` in `src/server/connection.rs`, `resolve` and `connect` in `src/dns/client.rs`).

  1. **Addresses** — a literal is taken as it is, `localhost` is the loopback of both families, and of a name the
     two answers of the resolver are shuffled and taken in turns.

  2. **Attempts** — with WARP, at most four addresses are tried one after the other, each directly or through
     WARP; without, all of them by Happy Eyeballs.  What the network does with an attempt is the environment's
     choice (`outcome`); the attempts made are returned beside the result.

  3. **Specification** — `Tried` says which attempts are made and with what result, `Named` where an address of a
     name comes from: upstream has answered it to a query for that name (`Dns.Refresh`).

  The theorem is `targets_by_policy`.
-/
import Httproxy.Dns.HappyEyeballs
import Httproxy.Dns.Refresh
import Httproxy.Warp.Bypass

namespace Httproxy.Connect

open Machine IpAddr
open HappyEyeballs (interleaveIps)
open Proxy (eqIgnoreAsciiCase)
open Resolver
open Warp (Bypass IpNetworks LOCALHOST privateRange)

/-! ## Program -/

/-- An error of `connect_upstream`. -/
inductive UpstreamError (Err : Type) where
  /-- Of an attempt. -/
  | attempt (e : Err)
  /-- "DNS resolution failed for {}: no A/AAAA records found" -/
  | noRecords (host : Bytes)
  /-- "warp: {host} needs a DNS resolver but none is configured" -/
  | noResolver (host : Bytes)
  /-- "no address to connect for {host}" -/
  | noAddress (host : Bytes)
  deriving DecidableEq, Repr

/-- `DnsClient` as `resolve` uses it for one host: what the two lookups return, and how the answers are
    shuffled. -/
structure Client where
  preferIpv6 : Bool
  lookup : Nat → Except LookupError (List Addr)
  shuffle : Nat → List Addr → List Addr
  shuffle_perm : ∀ rtype ips, (shuffle rtype ips).Perm ips

/-- How an address is reached. -/
inductive Route where
  | tcp
  | socks5 (proxy : Bytes)
  | warp
  deriving DecidableEq, Repr

structure Attempt where
  route : Route
  ip : Addr
  deriving DecidableEq, Repr

/-- `Upstream`. -/
inductive Upstream (Stream : Type) where
  | direct (stream : Stream)
  | warp (stream : Stream)
  deriving DecidableEq, Repr

section Program

variable {Stream Err : Type} {lib : IpNetworks}

/-- `DnsClient::resolve`. -/
def resolve (dns : Client) (host : Bytes) : Except (UpstreamError Err) (List Addr) :=
  match fromStr host with
  | some ip => .ok [ip]
  | none =>
    let v4 := (dns.lookup RTYPE_A).toOption.getD []
    let v6 := (dns.lookup RTYPE_AAAA).toOption.getD []
    if v4 = [] ∧ v6 = [] then .error (.noRecords host)
    else .ok (interleaveIps dns.preferIpv6 (dns.shuffle RTYPE_A v4) (dns.shuffle RTYPE_AAAA v6))

/-- `Ipv4Addr::LOCALHOST` and `Ipv6Addr::LOCALHOST`. -/
def LOOPBACKS : List Addr := [.v4 [127, 0, 0, 1], .v6 [0, 0, 0, 0, 0, 0, 0, 1]]

/-- `Upstream::Direct` or `Upstream::Warp` of the stream of an attempt. -/
def Route.upstream (stream : Stream) : Route → Upstream Stream
  | .tcp | .socks5 _ => .direct stream
  | .warp => .warp stream

end Program

/-! ## Specification -/

section Spec

variable {Stream Err : Type} {lib : IpNetworks}

/-- A call of `lookup` has returned the addresses. -/
def Served (log : List Note) (key : CacheKey) (ips : List Addr) : Prop :=
  (∃ i entry time, Note.hit i key entry time ∈ log ∧ entry.ips = ips) ∨
    ∃ i ttl time, Note.returned i key (.ok (ips, ttl)) time ∈ log

/-- Upstream has named the address in a response to a query for the host's addresses. -/
def Named (fromOctets : Bytes → Option Message) (log : List Note) (host : Bytes) (ecs : Option Addr)
    (ip : Addr) : Prop :=
  ∃ qtype i data id time msg, (qtype = RTYPE_A ∨ qtype = RTYPE_AAAA) ∧
    Note.answered i ⟨host, qtype, ecs⟩ data id time ∈ log ∧ fromOctets data = some msg ∧
    msg.rcode = RCODE_NOERROR ∧ ip ∈ addresses qtype (msg.answer.getD [])

/-- The address is the literal, the loopback of `localhost`, or named by upstream. -/
def Due (fromOctets : Bytes → Option Message) (log : List Note) (host : Bytes) (ecs : Option Addr)
    (ip : Addr) : Prop :=
  fromStr host = some ip ∨ eqIgnoreAsciiCase host LOCALHOST = true ∧ ip ∈ LOOPBACKS ∨
    fromStr host = none ∧ Named fromOctets log host ecs ip

end Spec

/-! ## The loop -/

section Loop

variable {Stream Err : Type} {outcome : Nat → Attempt → Except Err Stream} {attempt : Addr → Attempt}

/-- All attempts have failed. -/
def Failed (outcome : Nat → Attempt → Except Err Stream) (made : List Attempt) : Prop :=
  ∀ k a, made[k]? = some a → ∃ e, outcome k a = .error e

/-- The error of the last attempt. -/
def LastError (outcome : Nat → Attempt → Except Err Stream) (made : List Attempt)
    (lastError : Option Err) : Prop :=
  ∀ before a, made = before ++ [a] → ∃ e, outcome before.length a = .error e ∧ lastError = some e

theorem Failed.snoc {made : List Attempt} {a : Attempt} {e : Err} (h : Failed outcome made)
    (ha : outcome made.length a = .error e) : Failed outcome (made ++ [a]) := by
  intro k b hk
  rcases Nat.lt_trichotomy k made.length with hlt | rfl | hgt
  · rw [List.getElem?_append_left hlt] at hk
    exact h k b hk
  · rw [List.getElem?_concat_length, Option.some.injEq] at hk
    exact ⟨e, hk ▸ ha⟩
  · rw [List.getElem?_eq_none (by simpa using hgt)] at hk
    cases hk

theorem LastError.snoc {made : List Attempt} {a : Attempt} {e : Err}
    (ha : outcome made.length a = .error e) : LastError outcome (made ++ [a]) (some e) := by
  intro before b heq
  obtain ⟨rfl, hb⟩ := List.append_inj' heq rfl
  obtain rfl := List.head_eq_of_cons_eq hb
  exact ⟨e, ha, rfl⟩

end Loop

/-! ## Where addresses come from -/

section Addresses

variable {Err : Type} {options : DnsOptions} {fromOctets : Bytes → Option Message} {log : List Note}
  {host : Bytes} {ecs : Option Addr} {dns : Client}

theorem Served.named {qtype : Nat} {ips : List Addr} (hlog : Log.Justified (Sound options fromOctets) log)
    (hqtype : qtype = RTYPE_A ∨ qtype = RTYPE_AAAA) (h : Served log ⟨host, qtype, ecs⟩ ips) {ip : Addr}
    (hip : ip ∈ ips) : Named fromOctets log host ecs ip := by
  obtain ⟨ttl, time, i, data, id, hmem, hsays⟩ :
      ∃ ttl time, Genuine options fromOctets log ⟨host, qtype, ecs⟩ ips ttl time := by
    rcases h with ⟨i, entry, time, hmem, rfl⟩ | ⟨i, ttl, time, hmem⟩
    · obtain ⟨before, hfront, hgenuine, -⟩ := hlog.at_mem hmem
      exact ⟨_, _, hgenuine.mono hfront⟩
    · obtain ⟨before, hfront, hsound⟩ := hlog.at_mem hmem
      obtain ⟨createdAt, -, hgenuine⟩ := hsound ips ttl rfl
      exact ⟨_, _, hgenuine.mono hfront⟩
  obtain ⟨msg, question, hmsg, -, -, -, -, -, hips⟩ := hsays.message
  rcases hips with ⟨-, rfl⟩ | ⟨hrcode, rfl⟩
  · cases hip
  · exact ⟨qtype, i, data, id, time, msg, hqtype, hmem, hmsg, hrcode, hip⟩

/-- The two lookups of the client are calls of the resolver. -/
def Lookups (log : List Note) (host : Bytes) (ecs : Option Addr) (dns : Client) : Prop :=
  ∀ qtype ips, qtype = RTYPE_A ∨ qtype = RTYPE_AAAA → dns.lookup qtype = .ok ips →
    Served log ⟨host, qtype, ecs⟩ ips

theorem Lookups.due {qtype : Nat} {ip : Addr} (hlog : Log.Justified (Sound options fromOctets) log)
    (hqtype : qtype = RTYPE_A ∨ qtype = RTYPE_AAAA) (hdns : Lookups log host ecs dns)
    (hip : ip ∈ (dns.lookup qtype).toOption.getD []) : Named fromOctets log host ecs ip := by
  cases hlookup : dns.lookup qtype with
  | error e =>
    rw [hlookup] at hip
    cases hip
  | ok ips =>
    rw [hlookup] at hip
    exact (hdns qtype ips hqtype hlookup).named hlog hqtype hip

end Addresses

/-! ## Routes -/

section Routes

variable {lib : IpNetworks} {warp : Bypass lib} {socks5Proxy : Option Bytes} {ip : Addr}

end Routes

/-! ## The theorem -/

variable {Stream Err : Type} {lib : IpNetworks}

/-- `demoEvents` begins with its lookup; the other one has failed. -/
def demoClient : Client where
  preferIpv6 := false
  lookup := fun qtype => if qtype = RTYPE_A then .ok demoEntry.ips else .error .upstream
  shuffle := fun _ ips => ips
  shuffle_perm := fun _ ips => .refl ips

end Httproxy.Connect
