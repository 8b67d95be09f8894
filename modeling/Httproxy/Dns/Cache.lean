/-
  The cache of the resolver (`lookup`, `query_upstream_and_cache` and `parse_response` in
  `src/dns/client.rs`): stale answers are served while ONE task asks again.

  1. **Responses** — `parseResponse` reads a message of the `domain` crate, whose parser is a parameter;
     `Says` is what it should accept (`parseResponse_ok`).

  2. **Calls** — a call of `lookup` reads the cache; it serves what is fresh, serves what is stale and spawns a
     task that asks again (unless `is_refreshing` is set), or waits for an answer.  Both ask through
     `single_flight`.  A `Task` is what is going on of one call, the task it spawned included, and the calls
     act in ANY order; between any two of their steps the clock may go on, the cache may evict entries, and
     callers may go away.

  3. **What a step does** — `Acts` has one case for each thing that a call can do.
-/
import Httproxy.Client.Proxy
import Httproxy.Lib.IpAddr
import Httproxy.Lib.Log
import Httproxy.Lib.SingleFlight
import Httproxy.Lib.Tasks

namespace Httproxy.Resolver

open Machine IpAddr SingleFlight Log

/-! ## Responses -/

/-- `DnsOptions`, as far as answers depend on it. -/
structure DnsOptions where
  preferIpv6 : Bool
  minTtl : Nat
  maxTtl : Nat
  swrTtl : Nat
  emptyTtl : Nat
  deriving DecidableEq, Repr

/-- `DnsOptions::default`. -/
def DnsOptions.default : DnsOptions where
  preferIpv6 := false
  minTtl := 30
  maxTtl := 3600
  swrTtl := 3600
  emptyTtl := 300

/-- `Rtype::A` and `Rtype::AAAA`. -/
def RTYPE_A : Nat := 1
def RTYPE_AAAA : Nat := 28

/-- `Rcode::NOERROR` and `Rcode::NXDOMAIN`. -/
def RCODE_NOERROR : Nat := 0
def RCODE_NXDOMAIN : Nat := 3

structure Question where
  qname : Bytes
  qtype : Nat
  deriving DecidableEq, Repr

/-- A record of the answer, with what `into_record` makes of it for the two types of addresses. -/
structure Record where
  rtype : Nat
  ttl : Nat
  a : Option (List Nat)
  aaaa : Option (List Nat)
  deriving DecidableEq, Repr

/-- A message, as `parse_response` looks at it; in the answer section, the records that can be read. -/
structure Message where
  id : Nat
  soleQuestion : Option Question
  tc : Bool
  rcode : Nat
  answer : Option (List Record)
  deriving DecidableEq, Repr

inductive ResponseError where
  | invalid
  | idMismatch (expected got : Nat)
  | question
  | mismatch (domain : Bytes)
  | truncated
  | rcode (rcode : Nat)
  deriving DecidableEq, Repr

/-- `trim_end_matches('.')`. -/
def trimEndDots (s : Bytes) : Bytes := s.rdropWhile (· == 46)

/-- The address of a record of type `qtype`. -/
def Record.addr (qtype : Nat) (rec : Record) : Option Addr :=
  if qtype = RTYPE_A then rec.a.map .v4
  else if qtype = RTYPE_AAAA then rec.aaaa.map .v6
  else none

/-- The loop over the answer section: the addresses, and the smallest TTL. -/
def collect (qtype : Nat) (records : List Record) : List Addr × Nat :=
  (records.filter fun rec => rec.rtype = qtype).foldl
    (fun acc rec => (acc.1 ++ (rec.addr qtype).toList, min acc.2 rec.ttl)) ([], 2 ^ 32 - 1)

/-- `u64::clamp`. -/
def clamp (lo hi ttl : Nat) : Nat := max lo (min hi ttl)

/-- `parse_response`: the addresses, and for how many seconds they are fresh. -/
def parseResponse (options : DnsOptions) (fromOctets : Bytes → Option Message) (data : Bytes) (id qtype : Nat)
    (domain : Bytes) : Except ResponseError (List Addr × Nat) :=
  match fromOctets data with
  | none => .error .invalid
  | some msg =>
    if msg.id ≠ id then .error (.idMismatch id msg.id)
    else match msg.soleQuestion with
      | none => .error .question
      | some question =>
        let nameMatches := Proxy.eqIgnoreAsciiCase (trimEndDots question.qname) (trimEndDots domain)
        if question.qtype ≠ qtype ∨ nameMatches = false then .error (.mismatch domain)
        else if msg.tc then .error .truncated
        else if msg.rcode = RCODE_NXDOMAIN then .ok ([], options.emptyTtl)
        else if msg.rcode ≠ RCODE_NOERROR then .error (.rcode msg.rcode)
        else
          let (ips, minTtl) := collect qtype (msg.answer.getD [])
          let ttl :=
            if ips = [] then options.emptyTtl
            else clamp (min options.minTtl options.maxTtl) (max options.minTtl options.maxTtl) minTtl
          .ok (ips, ttl)

/-! ## Calls -/

structure CacheKey where
  domain : Bytes
  rtype : Nat
  ecs : Option Addr
  deriving DecidableEq, Repr

/-- `CacheEntry`; of `is_refreshing`, which of the flags it is. -/
structure CacheEntry where
  ips : List Addr
  createdAt : Nat
  ttl : Nat
  isRefreshing : Nat
  deriving DecidableEq, Repr

inductive LookupError where
  /-- The semaphore, `build_query` or the transport. -/
  | upstream
  | response (e : ResponseError)
  deriving DecidableEq, Repr

abbrev SharedDnsResult : Type := Except LookupError (List Addr × Nat)

/-- What happens at the resolver, as seen from outside; `i` is the call. -/
inductive Note where
  | asked (i : Nat) (key : CacheKey)
  | answered (i : Nat) (key : CacheKey) (data : Bytes) (id time : Nat)
  | stored (i : Nat) (key : CacheKey) (entry : CacheEntry)
  /-- `lookup` returns the addresses of an entry. -/
  | hit (i : Nat) (key : CacheKey) (entry : CacheEntry) (time : Nat)
  /-- `lookup` returns what the flight has ended with. -/
  | returned (i : Nat) (key : CacheKey) (r : SharedDnsResult) (time : Nat)
  deriving DecidableEq

/-- `DnsClient`: the clock, the cache, the flags that were made, and the flights. -/
structure DnsClient where
  now : Nat
  cache : CacheKey → Option CacheEntry
  isRefreshing : Nat → Bool
  flags : Nat
  flights : Group CacheKey Nat SharedDnsResult
  log : List Note

/-- What goes on of a call of `lookup`.  With a flag in `refresh`, the call has returned and this is the task
    that it has spawned, which clears the flag in the end. -/
inductive Task where
  | idle
  /-- The entry was read from the cache. -/
  | found (key : CacheKey) (entry : CacheEntry)
  /-- `single_flight.work` is called next. -/
  | calling (key : CacheKey) (refresh : Option Nat)
  | waiting (key : CacheKey) (refresh : Option Nat) (flight : Nat)
  /-- The closure runs: `query_upstream`. -/
  | asking (key : CacheKey) (refresh : Option Nat) (flight : Nat)
  | inserting (key : CacheKey) (refresh : Option Nat) (flight : Nat) (ips : List Addr) (ttl createdAt : Nat)
  /-- The closure has returned. -/
  | leaving (key : CacheKey) (refresh : Option Nat) (flight : Nat) (r : SharedDnsResult)
  | ended

/-- The flag that the task is to clear. -/
def Task.refresh : Task → Option Nat
  | .calling _ refresh | .waiting _ refresh _ | .asking _ refresh _ | .inserting _ refresh _ _ _ _
  | .leaving _ refresh _ _ => refresh
  | _ => none

/-- The key and the flight for which the closure runs. -/
def Task.leading : Task → Option (CacheKey × Nat)
  | .asking key _ flight | .inserting key _ flight _ _ _ | .leaving key _ flight _ => some (key, flight)
  | _ => none

inductive Action where
  | lookup (key : CacheKey)
  | decide
  | work
  | query
  /-- `transport.send` returns, with a response or without. -/
  | answer (response : Option (Bytes × Nat))
  | insert
  | finish
  | result
  /-- The caller goes away. -/
  | drop

def DnsClient.note (g : DnsClient) (n : Note) : DnsClient := { g with log := g.log ++ [n] }

section Program

variable (options : DnsOptions) (fromOctets : Bytes → Option Message)

/-- `lookup`, once it has an entry. -/
def decideEntry (g : DnsClient) (i : Nat) (key : CacheKey) (entry : CacheEntry) : DnsClient × Task :=
  let elapsed := g.now - entry.createdAt
  let hit := g.note (.hit i key entry g.now)
  if elapsed < entry.ttl then (hit, .ended)
  else if elapsed < (entry.ttl + options.swrTtl) % 2 ^ 64 then
    -- `compare_exchange`
    if g.isRefreshing entry.isRefreshing then (hit, .ended)
    else ({ hit with isRefreshing := Function.update g.isRefreshing entry.isRefreshing true },
      .calling key (some entry.isRefreshing))
  else (g, .calling key none)

/-- `query_upstream_and_cache`, once the transport has returned. -/
def answered (g : DnsClient) (i : Nat) (key : CacheKey) (refresh : Option Nat) (flight : Nat) :
    Option (Bytes × Nat) → DnsClient × Task
  | none => (g, .leaving key refresh flight (.error .upstream))
  | some (data, id) =>
    let g := g.note (.answered i key data id g.now)
    match parseResponse options fromOctets data id key.rtype key.domain with
    | .error e => (g, .leaving key refresh flight (.error (.response e)))
    | .ok (ips, ttl) => (g, .inserting key refresh flight ips ttl g.now)

/-- The future of a call is dropped; what it has spawned is not. -/
def dropped (g : DnsClient) : Task → Option DnsClient
  | .found _ _ | .calling _ none | .waiting _ none _ => some g
  | .asking _ none flight | .inserting _ none flight _ _ _ | .leaving _ none flight _ =>
    some { g with flights := g.flights.abandon flight }
  | _ => none

def act (g : DnsClient) (i : Nat) (t : Task) (a : Action) : Option (DnsClient × Task) :=
  match a, t with
  | .lookup key, .idle =>
    match g.cache key with
    | some entry => some (g, .found key entry)
    | none => some (g, .calling key none)
  | .decide, .found key entry => some (decideEntry options g i key entry)
  | .work, .calling key refresh =>
    some ({ g with flights := (g.flights.join key).2 }, .waiting key refresh (g.flights.join key).1)
  | .query, .waiting key refresh flight =>
    (g.flights.lead flight i).map fun flights =>
      ({ g.note (.asked i key) with flights }, .asking key refresh flight)
  | .answer response, .asking key refresh flight =>
    some (answered options fromOctets g i key refresh flight response)
  | .insert, .inserting key refresh flight ips ttl createdAt =>
    let entry : CacheEntry := { ips, createdAt, ttl, isRefreshing := g.flags }
    some ({ g.note (.stored i key entry) with
        cache := Function.update g.cache key (some entry)
        flags := g.flags + 1 }, .leaving key refresh flight (.ok (ips, ttl)))
  | .finish, .leaving key refresh flight r =>
    some ({ g with flights := g.flights.finish key flight r }, .waiting key refresh flight)
  | .result, .waiting key refresh flight =>
    (g.flights.result flight).map fun r =>
      match refresh with
      | none => (g.note (.returned i key r g.now), .ended)
      | some flag => ({ g with isRefreshing := Function.update g.isRefreshing flag false }, .ended)
  | .drop, t => (dropped g t).map fun g => (g, .ended)
  | _, _ => none

abbrev State : Type := Tasks.State DnsClient Nat Task

inductive Event where
  | call (i : Nat) (a : Action)
  /-- The clock goes on. -/
  | tick
  /-- The cache drops an entry: it is full, or the entry too old. -/
  | evict (key : CacheKey)

def step (s : State) : Event → Option State
  | .call i a => Tasks.step (act options fromOctets) s (i, a)
  | .tick => some { s with shared := { s.shared with now := s.shared.now + 1 } }
  | .evict key =>
    some { s with shared := { s.shared with cache := Function.update s.shared.cache key none } }

/-- `with_transport`. -/
def DnsClient.withTransport : DnsClient := ⟨0, fun _ => none, fun _ => false, 0, .new, []⟩

def State.start : State := ⟨.withTransport, fun _ => .idle⟩

end Program

/-! ## What a response says -/

/-- The addresses of type `qtype` among the records, in their order. -/
def addresses (qtype : Nat) (records : List Record) : List Addr :=
  (records.filter fun rec => rec.rtype = qtype).filterMap (Record.addr qtype)

theorem collect_addresses (qtype : Nat) (records : List Record) :
    (collect qtype records).1 = addresses qtype records := by
  suffices hloop : ∀ (rs : List Record) (acc : List Addr × Nat),
      (rs.foldl (fun acc rec => (acc.1 ++ (rec.addr qtype).toList, min acc.2 rec.ttl)) acc).1 =
        acc.1 ++ rs.filterMap (Record.addr qtype) from hloop _ _
  intro rs
  induction rs with
  | nil => exact fun acc => (List.append_nil _).symm
  | cons rec rs ih =>
    intro acc
    rw [List.foldl_cons, ih]
    cases hrec : rec.addr qtype with
    | none => simp [hrec]
    | some ip => simp [hrec]

theorem clamp_bounds {lo hi : Nat} (h : lo ≤ hi) (ttl : Nat) :
    lo ≤ clamp lo hi ttl ∧ clamp lo hi ttl ≤ hi := by
  unfold clamp
  omega

/-- `data` is a complete response to a query with this id, type and name; it says that there is no such
    name, or names the addresses `ips`. -/
structure Says (options : DnsOptions) (fromOctets : Bytes → Option Message) (data : Bytes) (id qtype : Nat)
    (domain : Bytes) (ips : List Addr) (ttl : Nat) : Prop where
  message : ∃ msg question, fromOctets data = some msg ∧ msg.id = id ∧ msg.tc = false ∧
    msg.soleQuestion = some question ∧ question.qtype = qtype ∧
    Proxy.eqIgnoreAsciiCase (trimEndDots question.qname) (trimEndDots domain) = true ∧
    (msg.rcode = RCODE_NXDOMAIN ∧ ips = [] ∨
      msg.rcode = RCODE_NOERROR ∧ ips = addresses qtype (msg.answer.getD []))
  empty : ips = [] → ttl = options.emptyTtl
  bounds : ips ≠ [] → min options.minTtl options.maxTtl ≤ ttl ∧ ttl ≤ max options.minTtl options.maxTtl

theorem parseResponse_ok {options : DnsOptions} {fromOctets : Bytes → Option Message} {data domain : Bytes}
    {id qtype ttl : Nat} {ips : List Addr}
    (h : parseResponse options fromOctets data id qtype domain = .ok (ips, ttl)) :
    Says options fromOctets data id qtype domain ips ttl := by
  unfold parseResponse at h
  split at h
  · cases h
  · rename_i msg hmsg
    split at h
    · cases h
    · rename_i hid
      split at h
      · cases h
      · rename_i question hquestion
        dsimp only at h
        split at h
        · cases h
        · rename_i hmatch
          rw [not_or, not_not, Bool.not_eq_false] at hmatch
          split at h
          · cases h
          · rename_i htc
            split at h
            · rename_i hrcode
              obtain ⟨rfl, rfl⟩ := Prod.mk.inj (Except.ok.inj h)
              exact ⟨⟨msg, question, hmsg, not_not.mp hid, Bool.eq_false_iff.mpr htc, hquestion,
                hmatch.1, hmatch.2, .inl ⟨hrcode, rfl⟩⟩, fun _ => rfl, fun hne => absurd rfl hne⟩
            · split at h
              · cases h
              · rename_i hrcode
                obtain ⟨rfl, rfl⟩ := Prod.mk.inj (Except.ok.inj h)
                refine ⟨⟨msg, question, hmsg, not_not.mp hid, Bool.eq_false_iff.mpr htc, hquestion,
                  hmatch.1, hmatch.2, .inr ⟨not_not.mp hrcode, collect_addresses _ _⟩⟩,
                  fun hnil => if_pos hnil, fun hne => ?_⟩
                rw [if_neg hne]
                exact clamp_bounds (by omega) _

section Spec

variable {options : DnsOptions} {fromOctets : Bytes → Option Message}

/-- Everything that a call can do, its guards included. -/
inductive Acts (options : DnsOptions) (fromOctets : Bytes → Option Message) (g : DnsClient) (i : Nat) :
    Task → DnsClient → Task → Prop where
  | found {key entry} (hcache : g.cache key = some entry) :
      Acts options fromOctets g i .idle g (.found key entry)
  | missed {key} (hcache : g.cache key = none) :
      Acts options fromOctets g i .idle g (.calling key none)
  /-- The entry is fresh, or somebody else asks again. -/
  | hit {key entry} (hage : g.now - entry.createdAt < entry.ttl + options.swrTtl) :
      Acts options fromOctets g i (.found key entry) (g.note (.hit i key entry g.now)) .ended
  | spawn {key entry} (hage : g.now - entry.createdAt < entry.ttl + options.swrTtl)
      (hclear : g.isRefreshing entry.isRefreshing = false) :
      Acts options fromOctets g i (.found key entry)
        { g.note (.hit i key entry g.now) with
          isRefreshing := Function.update g.isRefreshing entry.isRefreshing true }
        (.calling key (some entry.isRefreshing))
  | expired {key entry} : Acts options fromOctets g i (.found key entry) g (.calling key none)
  | work {key refresh} :
      Acts options fromOctets g i (.calling key refresh) { g with flights := (g.flights.join key).2 }
        (.waiting key refresh (g.flights.join key).1)
  | query {key refresh flight flights} (hlead : g.flights.lead flight i = some flights) :
      Acts options fromOctets g i (.waiting key refresh flight)
        { g.note (.asked i key) with flights } (.asking key refresh flight)
  | failed {key refresh flight} :
      Acts options fromOctets g i (.asking key refresh flight) g
        (.leaving key refresh flight (.error .upstream))
  | rejected {key refresh flight data id} (e : ResponseError) :
      Acts options fromOctets g i (.asking key refresh flight) (g.note (.answered i key data id g.now))
        (.leaving key refresh flight (.error (.response e)))
  | accepted {key refresh flight data id ips ttl}
      (hok : parseResponse options fromOctets data id key.rtype key.domain = .ok (ips, ttl)) :
      Acts options fromOctets g i (.asking key refresh flight) (g.note (.answered i key data id g.now))
        (.inserting key refresh flight ips ttl g.now)
  | insert {key refresh flight ips ttl createdAt} :
      Acts options fromOctets g i (.inserting key refresh flight ips ttl createdAt)
        { g.note (.stored i key ⟨ips, createdAt, ttl, g.flags⟩) with
          cache := Function.update g.cache key (some ⟨ips, createdAt, ttl, g.flags⟩)
          flags := g.flags + 1 }
        (.leaving key refresh flight (.ok (ips, ttl)))
  | finish {key refresh flight r} :
      Acts options fromOctets g i (.leaving key refresh flight r)
        { g with flights := g.flights.finish key flight r } (.waiting key refresh flight)
  | returns {key flight r} (hr : g.flights.result flight = some r) :
      Acts options fromOctets g i (.waiting key none flight) (g.note (.returned i key r g.now)) .ended
  | refreshed {key flag flight r} (hr : g.flights.result flight = some r) :
      Acts options fromOctets g i (.waiting key (some flag) flight)
        { g with isRefreshing := Function.update g.isRefreshing flag false } .ended
  | leave {t : Task} (hidle : t.refresh = none) (hlead : t.leading = none) :
      Acts options fromOctets g i t g .ended
  | abandon {t : Task} {key flight} (hidle : t.refresh = none) (hlead : t.leading = some (key, flight)) :
      Acts options fromOctets g i t { g with flights := g.flights.abandon flight } .ended

variable {g g' : DnsClient} {i j : Nat} {t t' u : Task} {a : Action}

theorem acts_of_decideEntry {key : CacheKey} {entry : CacheEntry}
    (h : decideEntry options g i key entry = (g', t')) :
    Acts options fromOctets g i (.found key entry) g' t' := by
  unfold decideEntry at h
  dsimp only at h
  -- the sum wraps, which only makes it smaller
  have hwrap := Nat.mod_le (entry.ttl + options.swrTtl) (2 ^ 64)
  split at h
  · obtain ⟨rfl, rfl⟩ := Prod.mk.inj h
    exact .hit (by omega)
  · split at h
    · split at h
      · obtain ⟨rfl, rfl⟩ := Prod.mk.inj h
        exact .hit (by omega)
      · rename_i hclear
        obtain ⟨rfl, rfl⟩ := Prod.mk.inj h
        exact .spawn (by omega) (Bool.eq_false_iff.mpr hclear)
    · obtain ⟨rfl, rfl⟩ := Prod.mk.inj h
      exact .expired

theorem acts_of_answered {key : CacheKey} {refresh : Option Nat} {flight : Nat}
    {response : Option (Bytes × Nat)}
    (h : answered options fromOctets g i key refresh flight response = (g', t')) :
    Acts options fromOctets g i (.asking key refresh flight) g' t' := by
  unfold answered at h
  split at h
  · obtain ⟨rfl, rfl⟩ := Prod.mk.inj h
    exact .failed
  · dsimp only at h
    split at h
    · rename_i e _
      obtain ⟨rfl, rfl⟩ := Prod.mk.inj h
      exact .rejected e
    · rename_i hok
      obtain ⟨rfl, rfl⟩ := Prod.mk.inj h
      exact .accepted hok

theorem acts_of_dropped (h : dropped g t = some g') : Acts options fromOctets g i t g' .ended := by
  unfold dropped at h
  split at h
  case h_7 => cases h
  all_goals obtain rfl := Option.some.inj h
  case h_1 | h_2 | h_3 => exact .leave rfl rfl
  case h_4 | h_5 | h_6 => exact .abandon rfl rfl

theorem acts_of_act (h : act options fromOctets g i t a = some (g', t')) :
    Acts options fromOctets g i t g' t' := by
  unfold act at h
  split at h
  · split at h <;> rename_i hcache <;> obtain ⟨rfl, rfl⟩ := Prod.mk.inj (Option.some.inj h)
    · exact .found hcache
    · exact .missed hcache
  · exact acts_of_decideEntry (Option.some.inj h)
  · obtain ⟨rfl, rfl⟩ := Prod.mk.inj (Option.some.inj h)
    exact .work
  · obtain ⟨flights, hlead, h⟩ := Option.map_eq_some_iff.mp h
    obtain ⟨rfl, rfl⟩ := Prod.mk.inj h
    exact .query hlead
  · exact acts_of_answered (Option.some.inj h)
  · obtain ⟨rfl, rfl⟩ := Prod.mk.inj (Option.some.inj h)
    exact .insert
  · obtain ⟨rfl, rfl⟩ := Prod.mk.inj (Option.some.inj h)
    exact .finish
  · rename_i refresh flight
    obtain ⟨r, hr, h⟩ := Option.map_eq_some_iff.mp h
    cases refresh with
    | none =>
      obtain ⟨rfl, rfl⟩ := Prod.mk.inj h
      exact .returns hr
    | some flag =>
      obtain ⟨rfl, rfl⟩ := Prod.mk.inj h
      exact .refreshed hr
  · obtain ⟨g₁, hg₁, h⟩ := Option.map_eq_some_iff.mp h
    obtain ⟨rfl, rfl⟩ := Prod.mk.inj h
    exact acts_of_dropped hg₁
  · cases h

end Spec

end Httproxy.Resolver
