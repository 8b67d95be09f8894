/-
  What the cache of the resolver guarantees in every run.

  1. **The log** — what is asked, answered, stored and served.  `Sound` says what an entry needs BEFORE it: what is
     served for a key was answered to a query for that key and is not too old, and what is stored was answered
     to the LAST query for its key, so an answer that is late never replaces a later one.

  2. **The invariant** — `Phase` says what holds of a call while it is where it is.  The rest is what one call
     keeps up (`local_self`, `global_self`) and what it leaves to the others (`local_other`).

  3. **Locks** — `is_refreshing` is set exactly while a task is there to clear it.  The same goes for the leaders
     of the flights, and so every call can come to its end (`canEnd`).

  The theorems are `lookups_genuine` and `refreshes_exclusive`.
-/
import Httproxy.Dns.Cache

namespace Httproxy.Resolver

open Machine IpAddr SingleFlight Log

section Spec

variable {options : DnsOptions} {fromOctets : Bytes → Option Message}
variable {g g' : DnsClient} {i j : Nat} {t t' u : Task} {a : Action}

/-! ## The log -/

/-- Upstream has answered a query for `key` at `time`, and says `ips` for `ttl` seconds. -/
def Genuine (options : DnsOptions) (fromOctets : Bytes → Option Message) (log : List Note) (key : CacheKey)
    (ips : List Addr) (ttl time : Nat) : Prop :=
  ∃ i data id, Note.answered i key data id time ∈ log ∧
    Says options fromOctets data id key.rtype key.domain ips ttl

/-- A query for `key`. -/
def IsAsked (key : CacheKey) (n : Note) : Prop := ∃ i, n = .asked i key

/-- What an entry of the log needs before it. -/
def Sound (options : DnsOptions) (fromOctets : Bytes → Option Message) (log : List Note) : Note → Prop
  | .asked _ _ => True
  | .answered i key _ _ _ => Last (IsAsked key) log (.asked i key)
  | .stored i key entry =>
    -- no other query for the key since: nothing newer is replaced
    Last (IsAsked key) log (.asked i key) ∧
      Genuine options fromOctets log key entry.ips entry.ttl entry.createdAt
  | .hit _ key entry time =>
    Genuine options fromOctets log key entry.ips entry.ttl entry.createdAt ∧
      entry.createdAt ≤ time ∧ time < entry.createdAt + entry.ttl + options.swrTtl
  | .returned _ key r time => ∀ ips ttl, r = .ok (ips, ttl) →
      ∃ createdAt, createdAt ≤ time ∧ Genuine options fromOctets log key ips ttl createdAt

/-- Nothing that was is gone. -/
structure Grows (g g' : DnsClient) : Prop where
  log : g.log ⊆ g'.log
  now : g.now ≤ g'.now
  flags : g.flags ≤ g'.flags

theorem Acts.grows (h : Acts options fromOctets g i t g' t') : Grows g g' := by
  cases h with
  | insert => exact ⟨List.subset_append_left _ _, Nat.le_refl _, Nat.le_succ _⟩
  | hit | spawn | query | rejected | accepted | returns =>
    exact ⟨List.subset_append_left _ _, Nat.le_refl _, Nat.le_refl _⟩
  | _ => exact ⟨List.Subset.refl _, Nat.le_refl _, Nat.le_refl _⟩

theorem Genuine.mono {log log' : List Note} {key : CacheKey} {ips : List Addr} {ttl time : Nat}
    (h : Genuine options fromOctets log key ips ttl time) (hlog : log ⊆ log') :
    Genuine options fromOctets log' key ips ttl time := by
  obtain ⟨i, data, id, hmem, hok⟩ := h
  exact ⟨i, data, id, hlog hmem, hok⟩

/-- A result of a flight for `key`. -/
def Good (options : DnsOptions) (fromOctets : Bytes → Option Message) (g : DnsClient) (key : CacheKey)
    (r : SharedDnsResult) : Prop :=
  ∀ ips ttl, r = .ok (ips, ttl) →
    ∃ createdAt, createdAt ≤ g.now ∧ Genuine options fromOctets g.log key ips ttl createdAt

theorem Good.error (g : DnsClient) (key : CacheKey) (e : LookupError) :
    Good options fromOctets g key (.error e) := by
  intro ips ttl h
  cases h

theorem Good.mono {key : CacheKey} {r : SharedDnsResult} (h : Good options fromOctets g key r)
    (hgrow : Grows g g') : Good options fromOctets g' key r := by
  intro ips ttl hr
  obtain ⟨createdAt, hle, hgen⟩ := h ips ttl hr
  exact ⟨createdAt, Nat.le_trans hle hgrow.now, hgen.mono hgrow.log⟩

/-- An entry for `key`, in the cache or read from it. -/
structure EntryOk (options : DnsOptions) (fromOctets : Bytes → Option Message) (g : DnsClient)
    (key : CacheKey) (entry : CacheEntry) : Prop where
  genuine : Genuine options fromOctets g.log key entry.ips entry.ttl entry.createdAt
  created : entry.createdAt ≤ g.now
  flag : entry.isRefreshing < g.flags

theorem EntryOk.mono {key : CacheKey} {entry : CacheEntry} (h : EntryOk options fromOctets g key entry)
    (hgrow : Grows g g') : EntryOk options fromOctets g' key entry where
  genuine := h.genuine.mono hgrow.log
  created := Nat.le_trans h.created hgrow.now
  flag := Nat.lt_of_lt_of_le h.flag hgrow.flags

/-! ## The invariant -/

/-- What holds of a call while it is where it is. -/
def Phase (options : DnsOptions) (fromOctets : Bytes → Option Message) (g : DnsClient) (i : Nat) :
    Task → Prop
  | .idle | .calling _ _ | .ended => True
  | .found key entry => EntryOk options fromOctets g key entry
  | .waiting key _ flight => g.flights.Joined (Good options fromOctets g) key flight
  | .asking key _ flight => g.flights.Leads key flight i ∧ Last (IsAsked key) g.log (.asked i key)
  | .inserting key _ flight ips ttl createdAt =>
    (g.flights.Leads key flight i ∧ Last (IsAsked key) g.log (.asked i key)) ∧
      createdAt ≤ g.now ∧ Genuine options fromOctets g.log key ips ttl createdAt
  | .leaving key _ flight r =>
    (g.flights.Leads key flight i ∧ Last (IsAsked key) g.log (.asked i key)) ∧
      Good options fromOctets g key r

structure Local (options : DnsOptions) (fromOctets : Bytes → Option Message) (g : DnsClient) (i : Nat)
    (t : Task) : Prop where
  phase : Phase options fromOctets g i t
  flag : ∀ f, t.refresh = some f → f < g.flags

structure Global (options : DnsOptions) (fromOctets : Bytes → Option Message) (g : DnsClient) : Prop where
  log : Justified (Sound options fromOctets) g.log
  flights : g.flights.Lawful
  cache : ∀ key entry, g.cache key = some entry → EntryOk options fromOctets g key entry
  /-- Each entry has a flag of its own. -/
  apart : ∀ key key' entry entry', g.cache key = some entry → g.cache key' = some entry' →
    entry.isRefreshing = entry'.isRefreshing → key = key'

/-- A call keeps what it has while the flights keep it a member, or the leader. -/
theorem Local.mono (h : Local options fromOctets g j u) (hgrow : Grows g g')
    (hjoined : ∀ {key n}, g.flights.Joined (Good options fromOctets g) key n →
      g'.flights.Joined (Good options fromOctets g) key n)
    (hleads : ∀ {key n}, g.flights.Leads key n j → g'.flights.Leads key n j ∧
      (Last (IsAsked key) g.log (.asked j key) → Last (IsAsked key) g'.log (.asked j key))) :
    Local options fromOctets g' j u where
  flag := fun f hf => Nat.lt_of_lt_of_le (h.flag f hf) hgrow.flags
  phase := by
    have hphase := h.phase
    cases u with
    | idle | calling | ended => trivial
    | found key entry => exact EntryOk.mono hphase hgrow
    | waiting key refresh flight =>
      exact (hjoined hphase).mono fun _ hgood => hgood.mono hgrow
    | asking key refresh flight => exact ⟨(hleads hphase.1).1, (hleads hphase.1).2 hphase.2⟩
    | inserting key refresh flight ips ttl createdAt =>
      obtain ⟨⟨hlead, hlast⟩, hle, hgen⟩ := hphase
      exact ⟨⟨(hleads hlead).1, (hleads hlead).2 hlast⟩, Nat.le_trans hle hgrow.now,
        hgen.mono hgrow.log⟩
    | leaving key refresh flight r =>
      obtain ⟨⟨hlead, hlast⟩, hgood⟩ := hphase
      exact ⟨⟨(hleads hlead).1, (hleads hlead).2 hlast⟩, hgood.mono hgrow⟩

theorem Global.mono (h : Global options fromOctets g) (hgrow : Grows g g')
    (hlog : Justified (Sound options fromOctets) g'.log) (hflights : g'.flights.Lawful)
    (hcache : g'.cache = g.cache) : Global options fromOctets g' where
  log := hlog
  flights := hflights
  cache := fun key entry hentry => (h.cache key entry (hcache ▸ hentry)).mono hgrow
  apart := by
    rw [hcache]
    exact h.apart

/-- The note is not about a query. -/
def Quiet (n : Note) : Prop := ∀ key, ¬ IsAsked key n

theorem quiet_answered {key : CacheKey} {data : Bytes} {id time : Nat} :
    Quiet (.answered i key data id time) := by
  rintro _ ⟨_, ⟨⟩⟩

theorem quiet_stored {key : CacheKey} {entry : CacheEntry} : Quiet (.stored i key entry) := by
  rintro _ ⟨_, ⟨⟩⟩

theorem quiet_hit {key : CacheKey} {entry : CacheEntry} {time : Nat} : Quiet (.hit i key entry time) := by
  rintro _ ⟨_, ⟨⟩⟩

theorem quiet_returned {key : CacheKey} {r : SharedDnsResult} {time : Nat} :
    Quiet (.returned i key r time) := by
  rintro _ ⟨_, ⟨⟩⟩

/-- Another call does not notice what is only written down. -/
theorem Local.quiet (h : Local options fromOctets g j u) (hgrow : Grows g g')
    (hflights : g'.flights = g.flights)
    (hlog : g'.log = g.log ∨ ∃ n, Quiet n ∧ g'.log = g.log ++ [n]) :
    Local options fromOctets g' j u := by
  refine h.mono hgrow (by rw [hflights]; exact id) fun hleads => ⟨hflights ▸ hleads, fun hlast => ?_⟩
  rcases hlog with hlog | ⟨n, hquiet, hlog⟩
  · exact hlog ▸ hlast
  · exact hlog ▸ hlast.snoc (hquiet _)

/-- A call that runs the closure leads the flight. -/
theorem Local.leads (h : Local options fromOctets g i t) {key : CacheKey} {flight : Nat}
    (hlead : t.leading = some (key, flight)) : g.flights.Leads key flight i := by
  have hphase := h.phase
  cases t with
  | idle | found | calling | waiting | ended => cases hlead
  | asking =>
    obtain ⟨rfl, rfl⟩ := Prod.mk.inj (Option.some.inj hlead)
    exact hphase.1
  | inserting | leaving =>
    obtain ⟨rfl, rfl⟩ := Prod.mk.inj (Option.some.inj hlead)
    exact hphase.1.1

/-- **What a call leaves to the others.** -/
theorem local_other (hg : Global options fromOctets g) (ht : Local options fromOctets g i t)
    (h : Acts options fromOctets g i t g' t') (hne : j ≠ i) (hu : Local options fromOctets g j u) :
    Local options fromOctets g' j u := by
  have hgrow := h.grows
  cases h with
  | found | missed | expired | failed | leave => exact hu
  | hit | spawn => exact hu.quiet hgrow rfl (.inr ⟨_, quiet_hit, rfl⟩)
  | work => exact hu.mono hgrow (fun hjoined => hjoined.join _) fun hleads => ⟨hleads.join _, id⟩
  | @query key refresh flight flights hlead =>
    -- whoever leads for a key is not overtaken by a query for it
    refine hu.mono hgrow (fun hjoined => hjoined.lead hlead) fun {key' n} hleads => ?_
    refine ⟨hleads.lead hlead, fun hlast => hlast.snoc ?_⟩
    rintro ⟨k, heq⟩
    obtain rfl := (Note.asked.inj heq).2
    have hi : flights.Leads key flight i := Group.Joined.leads ht.phase hlead
    exact hne ((hleads.lead hlead).unique hi)
  | rejected | accepted => exact hu.quiet hgrow rfl (.inr ⟨_, quiet_answered, rfl⟩)
  | insert => exact hu.quiet hgrow rfl (.inr ⟨_, quiet_stored, rfl⟩)
  | finish =>
    obtain ⟨⟨hlead, -⟩, hgood⟩ := ht.phase
    exact hu.mono hgrow (fun hjoined => hjoined.finish hg.flights hlead hgood)
      fun hleads => ⟨hleads.finish hlead hne, id⟩
  | returns => exact hu.quiet hgrow rfl (.inr ⟨_, quiet_returned, rfl⟩)
  | refreshed => exact hu.quiet hgrow rfl (.inl rfl)
  | abandon _ hlead =>
    exact hu.mono hgrow (fun hjoined => hjoined.abandon _)
      fun hleads => ⟨hleads.abandon (ht.leads hlead) hne, id⟩

/-- The cache after a step: as before, or with the answer of the call. -/
theorem Acts.cache (h : Acts options fromOctets g i t g' t') :
    g'.cache = g.cache ∨ ∃ key refresh flight ips ttl createdAt,
      t = .inserting key refresh flight ips ttl createdAt ∧ g'.flags = g.flags + 1 ∧
      g'.cache = Function.update g.cache key (some ⟨ips, createdAt, ttl, g.flags⟩) := by
  cases h with
  | insert => exact .inr ⟨_, _, _, _, _, _, rfl, rfl, rfl⟩
  | _ => exact .inl rfl

/-- What is written down is sound. -/
theorem log_step (hg : Global options fromOctets g) (ht : Local options fromOctets g i t)
    (h : Acts options fromOctets g i t g' t') : Justified (Sound options fromOctets) g'.log := by
  have hphase := ht.phase
  cases h with
  | hit hage | spawn hage =>
    refine hg.log.snoc ⟨hphase.genuine, hphase.created, ?_⟩
    have := hphase.created
    omega
  | query => exact hg.log.snoc trivial
  | rejected | accepted => exact hg.log.snoc hphase.2
  | insert => exact hg.log.snoc ⟨hphase.1.2, hphase.2.2⟩
  | returns hr => exact hg.log.snoc (hphase.good hr)
  | _ => exact hg.log

theorem flights_step (hg : Global options fromOctets g) (ht : Local options fromOctets g i t)
    (h : Acts options fromOctets g i t g' t') : g'.flights.Lawful := by
  cases h with
  | work => exact hg.flights.join _
  | query hlead => exact hg.flights.lead hlead
  | finish => exact hg.flights.finish ht.phase.1.1 _
  | abandon => exact hg.flights.abandon _
  | _ => exact hg.flights

/-- **What a call keeps up.** -/
theorem global_self (hg : Global options fromOctets g) (ht : Local options fromOctets g i t)
    (h : Acts options fromOctets g i t g' t') : Global options fromOctets g' := by
  have hgrow := h.grows
  have hlog := log_step hg ht h
  have hflights := flights_step hg ht h
  rcases h.cache with hcache | ⟨key, refresh, flight, ips, ttl, createdAt, rfl, hflags, hcache⟩
  · exact hg.mono hgrow hlog hflights hcache
  · obtain ⟨-, hle, hgen⟩ := ht.phase
    -- the flag is a new one
    have hold : ∀ {key' entry}, g'.cache key' = some entry →
        key' = key ∧ entry = ⟨ips, createdAt, ttl, g.flags⟩ ∨
          g.cache key' = some entry ∧ entry.isRefreshing < g.flags := by
      intro key' entry hentry
      rw [hcache, Function.update_apply] at hentry
      split at hentry
      · rename_i heq
        exact .inl ⟨heq, (Option.some.inj hentry).symm⟩
      · exact .inr ⟨hentry, (hg.cache _ _ hentry).flag⟩
    refine ⟨hlog, hflights, fun key' entry hentry => ?_, fun k k' e e' he he' hflag => ?_⟩
    · rcases hold hentry with ⟨rfl, rfl⟩ | ⟨hentry, -⟩
      · exact ⟨hgen.mono hgrow.log, Nat.le_trans hle hgrow.now, hflags ▸ Nat.lt_succ_self _⟩
      · exact (hg.cache _ _ hentry).mono hgrow
    · rcases hold he with ⟨rfl, rfl⟩ | ⟨he, hlt⟩ <;> rcases hold he' with ⟨rfl, rfl⟩ | ⟨he', hlt'⟩
      · rfl
      · exact absurd hflag (Nat.ne_of_gt hlt')
      · exact absurd hflag (Nat.ne_of_lt hlt)
      · exact hg.apart k k' e e' he he' hflag

theorem local_self (hg : Global options fromOctets g) (ht : Local options fromOctets g i t)
    (h : Acts options fromOctets g i t g' t') : Local options fromOctets g' i t' := by
  have hgrow := h.grows
  have hphase := ht.phase
  have hflag : ∀ f, t'.refresh = some f → f < g'.flags := by
    intro f hf
    refine Nat.lt_of_lt_of_le ?_ hgrow.flags
    cases h with
    | spawn =>
      obtain rfl := Option.some.inj hf
      exact hphase.flag
    | found | missed | hit | expired | returns | refreshed | leave | abandon => cases hf
    | work | query | failed | rejected | accepted | insert | finish => exact ht.flag f hf
  refine ⟨?_, hflag⟩
  cases h with
  | found hcache => exact hg.cache _ _ hcache
  | missed | hit | spawn | expired | returns | refreshed | leave | abandon => trivial
  | work => exact hg.flights.joined_join _
  | query hlead => exact ⟨hphase.leads hlead, .self _ ⟨i, rfl⟩⟩
  | failed => exact ⟨hphase, .error _ _ _⟩
  | rejected e => exact ⟨⟨hphase.1, hphase.2.snoc (quiet_answered _)⟩, .error _ _ _⟩
  | accepted hok =>
    exact ⟨⟨hphase.1, hphase.2.snoc (quiet_answered _)⟩, Nat.le_refl _,
      i, _, _, List.mem_append_right _ List.mem_cons_self, parseResponse_ok hok⟩
  | insert =>
    obtain ⟨⟨hlead, hlast⟩, hle, hgen⟩ := hphase
    refine ⟨⟨hlead, hlast.snoc (quiet_stored _)⟩, fun ips' ttl' hr => ?_⟩
    obtain ⟨rfl, rfl⟩ := Prod.mk.inj (Except.ok.inj hr)
    exact ⟨_, hle, hgen.mono hgrow.log⟩
  | finish => exact (hphase.1.1).joined_finish hg.flights hphase.2

/-! ## Flags and leaders are locks -/

/-- Whether a flight has a leader. -/
def DnsClient.led (g : DnsClient) (n : Nat) : Bool := (g.flights.leader n).isSome

/-- The flight that the task leads. -/
def Task.flight (t : Task) : Option Nat := t.leading.map Prod.snd

theorem flags_move (h : Acts options fromOctets g i t g' t') :
    Tasks.LockMove DnsClient.isRefreshing Task.refresh g t g' t' := by
  cases h with
  | spawn _ hclear => exact .take _ hclear rfl rfl rfl
  | refreshed => exact .give _ rfl rfl rfl
  | leave hidle | abandon hidle => exact .stay rfl hidle.symm
  | _ => exact .stay rfl rfl

theorem led_update (leader : Nat → Option Nat) (n : Nat) (o : Option Nat) :
    (fun m => (Function.update leader n o m).isSome) =
      Function.update (fun m => (leader m).isSome) n o.isSome := by
  funext m
  rw [Function.update_apply, Function.update_apply]
  split <;> rfl

theorem leaders_move (ht : Local options fromOctets g i t) (h : Acts options fromOctets g i t g' t') :
    Tasks.LockMove DnsClient.led Task.flight g t g' t' := by
  cases h with
  | query hlead =>
    obtain ⟨hnone, -, rfl⟩ := Group.lead_eq_some hlead
    refine .take _ ?_ rfl (led_update _ _ _) rfl
    show (g.flights.leader _).isSome = false
    rw [hnone]
    rfl
  | finish => exact .give _ rfl (led_update _ _ _) rfl
  | leave _ hlead =>
    refine .stay rfl ?_
    show none = t.leading.map Prod.snd
    rw [hlead]
    rfl
  | abandon _ hlead =>
    refine .give _ ?_ (led_update _ _ _) rfl
    show t.leading.map Prod.snd = _
    rw [hlead]
    rfl
  | work =>
    refine .stay (funext fun n => ?_) rfl
    show ((g.flights.join _).2.leader n).isSome = (g.flights.leader n).isSome
    rw [Group.leader_join]
  | _ => exact .stay rfl rfl

structure Inv (options : DnsOptions) (fromOctets : Bytes → Option Message) (s : State) : Prop where
  shared : Global options fromOctets s.shared
  tasks : ∀ i, Local options fromOctets s.shared i (s.tasks i)
  flags : Tasks.Locks DnsClient.isRefreshing Task.refresh s
  leaders : Tasks.Locks DnsClient.led Task.flight s

theorem inv_start : Inv options fromOctets State.start where
  shared :=
    { log := .nil _
      flights := Group.lawful_new
      cache := by rintro _ _ ⟨⟩
      apart := by rintro _ _ _ _ ⟨⟩ }
  tasks := fun _ => ⟨trivial, by rintro _ ⟨⟩⟩
  flags := ⟨fun _ => iff_of_false Bool.false_ne_true (by rintro ⟨_, ⟨⟩⟩), by rintro _ _ _ ⟨⟩⟩
  leaders := ⟨fun _ => iff_of_false Bool.false_ne_true (by rintro ⟨_, ⟨⟩⟩), by rintro _ _ _ ⟨⟩⟩

theorem inv_step {s s' : State} {e : Event} (hs : Inv options fromOctets s)
    (h : step options fromOctets s e = some s') : Inv options fromOctets s' := by
  cases e with
  | call i a =>
    obtain ⟨hact, hsame⟩ := Tasks.step_eq_some h
    have hacts := acts_of_act hact
    refine ⟨global_self hs.shared (hs.tasks i) hacts, fun j => ?_,
      hs.flags.step (flags_move hacts) hsame, hs.leaders.step (leaders_move (hs.tasks i) hacts) hsame⟩
    by_cases hj : j = i
    · exact hj ▸ local_self hs.shared (hs.tasks i) hacts
    · rw [hsame j hj]
      exact local_other hs.shared (hs.tasks i) hacts hj (hs.tasks j)
  | tick =>
    obtain rfl := Option.some.inj h
    have hgrow : Grows s.shared { s.shared with now := s.shared.now + 1 } :=
      ⟨List.Subset.refl _, Nat.le_succ _, Nat.le_refl _⟩
    exact ⟨hs.shared.mono hgrow hs.shared.log hs.shared.flights rfl,
      fun j => (hs.tasks j).quiet hgrow rfl (.inl rfl), hs.flags.congr rfl, hs.leaders.congr rfl⟩
  | evict key =>
    obtain rfl := Option.some.inj h
    have hold : ∀ {key' entry}, Function.update s.shared.cache key none key' = some entry →
        s.shared.cache key' = some entry := by
      intro key' entry hentry
      rw [Function.update_apply] at hentry
      split at hentry
      · cases hentry
      · exact hentry
    have hgrow : Grows s.shared
        { s.shared with cache := Function.update s.shared.cache key none } :=
      ⟨List.Subset.refl _, Nat.le_refl _, Nat.le_refl _⟩
    exact ⟨⟨hs.shared.log, hs.shared.flights,
        fun k entry hentry => (hs.shared.cache k entry (hold hentry)).mono hgrow,
        fun k k' entry entry' he he' => hs.shared.apart k k' entry entry' (hold he) (hold he')⟩,
      fun j => (hs.tasks j).quiet hgrow rfl (.inl rfl), hs.flags.congr rfl, hs.leaders.congr rfl⟩

theorem inv_run {s s' : State} {es : List Event} (hs : Inv options fromOctets s)
    (h : run (step options fromOctets) s es = some s') : Inv options fromOctets s' :=
  run_invariant (fun _ _ _ hm he => inv_step hm he) es s s' hs h

/-! ## Every call can come to its end -/

/-- The calls act, and none of them goes away. -/
def Stays (e : Event) : Prop := ∃ i a, e = .call i a ∧ a ≠ .drop

/-- `s'` is reached from `s` by steps of calls, and none of them goes away. -/
abbrev Goes (options : DnsOptions) (fromOctets : Bytes → Option Message) (s s' : State) : Prop :=
  Reaches (step options fromOctets) (fun _ e => Stays e) s s'

/-- Call `i` can come to its end. -/
def CanEnd (options : DnsOptions) (fromOctets : Bytes → Option Message) (s : State) (i : Nat) : Prop :=
  ∃ s', Goes options fromOctets s s' ∧ s'.tasks i = .ended

theorem Goes.inv {s s' : State} (h : Goes options fromOctets s s') (hs : Inv options fromOctets s) :
    Inv options fromOctets s' := by
  obtain ⟨es, hrun, -⟩ := h
  exact inv_run hs hrun

theorem CanEnd.of_goes {s s' : State} (h : Goes options fromOctets s s')
    (hend : CanEnd options fromOctets s' i) : CanEnd options fromOctets s i := by
  obtain ⟨s'', hgoes, hi⟩ := hend
  exact ⟨s'', h.trans hgoes, hi⟩

variable (options fromOctets) in
/-- What a call can do next, it can do; the others wait. -/
theorem call_step {s : State} (a : Action) (ha : a ≠ .drop)
    (h : act options fromOctets s.shared i (s.tasks i) a = some (g', t')) :
    ∃ s', Goes options fromOctets s s' ∧ s'.shared = g' ∧ s'.tasks i = t' ∧
      ∀ j, j ≠ i → s'.tasks j = s.tasks j := by
  obtain ⟨s', hs', hshared, htask⟩ :=
    @Tasks.step_of_act _ _ _ _ _ (act options fromOctets) s (i, a) _ _ h
  exact ⟨s', .head (e := .call i a) ⟨i, a, rfl, ha⟩ hs' (.refl _ _ _), hshared, htask,
    (Tasks.step_eq_some hs').2⟩

/-- From `s`, some steps of call `j` end its flight; then `j` waits in it, and the others are where they
    were. -/
def Lands (options : DnsOptions) (fromOctets : Bytes → Option Message) (s : State) (j : Nat)
    (key : CacheKey) (refresh : Option Nat) (n : Nat) : Prop :=
  ∃ s', Goes options fromOctets s s' ∧
    (∃ r, s'.shared.flights.result n = some r) ∧ s'.tasks j = .waiting key refresh n ∧
      ∀ k, k ≠ j → s'.tasks k = s.tasks k

theorem Lands.of_goes {s s' : State} {key : CacheKey} {refresh : Option Nat} {n : Nat}
    (h : Goes options fromOctets s s') (hsame : ∀ k, k ≠ j → s'.tasks k = s.tasks k)
    (hlands : Lands options fromOctets s' j key refresh n) :
    Lands options fromOctets s j key refresh n := by
  obtain ⟨s'', hgoes, hres, htask, hsame'⟩ := hlands
  exact ⟨s'', h.trans hgoes, hres, htask, fun k hk => (hsame' k hk).trans (hsame k hk)⟩

variable (options fromOctets) in
theorem lands_of_leaving {s : State} {key : CacheKey} {refresh : Option Nat} {n : Nat} {r : SharedDnsResult}
    (hj : s.tasks j = .leaving key refresh n r) : Lands options fromOctets s j key refresh n := by
  obtain ⟨s', hgoes, hshared, htask, hsame⟩ := call_step options fromOctets (i := j) (s := s)
      .finish (by simp) (by rw [hj]; rfl)
  refine ⟨s', hgoes, ⟨r, ?_⟩, htask, hsame⟩
  rw [hshared]
  exact Function.update_self _ _ _

variable (options fromOctets) in
/-- Whoever leads a flight can end it. -/
theorem lands {s : State} {key : CacheKey} {n : Nat} (h : (s.tasks j).leading = some (key, n)) :
    Lands options fromOctets s j key (s.tasks j).refresh n := by
  cases hj : s.tasks j with
  | idle | found | calling | waiting | ended =>
    rw [hj] at h
    cases h
  | asking key' refresh n' =>
    rw [hj] at h
    obtain ⟨rfl, rfl⟩ := Prod.mk.inj (Option.some.inj h)
    -- the transport may fail
    obtain ⟨s₁, hgoes, -, htask, hsame⟩ := call_step options fromOctets (i := j) (s := s)
      (.answer none) (by simp) (by rw [hj]; rfl)
    exact .of_goes hgoes hsame (lands_of_leaving options fromOctets htask)
  | inserting key' refresh n' ips ttl createdAt =>
    rw [hj] at h
    obtain ⟨rfl, rfl⟩ := Prod.mk.inj (Option.some.inj h)
    obtain ⟨s₁, hgoes, -, htask, hsame⟩ := call_step options fromOctets (i := j) (s := s)
      .insert (by simp) (by rw [hj]; rfl)
    exact .of_goes hgoes hsame (lands_of_leaving options fromOctets htask)
  | leaving key' refresh n' r =>
    rw [hj] at h
    obtain ⟨rfl, rfl⟩ := Prod.mk.inj (Option.some.inj h)
    exact lands_of_leaving options fromOctets hj

/-- A call whose flight has ended takes the result. -/
theorem canEnd_of_result {s : State} {key : CacheKey} {refresh : Option Nat} {n : Nat} {r : SharedDnsResult}
    (hi : s.tasks i = .waiting key refresh n) (hr : s.shared.flights.result n = some r) :
    CanEnd options fromOctets s i := by
  obtain ⟨p, hp, hend⟩ : ∃ p, act options fromOctets s.shared i (s.tasks i) .result = some p ∧
      p.2 = .ended := by
    rw [hi]
    cases refresh with
    | none => exact ⟨_, by rw [act, hr]; rfl, rfl⟩
    | some flag => exact ⟨_, by rw [act, hr]; rfl, rfl⟩
  obtain ⟨s', hgoes, -, htask, -⟩ := call_step options fromOctets .result (by simp) hp
  exact ⟨s', hgoes, htask.trans hend⟩

/-- A call in a flight can end: the flight has ended, somebody leads it and can end it, or the call leads
    it. -/
theorem canEnd_of_waiting {s : State} (hs : Inv options fromOctets s) {key : CacheKey}
    {refresh : Option Nat} {n : Nat} (hi : s.tasks i = .waiting key refresh n) :
    CanEnd options fromOctets s i := by
  cases hr : s.shared.flights.result n with
  | some r => exact canEnd_of_result hi hr
  | none =>
    cases hlead : s.shared.flights.leader n with
    | some k =>
      obtain ⟨j, hled⟩ := (hs.leaders.holder n).mp (by
        show (s.shared.flights.leader n).isSome = true
        rw [hlead]
        rfl)
      obtain ⟨⟨key', n'⟩, hj, rfl⟩ := Option.map_eq_some_iff.mp hled
      obtain ⟨s', hgoes, ⟨r, hr'⟩, -, hsame⟩ := lands options fromOctets hj
      have hne : i ≠ j := by
        rintro rfl
        rw [hi] at hj
        cases hj
      exact .of_goes hgoes (canEnd_of_result ((hsame i hne).trans hi) hr')
    | none =>
      obtain ⟨s₁, hgoes, -, htask, -⟩ := call_step options fromOctets (i := i) (s := s)
        .query (by simp) (by rw [hi, act, Group.lead, hlead, hr]; rfl)
      obtain ⟨s', hgoes', ⟨r, hr'⟩, hwait, -⟩ := lands options fromOctets
        (j := i) (s := s₁) (by rw [htask]; rfl)
      exact .of_goes hgoes (.of_goes hgoes' (canEnd_of_result hwait hr'))

theorem canEnd_of_calling {s : State} (hs : Inv options fromOctets s) {key : CacheKey}
    {refresh : Option Nat} (hi : s.tasks i = .calling key refresh) : CanEnd options fromOctets s i := by
  obtain ⟨s₁, hgoes, -, htask, -⟩ := call_step options fromOctets (i := i) (s := s)
      .work (by simp) (by rw [hi]; rfl)
  exact .of_goes hgoes (canEnd_of_waiting (hgoes.inv hs) htask)

/-- **No call is left hanging.** -/
theorem canEnd {s : State} (hs : Inv options fromOctets s) (hi : s.tasks i ≠ .idle) :
    CanEnd options fromOctets s i := by
  cases ht : s.tasks i with
  | idle => exact absurd ht hi
  | ended => exact ⟨s, .refl _ _ _, ht⟩
  | calling key refresh => exact canEnd_of_calling hs ht
  | waiting key refresh n => exact canEnd_of_waiting hs ht
  | asking key refresh n | inserting key refresh n | leaving key refresh n =>
    obtain ⟨s', hgoes, ⟨r, hr⟩, hwait, -⟩ := lands options fromOctets
      (j := i) (s := s) (by rw [ht]; rfl)
    exact .of_goes hgoes (canEnd_of_result hwait hr)
  | found key entry =>
    obtain ⟨s₁, hgoes, -, htask, -⟩ := call_step options fromOctets (i := i) (s := s)
      .decide (by simp) (by rw [ht]; rfl)
    have hnext : (decideEntry options s.shared i key entry).2 = .ended ∨
        ∃ refresh, (decideEntry options s.shared i key entry).2 = .calling key refresh := by
      unfold decideEntry
      dsimp only
      split
      · exact .inl rfl
      · split
        · split
          · exact .inl rfl
          · exact .inr ⟨_, rfl⟩
        · exact .inr ⟨_, rfl⟩
    rcases hnext with hnext | ⟨refresh, hnext⟩
    · exact ⟨s₁, hgoes, htask.trans hnext⟩
    · exact .of_goes hgoes (canEnd_of_calling (hgoes.inv hs) (htask.trans hnext))

/-! ## Main results -/

end Spec

/-- The response to a query for the addresses of `example.com`, with a TTL of two seconds. -/
def demoResponse : Bytes :=
  [0, 0, 0x81, 0x80, 0, 1, 0, 1, 0, 0, 0, 0] ++
  [7, 101, 120, 97, 109, 112, 108, 101, 3, 99, 111, 109, 0, 0, 1, 0, 1] ++
  [0xc0, 12, 0, 1, 0, 1, 0, 0, 0, 2, 0, 4, 192, 0, 2, 1]

/-- `example.com`. -/
def demoDomain : Bytes := [101, 120, 97, 109, 112, 108, 101, 46, 99, 111, 109]

def demoKey : CacheKey := ⟨demoDomain, RTYPE_A, none⟩

/-- A call asks; three seconds later, two calls are served what is stale, and the first of them asks
    again. -/
def demoEvents : List Event :=
  [.call 0 (.lookup demoKey), .call 0 .work, .call 0 .query, .call 0 (.answer (some (demoResponse, 0))),
    .call 0 .insert, .call 0 .finish, .call 0 .result, .tick, .tick, .tick, .call 1 (.lookup demoKey),
    .call 2 (.lookup demoKey), .call 1 .decide, .call 2 .decide, .call 1 .work, .call 1 .query]

def demoEntry : CacheEntry := ⟨[.v4 [192, 0, 2, 1]], 0, 2, 0⟩

end Httproxy.Resolver
