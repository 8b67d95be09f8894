/-
  DNS over one stream connection (`StreamTransport` in `src/dns/transport.rs`).

  Every `send` registers a fresh id in the shared map, hands its message to an actor over a channel, and
  waits.  The actor connects when it has no connection and writes; a reader task per connection answers
  by id.  When a connection ends, the actor drains the WHOLE map.

  1. **Program** — `step` has one event for each point where tasks can interleave: the two halves of
     `send`, its timeout in two halves (giving up, then removing the id), the turns of the actor, and the
     reader.  Calls of `send` are named by numbers, ids are reused.

  2. **Specification** — `Proper s e s'` says what a step may do: a teardown fails exactly the
     outstanding queries on that connection, what is in the channel stays pending until it is written,
     and nothing is written for a query that was completed.

  3. **The race** — `takes s e` are the queries whose waiter the event takes away, and `Clean s e` says
     that all of them have been written.  A teardown beside a query that is registered and not yet
     written is not clean: that query fails with the others, and its message goes out afterwards.

  4. **The invariant (`Inv`)** — as long as every step is clean, each unsent query has its waiter, and an
     outstanding query that was written is on the connection the actor still has.
-/
import Httproxy.Lib.Bytes
import Httproxy.Lib.Machine

namespace Httproxy.Dns

open Machine Bytes

/-! ## Program -/

/-- Where the message of a query is. -/
inductive Place where
  /-- `send` is not called yet. -/
  | new
  /-- The id is registered, `self.tx.send` waits for room. -/
  | sending
  | queued
  /-- The actor has it, and connects. -/
  | taken
  /-- It was written to this connection, or is being written. -/
  | on (conn : Nat)
  /-- The connect failed. -/
  | dropped
  deriving DecidableEq, Repr

inductive Failure where
  /-- "connect failed: {}" -/
  | connectFailed
  /-- "write failed, connection reset" -/
  | writeFailed
  /-- "connection reset by remote" -/
  | connectionReset
  /-- "DNS response channel closed" -/
  | channelClosed
  /-- "DNS query timeout" -/
  | timeout
  deriving DecidableEq, Repr

inductive Outcome where
  | answered (buf : Bytes)
  | failed (e : Failure)
  deriving DecidableEq, Repr

/-- A call of `send`: its id, its message with the id in front, and what its waiter got. -/
structure Query where
  id : UInt16
  data : Bytes
  place : Place
  outcome : Option Outcome
  deriving DecidableEq, Repr

/-- A oneshot takes the first value only. -/
def Query.complete (o : Outcome) (x : Query) : Query :=
  { x with outcome := some (x.outcome.getD o) }

inductive Actor where
  /-- In the `select!`. -/
  | idle
  | connecting (q : Nat)
  | writing (q : Nat)
  deriving DecidableEq, Repr

abbrev PendingMap := AList fun _ : UInt16 => Nat

structure StreamTransport where
  query : Nat → Query
  /-- The waiters by id. -/
  pending : PendingMap
  channel : List Nat
  actor : Actor
  /-- `writer`, with the number of its connection; `reader_task` goes with it. -/
  writer : Option Nat
  /-- Connections made so far. -/
  conns : Nat
  /-- The reader loops that still run, also aborted ones up to their next await. -/
  running : List Nat
  /-- Timed-out queries that have not removed their id yet. -/
  forgetting : List Nat

def StreamTransport.new : StreamTransport where
  query _ := ⟨0, [], .new, none⟩
  pending := ∅
  channel := []
  actor := .idle
  writer := none
  conns := 0
  running := []
  forgetting := []

/-- The message of `q` is somewhere else now. -/
def StreamTransport.move (s : StreamTransport) (q : Nat) (place : Place) : StreamTransport :=
  { s with query := Function.update s.query q { s.query q with place } }

/-- `pending.lock().await.remove(&id)`, and the waiter gets `o`. -/
def StreamTransport.take (s : StreamTransport) (id : UInt16) (o : Outcome) : StreamTransport :=
  match s.pending.lookup id with
  | none => s
  | some q =>
    { s with pending := s.pending.erase id
             query := Function.update s.query q ((s.query q).complete o) }

/-- The loop over `actor_pending.lock().await.drain()`: every waiter gets `o`. -/
def StreamTransport.drain (s : StreamTransport) (o : Outcome) : StreamTransport :=
  { s with
    pending := ∅
    query := fun q =>
      if ∃ e ∈ s.pending.entries, e.2 = q then (s.query q).complete o else s.query q }

inductive Event where
  /-- `assign_id_and_register` for a new call, with the id it found free. -/
  | register (q : Nat) (id : UInt16) (data : Bytes)
  /-- `self.tx.send` gets room. -/
  | enqueue (q : Nat)
  /-- `rx.recv()`. -/
  | dequeue
  | connected
  | connectFailed
  | written
  | writeFailed
  /-- The actor sees that the reader task has ended. -/
  | readerExit
  /-- A reader loop ends: an error, the end of the stream, a timeout, the abort. -/
  | readerEnds (conn : Nat)
  /-- A reader loop has read a whole message. -/
  | response (conn : Nat) (buf : Bytes)
  /-- Five seconds after the message was queued. -/
  | timeout (q : Nat)
  /-- A timed-out call removes its id. -/
  | forget (q : Nat)
  deriving DecidableEq, Repr

def CHANNEL : Nat := 32

/-- `data[0..2].copy_from_slice(&id.to_be_bytes())`. -/
def withId (id : UInt16) (data : Bytes) : Bytes := putBe 2 id.toNat ++ data.drop 2

/-- `u16::from_be_bytes([buf[0], buf[1]])`. -/
def idOf (buf : Bytes) : UInt16 := UInt16.ofNat (readBe (buf.take 2))

def step (s : StreamTransport) : Event → Option StreamTransport
  | .register q id data =>
    if (s.query q).place = .new ∧ s.pending.lookup id = none ∧ 2 ≤ data.length then
      some { s with pending := s.pending.insert id q
                    query := Function.update s.query q ⟨id, withId id data, .sending, none⟩ }
    else none
  | .enqueue q =>
    if (s.query q).place = .sending ∧ s.channel.length < CHANNEL then
      some { s.move q .queued with channel := s.channel ++ [q] }
    else none
  | .dequeue =>
    match s.actor, s.channel with
    | .idle, q :: rest =>
      match s.writer with
      | none => some { s.move q .taken with channel := rest, actor := .connecting q }
      | some c => some { s.move q (.on c) with channel := rest, actor := .writing q }
    | _, _ => none
  | .connected =>
    match s.actor with
    | .connecting q =>
      some { s.move q (.on s.conns) with
        writer := some s.conns
        conns := s.conns + 1
        running := s.conns :: s.running
        actor := .writing q }
    | _ => none
  | .connectFailed =>
    match s.actor with
    | .connecting q =>
      some { (s.move q .dropped).take (s.query q).id (.failed .connectFailed) with actor := .idle }
    | _ => none
  | .written =>
    match s.actor with
    | .writing _ => some { s with actor := .idle }
    | _ => none
  | .writeFailed =>
    match s.actor with
    | .writing _ =>
      some { s.drain (.failed .writeFailed) with writer := none, actor := .idle }
    | _ => none
  | .readerExit =>
    match s.actor, s.writer with
    | .idle, some c =>
      if c ∈ s.running then none
      else some { s.drain (.failed .connectionReset) with writer := none }
    | _, _ => none
  | .readerEnds c => if c ∈ s.running then some { s with running := s.running.erase c } else none
  | .response c buf =>
    if c ∈ s.running then
      some (if 2 ≤ buf.length then s.take (idOf buf) (.answered buf) else s)
    else none
  | .timeout q =>
    if (s.query q).place ≠ .new ∧ (s.query q).place ≠ .sending ∧ (s.query q).outcome = none then
      some { s with
        query := Function.update s.query q ((s.query q).complete (.failed .timeout))
        forgetting := q :: s.forgetting }
    else none
  | .forget q =>
    if q ∈ s.forgetting then
      some { s.take (s.query q).id (.failed .channelClosed) with
        forgetting := s.forgetting.erase q }
    else none

/-! ## Specification -/

/-- A query whose `send` still waits. -/
def Outstanding (s : StreamTransport) (q : Nat) : Prop :=
  (s.query q).place ≠ .new ∧ (s.query q).outcome = none

instance (s : StreamTransport) (q : Nat) : Decidable (Outstanding s q) :=
  inferInstanceAs (Decidable (_ ∧ _))

/-- The step completes the waiter of `q` with an error. -/
def Fails (s s' : StreamTransport) (q : Nat) : Prop :=
  Outstanding s q ∧ ∃ e, (s'.query q).outcome = some (.failed e)

/-- The connection that the event tears down. -/
def tornDown (s : StreamTransport) : Event → Option Nat
  | .writeFailed | .readerExit => s.writer
  | _ => none

/-- A query that is registered and whose message the actor has not got: its waiter is in the map. -/
def Waits (s : StreamTransport) (q : Nat) : Prop :=
  ((s.query q).place = .sending ∨ (s.query q).place = .queued ∧ q ∈ s.channel) ∧
    Outstanding s q ∧ s.pending.lookup (s.query q).id = some q

/-- What a step may do. -/
structure Proper (s : StreamTransport) (e : Event) (s' : StreamTransport) : Prop where
  /-- A teardown fails exactly the outstanding queries on the connection. -/
  fails : ∀ c, tornDown s e = some c → ∀ q,
    Fails s s' q ↔ Outstanding s q ∧ (s.query q).place = .on c
  /-- A query stays pending in the channel until its message is taken for a connection. -/
  waits : ∀ q, Waits s q → Waits s' q ∨
    (s'.query q).place = .taken ∧ s'.actor = .connecting q ∨
    ∃ c, s'.writer = some c ∧ (s'.query q).place = .on c
  /-- What is taken for a new connection is written to it, unless the connect fails. -/
  connects : ∀ q, (s.query q).place = .taken → (s'.query q).place = .taken ∨
    e = .connectFailed ∧ Fails s s' q ∨
    s'.writer = some s.conns ∧ (s'.query q).place = .on s.conns
  /-- No message is sent for a query that was completed. -/
  sends : ∀ q c, (s.query q).place ≠ .on c → (s'.query q).place = .on c → Outstanding s q

/-- The queries whose waiter the event takes away: out of the map, or by giving up. -/
def takes (s : StreamTransport) : Event → List Nat
  | .writeFailed | .readerExit => s.pending.entries.map fun e => e.2
  | .response _ buf => (s.pending.lookup (idOf buf)).toList
  | .timeout q => [q]
  | .forget q => (s.pending.lookup (s.query q).id).toList
  | _ => []

/-- The message was written to a connection, or is being written. -/
def Place.sent : Place → Bool
  | .on _ => true
  | _ => false

/-- The event takes away no waiter whose message is unsent. -/
def Clean (s : StreamTransport) (e : Event) : Prop := ∀ q ∈ takes s e, (s.query q).place.sent = true

instance (s : StreamTransport) (e : Event) : Decidable (Clean s e) :=
  inferInstanceAs (Decidable (∀ q ∈ takes s e, (s.query q).place.sent = true))

/-! ## The invariant -/

/-- `send` or the channel or the connecting actor still has the message. -/
def Place.unsent : Place → Bool
  | .sending | .queued | .taken => true
  | _ => false

theorem Place.not_unsent {p : Place} (h : p.sent = true) : p.unsent = false := by
  cases p with
  | on c => rfl
  | _ => cases h

/-- What holds after a run of clean steps. -/
structure Inv (s : StreamTransport) : Prop where
  /-- A waiter is registered under its own id. -/
  entry : ∀ id q, s.pending.lookup id = some q → (s.query q).id = id ∧ (s.query q).place ≠ .new
  waiter : ∀ q, Outstanding s q → s.pending.lookup (s.query q).id = some q
  unsent : ∀ q, (s.query q).place.unsent = true → (s.query q).outcome = none
  onConn : ∀ q c, Outstanding s q → (s.query q).place = .on c → s.writer = some c
  channel : ∀ q, q ∈ s.channel ↔ (s.query q).place = .queued
  nodup : s.channel.Nodup
  taken : ∀ q, (s.query q).place = .taken ↔ s.actor = .connecting q
  alone : ∀ q, s.actor = .connecting q → s.writer = none
  busy : ∀ q, s.actor = .writing q → s.writer ≠ none
  dropped : ∀ q, (s.query q).place = .dropped → (s.query q).outcome ≠ none

theorem inv_new : Inv .new where
  entry id q h := by cases h
  waiter q h := absurd rfl h.1
  unsent q h := by cases h
  onConn q c h := absurd rfl h.1
  channel q := by
    constructor
    · intro h
      cases h
    · rintro ⟨⟩
  nodup := List.nodup_nil
  taken q := by
    constructor
    · rintro ⟨⟩
    · rintro ⟨⟩
  alone q h := by cases h
  busy q h := by cases h
  dropped q h := by cases h

theorem Inv.waits {s : StreamTransport} (h : Inv s) {q : Nat}
    (hplace : (s.query q).place = .sending ∨ (s.query q).place = .queued) : Waits s q := by
  have hout : Outstanding s q := by
    rcases hplace with hp | hp
    · exact ⟨by rw [hp]; decide, h.unsent q (by rw [hp]; rfl)⟩
    · exact ⟨by rw [hp]; decide, h.unsent q (by rw [hp]; rfl)⟩
  refine ⟨?_, hout, h.waiter q hout⟩
  rcases hplace with hp | hp
  · exact .inl hp
  · exact .inr ⟨hp, (h.channel q).mpr hp⟩

/-! ## Steps that complete waiters -/

/-- The waiters of `K` get `o` and nothing else happens to any query; the map loses no other one. -/
structure Completes (s s' : StreamTransport) (K : Nat → Prop) (o : Outcome) : Prop where
  gets : ∀ q, K q → s'.query q = (s.query q).complete o
  keeps : ∀ q, ¬ K q → s'.query q = s.query q
  subset : ∀ id q, s'.pending.lookup id = some q → s.pending.lookup id = some q
  stays : ∀ id q, s.pending.lookup id = some q → ¬ K q → s'.pending.lookup id = some q

section Completes

variable {s s' : StreamTransport} {K : Nat → Prop} {o : Outcome}

theorem Completes.same (h : Completes s s' K o) (q : Nat) :
    (s'.query q).place = (s.query q).place ∧ (s'.query q).id = (s.query q).id := by
  by_cases hq : K q
  · rw [h.gets q hq]
    exact ⟨rfl, rfl⟩
  · rw [h.keeps q hq]
    exact ⟨rfl, rfl⟩

/-- Who is still outstanding was outstanding, and is not of `K`. -/
theorem Completes.outstanding (h : Completes s s' K o) (q : Nat) :
    Outstanding s' q ↔ Outstanding s q ∧ ¬ K q := by
  constructor
  · rintro ⟨hplace, hout⟩
    have hq : ¬ K q := by
      intro hq
      rw [h.gets q hq] at hout
      cases hout
    rw [h.keeps q hq] at hplace hout
    exact ⟨⟨hplace, hout⟩, hq⟩
  · rintro ⟨hout, hq⟩
    rw [Outstanding, h.keeps q hq]
    exact hout

/-- **Completing written queries keeps the invariant**, whatever becomes of the connection, as long as
    the outstanding ones are on it. -/
theorem Inv.completes (hs : Inv s) (h : Completes s s' K o)
    (hK : ∀ q, K q → (s.query q).place.sent = true) (hchannel : s'.channel = s.channel)
    (hactor : ∀ q, s'.actor = .connecting q ↔ s.actor = .connecting q)
    (hwriter : s.writer = none → s'.writer = none)
    (hbusy : ∀ q, s'.actor = .writing q → s'.writer ≠ none)
    (hon : ∀ q c, Outstanding s' q → (s.query q).place = .on c → s'.writer = some c) : Inv s' where
  entry id q hl := by
    rw [(h.same q).1, (h.same q).2]
    exact hs.entry id q (h.subset id q hl)
  waiter q hq := by
    obtain ⟨hout, hnot⟩ := (h.outstanding q).mp hq
    rw [(h.same q).2]
    exact h.stays _ q (hs.waiter q hout) hnot
  unsent q hq := by
    rw [(h.same q).1] at hq
    have hnot : ¬ K q := by
      intro hk
      rw [Place.not_unsent (hK q hk)] at hq
      cases hq
    rw [h.keeps q hnot]
    exact hs.unsent q hq
  onConn q c hq hp := hon q c hq ((h.same q).1 ▸ hp)
  channel q := by
    rw [hchannel, (h.same q).1]
    exact hs.channel q
  nodup := hchannel ▸ hs.nodup
  taken q := by
    rw [(h.same q).1, hactor]
    exact hs.taken q
  alone q hq := hwriter (hs.alone q ((hactor q).mp hq))
  busy := hbusy
  dropped q hq := by
    rw [(h.same q).1] at hq
    by_cases hk : K q
    · rw [h.gets q hk]
      rintro ⟨⟩
    · rw [h.keeps q hk]
      exact hs.dropped q hq

/-- No message moves in such a step, and what waits goes on waiting. -/
theorem Completes.proper (h : Completes s s' K o)
    (hK : ∀ q, K q → (s.query q).place.sent = true) (hchannel : s'.channel = s.channel) {e : Event}
    (hfails : ∀ c, tornDown s e = some c → ∀ q,
      Fails s s' q ↔ Outstanding s q ∧ (s.query q).place = .on c) : Proper s e s' where
  fails := hfails
  waits q hq := by
    obtain ⟨hplace, hout, hlook⟩ := hq
    have hnot : ¬ K q := by
      intro hk
      have hsent := hK q hk
      rcases hplace with hp | ⟨hp, -⟩
      · rw [hp] at hsent
        cases hsent
      · rw [hp] at hsent
        cases hsent
    refine .inl ⟨?_, (h.outstanding q).mpr ⟨hout, hnot⟩, ?_⟩
    · rw [(h.same q).1, hchannel]
      exact hplace
    · rw [(h.same q).2]
      exact h.stays _ q hlook hnot
  connects q hq := .inl ((h.same q).1.trans hq)
  sends q c hne heq := absurd ((h.same q).1.symm.trans heq) hne

/-- `take` completes the waiter under the id. -/
theorem completes_take (s : StreamTransport) (id : UInt16) (o : Outcome) :
    Completes s (s.take id o) (fun q => s.pending.lookup id = some q) o := by
  unfold StreamTransport.take
  cases hl : s.pending.lookup id with
  | none =>
    exact ⟨fun q hq => (by cases hq), fun _ _ => rfl, fun _ _ h => h, fun _ _ h _ => h⟩
  | some q₀ =>
    constructor
    · intro q hq
      obtain rfl := Option.some.inj hq
      exact Function.update_self ..
    · intro q hq
      exact Function.update_of_ne (fun h => hq (by rw [h])) ..
    · intro id' q h
      by_cases hid : id' = id
      · rw [hid, AList.lookup_erase] at h
        cases h
      · rwa [AList.lookup_erase_ne hid] at h
    · intro id' q h hq
      have hid : id' ≠ id := by
        rintro rfl
        exact hq (hl.symm.trans h)
      show (s.pending.erase id).lookup id' = some q
      rwa [AList.lookup_erase_ne hid]

theorem mem_entries_iff (m : PendingMap) (q : Nat) :
    (∃ e ∈ m.entries, e.2 = q) ↔ ∃ id, m.lookup id = some q := by
  constructor
  · rintro ⟨⟨id, q'⟩, he, rfl⟩
    exact ⟨id, AList.mem_lookup_iff.mpr he⟩
  · rintro ⟨id, hl⟩
    exact ⟨⟨id, q⟩, AList.mem_lookup_iff.mp hl, rfl⟩

/-- `drain` completes every waiter. -/
theorem completes_drain (s : StreamTransport) (o : Outcome) :
    Completes s (s.drain o) (fun q => ∃ id, s.pending.lookup id = some q) o where
  gets q hq := if_pos ((mem_entries_iff s.pending q).mpr hq)
  keeps q hq := if_neg fun h => hq ((mem_entries_iff s.pending q).mp h)
  subset id q h := by cases h
  stays id q h hq := absurd ⟨id, h⟩ hq

/-- **A teardown.**  All waiters are failed; if they were all written, these are the outstanding
    queries on the connection. -/
theorem drain_fails (hs : Inv s) (f : Failure) {c : Nat} (hc : s.writer = some c)
    (hK : ∀ q, (∃ id, s.pending.lookup id = some q) → (s.query q).place.sent = true)
    (h : s'.query = (s.drain (.failed f)).query) (q : Nat) :
    Fails s s' q ↔ Outstanding s q ∧ (s.query q).place = .on c := by
  have hcomp := completes_drain s (.failed f)
  rw [Fails, h]
  constructor
  · rintro ⟨hout, e, he⟩
    refine ⟨hout, ?_⟩
    have hwait : ∃ id, s.pending.lookup id = some q := ⟨_, hs.waiter q hout⟩
    have hsent := hK q hwait
    cases hp : (s.query q).place with
    | on c' =>
      have hc' := hs.onConn q c' hout hp
      rw [hc] at hc'
      rw [Option.some.inj hc']
    | _ =>
      rw [hp] at hsent
      cases hsent
  · rintro ⟨hout, -⟩
    refine ⟨hout, f, ?_⟩
    rw [hcomp.gets q ⟨_, hs.waiter q hout⟩, Query.complete, hout.2]
    rfl

/-- After a teardown no query is outstanding. -/
theorem drain_none (hs : Inv s) (o : Outcome) (h : s'.query = (s.drain o).query) (q : Nat) :
    ¬ Outstanding s' q := by
  intro hq
  have hq' : Outstanding (s.drain o) q := by
    rw [Outstanding, ← h]
    exact hq
  obtain ⟨hout, hnot⟩ := ((completes_drain s o).outstanding q).mp hq'
  exact hnot ⟨_, hs.waiter q hout⟩

end Completes

/-! ## Steps that change one query -/

theorem Inv.outstanding {s : StreamTransport} (hs : Inv s) {q : Nat}
    (h : (s.query q).place.unsent = true) : Outstanding s q := by
  refine ⟨?_, hs.unsent q h⟩
  intro hp
  rw [hp] at h
  cases h

/-- An unsent query is registered under its id only. -/
theorem Inv.own {s : StreamTransport} (hs : Inv s) {q : Nat}
    (h : (s.query q).place.unsent = true) (id : UInt16) :
    s.pending.lookup id = some q ↔ (s.query q).outcome = none ∧ (s.query q).id = id := by
  have hout := hs.outstanding h
  constructor
  · intro hl
    exact ⟨hout.2, (hs.entry id q hl).1⟩
  · rintro ⟨-, rfl⟩
    exact hs.waiter q hout

/-- The step makes `x` of the query `q₀`; the other queries and their waiters are as before, and the
    channel and the actor have of `q₀` what `x` says. -/
structure Touches (s s' : StreamTransport) (q₀ : Nat) (x : Query) : Prop where
  query : s'.query = Function.update s.query q₀ x
  waiters : ∀ id q, q ≠ q₀ → (s'.pending.lookup id = some q ↔ s.pending.lookup id = some q)
  own : ∀ id, s'.pending.lookup id = some q₀ ↔ x.outcome = none ∧ x.id = id
  called : x.place ≠ .new
  unsent : x.place.unsent = true → x.outcome = none
  dropped : x.place = .dropped → x.outcome ≠ none
  channel : ∀ q, q ∈ s'.channel ↔ if q = q₀ then x.place = .queued else q ∈ s.channel
  nodup : s'.channel.Nodup
  actor : ∀ q, s'.actor = .connecting q ↔
    if q = q₀ then x.place = .taken else s.actor = .connecting q
  alone : ∀ q, s'.actor = .connecting q → s'.writer = none
  busy : ∀ q, s'.actor = .writing q → s'.writer ≠ none
  onConn : ∀ c, x.place = .on c → s'.writer = some c
  writer : ∀ c, s.writer = some c → s'.writer = some c

section Touches

variable {s s' : StreamTransport} {q₀ : Nat} {x : Query}

theorem Touches.self (h : Touches s s' q₀ x) : s'.query q₀ = x := by
  rw [h.query]
  exact Function.update_self ..

theorem Touches.other (h : Touches s s' q₀ x) {q : Nat} (hq : q ≠ q₀) :
    s'.query q = s.query q := by
  rw [h.query]
  exact Function.update_of_ne hq ..

theorem Inv.touches (hs : Inv s) (h : Touches s s' q₀ x) : Inv s' where
  entry id q hl := by
    by_cases hq : q = q₀
    · subst hq
      rw [h.self]
      exact ⟨((h.own id).mp hl).2, h.called⟩
    · rw [h.other hq]
      exact hs.entry id q ((h.waiters id q hq).mp hl)
  waiter q hout := by
    by_cases hq : q = q₀
    · subst hq
      rw [Outstanding, h.self] at hout
      rw [h.self]
      exact (h.own _).mpr ⟨hout.2, rfl⟩
    · rw [Outstanding, h.other hq] at hout
      rw [h.other hq]
      exact (h.waiters _ q hq).mpr (hs.waiter q hout)
  unsent q hun := by
    by_cases hq : q = q₀
    · rw [hq, h.self] at hun ⊢
      exact h.unsent hun
    · rw [h.other hq] at hun ⊢
      exact hs.unsent q hun
  onConn q c hout hp := by
    by_cases hq : q = q₀
    · rw [hq, h.self] at hp
      exact h.onConn c hp
    · rw [Outstanding, h.other hq] at hout
      rw [h.other hq] at hp
      exact h.writer c (hs.onConn q c hout hp)
  channel q := by
    rw [h.channel q]
    by_cases hq : q = q₀
    · rw [if_pos hq, hq, h.self]
    · rw [if_neg hq, h.other hq]
      exact hs.channel q
  nodup := h.nodup
  taken q := by
    rw [h.actor q]
    by_cases hq : q = q₀
    · rw [if_pos hq, hq, h.self]
    · rw [if_neg hq, h.other hq]
      exact hs.taken q
  alone := h.alone
  busy := h.busy
  dropped q hp := by
    by_cases hq : q = q₀
    · rw [hq, h.self] at hp ⊢
      exact h.dropped hp
    · rw [h.other hq] at hp ⊢
      exact hs.dropped q hp

/-- **A step that changes one query is proper** as far as that query goes: the others wait on. -/
theorem Touches.proper (hs : Inv s) (h : Touches s s' q₀ x) {e : Event}
    (hno : tornDown s e = none)
    (hwaits : Waits s q₀ → x.place = .queued ∨ x.place = .taken ∨
      ∃ c, s'.writer = some c ∧ x.place = .on c)
    (hconnects : (s.query q₀).place = .taken → e = .connectFailed ∧ Fails s s' q₀ ∨
      s'.writer = some s.conns ∧ x.place = .on s.conns)
    (hsends : ∀ c, x.place = .on c → Outstanding s q₀) : Inv s' ∧ Proper s e s' := by
  have hinv := hs.touches h
  refine ⟨hinv, ?_, ?_, ?_, ?_⟩
  · intro c hc
    rw [hno] at hc
    cases hc
  · intro q hq
    by_cases heq : q = q₀
    · subst heq
      rcases hwaits hq with hp | hp | ⟨c, hc, hp⟩
      · exact .inl (hinv.waits (.inr (by rw [h.self, hp])))
      · exact .inr (.inl ⟨by rw [h.self, hp], (h.actor q).mpr (by rw [if_pos rfl, hp])⟩)
      · exact .inr (.inr ⟨c, hc, by rw [h.self, hp]⟩)
    · left
      apply hinv.waits
      rw [h.other heq]
      rcases hq.1 with hp | ⟨hp, -⟩
      · exact .inl hp
      · exact .inr hp
  · intro q hq
    by_cases heq : q = q₀
    · subst heq
      rcases hconnects hq with hfail | ⟨hw, hp⟩
      · exact .inr (.inl hfail)
      · exact .inr (.inr ⟨hw, by rw [h.self, hp]⟩)
    · rw [h.other heq]
      exact .inl hq
  · intro q c hne heq
    by_cases hq : q = q₀
    · rw [hq, h.self] at heq
      rw [hq]
      exact hsends c heq
    · rw [h.other hq] at heq
      exact absurd heq hne

end Touches

/-! ## The steps of `send` and of the actor -/

theorem register_touches {s : StreamTransport} (hs : Inv s) {q₀ : Nat} {id : UInt16} (data : Bytes)
    (hnew : (s.query q₀).place = .new) (hfree : s.pending.lookup id = none) :
    Touches s { s with
      pending := s.pending.insert id q₀
      query := Function.update s.query q₀ ⟨id, withId id data, .sending, none⟩ } q₀
      ⟨id, withId id data, .sending, none⟩ where
  query := rfl
  waiters id' q hq := by
    show (s.pending.insert id q₀).lookup id' = some q ↔ _
    by_cases hid : id' = id
    · rw [hid, AList.lookup_insert, hfree]
      simp [Ne.symm hq]
    · rw [AList.lookup_insert_ne hid]
  own id' := by
    show (s.pending.insert id q₀).lookup id' = some q₀ ↔ _
    by_cases hid : id' = id
    · rw [hid, AList.lookup_insert]
      simp
    · rw [AList.lookup_insert_ne hid]
      constructor
      · intro hl
        exact absurd hnew (hs.entry id' q₀ hl).2
      · rintro ⟨-, heq⟩
        exact absurd heq.symm hid
  called := by rintro ⟨⟩
  unsent _ := rfl
  dropped h := by cases h
  channel q := by
    split
    · rename_i heq
      rw [heq, hs.channel, hnew]
      simp
    · rfl
  nodup := hs.nodup
  actor q := by
    split
    · rename_i heq
      rw [heq, ← hs.taken, hnew]
      simp
    · rfl
  alone := hs.alone
  busy := hs.busy
  onConn c h := by cases h
  writer c h := h

theorem enqueue_touches {s : StreamTransport} (hs : Inv s) {q : Nat}
    (h : (s.query q).place = .sending) :
    Touches s { s.move q .queued with channel := s.channel ++ [q] } q
      { s.query q with place := .queued } where
  query := rfl
  waiters id q' _ := Iff.rfl
  own id := hs.own (by rw [h]; rfl) id
  called := by rintro ⟨⟩
  unsent _ := hs.unsent q (by rw [h]; rfl)
  dropped hp := by cases hp
  channel q' := by
    show q' ∈ s.channel ++ [q] ↔ _
    split
    · rename_i heq
      simp [heq]
    · rename_i hne
      simp [hne]
  nodup := by
    have hnot : q ∉ s.channel := by
      rw [hs.channel, h]
      rintro ⟨⟩
    refine List.nodup_append.mpr ⟨hs.nodup, List.nodup_singleton q, ?_⟩
    rintro a ha b hb rfl
    rw [List.mem_singleton] at hb
    exact hnot (hb ▸ ha)
  actor q' := by
    show s.actor = _ ↔ _
    split
    · rename_i heq
      rw [heq, ← hs.taken, h]
      simp
    · rfl
  alone := hs.alone
  busy := hs.busy
  onConn c hp := by cases hp
  writer c hc := hc

/-- The actor takes the first message, to connect for it or to write it. -/
theorem dequeue_touches {s : StreamTransport} (hs : Inv s) {q : Nat} {rest : List Nat}
    (hidle : s.actor = .idle) (hchannel : s.channel = q :: rest) {p : Place} {actor : Actor}
    (hp : s.writer = none ∧ p = .taken ∧ actor = .connecting q ∨
      ∃ c, s.writer = some c ∧ p = .on c ∧ actor = .writing q) :
    Touches s { s.move q p with channel := rest, actor } q { s.query q with place := p } := by
  have hqueued : (s.query q).place = .queued := by
    rw [← hs.channel, hchannel]
    exact List.mem_cons_self
  have hun : (s.query q).place.unsent = true := by
    rw [hqueued]
    rfl
  have hnodup := hs.nodup
  rw [hchannel, List.nodup_cons] at hnodup
  have hmem : ∀ q', p ≠ .queued → (q' ∈ rest ↔ if q' = q then p = .queued else q' ∈ s.channel) := by
    intro q' hne
    rw [hchannel]
    split
    · rename_i heq
      rw [heq]
      exact ⟨fun hin => absurd hin hnodup.1, fun hp => absurd hp hne⟩
    · rename_i hq'
      rw [List.mem_cons, or_iff_right hq']
  rcases hp with ⟨hw, rfl, rfl⟩ | ⟨c, hw, rfl, rfl⟩
  · constructor
    · rfl
    · exact fun id q' _ => Iff.rfl
    · exact hs.own hun
    · rintro ⟨⟩
    · exact fun _ => hs.unsent q hun
    · rintro ⟨⟩
    · exact fun q' => hmem q' (by rintro ⟨⟩)
    · exact hnodup.2
    · intro q'
      split
      · rename_i heq
        simp [heq]
      · rename_i hne
        simp [hidle, Ne.symm hne]
    · exact fun _ _ => hw
    · rintro q' ⟨⟩
    · rintro c ⟨⟩
    · exact fun c hc => hc
  · constructor
    · rfl
    · exact fun id q' _ => Iff.rfl
    · exact hs.own hun
    · rintro ⟨⟩
    · exact fun _ => hs.unsent q hun
    · rintro ⟨⟩
    · exact fun q' => hmem q' (by rintro ⟨⟩)
    · exact hnodup.2
    · intro q'
      split
      · simp
      · simp [hidle]
    · rintro q' ⟨⟩
    · intro q' _ hn
      cases hw.symm.trans hn
    · rintro c' ⟨⟩
      exact hw
    · exact fun c hc => hc

theorem connected_touches {s : StreamTransport} (hs : Inv s) {q : Nat}
    (h : s.actor = .connecting q) :
    Touches s { s.move q (.on s.conns) with
      writer := some s.conns
      conns := s.conns + 1
      running := s.conns :: s.running
      actor := .writing q } q { s.query q with place := .on s.conns } where
  query := rfl
  waiters id q' _ := Iff.rfl
  own id := hs.own (by rw [(hs.taken q).mpr h]; rfl) id
  called := by rintro ⟨⟩
  unsent _ := hs.unsent q (by rw [(hs.taken q).mpr h]; rfl)
  dropped hp := by cases hp
  channel q' := by
    show q' ∈ s.channel ↔ _
    split
    · rename_i heq
      rw [heq, hs.channel, (hs.taken q).mpr h]
      simp
    · rfl
  nodup := hs.nodup
  actor q' := by
    show Actor.writing q = _ ↔ _
    split
    · simp
    · rename_i hne
      rw [h]
      simp [Ne.symm hne]
  alone q' hq' := by cases hq'
  busy q' _ := by rintro ⟨⟩
  onConn c hc := by
    cases hc
    rfl
  writer c hc := by
    rw [hs.alone q h] at hc
    cases hc

/-- **A failed connect** fails the query that the actor connects for: the waiter under its id is its
    own. -/
theorem connectFailed_touches {s : StreamTransport} (hs : Inv s) {q : Nat}
    (h : s.actor = .connecting q) :
    Touches s { (s.move q .dropped).take (s.query q).id (.failed .connectFailed) with
      actor := .idle } q
      { s.query q with place := .dropped, outcome := some (.failed .connectFailed) } := by
  have htaken := (hs.taken q).mpr h
  have hout : Outstanding s q := hs.outstanding (by rw [htaken]; rfl)
  have hlook : (s.move q .dropped).pending.lookup (s.query q).id = some q := hs.waiter q hout
  have hmoved : (s.move q .dropped).query q = { s.query q with place := .dropped } :=
    Function.update_self ..
  have hx : ((s.move q .dropped).query q).complete (.failed .connectFailed) =
      { s.query q with place := .dropped, outcome := some (.failed .connectFailed) } := by
    rw [hmoved]
    show ({ s.query q with place := _, outcome := some ((s.query q).outcome.getD _) } : Query) = _
    rw [hout.2]
    rfl
  rw [StreamTransport.take, hlook]
  constructor
  · show Function.update (Function.update s.query q _) q _ = _
    rw [hx, Function.update_idem]
  · intro id q' hq'
    show (s.pending.erase (s.query q).id).lookup id = some q' ↔ _
    by_cases hid : id = (s.query q).id
    · rw [hid, AList.lookup_erase, hs.waiter q hout]
      simp [Ne.symm hq']
    · rw [AList.lookup_erase_ne hid]
  · intro id
    show (s.pending.erase (s.query q).id).lookup id = some q ↔ _
    simp only [reduceCtorEq, false_and, iff_false]
    by_cases hid : id = (s.query q).id
    · rw [hid, AList.lookup_erase]
      rintro ⟨⟩
    · rw [AList.lookup_erase_ne hid]
      intro hl
      exact hid (hs.entry id q hl).1.symm
  · rintro ⟨⟩
  · rintro ⟨⟩
  · rintro - ⟨⟩
  · intro q'
    show q' ∈ s.channel ↔ _
    split
    · rename_i heq
      rw [heq, hs.channel, htaken]
      simp
    · rfl
  · exact hs.nodup
  · intro q'
    show Actor.idle = _ ↔ _
    split
    · simp
    · rename_i hne
      rw [h]
      simp [Ne.symm hne]
  · rintro q' ⟨⟩
  · rintro q' ⟨⟩
  · rintro c ⟨⟩
  · exact fun c hc => hc

/-- **A clean teardown.** -/
theorem teardown_proper {s s' : StreamTransport} (hs : Inv s) {e : Event} {f : Failure} {c : Nat}
    (hc : s.writer = some c) (htorn : tornDown s e = some c)
    (hclean : ∀ q ∈ s.pending.entries.map fun e => e.2, (s.query q).place.sent = true)
    (hs' : s' = { s.drain (.failed f) with writer := none, actor := .idle }) :
    Inv s' ∧ Proper s e s' := by
  have hquery : s'.query = (s.drain (.failed f)).query := by
    rw [hs']
  have hcomp : Completes s s' (fun q => ∃ id, s.pending.lookup id = some q) (.failed f) := by
    have hd := completes_drain s (.failed f)
    rw [hs']
    exact ⟨hd.gets, hd.keeps, hd.subset, hd.stays⟩
  have hK : ∀ q, (∃ id, s.pending.lookup id = some q) → (s.query q).place.sent = true := by
    intro q hq
    apply hclean
    obtain ⟨e, he, heq⟩ := (mem_entries_iff s.pending q).mpr hq
    exact List.mem_map.mpr ⟨e, he, heq⟩
  have hchannel : s'.channel = s.channel := by
    rw [hs']
    rfl
  -- with a connection the actor does not connect
  have hactor : ∀ q, s'.actor = .connecting q ↔ s.actor = .connecting q := by
    intro q
    constructor
    · intro hq
      rw [hs'] at hq
      cases hq
    · intro hq
      rw [hs.alone q hq] at hc
      cases hc
  constructor
  · refine hs.completes hcomp hK hchannel hactor (fun _ => by rw [hs']) ?_ ?_
    · intro q hq
      rw [hs'] at hq
      cases hq
    intro q c' hq
    exact absurd hq (drain_none hs (.failed f) hquery q)
  · apply hcomp.proper hK hchannel
    intro c' hc' q
    rw [htorn] at hc'
    obtain rfl := Option.some.inj hc'
    exact drain_fails hs f hc hK hquery q

/-! ## Steps that complete one waiter -/

/-- Neither connection nor channel changes, and written queries are completed. -/
theorem complete_proper {s s' : StreamTransport} (hs : Inv s) {K : Nat → Prop} {o : Outcome}
    {e : Event} (h : Completes s s' K o) (hK : ∀ q, K q → (s.query q).place.sent = true)
    (hsame : s'.channel = s.channel ∧ s'.actor = s.actor ∧ s'.writer = s.writer)
    (hno : tornDown s e = none) : Inv s' ∧ Proper s e s' := by
  obtain ⟨hchannel, hactor, hwriter⟩ := hsame
  constructor
  · refine hs.completes h hK hchannel (fun q => by rw [hactor]) (fun hn => hwriter.trans hn) ?_ ?_
    · intro q hq
      rw [hactor] at hq
      rw [hwriter]
      exact hs.busy q hq
    intro q c hq hp
    rw [hwriter]
    exact hs.onConn q c ((h.outstanding q).mp hq).1 hp
  · apply h.proper hK hchannel
    intro c hc
    rw [hno] at hc
    cases hc

theorem take_same (s : StreamTransport) (id : UInt16) (o : Outcome) :
    (s.take id o).channel = s.channel ∧ (s.take id o).actor = s.actor ∧
      (s.take id o).writer = s.writer := by
  unfold StreamTransport.take
  split
  · exact ⟨rfl, rfl, rfl⟩
  · exact ⟨rfl, rfl, rfl⟩

theorem completes_none (s : StreamTransport) (o : Outcome) {s' : StreamTransport}
    (hq : s'.query = s.query) (hp : s'.pending = s.pending) :
    Completes s s' (fun _ => False) o where
  gets q h := h.elim
  keeps q _ := by rw [hq]
  subset id q h := hp ▸ h
  stays id q h _ := hp ▸ h

/-- A call that gives up completes its own waiter, which stays in the map. -/
theorem completes_timeout (s : StreamTransport) (q : Nat) :
    Completes s { s with
      query := Function.update s.query q ((s.query q).complete (.failed .timeout))
      forgetting := q :: s.forgetting } (fun q' => q' = q) (.failed .timeout) where
  gets q' hq := by
    rw [hq]
    exact Function.update_self ..
  keeps q' hq := Function.update_of_ne hq ..
  subset id q' h := h
  stays id q' h _ := h

/-! ## Runs -/

/-- **One clean step**, by the event. -/
theorem step_proper {s s' : StreamTransport} {e : Event} (hs : Inv s) (hclean : Clean s e)
    (h : step s e = some s') : Inv s' ∧ Proper s e s' := by
  cases e with
  | register q id data =>
    simp only [step] at h
    split at h
    · rename_i hc
      obtain rfl := Option.some.inj h
      apply (register_touches hs data hc.1 hc.2.1).proper hs rfl
      · intro hw
        exact absurd hc.1 hw.2.1.1
      · intro ht
        rw [hc.1] at ht
        cases ht
      · rintro c ⟨⟩
    · cases h
  | enqueue q =>
    simp only [step] at h
    split at h
    · rename_i hc
      obtain rfl := Option.some.inj h
      apply (enqueue_touches hs hc.1).proper hs rfl
      · exact fun _ => .inl rfl
      · intro ht
        rw [hc.1] at ht
        cases ht
      · rintro c ⟨⟩
    · cases h
  | dequeue =>
    simp only [step] at h
    split at h
    · rename_i q rest hidle hchannel
      have hqueued : (s.query q).place = .queued :=
        (hs.channel q).mp (hchannel ▸ List.mem_cons_self)
      have hnot : (s.query q).place ≠ .taken := by
        rw [hqueued]
        rintro ⟨⟩
      have hout : Outstanding s q := hs.outstanding (by rw [hqueued]; rfl)
      split at h
      · rename_i hw
        obtain rfl := Option.some.inj h
        exact (dequeue_touches hs hidle hchannel (.inl ⟨hw, rfl, rfl⟩)).proper hs rfl
          (fun _ => .inr (.inl rfl)) (fun ht => absurd ht hnot) (fun _ _ => hout)
      · rename_i c hw
        obtain rfl := Option.some.inj h
        exact (dequeue_touches hs hidle hchannel (.inr ⟨c, hw, rfl, rfl⟩)).proper hs rfl
          (fun _ => .inr (.inr ⟨c, hw, rfl⟩)) (fun ht => absurd ht hnot) (fun _ _ => hout)
    · cases h
  | connected =>
    simp only [step] at h
    split at h
    · rename_i q hactor
      obtain rfl := Option.some.inj h
      have hout : Outstanding s q := hs.outstanding (by rw [(hs.taken q).mpr hactor]; rfl)
      exact (connected_touches hs hactor).proper hs rfl (fun _ => .inr (.inr ⟨_, rfl, rfl⟩))
        (fun _ => .inr ⟨rfl, rfl⟩) (fun _ _ => hout)
    · cases h
  | connectFailed =>
    simp only [step] at h
    split at h
    · rename_i q hactor
      obtain rfl := Option.some.inj h
      have htaken := (hs.taken q).mpr hactor
      have hout : Outstanding s q := hs.outstanding (by rw [htaken]; rfl)
      have ht := connectFailed_touches hs hactor
      apply ht.proper hs rfl
      · rintro ⟨hp | ⟨hp, -⟩, -⟩
        · cases htaken.symm.trans hp
        · cases htaken.symm.trans hp
      · exact fun _ => .inl ⟨rfl, hout, .connectFailed, by rw [ht.self]⟩
      · rintro c ⟨⟩
    · cases h
  | written =>
    simp only [step] at h
    split at h
    · rename_i q hactor
      obtain rfl := Option.some.inj h
      -- nothing happens but to the actor
      have hcomp := @completes_none s (.failed .timeout) { s with actor := .idle } rfl rfl
      constructor
      · refine hs.completes hcomp (fun q hq => hq.elim) rfl ?_ (fun hn => hn) ?_ ?_
        · intro q'
          rw [hactor]
          simp
        · rintro q' ⟨⟩
        · intro q' c hq hp
          exact hs.onConn q' c ((hcomp.outstanding q').mp hq).1 hp
      · apply hcomp.proper (fun q hq => hq.elim) rfl
        rintro c ⟨⟩
    · cases h
  | writeFailed =>
    simp only [step] at h
    split at h
    · rename_i q hactor
      obtain ⟨c, hw⟩ := Option.ne_none_iff_exists'.mp (hs.busy q hactor)
      exact teardown_proper hs hw hw hclean (Option.some.inj h).symm
    · cases h
  | readerExit =>
    simp only [step] at h
    split at h
    · rename_i c hidle hw
      split at h
      · cases h
      · refine @teardown_proper s s' hs .readerExit .connectionReset c hw hw hclean ?_
        rw [← Option.some.inj h, ← hidle]
        rfl
    · cases h
  | readerEnds c =>
    simp only [step] at h
    split at h
    · obtain rfl := Option.some.inj h
      exact complete_proper hs (completes_none s (.failed .timeout) rfl rfl) (fun q hq => hq.elim)
        ⟨rfl, rfl, rfl⟩ rfl
    · cases h
  | response c buf =>
    simp only [step] at h
    split at h
    · obtain rfl := Option.some.inj h
      split
      · refine complete_proper hs (completes_take s (idOf buf) (.answered buf)) ?_
          (take_same s _ _) rfl
        intro q hq
        exact hclean q (Option.mem_toList.mpr hq)
      · exact complete_proper hs (completes_none s (.answered buf) rfl rfl) (fun q hq => hq.elim)
          ⟨rfl, rfl, rfl⟩ rfl
    · cases h
  | timeout q =>
    simp only [step] at h
    split at h
    · obtain rfl := Option.some.inj h
      refine complete_proper hs (completes_timeout s q) ?_ ⟨rfl, rfl, rfl⟩ rfl
      rintro q' rfl
      exact hclean q' List.mem_cons_self
    · cases h
  | forget q =>
    simp only [step] at h
    split at h
    · obtain rfl := Option.some.inj h
      have ht := completes_take s (s.query q).id (.failed .channelClosed)
      refine @complete_proper s _ hs _ _ (.forget q) ⟨ht.gets, ht.keeps, ht.subset, ht.stays⟩ ?_
        (take_same s _ _) rfl
      intro q' hq
      exact hclean q' (Option.mem_toList.mpr hq)
    · cases h

/-- **The run lemma.** -/
theorem inv_run {es : List Event} {s : StreamTransport} (hrun : run step .new es = some s)
    (hclean : Meets step Clean .new es) : Inv s :=
  run_invariant_of_meets (fun _ _ _ hs hc h => (step_proper hs hc h).1) es .new s inv_new hclean hrun

/-- **Every step of a clean run is proper.**  However calls, actor and readers interleave: as long as no
    event takes away a waiter whose message is unsent, a teardown fails exactly the outstanding queries
    on its connection, what is in the channel stays pending until it is written to a connection, and no
    message is written for a completed query. -/
theorem clean_run_proper (es : List Event) (s : StreamTransport)
    (hrun : run step .new es = some s) (hmeets : Meets step Clean .new es) (e : Event)
    (hclean : Clean s e) (s' : StreamTransport) (hstep : step s e = some s') : Proper s e s' :=
  (step_proper (inv_run hrun hmeets) hclean hstep).2

/-- Two queries on one connection; the write of the second one fails. -/
def demoEvents : List Event :=
  [.register 0 7 [0, 0], .enqueue 0, .dequeue, .connected, .written,
    .register 1 9 [0, 0], .enqueue 1, .dequeue]

theorem clean_run_proper_demo :
    ∃ s s', run step .new demoEvents = some s ∧ step s .writeFailed = some s' ∧
      Fails s s' 0 ∧ Fails s s' 1 ∧ Proper s .writeFailed s' := by
  obtain ⟨s, hs⟩ : ∃ s, run step .new demoEvents = some s := ⟨_, rfl⟩
  have hmeets : Meets step Clean .new demoEvents := by decide +kernel
  have hproper := clean_run_proper demoEvents s hs hmeets .writeFailed
  obtain rfl := Option.some.inj hs
  refine ⟨_, _, rfl, rfl, ?_, ?_, hproper (by decide +kernel) _ rfl⟩
  · exact ⟨⟨by rintro ⟨⟩, rfl⟩, .writeFailed, rfl⟩
  · exact ⟨⟨by rintro ⟨⟩, rfl⟩, .writeFailed, rfl⟩

/-- Query 1 is in the channel when the reader of connection 0, which carries nothing, ends. -/
def raceEvents : List Event :=
  [.register 0 7 [0, 0], .enqueue 0, .dequeue, .connected, .written, .response 0 [0, 7],
    .register 1 9 [0, 0], .enqueue 1, .readerEnds 0]

/-- **The defect.**  The teardown fails the query in the channel, and then its message is sent. -/
theorem teardown_fails_queued :
    ∃ s s' t, run step .new raceEvents = some s ∧ step s .readerExit = some s' ∧
      run step s' [.dequeue, .connected] = some t ∧
      Waits s 1 ∧ (s.query 1).place = .queued ∧ Fails s s' 1 ∧ ¬ Proper s .readerExit s' ∧
      (t.query 1).place = .on 1 ∧ (t.query 1).outcome = some (.failed .connectionReset) := by
  obtain ⟨s, hs⟩ : ∃ s, run step .new raceEvents = some s := ⟨_, rfl⟩
  obtain ⟨s', hs'⟩ : ∃ s', step s .readerExit = some s' := by
    obtain rfl := Option.some.inj hs
    exact ⟨_, rfl⟩
  obtain ⟨t, ht⟩ : ∃ t, run step s' [.dequeue, .connected] = some t := by
    obtain rfl := Option.some.inj hs
    obtain rfl := Option.some.inj hs'
    exact ⟨_, rfl⟩
  have hqueued : (s.query 1).place = .queued ∧ 1 ∈ s.channel ∧ Outstanding s 1 ∧
      s.pending.lookup (s.query 1).id = some 1 ∧ s.writer = some 0 := by
    obtain rfl := Option.some.inj hs
    decide +kernel
  obtain ⟨hplace, hmem, hout, hlook, hwriter⟩ := hqueued
  have hreset : (s'.query 1).outcome = some (.failed .connectionReset) := by
    obtain rfl := Option.some.inj hs
    obtain rfl := Option.some.inj hs'
    decide +kernel
  have hsent : (t.query 1).place = .on 1 ∧
      (t.query 1).outcome = some (.failed .connectionReset) := by
    obtain rfl := Option.some.inj hs
    obtain rfl := Option.some.inj hs'
    obtain rfl := Option.some.inj ht
    decide +kernel
  refine ⟨s, s', t, hs, hs', ht, ⟨.inr ⟨hplace, hmem⟩, hout, hlook⟩, hplace,
    ⟨hout, _, hreset⟩, ?_, hsent.1, hsent.2⟩
  intro h
  have hon := ((h.fails 0 hwriter 1).mp ⟨hout, _, hreset⟩).2
  rw [hplace] at hon
  cases hon

end Httproxy.Dns
