/-
  The two tables behind the opening of a tunnel (`src/server/stream_registry.rs`, the master store of
  `src/server/mod.rs`) and the janitor that prunes them (`src/server/janitor.rs`).

  1. **Registry** — a stream id is absent (`Fresh`), `Active` or `Consumed`, with the second at
     which it was registered.  `register` only fills a VACANT entry, `mark_consumed` only flips an
     existing one, and `remove_consumed_before` drops consumed entries that are old enough.

  2. **Master store** — the key material of each session with the second of its handshake.

  A `DashMap` is modelled by its lookup function.  Times are `now_secs()` in whole seconds.
-/
import Httproxy.Lib.Uuid

namespace Httproxy.Registry

/-! ## Constants (`src/server/constants.rs`) -/

def MASTER_EXPIRY : Nat := 1200

/-! ## The stream registry -/

inductive StreamState where
  | active
  | consumed
  deriving DecidableEq, Repr

inductive StreamQueryResult where
  | fresh
  | active
  | consumed
  deriving DecidableEq, Repr

/-- `StreamRegistry`, as the lookup function of `streams`. -/
abbrev StreamRegistry := Uuid → Option (StreamState × Nat)

/-- `StreamRegistry::new`. -/
def StreamRegistry.new : StreamRegistry := fun _ => none

/-- `register`: whether the entry was vacant, and the registry afterwards. -/
def register (streams : StreamRegistry) (id : Uuid) (nowSecs : Nat) : Bool × StreamRegistry :=
  match streams id with
  | some _ => (false, streams)
  | none => (true, Function.update streams id (some (.active, nowSecs)))

/-- `mark_consumed`. -/
def markConsumed (streams : StreamRegistry) (id : Uuid) : StreamRegistry :=
  match streams id with
  | none => streams
  | some (_, ts) => Function.update streams id (some (.consumed, ts))

/-- `check`. -/
def check (streams : StreamRegistry) (id : Uuid) : StreamQueryResult :=
  match streams id with
  | none => .fresh
  | some (.active, _) => .active
  | some (.consumed, _) => .consumed

/-- `remove_consumed_before`. -/
def removeConsumedBefore (streams : StreamRegistry) (cutoffSecs : Nat) : StreamRegistry :=
  fun id => (streams id).filter fun entry => entry.1 = .active || entry.2 ≥ cutoffSecs

/-- The time at which `id` was registered, while its entry is there. -/
def registeredAt (streams : StreamRegistry) (id : Uuid) : Option Nat := (streams id).map Prod.snd

theorem register_eq_true {streams streams' : StreamRegistry} {id : Uuid} {now : Nat}
    (h : register streams id now = (true, streams')) :
    streams id = none ∧ streams' = Function.update streams id (some (.active, now)) := by
  rw [register] at h
  split at h
  · cases h
  · rename_i hnone
    exact ⟨hnone, (Prod.mk.inj h).2.symm⟩

theorem register_eq_false {streams streams' : StreamRegistry} {id : Uuid} {now : Nat}
    (h : register streams id now = (false, streams')) :
    (∃ entry, streams id = some entry) ∧ streams' = streams := by
  rw [register] at h
  split at h
  · rename_i entry hsome
    exact ⟨⟨entry, hsome⟩, (Prod.mk.inj h).2.symm⟩
  · cases h

/-- Marking changes no time. -/
@[simp] theorem registeredAt_markConsumed (streams : StreamRegistry) (id other : Uuid) :
    registeredAt (markConsumed streams id) other = registeredAt streams other := by
  rw [markConsumed]
  split
  · rfl
  · rename_i st ts hsome
    by_cases ho : other = id
    · subst ho
      simp [registeredAt, hsome]
    · simp [registeredAt, Function.update_of_ne ho]

/-- An entry stays, or was registered before the cutoff. -/
theorem registeredAt_removeConsumedBefore {streams : StreamRegistry} {id : Uuid} {ts : Nat}
    (cutoff : Nat) (h : registeredAt streams id = some ts) :
    registeredAt (removeConsumedBefore streams cutoff) id = some ts ∨ ts < cutoff := by
  obtain ⟨⟨st, ts'⟩, hsome, rfl⟩ := Option.map_eq_some_iff.mp h
  by_cases hc : ts' ≥ cutoff
  · left
    simp [registeredAt, removeConsumedBefore, hsome, hc]
  · right
    exact Nat.lt_of_not_le hc

/-! ## The master store -/

/-- `MasterStoreEntry`: user name, master key, and the second of the handshake. -/
structure MasterStoreEntry where
  username : Bytes
  master : Bytes
  created : Nat
  deriving DecidableEq, Repr

/-- `master_store`, as its lookup function; a session id is the text of a UUID. -/
abbrev MasterStore := Bytes → Option MasterStoreEntry

/-- `prune_expired_masters`. -/
def pruneExpiredMasters (store : MasterStore) (now : Nat) : MasterStore :=
  fun sessionId => (store sessionId).filter fun entry => !decide (now - entry.created ≥ MASTER_EXPIRY)

theorem pruneExpiredMasters_some {store : MasterStore} {now : Nat} {sessionId : Bytes}
    {entry : MasterStoreEntry} (h : pruneExpiredMasters store now sessionId = some entry) :
    store sessionId = some entry :=
  (Option.filter_eq_some_iff.mp h).1

end Httproxy.Registry
