/-
  A tunnel-opening cookie is accepted at most once.

  The cookie of a tunnel names a session and carries the stream id, encrypted under the session's
  master key.  Whoever records it can present it again; what stands against that is the registry of
  stream ids, and the master store once the registry has forgotten.  The two tables are pruned
  INDEPENDENTLY, so the argument is about times:

  1. **System** — `Server`: the clock, both tables, the sessions issued so far and the LOG of the
     opens that passed.  `step`: a handshake, an open (`spawn_encrypted_tunnel` up to `register`), the
     end of a tunnel or of a failed setup, one tick of the janitor, or time passing.

  2. **The crux (`Guarded`)** — for an open that passed, the entry of its stream id is still in the
     registry with a time no earlier than the handshake, or the session is past its expiry by the
     handler's own comparison.  The janitor can only turn the first into the second, since it
     removes an entry whose time lies strictly before `now - MASTER_EXPIRY`.

  Session ids are fresh v4 UUIDs: a handshake never issues one twice.
-/
import Httproxy.Lib.Machine
import Httproxy.Server.StreamRegistry

namespace Httproxy.Registry

open Machine

/-! ## The system -/

structure Server where
  clock : Nat
  masterStore : MasterStore
  streams : StreamRegistry
  /-- Log: every session id issued, with the second of its handshake. -/
  issued : List (Bytes × Nat)
  /-- Log: the opens that passed both checks. -/
  accepted : List (Bytes × Uuid)

def Server.new (now : Nat) : Server where
  clock := now
  masterStore := fun _ => none
  streams := StreamRegistry.new
  issued := []
  accepted := []

inductive Event where
  /-- Time passes. -/
  | tick (secs : Nat)
  /-- `handle_fresh_handshake` stores a master under a new session id. -/
  | handshake (sessionId username master : Bytes)
  /-- A request presents the cookie of a session with an encrypted stream id. -/
  | openTunnel (sessionId encStreamId : Bytes)
  /-- A tunnel ends, or its setup fails: `mark_consumed`. -/
  | tunnelEnd (id : Uuid)
  /-- One turn of `master_and_stream_janitor`. -/
  | janitor
  deriving DecidableEq

section System

-- `decrypt_bytes` under the cookie key of a master, and `Uuid::from_bytes`
variable (decryptStreamId : Bytes → Bytes → Option Uuid)

/-- `spawn_encrypted_tunnel`, from the lookup of the master to `register`. -/
def openTunnel (sessionId encStreamId : Bytes) (s : Server) : Server :=
  match s.masterStore sessionId with
  | none => s
  | some entry =>
    if s.clock - entry.created > MASTER_EXPIRY then
      { s with masterStore := Function.update s.masterStore sessionId none }
    else match decryptStreamId entry.master encStreamId with
      | none => s
      | some id =>
        match register s.streams id s.clock with
        | (false, _) => s
        | (true, streams) => { s with streams, accepted := s.accepted ++ [(sessionId, id)] }

/-- One turn of `master_and_stream_janitor`. -/
def janitor (s : Server) : Server :=
  { s with
    masterStore := pruneExpiredMasters s.masterStore s.clock
    streams := removeConsumedBefore s.streams (s.clock - MASTER_EXPIRY) }

def step (s : Server) : Event → Option Server
  | .tick secs => some { s with clock := s.clock + secs }
  | .handshake sessionId username master =>
    if sessionId ∈ s.issued.map Prod.fst then none
    else some { s with
      masterStore := Function.update s.masterStore sessionId
        (some { username, master, created := s.clock })
      issued := s.issued ++ [(sessionId, s.clock)] }
  | .openTunnel sessionId encStreamId => some (openTunnel decryptStreamId sessionId encStreamId s)
  | .tunnelEnd id => some { s with streams := markConsumed s.streams id }
  | .janitor => some (janitor s)

/-! ## What an open can do -/

/-- **Inversion.**  An open drops an expired master, is refused, or passes both checks. -/
theorem openTunnel_cases (sessionId encStreamId : Bytes) (s : Server) :
    openTunnel decryptStreamId sessionId encStreamId s = s ∨
    openTunnel decryptStreamId sessionId encStreamId s =
      { s with masterStore := Function.update s.masterStore sessionId none } ∨
    ∃ entry id, s.masterStore sessionId = some entry ∧ s.clock - entry.created ≤ MASTER_EXPIRY ∧
      s.streams id = none ∧
      openTunnel decryptStreamId sessionId encStreamId s =
        { s with
          streams := Function.update s.streams id (some (.active, s.clock))
          accepted := s.accepted ++ [(sessionId, id)] } := by
  rw [openTunnel]
  split
  · exact .inl rfl
  · rename_i entry hentry
    split
    · exact .inr (.inl rfl)
    · rename_i hfresh
      split
      · exact .inl rfl
      · rename_i id hid
        split
        · exact .inl rfl
        · rename_i streams hreg
          obtain ⟨hnone, rfl⟩ := register_eq_true hreg
          exact .inr (.inr ⟨entry, id, hentry, Nat.le_of_not_lt hfresh, hnone, rfl⟩)

/-! ## The invariant -/

/-- A cookie that passed cannot pass again: its stream id is still registered, at a time no earlier
    than the handshake of the session, or the session has expired. -/
def Guarded (s : Server) (created : Nat) (id : Uuid) : Prop :=
  (∃ ts, registeredAt s.streams id = some ts ∧ created ≤ ts) ∨
    s.clock - created > MASTER_EXPIRY

structure Inv (s : Server) : Prop where
  /-- A session id was issued once. -/
  unique : (s.issued.map Prod.fst).Nodup
  /-- A stored master is the one issued under its session id. -/
  stored : ∀ sessionId entry, s.masterStore sessionId = some entry →
    (sessionId, entry.created) ∈ s.issued
  past : ∀ p ∈ s.issued, p.2 ≤ s.clock
  known : ∀ p ∈ s.accepted, p.1 ∈ s.issued.map Prod.fst
  guarded : ∀ p ∈ s.accepted, ∀ created, (p.1, created) ∈ s.issued → Guarded s created p.2
  once : s.accepted.Nodup

theorem inv_new (now : Nat) : Inv (Server.new now) := by
  constructor <;> simp [Server.new]

/-- Two handshakes of one session id are one. -/
theorem Inv.created_unique {s : Server} (h : Inv s) {sessionId : Bytes} {c c' : Nat}
    (hc : (sessionId, c) ∈ s.issued) (hc' : (sessionId, c') ∈ s.issued) : c = c' := by
  have := List.inj_on_of_nodup_map h.unique hc hc' rfl
  exact (Prod.mk.inj this).2

theorem inv_tick {s : Server} (h : Inv s) (secs : Nat) :
    Inv { s with clock := s.clock + secs } := by
  refine { h with past := ?_, guarded := ?_ }
  · intro p hp
    exact Nat.le_add_right_of_le (h.past p hp)
  · intro p hp created hcreated
    rcases h.guarded p hp created hcreated with hreg | hexp
    · exact .inl hreg
    · right
      show s.clock + secs - created > MASTER_EXPIRY
      omega

theorem inv_handshake {s : Server} (h : Inv s) {sessionId : Bytes} (username master : Bytes)
    (hnew : sessionId ∉ s.issued.map Prod.fst) :
    Inv { s with
      masterStore := Function.update s.masterStore sessionId
        (some { username, master, created := s.clock })
      issued := s.issued ++ [(sessionId, s.clock)] } := by
  refine { unique := ?_, stored := ?_, past := ?_, known := ?_, guarded := ?_, once := h.once }
  · show ((s.issued ++ [(sessionId, s.clock)]).map Prod.fst).Nodup
    rw [List.map_append, List.nodup_append]
    refine ⟨h.unique, by simp, ?_⟩
    rintro a ha b hb rfl
    obtain rfl : a = sessionId := by simpa using hb
    exact hnew ha
  · intro sid entry hentry
    by_cases hsid : sid = sessionId
    · subst hsid
      have : entry = { username, master, created := s.clock } := by simpa using hentry.symm
      simp [this]
    · have hold : s.masterStore sid = some entry := by
        simpa [Function.update_of_ne hsid] using hentry
      exact List.mem_append_left _ (h.stored sid entry hold)
  · intro p hp
    rcases List.mem_append.mp hp with hp | hp
    · exact h.past p hp
    · obtain rfl : p = (sessionId, s.clock) := by simpa using hp
      exact Nat.le_refl _
  · intro p hp
    have := h.known p hp
    show p.1 ∈ (s.issued ++ [(sessionId, s.clock)]).map Prod.fst
    rw [List.map_append]
    exact List.mem_append_left _ this
  · intro p hp created hcreated
    rcases List.mem_append.mp hcreated with hold | hlast
    · exact h.guarded p hp created hold
    · -- a cookie of a session that did not exist cannot have passed
      have hsid : p.1 = sessionId := by
        have := List.mem_singleton.mp hlast
        exact (Prod.mk.inj this).1
      exact absurd (hsid ▸ h.known p hp) hnew

theorem inv_janitor {s : Server} (h : Inv s) : Inv (janitor s) := by
  refine { h with stored := ?_, guarded := ?_ }
  · intro sid entry hentry
    exact h.stored sid entry (pruneExpiredMasters_some hentry)
  · intro p hp created hcreated
    rcases h.guarded p hp created hcreated with ⟨ts, hts, hle⟩ | hexp
    · rcases registeredAt_removeConsumedBefore (s.clock - MASTER_EXPIRY) hts with hkeep | hold
      · exact .inl ⟨ts, hkeep, hle⟩
      · -- the entry goes only when its time, and so the handshake, is too old for the handler
        right
        show s.clock - created > MASTER_EXPIRY
        omega
    · exact .inr hexp

theorem inv_tunnelEnd {s : Server} (h : Inv s) (id : Uuid) :
    Inv { s with streams := markConsumed s.streams id } := by
  refine { h with guarded := ?_ }
  intro p hp created hcreated
  show (∃ ts, registeredAt (markConsumed s.streams id) p.2 = some ts ∧ created ≤ ts) ∨ _
  rw [registeredAt_markConsumed]
  exact h.guarded p hp created hcreated

/-- An open that passes both checks was not in the log. -/
theorem Inv.not_accepted {s : Server} (h : Inv s) {sessionId : Bytes} {entry : MasterStoreEntry}
    {id : Uuid} (hentry : s.masterStore sessionId = some entry)
    (hfresh : s.clock - entry.created ≤ MASTER_EXPIRY) (hnone : s.streams id = none) :
    (sessionId, id) ∉ s.accepted := by
  intro hmem
  rcases h.guarded _ hmem entry.created (h.stored _ _ hentry) with ⟨ts, hts, -⟩ | hexp
  · simp [registeredAt, hnone] at hts
  · omega

theorem inv_openTunnel {s : Server} (h : Inv s) (sessionId encStreamId : Bytes) :
    Inv (openTunnel decryptStreamId sessionId encStreamId s) := by
  rcases openTunnel_cases decryptStreamId sessionId encStreamId s with
    heq | heq | ⟨entry, id, hentry, hfresh, hnone, heq⟩
  · rw [heq]
    exact h
  · rw [heq]
    refine { h with stored := ?_ }
    intro sid entry hentry
    by_cases hsid : sid = sessionId
    · subst hsid
      simp at hentry
    · exact h.stored sid entry (by simpa [Function.update_of_ne hsid] using hentry)
  · rw [heq]
    have hissued := h.stored _ _ hentry
    refine { h with known := ?_, guarded := ?_, once := ?_ }
    · intro p hp
      rcases List.mem_append.mp hp with hp | hp
      · exact h.known p hp
      · obtain rfl : p = (sessionId, id) := by simpa using hp
        exact List.mem_map_of_mem hissued
    · intro p hp created hcreated
      by_cases hid : p.2 = id
      · -- the id has just been registered, and every handshake lies in the past
        left
        exact ⟨s.clock, by simp [registeredAt, hid], h.past _ hcreated⟩
      · have hold : p ∈ s.accepted := by
          rcases List.mem_append.mp hp with hp | hp
          · exact hp
          · exact absurd (congrArg Prod.snd (List.mem_singleton.mp hp)) hid
        rcases h.guarded p hold created hcreated with ⟨ts, hts, hle⟩ | hexp
        · left
          exact ⟨ts, by simpa [registeredAt, Function.update_of_ne hid] using hts, hle⟩
        · exact .inr hexp
    · show (s.accepted ++ [(sessionId, id)]).Nodup
      rw [List.nodup_append]
      refine ⟨h.once, by simp, ?_⟩
      rintro a ha b hb rfl
      obtain rfl : a = (sessionId, id) := by simpa using hb
      exact h.not_accepted hentry hfresh hnone ha

/-- **One step keeps the invariant.** -/
theorem inv_step {s s' : Server} {e : Event} (h : Inv s)
    (hstep : step decryptStreamId s e = some s') : Inv s' := by
  cases e with
  | tick secs =>
    obtain rfl : _ = s' := Option.some.inj hstep
    exact inv_tick h secs
  | handshake sessionId username master =>
    rw [step, Option.ite_none_left_eq_some] at hstep
    obtain ⟨hnew, heq⟩ := hstep
    obtain rfl : _ = s' := Option.some.inj heq
    exact inv_handshake h username master hnew
  | openTunnel sessionId encStreamId =>
    obtain rfl : _ = s' := Option.some.inj hstep
    exact inv_openTunnel decryptStreamId h sessionId encStreamId
  | tunnelEnd id =>
    obtain rfl : _ = s' := Option.some.inj hstep
    exact inv_tunnelEnd h id
  | janitor =>
    obtain rfl : _ = s' := Option.some.inj hstep
    exact inv_janitor h

/-- **No cookie is accepted twice.**  In every run from an empty server, for every session and every
    stream id, at most one open passes the age check of the master and `register`. -/
theorem cookie_accepted_at_most_once (now : Nat) (es : List Event) (s : Server)
    (hrun : run (step decryptStreamId) (Server.new now) es = some s) (sessionId : Bytes) (id : Uuid) :
    s.accepted.count (sessionId, id) ≤ 1 := by
  have hinv : Inv s :=
    run_invariant (fun _ _ _ h hstep => inv_step decryptStreamId h hstep) es _ _ (inv_new now) hrun
  exact List.nodup_iff_count_le_one.mp hinv.once _

end System

/-- The cookie of the demonstration carries its stream id in the clear. -/
def plainStreamId (_master encStreamId : Bytes) : Option Uuid := Uuid.ofBytes encStreamId

/-- A replay at the last second of the session, when its stream is consumed, and one after the
    janitor has forgotten both. -/
def replayEvents : List Event :=
  [.handshake [1] [] [], .openTunnel [1] (List.replicate 16 0), .tunnelEnd ⟨List.replicate 16 0, rfl⟩,
   .tick 1200, .openTunnel [1] (List.replicate 16 0),
   .tick 1, .janitor, .openTunnel [1] (List.replicate 16 0)]

theorem cookie_accepted_at_most_once_demo :
    ∃ s, run (step plainStreamId) (Server.new 5) replayEvents = some s ∧
      s.accepted.count ([1], ⟨List.replicate 16 0, rfl⟩) = 1 ∧
      s.accepted.count ([1], ⟨List.replicate 16 0, rfl⟩) ≤ 1 := by
  refine ⟨_, rfl, ?_, cookie_accepted_at_most_once plainStreamId 5 replayEvents _ rfl _ _⟩
  decide

end Httproxy.Registry
