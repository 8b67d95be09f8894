/-
  Tickets and handshakes of concurrent connections (`ClientPqFsm` in `src/client/state.rs`, with the end
  of `perform_pq_handshake` and the answer to `try_pq_connect` in `src/client/handshake.rs`).

  All connections share `initial_master`, the ticket of the last handshake, and `handshake_lock`.

  1. **Tasks** — a connection is a task of the shared state, and `act` is what it does between two
     points at which others may run: it loads the ticket (BEFORE the lock, and again under it), gets an
     answer of the server, invalidates a rejected ticket, takes the lock, or stores a new one.

  2. **Specification (`Proper`)** — a step that ends a connection: it returns `RehandshakeRequired` only
     for a ticket of its own handshake, and no ticket that was rejected on it is in `initial_master`.
     No rejection takes away a ticket with another session id.

  3. **The crux (`Local`)** — a rejected session id is out of `initial_master` for good once it was
     invalidated, because the server makes a new one for every handshake.  That id is known to the one
     connection that holds the lock until it is stored.

  4. **The defect** — only the load before the lock has a fallback.  A ticket that is loaded under the
     lock (another connection's) or made there may be rejected too: then the connection fails, and the
     ticket stays.  `stale_ticket_iff` is the exact condition.
-/
import Httproxy.Client.Handshake
import Httproxy.Lib.Tasks

namespace Httproxy.Resumption

open Machine Handshake

def MASTER_RESUME_WINDOW_SECS : Nat := 1170

/-! ## Shared state -/

/-- `InitialMasterEntry`. -/
structure InitialMasterEntry where
  ticket : PqSessionTicket
  created : Nat
  deriving DecidableEq

/-- The part of `SharedState` that changes. -/
structure Shared where
  initialMaster : Option InitialMasterEntry
  /-- The connection that holds `handshake_lock`. -/
  handshakeLock : Option Nat
  /-- The session ids that the server has given out, and those that were stored. -/
  issued : List Bytes
  stored : List Bytes
  deriving DecidableEq

/-- The session id in `initial_master`. -/
def Shared.held (g : Shared) : Option Bytes := g.initialMaster.map fun e => e.ticket.sessionId

/-- `ticket_is_valid`. -/
def ticketIsValid (created now : Nat) : Bool := decide (now - created < MASTER_RESUME_WINDOW_SECS)

/-- `load_and_validate_ticket`. -/
def loadAndValidateTicket (master : Option InitialMasterEntry) (now : Nat) :
    Option PqSessionTicket × Option InitialMasterEntry :=
  match master with
  | none => (none, none)
  | some entry =>
    if ticketIsValid entry.created now then (some entry.ticket, some entry) else (none, none)

/-- `invalidate_stale_master`. -/
def invalidateStaleMaster (master : Option InitialMasterEntry) (rejectedSid : Bytes) :
    Option InitialMasterEntry :=
  match master with
  | none => none
  | some entry => if entry.ticket.sessionId = rejectedSid then none else some entry

/-! ## Connections -/

/-- What `run` returns; `RehandshakeRequired` with the session id it is about. -/
inductive Outcome where
  | ok
  | rehandshakeRequired (sid : Bytes)
  | failed
  deriving DecidableEq

/-- Where a connection is. -/
inductive Phase where
  /-- Before `ClientPqFsm::new`. -/
  | start
  /-- `Resuming`: `try_pq_connect` is under way. -/
  | resuming (ticket : PqSessionTicket)
  /-- Its ticket was answered with 428. -/
  | rejected (ticket : PqSessionTicket)
  /-- `Handshaking`: it waits for `handshake_lock`. -/
  | waiting
  | locked
  /-- `perform_pq_handshake` is under way. -/
  | handshake
  /-- The ServerHello is there, and `initial_master` is awaited. -/
  | storing (ticket : PqSessionTicket)
  /-- `try_pq_connect` behind the lock. -/
  | connecting (ticket : PqSessionTicket)
  | ended (outcome : Outcome)
  deriving DecidableEq

/-- A connection, with the session ids that were rejected on it and those it made itself. -/
structure Conn where
  phase : Phase
  rejected : List Bytes
  own : List Bytes
  deriving DecidableEq

/-- How `try_pq_connect` returns: its tunnel is over, the server wants a handshake (428), or anything
    else failed. -/
inductive Connected where
  | ok
  | rehandshake
  | failed
  deriving DecidableEq

inductive Action where
  /-- `ClientPqFsm::new`. -/
  | load (now : Nat)
  | resume (answer : Connected)
  | invalidate
  | lock
  | loadLocked (now : Nat)
  /-- The server's answer to the handshake. -/
  | handshake (ticket : Option PqSessionTicket)
  | store (now : Nat)
  | connect (answer : Connected)
  deriving DecidableEq

/-- What connection `c` does.  The server never gives out a session id twice. -/
def act (g : Shared) (c : Nat) (conn : Conn) : Action → Option (Shared × Conn)
  | .load now =>
    match conn.phase with
    | .start =>
      let (ticket, initialMaster) := loadAndValidateTicket g.initialMaster now
      let g := { g with initialMaster }
      match ticket with
      | some ticket => some (g, { conn with phase := .resuming ticket })
      | none => some (g, { conn with phase := .waiting })
    | _ => none
  | .resume answer =>
    match conn.phase with
    | .resuming ticket =>
      match answer with
      | .ok => some (g, { conn with phase := .ended .ok })
      | .rehandshake =>
        some (g, { conn with
          phase := .rejected ticket, rejected := ticket.sessionId :: conn.rejected })
      | .failed => some (g, { conn with phase := .ended .failed })
    | _ => none
  | .invalidate =>
    match conn.phase with
    | .rejected ticket =>
      some ({ g with initialMaster := invalidateStaleMaster g.initialMaster ticket.sessionId },
        { conn with phase := .waiting })
    | _ => none
  | .lock =>
    match conn.phase with
    | .waiting =>
      if g.handshakeLock = none then
        some ({ g with handshakeLock := some c }, { conn with phase := .locked })
      else none
    | _ => none
  | .loadLocked now =>
    match conn.phase with
    | .locked =>
      let (ticket, initialMaster) := loadAndValidateTicket g.initialMaster now
      let g := { g with initialMaster }
      match ticket with
      | some ticket =>
        some ({ g with handshakeLock := none }, { conn with phase := .connecting ticket })
      | none => some (g, { conn with phase := .handshake })
    | _ => none
  | .handshake answer =>
    match conn.phase with
    | .handshake =>
      match answer with
      | none => some ({ g with handshakeLock := none }, { conn with phase := .ended .failed })
      | some ticket =>
        if ticket.sessionId ∈ g.issued then none
        else some ({ g with issued := ticket.sessionId :: g.issued },
          { conn with phase := .storing ticket })
    | _ => none
  | .store now =>
    match conn.phase with
    | .storing ticket =>
      some ({ g with
          initialMaster := some ⟨ticket, now⟩
          handshakeLock := none
          stored := ticket.sessionId :: g.stored },
        { conn with phase := .connecting ticket, own := ticket.sessionId :: conn.own })
    | _ => none
  | .connect answer =>
    match conn.phase with
    | .connecting ticket =>
      match answer with
      | .ok => some (g, { conn with phase := .ended .ok })
      | .rehandshake =>
        some (g, { conn with
          phase := .ended (.rehandshakeRequired ticket.sessionId)
          rejected := ticket.sessionId :: conn.rejected })
      | .failed => some (g, { conn with phase := .ended .failed })
    | _ => none

abbrev State : Type := Tasks.State Shared Nat Conn
abbrev Event : Type := Nat × Action

def step : State → Event → Option State := Tasks.step act

/-- No ticket, and no connection yet. -/
def init : State := ⟨⟨none, none, [], []⟩, fun _ => ⟨.start, [], []⟩⟩

/-! ## Specification -/

/-- The step ends connection `d` with `outcome`. -/
def Ends (s t : State) (d : Nat) (outcome : Outcome) : Prop :=
  (∀ o, (s.tasks d).phase ≠ .ended o) ∧ (t.tasks d).phase = .ended outcome

/-- The session id of the 428 that a step receives or acts upon. -/
def rejecting (conn : Conn) (a : Action) : Option Bytes :=
  match a, conn.phase with
  | .resume .rehandshake, .resuming ticket => some ticket.sessionId
  | .invalidate, .rejected ticket => some ticket.sessionId
  | .connect .rehandshake, .connecting ticket => some ticket.sessionId
  | _, _ => none

/-- What a step of a connection should be. -/
structure Proper (s : State) (e : Event) (t : State) : Prop where
  own : ∀ d sid, Ends s t d (.rehandshakeRequired sid) → sid ∈ (t.tasks d).own
  gone : ∀ d outcome, Ends s t d outcome → ∀ sid ∈ (t.tasks d).rejected, t.shared.held ≠ some sid
  kept : ∀ sid entry, rejecting (s.tasks e.1) e.2 = some sid →
    s.shared.initialMaster = some entry → entry.ticket.sessionId ≠ sid →
    t.shared.initialMaster = some entry

/-- A 428 behind the lock is about a ticket of the connection's own handshake, and `initial_master` has
    lost it in the meantime. -/
def Harmless (g : Shared) (conn : Conn) (a : Action) : Prop :=
  match a, conn.phase with
  | .connect .rehandshake, .connecting ticket =>
    ticket.sessionId ∈ conn.own ∧ g.held ≠ some ticket.sessionId
  | _, _ => True

/-! ## What a connection can do -/

theorem loadAndValidateTicket_some {master : Option InitialMasterEntry} {now : Nat}
    {ticket : PqSessionTicket} (h : (loadAndValidateTicket master now).1 = some ticket) :
    ∃ entry, master = some entry ∧ entry.ticket = ticket ∧
      (loadAndValidateTicket master now).2 = some entry := by
  unfold loadAndValidateTicket at h ⊢
  cases master with
  | none => cases h
  | some entry =>
    dsimp only at h ⊢
    split at h
    · rename_i hvalid
      exact ⟨entry, rfl, Option.some.inj h, by rw [if_pos hvalid]⟩
    · cases h

theorem loadAndValidateTicket_none {master : Option InitialMasterEntry} {now : Nat}
    (h : (loadAndValidateTicket master now).1 = none) :
    (loadAndValidateTicket master now).2 = none := by
  unfold loadAndValidateTicket at h ⊢
  cases master with
  | none => rfl
  | some entry =>
    dsimp only at h ⊢
    split at h
    · cases h
    · rename_i hexpired
      rw [if_neg hexpired]

/-- Everything a connection can do, its guards included. -/
inductive Acts (g : Shared) (c : Nat) (conn : Conn) : Action → Shared → Conn → Prop where
  | load (now : Nat) (entry : InitialMasterEntry) (hstart : conn.phase = .start)
      (hheld : g.initialMaster = some entry) :
      Acts g c conn (.load now) g { conn with phase := .resuming entry.ticket }
  | noTicket (now : Nat) (hstart : conn.phase = .start) :
      Acts g c conn (.load now) { g with initialMaster := none } { conn with phase := .waiting }
  | resumed (answer : Connected) (outcome : Outcome) (ticket : PqSessionTicket)
      (hphase : conn.phase = .resuming ticket) (hanswer : answer ≠ .rehandshake)
      (houtcome : ∀ sid, outcome ≠ .rehandshakeRequired sid) :
      Acts g c conn (.resume answer) g { conn with phase := .ended outcome }
  | stale (ticket : PqSessionTicket) (hphase : conn.phase = .resuming ticket) :
      Acts g c conn (.resume .rehandshake) g
        { conn with phase := .rejected ticket, rejected := ticket.sessionId :: conn.rejected }
  | invalidate (ticket : PqSessionTicket) (hphase : conn.phase = .rejected ticket) :
      Acts g c conn .invalidate
        { g with initialMaster := invalidateStaleMaster g.initialMaster ticket.sessionId }
        { conn with phase := .waiting }
  | lock (hphase : conn.phase = .waiting) (hfree : g.handshakeLock = none) :
      Acts g c conn .lock { g with handshakeLock := some c } { conn with phase := .locked }
  | loadLocked (now : Nat) (entry : InitialMasterEntry) (hphase : conn.phase = .locked)
      (hheld : g.initialMaster = some entry) :
      Acts g c conn (.loadLocked now) { g with handshakeLock := none }
        { conn with phase := .connecting entry.ticket }
  | noTicketLocked (now : Nat) (hphase : conn.phase = .locked) :
      Acts g c conn (.loadLocked now) { g with initialMaster := none }
        { conn with phase := .handshake }
  | handshakeFailed (hphase : conn.phase = .handshake) :
      Acts g c conn (.handshake none) { g with handshakeLock := none }
        { conn with phase := .ended .failed }
  | handshake (ticket : PqSessionTicket) (hphase : conn.phase = .handshake)
      (hnew : ticket.sessionId ∉ g.issued) :
      Acts g c conn (.handshake (some ticket)) { g with issued := ticket.sessionId :: g.issued }
        { conn with phase := .storing ticket }
  | store (now : Nat) (ticket : PqSessionTicket) (hphase : conn.phase = .storing ticket) :
      Acts g c conn (.store now)
        { g with
          initialMaster := some ⟨ticket, now⟩
          handshakeLock := none
          stored := ticket.sessionId :: g.stored }
        { conn with phase := .connecting ticket, own := ticket.sessionId :: conn.own }
  | connected (answer : Connected) (outcome : Outcome) (ticket : PqSessionTicket)
      (hphase : conn.phase = .connecting ticket) (hanswer : answer ≠ .rehandshake)
      (houtcome : ∀ sid, outcome ≠ .rehandshakeRequired sid) :
      Acts g c conn (.connect answer) g { conn with phase := .ended outcome }
  | staleLocked (ticket : PqSessionTicket) (hphase : conn.phase = .connecting ticket) :
      Acts g c conn (.connect .rehandshake) g
        { conn with
          phase := .ended (.rehandshakeRequired ticket.sessionId)
          rejected := ticket.sessionId :: conn.rejected }

/-- What a load under either name comes to. -/
theorem load_cases (g : Shared) (now : Nat) :
    (∃ entry, g.initialMaster = some entry ∧
      loadAndValidateTicket g.initialMaster now = (some entry.ticket, g.initialMaster)) ∨
    loadAndValidateTicket g.initialMaster now = (none, none) := by
  cases hload : (loadAndValidateTicket g.initialMaster now).1 with
  | none => exact .inr (Prod.ext hload (loadAndValidateTicket_none hload))
  | some ticket =>
    obtain ⟨entry, hheld, rfl, hsame⟩ := loadAndValidateTicket_some hload
    exact .inl ⟨entry, hheld, Prod.ext hload (hsame.trans hheld.symm)⟩

theorem acts_of_act {g g' : Shared} {c : Nat} {conn conn' : Conn} {a : Action}
    (h : act g c conn a = some (g', conn')) : Acts g c conn a g' conn' := by
  cases a with
  | load now =>
    rw [act] at h
    split at h
    · rename_i hstart
      rcases load_cases g now with ⟨entry, hheld, hload⟩ | hload
      · rw [hload] at h
        obtain ⟨rfl, rfl⟩ := Prod.mk.inj (Option.some.inj h)
        exact .load now entry hstart hheld
      · rw [hload] at h
        obtain ⟨rfl, rfl⟩ := Prod.mk.inj (Option.some.inj h)
        exact .noTicket now hstart
    · cases h
  | resume answer =>
    rw [act] at h
    split at h
    · rename_i ticket hphase
      cases answer with
      | ok =>
        obtain ⟨rfl, rfl⟩ := Prod.mk.inj (Option.some.inj h)
        exact .resumed .ok .ok ticket hphase (by simp) (by simp)
      | rehandshake =>
        obtain ⟨rfl, rfl⟩ := Prod.mk.inj (Option.some.inj h)
        exact .stale ticket hphase
      | failed =>
        obtain ⟨rfl, rfl⟩ := Prod.mk.inj (Option.some.inj h)
        exact .resumed .failed .failed ticket hphase (by simp) (by simp)
    · cases h
  | invalidate =>
    rw [act] at h
    split at h
    · rename_i ticket hphase
      obtain ⟨rfl, rfl⟩ := Prod.mk.inj (Option.some.inj h)
      exact .invalidate ticket hphase
    · cases h
  | lock =>
    rw [act] at h
    split at h
    · rename_i hphase
      split at h
      · rename_i hfree
        obtain ⟨rfl, rfl⟩ := Prod.mk.inj (Option.some.inj h)
        exact .lock hphase hfree
      · cases h
    · cases h
  | loadLocked now =>
    rw [act] at h
    split at h
    · rename_i hphase
      rcases load_cases g now with ⟨entry, hheld, hload⟩ | hload
      · rw [hload] at h
        obtain ⟨rfl, rfl⟩ := Prod.mk.inj (Option.some.inj h)
        exact .loadLocked now entry hphase hheld
      · rw [hload] at h
        obtain ⟨rfl, rfl⟩ := Prod.mk.inj (Option.some.inj h)
        exact .noTicketLocked now hphase
    · cases h
  | handshake answer =>
    unfold act at h
    dsimp only at h
    split at h
    · rename_i hphase
      cases answer with
      | none =>
        obtain ⟨rfl, rfl⟩ := Prod.mk.inj (Option.some.inj h)
        exact .handshakeFailed hphase
      | some ticket =>
        dsimp only at h
        split at h
        · cases h
        · rename_i hnew
          obtain ⟨rfl, rfl⟩ := Prod.mk.inj (Option.some.inj h)
          exact .handshake ticket hphase hnew
    · cases h
  | store now =>
    rw [act] at h
    split at h
    · rename_i ticket hphase
      obtain ⟨rfl, rfl⟩ := Prod.mk.inj (Option.some.inj h)
      exact .store now ticket hphase
    · cases h
  | connect answer =>
    rw [act] at h
    split at h
    · rename_i ticket hphase
      cases answer with
      | ok =>
        obtain ⟨rfl, rfl⟩ := Prod.mk.inj (Option.some.inj h)
        exact .connected .ok .ok ticket hphase (by simp) (by simp)
      | rehandshake =>
        obtain ⟨rfl, rfl⟩ := Prod.mk.inj (Option.some.inj h)
        exact .staleLocked ticket hphase
      | failed =>
        obtain ⟨rfl, rfl⟩ := Prod.mk.inj (Option.some.inj h)
        exact .connected .failed .failed ticket hphase (by simp) (by simp)
    · cases h

/-! ## The invariant -/

/-- The phases under `handshake_lock`. -/
def Phase.inLock : Phase → Bool
  | .locked | .handshake | .storing _ => true
  | .start | .resuming _ | .rejected _ | .waiting | .connecting _ | .ended _ => false

/-- The ticket that a connection works with. -/
def Phase.ticket : Phase → Option PqSessionTicket
  | .resuming ticket | .rejected ticket | .connecting ticket => some ticket
  | .start | .waiting | .locked | .handshake | .storing _ | .ended _ => none

structure Global (g : Shared) : Prop where
  held : ∀ sid, g.held = some sid → sid ∈ g.stored
  issued : ∀ sid ∈ g.stored, sid ∈ g.issued

structure Local (g : Shared) (c : Nat) (conn : Conn) : Prop where
  lock : conn.phase.inLock = true → g.handshakeLock = some c
  known : ∀ ticket, conn.phase.ticket = some ticket → ticket.sessionId ∈ g.stored
  storing : ∀ ticket, conn.phase = .storing ticket →
    ticket.sessionId ∈ g.issued ∧ ticket.sessionId ∉ g.stored
  rejected : ∀ sid ∈ conn.rejected, sid ∈ g.stored
  /-- What was rejected is gone, unless it is still to be invalidated. -/
  gone : (∀ o, conn.phase ≠ .ended o) → ∀ sid ∈ conn.rejected,
    (∀ ticket, conn.phase = .rejected ticket → ticket.sessionId ≠ sid) → g.held ≠ some sid

/-- What the others may rely on when connection `c` acts. -/
structure Rely (c : Nat) (g g' : Shared) : Prop where
  lock : ∀ d, d ≠ c → g.handshakeLock = some d → g'.handshakeLock = some d
  stored : ∀ sid ∈ g.stored, sid ∈ g'.stored
  issued : ∀ sid ∈ g.issued, sid ∈ g'.issued
  newly_stored : ∀ sid ∈ g'.stored, sid ∈ g.stored ∨ g.handshakeLock = some c
  /-- `initial_master` gets nothing that was there before. -/
  held : ∀ sid, g'.held = some sid → g.held = some sid ∨ sid ∉ g.stored

theorem held_invalidated {master : Option InitialMasterEntry} {rejectedSid sid : Bytes}
    (h : (invalidateStaleMaster master rejectedSid).map (fun e => e.ticket.sessionId) = some sid) :
    master.map (fun e => e.ticket.sessionId) = some sid ∧ sid ≠ rejectedSid := by
  unfold invalidateStaleMaster at h
  cases master with
  | none => cases h
  | some entry =>
    dsimp only at h
    split at h
    · cases h
    · rename_i hne
      refine ⟨h, ?_⟩
      rintro rfl
      exact hne (Option.some.inj h)

theorem Shared.held_some {g : Shared} {entry : InitialMasterEntry}
    (h : g.initialMaster = some entry) : g.held = some entry.ticket.sessionId := by
  rw [held, h]
  rfl

theorem Rely.refl (c : Nat) (g : Shared) : Rely c g g :=
  ⟨fun _ _ h => h, fun _ h => h, fun _ h => h, fun _ h => .inl h, fun _ h => .inl h⟩

theorem rely_of_acts {g g' : Shared} {c : Nat} {conn conn' : Conn} {a : Action}
    (hlocal : Local g c conn) (h : Acts g c conn a g' conn') : Rely c g g' := by
  -- who is under the lock has it, and nobody else
  have hmine : conn.phase.inLock = true → ∀ d, d ≠ c → g.handshakeLock ≠ some d := by
    intro hin d hd hheld
    exact hd (Option.some.inj (hheld.symm.trans (hlocal.lock hin)))
  cases h with
  | load => exact Rely.refl c g
  | noTicket =>
    exact ⟨fun _ _ h => h, fun _ h => h, fun _ h => h, fun _ h => .inl h, fun _ h => by cases h⟩
  | resumed => exact Rely.refl c g
  | stale => exact Rely.refl c g
  | invalidate =>
    exact ⟨fun _ _ h => h, fun _ h => h, fun _ h => h, fun _ h => .inl h,
      fun _ h => .inl (held_invalidated h).1⟩
  | lock hphase hfree =>
    refine ⟨fun d _ h => ?_, fun _ h => h, fun _ h => h, fun _ h => .inl h, fun _ h => .inl h⟩
    rw [hfree] at h
    cases h
  | loadLocked now entry hphase =>
    exact ⟨fun d hd h => absurd h (hmine (by rw [hphase]; rfl) d hd), fun _ h => h, fun _ h => h,
      fun _ h => .inl h, fun _ h => .inl h⟩
  | noTicketLocked =>
    exact ⟨fun _ _ h => h, fun _ h => h, fun _ h => h, fun _ h => .inl h, fun _ h => by cases h⟩
  | handshakeFailed hphase =>
    exact ⟨fun d hd h => absurd h (hmine (by rw [hphase]; rfl) d hd), fun _ h => h, fun _ h => h,
      fun _ h => .inl h, fun _ h => .inl h⟩
  | handshake =>
    exact ⟨fun _ _ h => h, fun _ h => h, fun _ h => List.mem_cons_of_mem _ h, fun _ h => .inl h,
      fun _ h => .inl h⟩
  | store now ticket hphase =>
    have hin : conn.phase.inLock = true := by
      rw [hphase]
      rfl
    refine ⟨fun d hd h => absurd h (hmine hin d hd), fun _ h => List.mem_cons_of_mem _ h,
      fun _ h => h, fun _ _ => .inr (hlocal.lock hin), fun sid h => .inr ?_⟩
    -- the stored ticket is new
    obtain rfl := Option.some.inj h
    exact (hlocal.storing ticket hphase).2
  | connected => exact Rely.refl c g
  | staleLocked => exact Rely.refl c g

/-- **No connection disturbs another.** -/
theorem Local.stable {g g' : Shared} {c d : Nat} {conn : Conn} (hlocal : Local g d conn)
    (hd : d ≠ c) (h : Rely c g g') : Local g' d conn where
  lock hin := h.lock d hd (hlocal.lock hin)
  known ticket hticket := h.stored _ (hlocal.known ticket hticket)
  storing ticket hphase := by
    obtain ⟨hissued, hnew⟩ := hlocal.storing ticket hphase
    refine ⟨h.issued _ hissued, fun hstored => ?_⟩
    rcases h.newly_stored _ hstored with hold | hlock
    · exact hnew hold
    · -- both would hold the lock
      have hmine := hlocal.lock (by rw [hphase]; rfl)
      exact hd (Option.some.inj (hmine.symm.trans hlock))
  rejected sid hmem := h.stored _ (hlocal.rejected sid hmem)
  gone hrun sid hmem hdying hheld := by
    rcases h.held sid hheld with hold | hnew
    · exact hlocal.gone hrun sid hmem hdying hold
    · exact hnew (hlocal.rejected sid hmem)

theorem global_of_acts {g g' : Shared} {c : Nat} {conn conn' : Conn} {a : Action}
    (hg : Global g) (hlocal : Local g c conn) (h : Acts g c conn a g' conn') : Global g' := by
  cases h with
  | load => exact hg
  | noTicket => exact ⟨fun _ h => (by cases h), hg.issued⟩
  | resumed => exact hg
  | stale => exact hg
  | invalidate => exact ⟨fun sid h => hg.held sid (held_invalidated h).1, hg.issued⟩
  | lock => exact ⟨hg.held, hg.issued⟩
  | loadLocked => exact ⟨hg.held, hg.issued⟩
  | noTicketLocked => exact ⟨fun _ h => (by cases h), hg.issued⟩
  | handshakeFailed => exact ⟨hg.held, hg.issued⟩
  | handshake => exact ⟨hg.held, fun sid h => List.mem_cons_of_mem _ (hg.issued sid h)⟩
  | store now ticket hphase =>
    constructor
    · intro sid h
      obtain rfl := Option.some.inj h
      exact List.mem_cons_self
    · intro sid h
      rcases List.mem_cons.mp h with rfl | h
      · exact (hlocal.storing ticket hphase).1
      · exact hg.issued sid h
  | connected => exact hg
  | staleLocked => exact hg

/-- In a phase that is neither `rejected` nor `ended`, everything rejected is gone. -/
theorem Local.gone_of {g : Shared} {c : Nat} {conn : Conn} (h : Local g c conn)
    (hrun : ∀ o, conn.phase ≠ .ended o) (hrej : ∀ ticket, conn.phase ≠ .rejected ticket) :
    ∀ sid ∈ conn.rejected, g.held ≠ some sid :=
  fun sid hmem => h.gone hrun sid hmem fun ticket hphase => absurd hphase (hrej ticket)

theorem local_of_acts {g g' : Shared} {c : Nat} {conn conn' : Conn} {a : Action}
    (hg : Global g) (hlocal : Local g c conn) (h : Acts g c conn a g' conn') : Local g' c conn' := by
  have hrely := rely_of_acts hlocal h
  have hrejected : ∀ sid ∈ conn.rejected, sid ∈ g'.stored :=
    fun sid hmem => hrely.stored sid (hlocal.rejected sid hmem)
  -- what was gone does not come back
  have hgone : (∀ o, conn.phase ≠ .ended o) → (∀ ticket, conn.phase ≠ .rejected ticket) →
      ∀ sid ∈ conn.rejected, g'.held ≠ some sid := by
    intro hrun hrej sid hmem hheld
    rcases hrely.held sid hheld with hold | hnew
    · exact hlocal.gone_of hrun hrej sid hmem hold
    · exact hnew (hlocal.rejected sid hmem)
  cases h with
  | load now entry hstart hheld =>
    refine ⟨by rintro ⟨⟩, ?_, by rintro _ ⟨⟩, hrejected, ?_⟩
    · intro ticket hticket
      obtain rfl := Option.some.inj hticket
      exact hg.held _ (Shared.held_some hheld)
    · exact fun _ sid hmem _ => hgone (by simp [hstart]) (by simp [hstart]) sid hmem
  | noTicket now hstart =>
    exact ⟨by rintro ⟨⟩, by rintro _ ⟨⟩, by rintro _ ⟨⟩, hrejected,
      fun _ sid hmem _ => hgone (by simp [hstart]) (by simp [hstart]) sid hmem⟩
  | resumed answer outcome ticket hphase =>
    exact ⟨by rintro ⟨⟩, by rintro _ ⟨⟩, by rintro _ ⟨⟩, hrejected,
      fun hrun => absurd rfl (hrun outcome)⟩
  | stale ticket hphase =>
    -- its ticket is rejected, and gone only when it is invalidated
    have hknown := hlocal.known ticket (by rw [hphase]; rfl)
    refine ⟨by rintro ⟨⟩, ?_, by rintro _ ⟨⟩, ?_, ?_⟩
    · intro ticket' hticket
      obtain rfl := Option.some.inj hticket
      exact hknown
    · intro sid hmem
      rcases List.mem_cons.mp hmem with rfl | hmem
      · exact hknown
      · exact hrejected sid hmem
    · intro _ sid hmem hdying
      rcases List.mem_cons.mp hmem with rfl | hmem
      · exact absurd rfl (hdying ticket rfl)
      · exact hgone (by simp [hphase]) (by simp [hphase]) sid hmem
  | invalidate ticket hphase =>
    refine ⟨by rintro ⟨⟩, by rintro _ ⟨⟩, by rintro _ ⟨⟩, hrejected, ?_⟩
    intro _ sid hmem _ hheld
    -- what is still held is not the ticket of the 428
    obtain ⟨hold, hne⟩ := held_invalidated hheld
    refine hlocal.gone (by simp [hphase]) sid hmem ?_ hold
    intro ticket' hphase'
    rw [hphase] at hphase'
    obtain rfl := Phase.rejected.inj hphase'
    exact hne.symm
  | lock hphase hfree =>
    exact ⟨fun _ => rfl, by rintro _ ⟨⟩, by rintro _ ⟨⟩, hrejected,
      fun _ sid hmem _ => hgone (by simp [hphase]) (by simp [hphase]) sid hmem⟩
  | loadLocked now entry hphase hheld =>
    refine ⟨by rintro ⟨⟩, ?_, by rintro _ ⟨⟩, hrejected,
      fun _ sid hmem _ => hgone (by simp [hphase]) (by simp [hphase]) sid hmem⟩
    intro ticket hticket
    obtain rfl := Option.some.inj hticket
    exact hg.held _ (Shared.held_some hheld)
  | noTicketLocked now hphase =>
    exact ⟨fun _ => hlocal.lock (by rw [hphase]; rfl), by rintro _ ⟨⟩, by rintro _ ⟨⟩, hrejected,
      fun _ sid hmem _ => hgone (by simp [hphase]) (by simp [hphase]) sid hmem⟩
  | handshakeFailed hphase =>
    exact ⟨by rintro ⟨⟩, by rintro _ ⟨⟩, by rintro _ ⟨⟩, hrejected,
      fun hrun => absurd rfl (hrun .failed)⟩
  | handshake ticket hphase hnew =>
    refine ⟨fun _ => hlocal.lock (by rw [hphase]; rfl), by rintro _ ⟨⟩, ?_, hrejected,
      fun _ sid hmem _ => hgone (by simp [hphase]) (by simp [hphase]) sid hmem⟩
    -- stored ids were issued before, and this one was not
    intro ticket' hphase'
    obtain rfl := Phase.storing.inj hphase'
    exact ⟨List.mem_cons_self, fun hstored => hnew (hg.issued _ hstored)⟩
  | store now ticket hphase =>
    refine ⟨by rintro ⟨⟩, ?_, by rintro _ ⟨⟩, hrejected,
      fun _ sid hmem _ => hgone (by simp [hphase]) (by simp [hphase]) sid hmem⟩
    intro ticket' hticket
    obtain rfl := Option.some.inj hticket
    exact List.mem_cons_self
  | connected answer outcome ticket hphase =>
    exact ⟨by rintro ⟨⟩, by rintro _ ⟨⟩, by rintro _ ⟨⟩, hrejected,
      fun hrun => absurd rfl (hrun outcome)⟩
  | staleLocked ticket hphase =>
    refine ⟨by rintro ⟨⟩, by rintro _ ⟨⟩, by rintro _ ⟨⟩, ?_, fun hrun => absurd rfl (hrun _)⟩
    intro sid hmem
    rcases List.mem_cons.mp hmem with rfl | hmem
    · exact hlocal.known ticket (by rw [hphase]; rfl)
    · exact hrejected sid hmem

/-- The invariant of all connections. -/
abbrev Inv : State → Prop := Tasks.Inv Global Local

theorem inv_init : Inv init where
  shared := ⟨by rintro _ ⟨⟩, by rintro _ ⟨⟩⟩
  tasks _ := ⟨by rintro ⟨⟩, by rintro _ ⟨⟩, by rintro _ ⟨⟩, by rintro _ ⟨⟩, by rintro _ _ ⟨⟩⟩

theorem inv_step (s : State) (e : Event) (t : State) (hs : Inv s) (h : step s e = some t) : Inv t :=
  Tasks.step_invariant (G := Global) (L := Local)
    (fun hg hlocal hact => ⟨global_of_acts hg hlocal (acts_of_act hact),
      local_of_acts hg hlocal (acts_of_act hact)⟩)
    (fun _ hlocal hact hne hother => hother.stable hne (rely_of_acts hlocal (acts_of_act hact)))
    s e t hs h

/-! ## The condition -/

/-- Only the acting connection can end, and it has not ended before. -/
theorem ends_of_acts {s t : State} {e : Event} {d : Nat} {outcome : Outcome} (h : step s e = some t)
    (hends : Ends s t d outcome) : d = e.1 := by
  by_contra hne
  have hsame := (Tasks.step_eq_some h).2 d hne
  rw [Ends, hsame] at hends
  exact hends.1 outcome hends.2

theorem harmless_staleLocked {g : Shared} {conn : Conn} {ticket : PqSessionTicket}
    (hphase : conn.phase = .connecting ticket) :
    Harmless g conn (.connect .rehandshake) ↔
      ticket.sessionId ∈ conn.own ∧ g.held ≠ some ticket.sessionId := by
  unfold Harmless
  rw [hphase]

/-- How a connection ends. -/
theorem ending_of_acts {g g' : Shared} {c : Nat} {conn conn' : Conn} {a : Action} {outcome : Outcome}
    (hlocal : Local g c conn) (hharmless : Harmless g conn a) (h : Acts g c conn a g' conn')
    (hends : conn'.phase = .ended outcome) :
    (∀ sid, outcome = .rehandshakeRequired sid → sid ∈ conn'.own) ∧
      ∀ sid ∈ conn'.rejected, g'.held ≠ some sid := by
  cases h with
  | load => cases hends
  | noTicket => cases hends
  | resumed answer outcome' ticket hphase hanswer hother =>
    obtain rfl := Phase.ended.inj hends
    exact ⟨fun sid heq => absurd heq (hother sid),
      hlocal.gone_of (by simp [hphase]) (by simp [hphase])⟩
  | stale => cases hends
  | invalidate => cases hends
  | lock => cases hends
  | loadLocked => cases hends
  | noTicketLocked => cases hends
  | handshakeFailed hphase =>
    obtain rfl := Phase.ended.inj hends
    exact ⟨by rintro _ ⟨⟩, hlocal.gone_of (by simp [hphase]) (by simp [hphase])⟩
  | handshake => cases hends
  | store => cases hends
  | connected answer outcome' ticket hphase hanswer hother =>
    obtain rfl := Phase.ended.inj hends
    exact ⟨fun sid heq => absurd heq (hother sid),
      hlocal.gone_of (by simp [hphase]) (by simp [hphase])⟩
  | staleLocked ticket hphase =>
    -- the 428 behind the lock: nothing is invalidated any more
    obtain ⟨hown, hheld⟩ := (harmless_staleLocked hphase).mp hharmless
    obtain rfl := Phase.ended.inj hends
    constructor
    · intro sid heq
      obtain rfl := Outcome.rehandshakeRequired.inj heq
      exact hown
    · intro sid hmem
      rcases List.mem_cons.mp hmem with rfl | hmem
      · exact hheld
      · exact hlocal.gone_of (by simp [hphase]) (by simp [hphase]) sid hmem

/-- A rejection takes away its own ticket only. -/
theorem kept_of_acts {g g' : Shared} {c : Nat} {conn conn' : Conn} {a : Action} {sid : Bytes}
    {entry : InitialMasterEntry} (h : Acts g c conn a g' conn') (hrej : rejecting conn a = some sid)
    (hheld : g.initialMaster = some entry) (hne : entry.ticket.sessionId ≠ sid) :
    g'.initialMaster = some entry := by
  cases h with
  | load => exact hheld
  | noTicket => cases hrej
  | resumed => exact hheld
  | stale => exact hheld
  | invalidate ticket hphase =>
    have hmine : rejecting conn .invalidate = some ticket.sessionId := by
      unfold rejecting
      rw [hphase]
    obtain rfl := Option.some.inj (hmine.symm.trans hrej)
    show invalidateStaleMaster g.initialMaster ticket.sessionId = some entry
    rw [hheld]
    exact if_neg hne
  | lock => exact hheld
  | loadLocked => exact hheld
  | noTicketLocked => cases hrej
  | handshakeFailed => exact hheld
  | handshake => exact hheld
  | store => cases hrej
  | connected => exact hheld
  | staleLocked => exact hheld

theorem proper_of_harmless {s t : State} {e : Event} (hs : Inv s) (h : step s e = some t)
    (hharmless : Harmless s.shared (s.tasks e.1) e.2) : Proper s e t := by
  have hacts := acts_of_act (Tasks.step_eq_some h).1
  refine ⟨fun d sid hends => ?_, fun d outcome hends => ?_, fun sid entry hrej hheld hne => ?_⟩
  · obtain rfl := ends_of_acts h hends
    exact (ending_of_acts (hs.tasks e.1) hharmless hacts hends.2).1 sid rfl
  · obtain rfl := ends_of_acts h hends
    exact (ending_of_acts (hs.tasks e.1) hharmless hacts hends.2).2
  · exact kept_of_acts hacts hrej hheld hne

/-- A proper 428 behind the lock is harmless, since the connection ends with it. -/
theorem harmless_of_proper {s : State} {e : Event}
    (h : ∀ t, step s e = some t → Proper s e t) : Harmless s.shared (s.tasks e.1) e.2 := by
  obtain ⟨c, a⟩ := e
  unfold Harmless
  split
  · rename_i ticket ha hphase
    dsimp only at ha hphase ⊢
    subst ha
    have hact : act s.shared c (s.tasks c) (.connect .rehandshake) = some (s.shared,
        { s.tasks c with
          phase := .ended (.rehandshakeRequired ticket.sessionId)
          rejected := ticket.sessionId :: (s.tasks c).rejected }) := by
      unfold act
      dsimp only
      rw [hphase]
    obtain ⟨t, ht, hshared, htask⟩ := @Tasks.step_of_act _ _ _ _ _ act s (c, .connect .rehandshake)
      _ _ hact
    -- the connection ends in this step, so `Proper` speaks of it
    have hends : Ends s t c (.rehandshakeRequired ticket.sessionId) := by
      constructor
      · intro o hended
        rw [hphase] at hended
        cases hended
      · exact congrArg Conn.phase htask
    have hproper := h t ht
    have hown := hproper.own c _ hends
    have hgone := hproper.gone c _ hends ticket.sessionId
    rw [show t.tasks c = _ from htask] at hown hgone
    rw [hshared] at hgone
    exact ⟨hown, hgone List.mem_cons_self⟩
  · trivial

/-- **Exactly when a stale ticket leads to a handshake.**  In every run of any connections: each step
    is proper if and only if each 428 behind the lock is harmless. -/
theorem stale_ticket_iff (es : List Event) :
    Meets step (fun s e => ∀ t, step s e = some t → Proper s e t) init es ↔
      Meets step (fun s e => Harmless s.shared (s.tasks e.1) e.2) init es :=
  meets_iff_of_invariant inv_step
    (fun _ _ hs => ⟨harmless_of_proper, fun h _ ht => proper_of_harmless hs ht h⟩) es init inv_init

/-! ## A server that restarts -/

def demoTicket : PqSessionTicket := ⟨⟨List.replicate 32 7, rfl⟩, [65]⟩

/-- Two connections find no ticket.  The first one makes a handshake; the second one, which waited for
    the lock, loads its ticket. -/
def demoSchedule : List Event :=
  [(0, .load 0), (1, .load 0), (0, .lock), (0, .loadLocked 0), (0, .handshake (some demoTicket)),
    (0, .store 0), (1, .lock), (1, .loadLocked 0)]

/-- **The defect.**  Then the server restarts and answers the second connection with 428: it fails with
    `RehandshakeRequired` over a ticket it has not made, and leaves the ticket where it is. -/
theorem stale_ticket_fails :
    ∃ s t, run step init demoSchedule = some s ∧ step s (1, .connect .rehandshake) = some t ∧
      (t.tasks 1).phase = .ended (.rehandshakeRequired [65]) ∧ [65] ∉ (t.tasks 1).own ∧
      [65] ∈ (t.tasks 1).rejected ∧ t.shared.held = some [65] ∧
      ¬ Proper s (1, .connect .rehandshake) t := by
  refine ⟨_, _, rfl, rfl, rfl, by decide, by decide, rfl, fun h => ?_⟩
  have hown := h.own 1 [65] ⟨by rintro o ⟨⟩, rfl⟩
  cases hown

end Httproxy.Resumption
