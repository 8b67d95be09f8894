/-
  The opening of a tunnel, and who answers for its registration (`spawn_encrypted_tunnel` and
  `setup_tunnel_response` in `src/server/handlers.rs`, the drop of `TunnelActor`).

  An `Active` entry of the registry is never pruned, so somebody must mark it as consumed in the end.
  The handler registers the stream under a `StreamGuard`; the `TunnelActor` marks it in `cleanup` and again
  when it is dropped; and the permit of the semaphore moves from the handler into the actor's task.

  1. **Values with a drop (`Local`)** — a handler holds the values its source has in scope.  An error, a
     cancelled future and a return all do the same to them: they are dropped, the last one first
     (`dropLocals`).  Moving a value into the task takes it out of the scope.

  2. **System** — `Openings`: both tables, the semaphore, and any number of handlers and tasks.  A
     handler moves from one place of the source to the next with success or failure (`advance`), and is
     cancelled where it awaits.  A task drives its actor (`Tunnel.taskStep`), ends after `cleanup`, or
     is aborted.  Tasks of different requests run on different threads, in any order.

  3. **The crux (`Inv`)** — what is in scope depends only on the place in the source (`scope`), and that
     always holds an armed guard until the actor has been spawned.

  The end of a task is one step: when its future goes, the actor, the guard of the map and the permit
  go with it.
-/
import Httproxy.Server.TunnelServe
import Httproxy.Server.StreamRegistry

namespace Httproxy.Opening

open Machine Registry

/-! ## Values with a drop -/

inductive Local where
  /-- `StreamGuard`. -/
  | streamGuard (armed : Bool)
  /-- The `OwnedSemaphorePermit`. -/
  | permit
  /-- The `TunnelActor`, before it is spawned. -/
  | actor
  /-- `early_guard`, an `ActorGuard`. -/
  | actorGuard (armed : Bool)
  /-- `TunnelGuard`; armed, its drop aborts the task. -/
  | tunnelGuard (armed : Bool)
  deriving DecidableEq, Repr

/-- Where a handler is between two steps. -/
inductive Point where
  /-- Behind `register`: the target is decrypted and taken apart, and a permit is asked for. -/
  | registered
  /-- Awaits the connection to the upstream. -/
  | connecting
  /-- Awaits the frames of the request's body. -/
  | reading
  /-- The `TunnelActor` exists, and the first segment is taken from it. -/
  | building
  /-- The task is spawned, and the response is built. -/
  | responding
  deriving DecidableEq, Repr

structure Handler where
  id : Uuid
  point : Point
  /-- The values in scope, the last one first. -/
  locals : List Local
  deriving DecidableEq

/-- The task of a tunnel actor. -/
structure Task where
  id : Uuid
  /-- It has been polled, so that its own `ActorGuard` exists. -/
  polled : Bool
  tunnel : Tunnel.Tasks
  deriving DecidableEq

/-- The server, with every request that is being opened or runs; requests are numbered. -/
structure Openings where
  clock : Nat
  streams : StreamRegistry
  /-- `actors`, as the test whether a stream is in it. -/
  actors : Uuid → Bool
  /-- The permits of the semaphore that are taken: by which request, for which stream. -/
  held : List (Nat × Uuid)
  handlers : Nat → Option Handler
  tasks : Nat → Option Task

def Openings.new (now : Nat) : Openings where
  clock := now
  streams := StreamRegistry.new
  actors := fun _ => false
  held := []
  handlers := fun _ => none
  tasks := fun _ => none

/-- The drop of one value. -/
def dropLocal (n : Nat) (id : Uuid) (s : Openings) : Local → Openings
  | .streamGuard armed => if armed then { s with streams := markConsumed s.streams id } else s
  | .permit => { s with held := s.held.erase (n, id) }
  | .actor => { s with streams := markConsumed s.streams id }
  | .actorGuard armed =>
    if armed then { s with actors := Function.update s.actors id false } else s
  | .tunnelGuard _ => s

/-- The values of a scope are dropped, the last one first. -/
def dropLocals (n : Nat) (id : Uuid) (locals : List Local) (s : Openings) : Openings :=
  locals.foldl (dropLocal n id) s

/-! ## The handler -/

section Program

variable (maxTunnels : Nat)

/-- The handler's future is gone: it has returned, or it was cancelled. -/
def leave (n : Nat) (h : Handler) (s : Openings) : Openings :=
  dropLocals n h.id h.locals { s with handlers := Function.update s.handlers n none }

def setHandler (n : Nat) (h : Handler) (s : Openings) : Openings :=
  { s with handlers := Function.update s.handlers n (some h) }

/-- `try_acquire_owned`. -/
def acquire (n : Nat) (h : Handler) (s : Openings) : Openings :=
  if s.held.length < maxTunnels then
    setHandler n { h with point := .connecting, locals := .permit :: h.locals }
      { s with held := (n, h.id) :: s.held }
  else leave n h s

/-- `actors.insert`, the early guard, and `tokio::spawn`, which moves the permit and the actor. -/
def spawn (n : Nat) (h : Handler) (u : Tunnel.Setup) (s : Openings) : Openings :=
  setHandler n { h with
      point := .responding
      locals := .tunnelGuard true :: .actorGuard true :: (h.locals.erase .actor).erase .permit }
    { s with
      actors := Function.update s.actors h.id true
      tasks := Function.update s.tasks n (some ⟨h.id, false, Tunnel.startTasks u⟩) }

def disarmEarly : Local → Local
  | .actorGuard _ => .actorGuard false
  | l => l

/-- `disarm` of the guards, when the response has been built. -/
def disarm : Local → Local
  | .streamGuard _ => .streamGuard false
  | .actorGuard _ => .actorGuard false
  | .tunnelGuard _ => .tunnelGuard false
  | l => l

/-- The handler goes on from where it is; `ok` says whether what it does there succeeds. -/
def advance (n : Nat) (h : Handler) (ok : Bool) (u : Tunnel.Setup) (s : Openings) : Openings :=
  match h.point with
  | .registered => if ok then acquire maxTunnels n h s else leave n h s
  | .connecting => if ok then setHandler n { h with point := .reading } s else leave n h s
  | .reading =>
    if ok then setHandler n { h with point := .building, locals := .actor :: h.locals } s
    else leave n h s
  | .building => if ok then spawn n h u s else leave n h s
  | .responding =>
    if ok then leave n { h with locals := h.locals.map disarm } s
    else leave n { h with locals := h.locals.map disarmEarly } s

/-- The places where the handler awaits, and so can be cancelled. -/
def Point.awaits : Point → Bool
  | .connecting | .reading => true
  | .registered | .building | .responding => false

/-! ## The task -/

/-- The future of a task goes: the actor, the guard of the map, the permit. -/
def dropTask (n : Nat) (t : Task) (s : Openings) : Openings :=
  { s with
    streams := markConsumed s.streams t.id
    actors := if t.polled then Function.update s.actors t.id false else s.actors
    held := s.held.erase (n, t.id)
    tasks := Function.update s.tasks n none }

/-- The events of a tunnel that are turns of its actor. -/
def byActor : Tunnel.TaskEvent → Bool
  | .tunnel e => e.byActor
  | .serve => true

/-- The actor takes a step; on leaving its loop it runs `cleanup`, which marks the stream. -/
def driveTask (n : Nat) (t : Task) (tunnel : Tunnel.Tasks) (s : Openings) : Openings :=
  { s with
    streams := if tunnel.tunnel.left = none then s.streams else markConsumed s.streams t.id
    tasks := Function.update s.tasks n (some { t with tunnel }) }

/-! ## The system -/

inductive Event where
  | tick (secs : Nat)
  | janitor
  /-- A request with the number `n` comes to `register`. -/
  | register (n : Nat) (id : Uuid)
  /-- The handler goes on; `u` is what it sets up for the actor. -/
  | advance (n : Nat) (ok : Bool) (u : Tunnel.Setup)
  /-- The handler's future is dropped where it awaits. -/
  | cancel (n : Nat)
  /-- The task is polled for the first time. -/
  | poll (n : Nat)
  | tunnel (n : Nat) (e : Tunnel.TaskEvent)
  /-- `cleanup` has come to its end. -/
  | finish (n : Nat)
  /-- The task is aborted, by its `TunnelGuard` or with the runtime. -/
  | abort (n : Nat)

def step (s : Openings) : Event → Option Openings
  | .tick secs => some { s with clock := s.clock + secs }
  | .janitor => some { s with streams := removeConsumedBefore s.streams (s.clock - MASTER_EXPIRY) }
  | .register n id =>
    if s.handlers n = none ∧ s.tasks n = none then
      match register s.streams id s.clock with
      | (false, _) => some s
      | (true, streams) => some (setHandler n ⟨id, .registered, [.streamGuard true]⟩ { s with streams })
    else none
  | .advance n ok u => (s.handlers n).map fun h => advance maxTunnels n h ok u s
  | .cancel n =>
    (s.handlers n).bind fun h => if h.point.awaits then some (leave n h s) else none
  | .poll n => (s.tasks n).map fun t =>
      { s with tasks := Function.update s.tasks n (some { t with polled := true }) }
  | .tunnel n e =>
    (s.tasks n).bind fun t =>
      if byActor e ∧ t.polled = false then none
      else (Tunnel.taskStep t.tunnel e).map fun tunnel => driveTask n t tunnel s
  | .finish n =>
    (s.tasks n).bind fun t => if t.tunnel.tunnel.left = none then none else some (dropTask n t s)
  | .abort n => (s.tasks n).map fun t => dropTask n t s

end Program

/-! ## What a drop does -/

theorem markConsumed_active {streams : StreamRegistry} {id other : Uuid} {ts : Nat}
    (h : markConsumed streams id other = some (.active, ts)) :
    other ≠ id ∧ streams other = some (.active, ts) := by
  cases hs : streams id with
  | none =>
    simp only [markConsumed, hs] at h
    refine ⟨?_, h⟩
    rintro rfl
    rw [hs] at h
    cases h
  | some entry =>
    simp only [markConsumed, hs] at h
    by_cases ho : other = id
    · subst ho
      rw [Function.update_self] at h
      cases h
    · rw [Function.update_of_ne ho] at h
      exact ⟨ho, h⟩

section Drop

variable {n : Nat} {id other : Uuid} {s : Openings}

/-- The values whose drop marks the stream as consumed. -/
def Local.consumes : Local → Bool
  | .streamGuard armed => armed
  | .actor => true
  | .permit | .actorGuard _ | .tunnelGuard _ => false

@[simp] theorem dropLocal_handlers (l : Local) : (dropLocal n id s l).handlers = s.handlers := by
  cases l <;> simp only [dropLocal] <;> split <;> rfl

@[simp] theorem dropLocal_tasks (l : Local) : (dropLocal n id s l).tasks = s.tasks := by
  cases l <;> simp only [dropLocal] <;> split <;> rfl

theorem dropLocal_active {l : Local} {ts : Nat}
    (h : (dropLocal n id s l).streams other = some (.active, ts)) :
    s.streams other = some (.active, ts) ∧ (l.consumes = true → other ≠ id) := by
  cases l with
  | streamGuard armed =>
    cases armed with
    | false => exact ⟨h, nofun⟩
    | true =>
      obtain ⟨hne, h⟩ := markConsumed_active h
      exact ⟨h, fun _ => hne⟩
  | actor =>
    obtain ⟨hne, h⟩ := markConsumed_active h
    exact ⟨h, fun _ => hne⟩
  | permit => exact ⟨h, nofun⟩
  | actorGuard armed => cases armed <;> exact ⟨h, nofun⟩
  | tunnelGuard armed => exact ⟨h, nofun⟩

theorem dropLocal_held (n : Nat) (id : Uuid) (l : Local) (hs : s.held.Nodup) :
    (dropLocal n id s l).held.Nodup ∧ ∀ p ∈ (dropLocal n id s l).held,
      p ∈ s.held ∧ (l = .permit → p ≠ (n, id)) := by
  cases l with
  | permit =>
    refine ⟨hs.erase _, fun p hp => ?_⟩
    obtain ⟨hne, hmem⟩ := hs.mem_erase_iff.mp hp
    exact ⟨hmem, fun _ => hne⟩
  | streamGuard armed => cases armed <;> exact ⟨hs, fun p hp => ⟨hp, nofun⟩⟩
  | actor => exact ⟨hs, fun p hp => ⟨hp, nofun⟩⟩
  | actorGuard armed => cases armed <;> exact ⟨hs, fun p hp => ⟨hp, nofun⟩⟩
  | tunnelGuard armed => exact ⟨hs, fun p hp => ⟨hp, nofun⟩⟩

@[simp] theorem dropLocals_handlers (locals : List Local) :
    (dropLocals n id locals s).handlers = s.handlers := by
  induction locals generalizing s with
  | nil => rfl
  | cons l locals ih => exact ih.trans (dropLocal_handlers l)

@[simp] theorem dropLocals_tasks (locals : List Local) :
    (dropLocals n id locals s).tasks = s.tasks := by
  induction locals generalizing s with
  | nil => rfl
  | cons l locals ih => exact ih.trans (dropLocal_tasks l)

/-- What is active after a scope was left was so before, and no guard of the scope marked it. -/
theorem dropLocals_active {locals : List Local} {ts : Nat}
    (h : (dropLocals n id locals s).streams other = some (.active, ts)) :
    s.streams other = some (.active, ts) ∧ ((∃ l ∈ locals, l.consumes = true) → other ≠ id) := by
  induction locals generalizing s with
  | nil => exact ⟨h, fun ⟨l, hl, _⟩ => absurd hl List.not_mem_nil⟩
  | cons l locals ih =>
    obtain ⟨h, hrest⟩ := ih h
    obtain ⟨h, hl⟩ := dropLocal_active h
    refine ⟨h, ?_⟩
    rintro ⟨l', hmem, hc⟩
    rcases List.mem_cons.mp hmem with rfl | hmem
    · exact hl hc
    · exact hrest ⟨l', hmem, hc⟩

/-- A permit of the scope goes back, and no other does. -/
theorem dropLocals_held (n : Nat) (id : Uuid) (locals : List Local) (hs : s.held.Nodup) :
    (dropLocals n id locals s).held.Nodup ∧ ∀ p ∈ (dropLocals n id locals s).held,
      p ∈ s.held ∧ (.permit ∈ locals → p ≠ (n, id)) := by
  induction locals generalizing s with
  | nil => exact ⟨hs, fun p hp => ⟨hp, fun hl => absurd hl List.not_mem_nil⟩⟩
  | cons l locals ih =>
    obtain ⟨hnd, hfirst⟩ := dropLocal_held n id l hs
    obtain ⟨hnd', hrest⟩ := ih hnd
    refine ⟨hnd', fun p hp => ?_⟩
    obtain ⟨hp, hlater⟩ := hrest p hp
    obtain ⟨hp, hnow⟩ := hfirst p hp
    refine ⟨hp, fun hmem => ?_⟩
    rcases List.mem_cons.mp hmem with hl | hmem
    · exact hnow hl.symm
    · exact hlater hmem

end Drop

/-! ## Who answers for a stream -/

/-- The values in scope at each place of the source. -/
def scope : Point → List Local
  | .registered => [.streamGuard true]
  | .connecting | .reading => [.permit, .streamGuard true]
  | .building => [.actor, .permit, .streamGuard true]
  | .responding => [.tunnelGuard true, .actorGuard true, .streamGuard true]

/-- The request `n` has a handler for `id` that runs and has not spawned the actor. -/
def Openings.HandlerBeforeSpawn (s : Openings) (n : Nat) (id : Uuid) : Prop :=
  ∃ h, s.handlers n = some h ∧ h.id = id ∧ h.point ≠ .responding

/-- The request `n` has a tunnel actor for `id` that has not begun its `cleanup`. -/
def Openings.ActorInLoop (s : Openings) (n : Nat) (id : Uuid) : Prop :=
  ∃ t, s.tasks n = some t ∧ t.id = id ∧ t.tunnel.tunnel.left = none

/-- The request `n` has a task for `id`. -/
def Openings.ActorThere (s : Openings) (n : Nat) (id : Uuid) : Prop :=
  ∃ t, s.tasks n = some t ∧ t.id = id

def Answers (s : Openings) (n : Nat) (id : Uuid) : Prop :=
  s.HandlerBeforeSpawn n id ∨ s.ActorInLoop n id

def HoldsPermit (s : Openings) (n : Nat) (id : Uuid) : Prop :=
  (∃ h, s.handlers n = some h ∧ h.id = id ∧ .permit ∈ h.locals) ∨ s.ActorThere n id

/-- What holds of one request by itself. -/
structure Placed (s : Openings) (n : Nat) : Prop where
  inScope : ∀ h, s.handlers n = some h → h.locals = scope h.point
  apart : ∀ h, s.handlers n = some h → h.point ≠ .responding → s.tasks n = none

structure Inv (s : Openings) : Prop where
  placed : ∀ n, Placed s n
  answered : ∀ id ts, s.streams id = some (.active, ts) → ∃ n, Answers s n id
  held : ∀ n id, (n, id) ∈ s.held → HoldsPermit s n id
  nodup : s.held.Nodup

theorem inv_new (now : Nat) : Inv (Openings.new now) where
  placed n := ⟨nofun, nofun⟩
  answered id ts h := by cases h
  held n id h := by cases h
  nodup := List.nodup_nil

/-- **Frame.**  When a step concerns the request `n` alone, only `n` has to be looked at. -/
theorem Inv.frame {s s' : Openings} {n : Nat} (hi : Inv s)
    (hothers : ∀ m, m ≠ n → s'.handlers m = s.handlers m ∧ s'.tasks m = s.tasks m)
    (hplaced : Placed s' n)
    (hactive : ∀ id ts, s'.streams id = some (.active, ts) →
      Answers s' n id ∨ (s.streams id = some (.active, ts) ∧ ¬ Answers s n id))
    (hheld : ∀ m id, (m, id) ∈ s'.held → (m = n ∧ HoldsPermit s' n id) ∨
      ((m, id) ∈ s.held ∧ ¬ (m = n ∧ HoldsPermit s n id)))
    (hnodup : s'.held.Nodup) : Inv s' := by
  constructor
  · intro m
    by_cases hm : m = n
    · exact hm ▸ hplaced
    · obtain ⟨hh, ht⟩ := hothers m hm
      constructor
      · intro h hs
        exact (hi.placed m).inScope h (hh ▸ hs)
      · intro h hs hp
        rw [ht]
        exact (hi.placed m).apart h (hh ▸ hs) hp
  · intro id ts h
    rcases hactive id ts h with h | ⟨h, hnot⟩
    · exact ⟨n, h⟩
    · obtain ⟨m, hm⟩ := hi.answered id ts h
      have hne : m ≠ n := by
        rintro rfl
        exact hnot hm
      refine ⟨m, ?_⟩
      rw [Answers, Openings.HandlerBeforeSpawn, Openings.ActorInLoop, (hothers m hne).1,
        (hothers m hne).2]
      exact hm
  · intro m id h
    rcases hheld m id h with ⟨rfl, h⟩ | ⟨h, hnot⟩
    · exact h
    · have hm := hi.held m id h
      have hne : m ≠ n := by
        rintro rfl
        exact hnot ⟨rfl, hm⟩
      rw [HoldsPermit, Openings.ActorThere, (hothers m hne).1, (hothers m hne).2]
      exact hm
  · exact hnodup

/-! ## Each step keeps it -/

section Steps

variable {s : Openings} {n : Nat} {h : Handler} {t : Task}

/-- Time passes, and entries that are not active may go. -/
theorem Inv.background {streams : StreamRegistry} (clock : Nat) (hi : Inv s)
    (hactive : ∀ id ts, streams id = some (.active, ts) → s.streams id = some (.active, ts)) :
    Inv { s with clock, streams } where
  placed n := ⟨(hi.placed n).inScope, (hi.placed n).apart⟩
  answered id ts hact := hi.answered id ts (hactive id ts hact)
  held := hi.held
  nodup := hi.nodup

theorem Inv.register {id : Uuid} {streams : StreamRegistry} (hi : Inv s)
    (hh : s.handlers n = none) (ht : s.tasks n = none)
    (hreg : register s.streams id s.clock = (true, streams)) :
    Inv (setHandler n ⟨id, .registered, [.streamGuard true]⟩ { s with streams }) := by
  obtain ⟨_, rfl⟩ := register_eq_true hreg
  apply hi.frame (n := n)
  · intro m hm
    simp [Opening.setHandler, Function.update_of_ne hm]
  · constructor <;> simp [Opening.setHandler, scope, ht]
  · intro other ts hact
    by_cases ho : other = id
    · exact .inl (.inl ⟨_, Function.update_self .., ho.symm, Point.noConfusion⟩)
    · refine .inr ⟨(Function.update_of_ne ho ..).symm.trans hact, ?_⟩
      simp [Answers, Openings.HandlerBeforeSpawn, Openings.ActorInLoop, hh, ht]
  · intro m other hmem
    refine .inr ⟨hmem, ?_⟩
    simp [HoldsPermit, Openings.ActorThere, hh, ht]
  · exact hi.nodup

/-- Leaving a scope: before the spawn it held a guard that marks the stream, and the permit if any. -/
theorem Inv.leave {locals : List Local} (hi : Inv s) (hh : s.handlers n = some h)
    (hguard : h.point ≠ .responding → ∃ l ∈ locals, l.consumes = true)
    (hpermit : .permit ∈ h.locals → .permit ∈ locals) : Inv (leave n { h with locals } s) := by
  obtain ⟨hnodup, hheld⟩ := dropLocals_held n h.id locals
    (s := { s with handlers := Function.update s.handlers n none }) hi.nodup
  apply hi.frame (n := n)
  · intro m hm
    simp [Opening.leave, Function.update_of_ne hm]
  · constructor <;> simp [Opening.leave]
  · intro id ts hact
    obtain ⟨hact, hne⟩ := dropLocals_active hact
    by_cases ht : s.ActorInLoop n id
    · left
      exact .inr (by simpa [Opening.leave, Openings.ActorInLoop] using ht)
    · refine .inr ⟨hact, ?_⟩
      rintro (⟨h', hh', hid, hp⟩ | ht')
      · obtain rfl := Option.some.inj (hh.symm.trans hh')
        exact hne (hguard hp) hid.symm
      · exact ht ht'
  · intro m id hmem
    obtain ⟨hmem, hne⟩ := hheld _ hmem
    by_cases ht : m = n ∧ s.ActorThere n id
    · refine .inl ⟨ht.1, .inr ?_⟩
      simpa [Opening.leave, Openings.ActorThere] using ht.2
    · refine .inr ⟨hmem, ?_⟩
      rintro ⟨rfl, ⟨h', hh', hid, hp⟩ | ht'⟩
      · obtain rfl := Option.some.inj (hh.symm.trans hh')
        exact hne (hpermit hp) (by rw [hid])
      · exact ht ⟨rfl, ht'⟩
  · exact hnodup

/-- The scope itself always has what `Inv.leave` asks for. -/
theorem Inv.leave_scope (hi : Inv s) (hh : s.handlers n = some h) : Inv (Opening.leave n h s) := by
  apply hi.leave hh
  · intro _
    rw [(hi.placed n).inScope h hh]
    exact ⟨.streamGuard true, by cases h.point <;> simp [scope], rfl⟩
  · exact id

/-- Before the spawn a request answers for its own stream only. -/
theorem Inv.answers_own {id : Uuid} (hi : Inv s) (hh : s.handlers n = some h)
    (hp : h.point ≠ .responding) (ha : Answers s n id) : id = h.id := by
  rcases ha with ⟨h', hh', hid, _⟩ | ⟨t, ht, _⟩
  · obtain rfl := Option.some.inj (hh.symm.trans hh')
    exact hid.symm
  · rw [(hi.placed n).apart h hh hp] at ht
    cases ht

/-- Before the spawn a permit is the handler's. -/
theorem Inv.permit_own {id : Uuid} (hi : Inv s) (hh : s.handlers n = some h)
    (hp : h.point ≠ .responding) (hhold : HoldsPermit s n id) : id = h.id ∧ .permit ∈ h.locals := by
  rcases hhold with ⟨h', hh', hid, hl⟩ | ⟨t, ht, _⟩
  · obtain rfl := Option.some.inj (hh.symm.trans hh')
    exact ⟨hid.symm, hl⟩
  · rw [(hi.placed n).apart h hh hp] at ht
    cases ht

/-- The handler moves on, and still answers for its stream. -/
theorem Inv.setHandler {h' : Handler} (hi : Inv s) (hh : s.handlers n = some h)
    (hp : h.point ≠ .responding) (hid : h'.id = h.id) (hp' : h'.point ≠ .responding)
    (hscope : h'.locals = scope h'.point) (hpermit : .permit ∈ h.locals → .permit ∈ h'.locals) :
    Inv (setHandler n h' s) := by
  have htask := (hi.placed n).apart h hh hp
  apply hi.frame (n := n)
  · intro m hm
    simp [Opening.setHandler, Function.update_of_ne hm]
  · constructor <;> simp [Opening.setHandler, hscope, htask]
  · intro id ts hact
    by_cases ho : id = h.id
    · exact .inl (.inl ⟨h', Function.update_self .., hid.trans ho.symm, hp'⟩)
    · exact .inr ⟨hact, fun ha => ho (hi.answers_own hh hp ha)⟩
  · intro m id hmem
    by_cases hm : m = n ∧ HoldsPermit s n id
    · obtain ⟨rfl, hhold⟩ := hm
      obtain ⟨rfl, hl⟩ := hi.permit_own hh hp hhold
      exact .inl ⟨rfl, .inl ⟨h', Function.update_self .., hid, hpermit hl⟩⟩
    · exact .inr ⟨hmem, hm⟩
  · exact hi.nodup

theorem Inv.acquire (maxTunnels : Nat) (hi : Inv s) (hh : s.handlers n = some h)
    (hp : h.point = .registered) : Inv (acquire maxTunnels n h s) := by
  have hearly : h.point ≠ .responding := by simp [hp]
  have htask := (hi.placed n).apart h hh hearly
  have hlocals := (hi.placed n).inScope h hh
  -- Nobody holds a permit under this number yet.
  have hfree : ∀ id, ¬ HoldsPermit s n id := by
    intro id hhold
    have hl := (hi.permit_own hh hearly hhold).2
    simp [hlocals, hp, scope] at hl
  rw [Opening.acquire]
  split
  · apply hi.frame (n := n)
    · intro m hm
      simp [Opening.setHandler, Function.update_of_ne hm]
    · constructor <;> simp [Opening.setHandler, htask, hlocals, hp, scope]
    · intro id ts hact
      by_cases ho : id = h.id
      · exact .inl (.inl ⟨_, Function.update_self .., ho.symm, Point.noConfusion⟩)
      · exact .inr ⟨hact, fun ha => ho (hi.answers_own hh hearly ha)⟩
    · intro m id hmem
      rcases List.mem_cons.mp hmem with heq | hmem
      · obtain ⟨rfl, rfl⟩ := Prod.mk.inj heq
        exact .inl ⟨rfl, .inl ⟨_, Function.update_self .., rfl, List.mem_cons_self⟩⟩
      · exact .inr ⟨hmem, fun hn => hfree id hn.2⟩
    · refine List.nodup_cons.mpr ⟨fun hmem => ?_, hi.nodup⟩
      exact hfree h.id (hi.held n h.id hmem)
  · exact hi.leave_scope hh

theorem start_left (u : Tunnel.Setup) : (Tunnel.start u).left = none := by
  rw [Tunnel.start]
  split
  · rfl
  · simp [Tunnel.takeSegment, Tunnel.onUpstreamConnected, Tunnel.new]

/-- The permit and the actor go into the task. -/
theorem Inv.spawn (u : Tunnel.Setup) (hi : Inv s) (hh : s.handlers n = some h)
    (hp : h.point = .building) : Inv (spawn n h u s) := by
  have hearly : h.point ≠ .responding := by simp [hp]
  have hlocals := (hi.placed n).inScope h hh
  have htask : (Opening.spawn n h u s).tasks n = some ⟨h.id, false, Tunnel.startTasks u⟩ :=
    Function.update_self ..
  apply hi.frame (n := n)
  · intro m hm
    simp [Opening.spawn, Opening.setHandler, Function.update_of_ne hm]
  · constructor <;> simp [Opening.spawn, Opening.setHandler, hlocals, hp, scope]
  · intro id ts hact
    by_cases ho : id = h.id
    · exact .inl (.inr ⟨_, htask, ho.symm, start_left u⟩)
    · exact .inr ⟨hact, fun ha => ho (hi.answers_own hh hearly ha)⟩
  · intro m id hmem
    by_cases hm : m = n ∧ HoldsPermit s n id
    · obtain ⟨rfl, hhold⟩ := hm
      exact .inl ⟨rfl, .inr ⟨_, htask, (hi.permit_own hh hearly hhold).1.symm⟩⟩
    · exact .inr ⟨hmem, hm⟩
  · exact hi.nodup

theorem Inv.advance (maxTunnels : Nat) (ok : Bool) (u : Tunnel.Setup) (hi : Inv s)
    (hh : s.handlers n = some h) : Inv (advance maxTunnels n h ok u s) := by
  have hlocals := (hi.placed n).inScope h hh
  rw [Opening.advance]
  cases hp : h.point with
  | registered =>
    cases ok with
    | true => exact hi.acquire maxTunnels hh hp
    | false => exact hi.leave_scope hh
  | connecting =>
    cases ok with
    | true => exact hi.setHandler hh (by simp [hp]) rfl nofun (by simp [hlocals, hp, scope]) id
    | false => exact hi.leave_scope hh
  | reading =>
    cases ok with
    | true =>
      exact hi.setHandler hh (by simp [hp]) rfl nofun (by simp [hlocals, hp, scope])
        (List.mem_cons_of_mem _)
    | false => exact hi.leave_scope hh
  | building =>
    cases ok with
    | true => exact hi.spawn u hh hp
    | false => exact hi.leave_scope hh
  | responding =>
    -- The permit has gone into the task, and so has the duty for the stream.
    have hnone : .permit ∉ h.locals := by simp [hlocals, hp, scope]
    cases ok with
    | true => exact hi.leave hh (fun hne => absurd hp hne) (fun hl => absurd hl hnone)
    | false => exact hi.leave hh (fun hne => absurd hp hne) (fun hl => absurd hl hnone)

/-- The task is changed, but stays. -/
theorem Inv.setTask {t' : Task} {streams : StreamRegistry} (hi : Inv s) (ht : s.tasks n = some t)
    (hid : t'.id = t.id)
    (hactive : ∀ id ts, streams id = some (.active, ts) → s.streams id = some (.active, ts))
    (hleft : ∀ ts, streams t.id = some (.active, ts) → t.tunnel.tunnel.left = none →
      t'.tunnel.tunnel.left = none) :
    Inv { s with streams, tasks := Function.update s.tasks n (some t') } := by
  apply hi.frame (n := n)
  · intro m hm
    simp [Function.update_of_ne hm]
  · constructor
    · exact (hi.placed n).inScope
    · intro h hh hp
      rw [(hi.placed n).apart h hh hp] at ht
      cases ht
  · intro id ts hact
    by_cases ha : Answers s n id
    · left
      rcases ha with ha | ⟨t₁, ht₁, rfl, hl⟩
      · exact .inl ha
      · obtain rfl := Option.some.inj (ht.symm.trans ht₁)
        exact .inr ⟨t', Function.update_self .., hid, hleft ts hact hl⟩
    · exact .inr ⟨hactive id ts hact, ha⟩
  · intro m id hmem
    by_cases hm : m = n ∧ HoldsPermit s n id
    · obtain ⟨rfl, ha | ⟨t₁, ht₁, rfl⟩⟩ := hm
      · exact .inl ⟨rfl, .inl ha⟩
      · obtain rfl := Option.some.inj (ht.symm.trans ht₁)
        exact .inl ⟨rfl, .inr ⟨t', Function.update_self .., hid⟩⟩
    · exact .inr ⟨hmem, hm⟩
  · exact hi.nodup

theorem Inv.driveTask (tunnel : Tunnel.Tasks) (hi : Inv s) (ht : s.tasks n = some t) :
    Inv (driveTask n t tunnel s) := by
  rw [Opening.driveTask]
  apply hi.setTask ht
  · rfl
  · intro id ts hact
    split at hact
    · exact hact
    · exact (markConsumed_active hact).2
  · intro ts hact hl
    split at hact
    · assumption
    · exact absurd rfl (markConsumed_active hact).1

theorem Inv.dropTask (hi : Inv s) (ht : s.tasks n = some t) : Inv (dropTask n t s) := by
  apply hi.frame (n := n)
  · intro m hm
    simp [Opening.dropTask, Function.update_of_ne hm]
  · constructor
    · exact (hi.placed n).inScope
    · intro h _ _
      exact Function.update_self ..
  · intro id ts hact
    obtain ⟨hne, hact⟩ := markConsumed_active hact
    by_cases ha : s.HandlerBeforeSpawn n id
    · exact .inl (.inl ha)
    · refine .inr ⟨hact, ?_⟩
      rintro (ha' | ⟨t₁, ht₁, rfl, _⟩)
      · exact ha ha'
      · obtain rfl := Option.some.inj (ht.symm.trans ht₁)
        exact hne rfl
  · intro m id hmem
    obtain ⟨hne, hmem⟩ := hi.nodup.mem_erase_iff.mp hmem
    by_cases hm : m = n ∧ HoldsPermit s n id
    · obtain ⟨rfl, ha | ⟨t₁, ht₁, rfl⟩⟩ := hm
      · exact .inl ⟨rfl, .inl ha⟩
      · obtain rfl := Option.some.inj (ht.symm.trans ht₁)
        exact absurd rfl hne
    · exact .inr ⟨hmem, hm⟩
  · exact hi.nodup.erase _

end Steps

theorem inv_step {maxTunnels : Nat} {s s' : Openings} {e : Event} (hi : Inv s)
    (h : step maxTunnels s e = some s') : Inv s' := by
  cases e with
  | tick secs =>
    obtain rfl := Option.some.inj h
    exact hi.background _ (fun _ _ hact => hact)
  | janitor =>
    obtain rfl := Option.some.inj h
    exact hi.background _ (fun _ _ hact => (Option.filter_eq_some_iff.mp hact).1)
  | register n id =>
    rw [step, Option.ite_none_right_eq_some] at h
    obtain ⟨⟨hh, ht⟩, h⟩ := h
    split at h
    · obtain rfl := Option.some.inj h
      exact hi
    · rename_i streams hreg
      obtain rfl := Option.some.inj h
      exact hi.register hh ht hreg
  | advance n ok u =>
    obtain ⟨hd, hh, rfl⟩ := Option.map_eq_some_iff.mp h
    exact hi.advance maxTunnels ok u hh
  | cancel n =>
    obtain ⟨hd, hh, h⟩ := Option.bind_eq_some_iff.mp h
    rw [Option.ite_none_right_eq_some] at h
    obtain rfl := Option.some.inj h.2
    exact hi.leave_scope hh
  | poll n =>
    obtain ⟨t, ht, rfl⟩ := Option.map_eq_some_iff.mp h
    exact hi.setTask ht rfl (fun _ _ hact => hact) (fun _ _ hl => hl)
  | tunnel n e =>
    obtain ⟨t, ht, h⟩ := Option.bind_eq_some_iff.mp h
    rw [Option.ite_none_left_eq_some] at h
    obtain ⟨tunnel, _, rfl⟩ := Option.map_eq_some_iff.mp h.2
    exact hi.driveTask tunnel ht
  | finish n =>
    obtain ⟨t, ht, h⟩ := Option.bind_eq_some_iff.mp h
    rw [Option.ite_none_left_eq_some] at h
    obtain rfl := Option.some.inj h.2
    exact hi.dropTask ht
  | abort n =>
    obtain ⟨t, ht, rfl⟩ := Option.map_eq_some_iff.mp h
    exact hi.dropTask ht

/-! ## Entries stay until they are pruned -/

theorem markConsumed_none {streams : StreamRegistry} {id other : Uuid}
    (h : markConsumed streams id other = none) : streams other = none := by
  have hat := registeredAt_markConsumed streams id other
  rw [registeredAt, h, Option.map_none] at hat
  exact Option.map_eq_none_iff.mp hat.symm

theorem dropLocals_none {n : Nat} {id other : Uuid} {locals : List Local} {s : Openings}
    (h : (dropLocals n id locals s).streams other = none) : s.streams other = none := by
  induction locals generalizing s with
  | nil => exact h
  | cons l locals ih =>
    have hl := ih h
    cases l with
    | streamGuard armed =>
      cases armed with
      | false => exact hl
      | true => exact markConsumed_none hl
    | actor => exact markConsumed_none hl
    | permit => exact hl
    | actorGuard armed => cases armed <;> exact hl
    | tunnelGuard armed => exact hl

theorem leave_none {n : Nat} {h : Handler} {s : Openings} {id : Uuid}
    (hn : (leave n h s).streams id = none) : s.streams id = none := by
  rw [leave] at hn
  have hbefore := dropLocals_none hn
  exact hbefore

theorem advance_none {maxTunnels n : Nat} {h : Handler} {ok : Bool} {u : Tunnel.Setup}
    {s : Openings} {id : Uuid} (hn : (advance maxTunnels n h ok u s).streams id = none) :
    s.streams id = none := by
  rw [advance] at hn
  cases ok with
  | false =>
    cases hp : h.point <;> simp only [hp, Bool.false_eq_true, if_false] at hn <;> exact leave_none hn
  | true =>
    cases hp : h.point with
    | registered =>
      simp only [hp, if_true, acquire] at hn
      split at hn
      · exact hn
      · exact leave_none hn
    | connecting =>
      simp only [hp, if_true] at hn
      exact hn
    | reading =>
      simp only [hp, if_true] at hn
      exact hn
    | building =>
      simp only [hp, if_true] at hn
      exact hn
    | responding =>
      simp only [hp, if_true] at hn
      exact leave_none hn

/-- An entry only goes when it is consumed: `remove_consumed_before` took it. -/
theorem pruned_when_consumed {maxTunnels : Nat} {s s' : Openings} {e : Event} {id : Uuid}
    (h : step maxTunnels s e = some s') (hthere : s.streams id ≠ none) (hgone : s'.streams id = none) :
    check s.streams id = .consumed := by
  cases e with
  | janitor =>
    obtain rfl := Option.some.inj h
    obtain ⟨⟨st, ts⟩, hentry⟩ := Option.ne_none_iff_exists'.mp hthere
    cases st with
    | consumed => simp [check, hentry]
    | active => simp [removeConsumedBefore, hentry] at hgone
  | tick secs =>
    obtain rfl := Option.some.inj h
    exact absurd hgone hthere
  | register n other =>
    rw [step, Option.ite_none_right_eq_some] at h
    obtain ⟨_, h⟩ := h
    split at h
    · obtain rfl := Option.some.inj h
      exact absurd hgone hthere
    · rename_i streams hreg
      obtain rfl := Option.some.inj h
      obtain ⟨_, rfl⟩ := register_eq_true hreg
      by_cases ho : id = other
      · subst ho
        simp [setHandler] at hgone
      · exact absurd ((Function.update_of_ne ho ..).symm.trans hgone) hthere
  | advance n ok u =>
    obtain ⟨hd, _, rfl⟩ := Option.map_eq_some_iff.mp h
    exact absurd (advance_none hgone) hthere
  | cancel n =>
    obtain ⟨hd, _, h⟩ := Option.bind_eq_some_iff.mp h
    rw [Option.ite_none_right_eq_some] at h
    obtain rfl := Option.some.inj h.2
    exact absurd (leave_none hgone) hthere
  | poll n =>
    obtain ⟨t, _, rfl⟩ := Option.map_eq_some_iff.mp h
    exact absurd hgone hthere
  | tunnel n e =>
    obtain ⟨t, _, h⟩ := Option.bind_eq_some_iff.mp h
    rw [Option.ite_none_left_eq_some] at h
    obtain ⟨tunnel, _, rfl⟩ := Option.map_eq_some_iff.mp h.2
    simp only [driveTask] at hgone
    split at hgone
    · exact absurd hgone hthere
    · exact absurd (markConsumed_none hgone) hthere
  | finish n =>
    obtain ⟨t, _, h⟩ := Option.bind_eq_some_iff.mp h
    rw [Option.ite_none_left_eq_some] at h
    obtain rfl := Option.some.inj h.2
    exact absurd (markConsumed_none hgone) hthere
  | abort n =>
    obtain ⟨t, _, rfl⟩ := Option.map_eq_some_iff.mp h
    exact absurd (markConsumed_none hgone) hthere

/-! ## No registration and no permit is left behind -/

/-- **No leaked registrations.**  Whatever fails, is cancelled or aborted: an active stream has a
    handler that has not spawned its actor, or an actor in its loop; when a stream has neither such a
    handler nor an actor's task, its entry is consumed or gone and no permit is held for it; and an
    entry only goes by being pruned when it is consumed. -/
theorem no_leaked_registrations (maxTunnels now : Nat) (es : List Event) (s : Openings)
    (hrun : run (step maxTunnels) (Openings.new now) es = some s) (id : Uuid) :
    (check s.streams id = .active →
      ∃ n, s.HandlerBeforeSpawn n id ∨ s.ActorInLoop n id) ∧
    ((∀ n, ¬ s.HandlerBeforeSpawn n id) → (∀ n, ¬ s.ActorThere n id) →
      (check s.streams id = .consumed ∨ check s.streams id = .fresh) ∧ ∀ p ∈ s.held, p.2 ≠ id) ∧
    (∀ e s', step maxTunnels s e = some s' → s.streams id ≠ none → s'.streams id = none →
      check s.streams id = .consumed) := by
  have hi : Inv s := run_invariant (fun _ _ _ => inv_step) es _ _ (inv_new now) hrun
  have hactive : check s.streams id = .active →
      ∃ n, s.HandlerBeforeSpawn n id ∨ s.ActorInLoop n id := by
    intro hact
    rw [check] at hact
    split at hact
    · cases hact
    · rename_i ts hentry
      exact hi.answered id ts hentry
    · cases hact
  refine ⟨hactive, fun hhandlers htasks => ⟨?_, ?_⟩, fun e s' => pruned_when_consumed⟩
  · cases hc : check s.streams id with
    | fresh => exact .inr rfl
    | consumed => exact .inl rfl
    | active =>
      obtain ⟨n, hn | ⟨t, ht, hid, _⟩⟩ := hactive hc
      · exact absurd hn (hhandlers n)
      · exact absurd ⟨t, ht, hid⟩ (htasks n)
  · rintro ⟨n, id'⟩ hmem rfl
    rcases hi.held n id' hmem with ⟨h, hh, hid, hl⟩ | ht
    · refine hhandlers n ⟨h, hh, hid, fun hp => ?_⟩
      simp [(hi.placed n).inScope h hh, hp, scope] at hl
    · exact htasks n ht

theorem length_openedId : (List.replicate 16 (0 : UInt8)).length = 16 := rfl

def openedId : Uuid := ⟨List.replicate 16 0, length_openedId⟩

/-- A tunnel is opened and shut down; when it is forgotten, a second request for the same stream is
    cancelled while it connects. -/
def openingEvents (u : Tunnel.Setup) : List Event :=
  [.register 0 openedId, .advance 0 true u, .advance 0 true u, .advance 0 true u, .advance 0 true u,
   .poll 0, .advance 0 true u, .tunnel 0 (.tunnel .shutdownSignal), .finish 0, .tick 1201, .janitor,
   .register 1 openedId, .advance 1 true u, .cancel 1]

theorem no_leaked_registrations_demo :
    ∃ s, run (step 1) (Openings.new 0) (openingEvents Tunnel.raceSetup) = some s ∧
      check s.streams openedId = .consumed ∧ s.held = [] ∧
      (check s.streams openedId = .active →
        ∃ n, s.HandlerBeforeSpawn n openedId ∨ s.ActorInLoop n openedId) := by
  refine ⟨_, rfl, by decide, rfl, ?_⟩
  exact (no_leaked_registrations 1 0 (openingEvents Tunnel.raceSetup) _ rfl openedId).1

end Httproxy.Opening
