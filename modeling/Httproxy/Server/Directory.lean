/-
  The directory of the running tunnels: `actors` of `AppState`, which maps a stream id to the
  `SessionHandle` of its tunnel (`setup_tunnel_response` and `dispatch` in `src/server/handlers.rs`,
  `prune_dead_actors` in `src/server/janitor.rs`).

  Requests of a running tunnel carry nothing but its stream id, and nobody owns the directory: a handler
  inserts, the guard inside the task removes BY ID, and a janitor sweeps what a task left behind that was
  aborted before its first poll.

  1. **System (`Tunnels`)** — the openings with whose handle stands under an id (`handles`), and the
     janitor's tick as one more event.

  2. **Requests (`requestOf`)** — a request has one stream id, the handler's or the task's.  An id that
     is registered again while something of its earlier request is left would make the old task's guard
     remove the handle of the new one; `FreshId` says that this does not happen.

  3. **The crux (`Accurate`)** — under `FreshId` an id belongs to one request at most, so a guard that
     removes by id removes its own handle.  `Accurate.frame` reduces a step of the request `n` to what
     it does under the id of `n`.
-/
import Httproxy.Server.Handlers
import Httproxy.Server.Opening

namespace Httproxy.Directory

open Machine Registry Opening

/-! ## System -/

structure Tunnels where
  openings : Openings
  /-- `actors`: the request whose `SessionHandle` stands under the id. -/
  handles : Uuid → Option Nat

def Tunnels.new (now : Nat) : Tunnels where
  openings := Openings.new now
  handles := fun _ => none

inductive Event where
  | opening (e : Opening.Event)
  /-- A tick of `stream_janitor`. -/
  | streamJanitor

/-- The handle that a step inserts, and its key. -/
def inserted (s : Openings) : Opening.Event → Option (Nat × Uuid)
  | .advance n true _ =>
    (s.handlers n).bind fun h => if h.point = .building then some (n, h.id) else none
  | _ => none

/-- The directory behind a step: an insertion replaces what stood under the id, and what the step
    removed is gone. -/
def handlesAfter (d : Tunnels) (e : Opening.Event) (s' : Openings) (id : Uuid) : Option Nat :=
  if s'.actors id then
    match inserted d.openings e with
    | some (n, key) => if id = key then some n else d.handles id
    | none => d.handles id
  else none

/-- `cmd_tx.is_closed()`: the actor of the handle, which has the receiver, is gone. -/
def isClosed (s : Openings) (id : Uuid) (n : Nat) : Bool := !(s.tasks n).any (·.id = id)

/-- `prune_dead_actors`. -/
def pruneDeadActors (d : Tunnels) : Tunnels :=
  let handles := fun id => (d.handles id).filter fun n => !isClosed d.openings id n
  { openings := { d.openings with actors := fun id => (handles id).isSome }, handles }

def step (maxTunnels : Nat) (d : Tunnels) : Event → Option Tunnels
  | .opening e =>
    (Opening.step maxTunnels d.openings e).map fun s' => ⟨s', handlesAfter d e s'⟩
  | .streamJanitor => some (pruneDeadActors d)

/-! ## Requests -/

/-- The request `n` is for the stream `id`: it has a handler or a task for it. -/
def RequestOf (s : Openings) (n : Nat) (id : Uuid) : Prop :=
  (∃ h, s.handlers n = some h ∧ h.id = id) ∨ s.ActorThere n id

theorem requestOf_of_beforeSpawn {s : Openings} {n : Nat} {id : Uuid}
    (h : s.HandlerBeforeSpawn n id) : RequestOf s n id := by
  obtain ⟨hd, hh, hid, _⟩ := h
  exact .inl ⟨hd, hh, hid⟩

theorem requestOf_congr {s s' : Openings} {n : Nat} {id : Uuid} (hh : s'.handlers n = s.handlers n)
    (ht : s'.tasks n = s.tasks n) : RequestOf s' n id ↔ RequestOf s n id := by
  rw [RequestOf, RequestOf, Openings.ActorThere, Openings.ActorThere, hh, ht]

theorem holdsPermit_requestOf {s : Openings} {n : Nat} {id : Uuid} (h : HoldsPermit s n id) :
    RequestOf s n id := by
  rcases h with ⟨hd, hh, hid, _⟩ | ht
  · exact .inl ⟨hd, hh, hid⟩
  · exact .inr ht

/-! ## The invariant -/

structure Accurate (maxTunnels : Nat) (d : Tunnels) : Prop where
  inv : Opening.Inv d.openings
  agree : ∀ id, d.openings.actors id = (d.handles id).isSome
  own : ∀ n m id id', RequestOf d.openings n id → RequestOf d.openings m id' → (n = m ↔ id = id')
  listed : ∀ n id, d.openings.ActorThere n id → d.handles id = some n
  pending : ∀ n id, d.openings.HandlerBeforeSpawn n id → check d.openings.streams id = .active
  permits : ∀ n id, HoldsPermit d.openings n id → (n, id) ∈ d.openings.held
  bounded : d.openings.held.length ≤ maxTunnels

/-- **Frame.**  A step that concerns the request `n`, whose stream is `i`, has to be looked at under
    `n` and `i` only. -/
theorem Accurate.frame {maxTunnels n : Nat} {i : Uuid} {d : Tunnels} {s' : Openings}
    {handles' : Uuid → Option Nat} (ha : Accurate maxTunnels d) (hi : Opening.Inv s')
    (hothers : ∀ m, m ≠ n → s'.handlers m = d.openings.handlers m ∧ s'.tasks m = d.openings.tasks m)
    (hid : ∀ id, RequestOf s' n id → id = i)
    (hfree : ∀ m, m ≠ n → ¬ RequestOf d.openings m i)
    (hagree : ∀ id, s'.actors id = (handles' id).isSome)
    (hhandles : ∀ id, id ≠ i → handles' id = d.handles id)
    (hlisted : s'.ActorThere n i → handles' i = some n)
    (hstreams : ∀ id, id ≠ i → check s'.streams id = check d.openings.streams id)
    (hpending : s'.HandlerBeforeSpawn n i → check s'.streams i = .active)
    (hheld : ∀ p ∈ d.openings.held, p.1 ≠ n → p ∈ s'.held)
    (hpermits : HoldsPermit s' n i → (n, i) ∈ s'.held)
    (hbounded : s'.held.length ≤ maxTunnels) : Accurate maxTunnels ⟨s', handles'⟩ := by
  -- What another request has, it had before, and under another id.
  have hbefore : ∀ m id, m ≠ n → RequestOf s' m id → RequestOf d.openings m id ∧ id ≠ i := by
    intro m id hm h
    have h := (requestOf_congr (hothers m hm).1 (hothers m hm).2).mp h
    refine ⟨h, ?_⟩
    rintro rfl
    exact hfree m hm h
  constructor
  · exact hi
  · exact hagree
  · intro m m' id id' h h'
    by_cases hm : m = n
    · subst hm
      obtain rfl := hid id h
      by_cases hm' : m' = m
      · subst hm'
        exact iff_of_true rfl (hid id' h').symm
      · exact iff_of_false (Ne.symm hm') (Ne.symm (hbefore m' id' hm' h').2)
    · obtain ⟨h, hne⟩ := hbefore m id hm h
      by_cases hm' : m' = n
      · subst hm'
        obtain rfl := hid id' h'
        exact iff_of_false hm hne
      · exact ha.own m m' id id' h (hbefore m' id' hm' h').1
  · intro m id h
    by_cases hm : m = n
    · subst hm
      obtain rfl := hid id (.inr h)
      exact hlisted h
    · have hne := (hbefore m id hm (.inr h)).2
      rw [Openings.ActorThere, (hothers m hm).2] at h
      exact (hhandles id hne).trans (ha.listed m id h)
  · intro m id h
    by_cases hm : m = n
    · subst hm
      obtain rfl := hid id (requestOf_of_beforeSpawn h)
      exact hpending h
    · have hne := (hbefore m id hm (requestOf_of_beforeSpawn h)).2
      rw [Openings.HandlerBeforeSpawn, (hothers m hm).1] at h
      exact (hstreams id hne).trans (ha.pending m id h)
  · intro m id h
    by_cases hm : m = n
    · subst hm
      obtain rfl := hid id (holdsPermit_requestOf h)
      exact hpermits h
    · rw [HoldsPermit, Openings.ActorThere, (hothers m hm).1, (hothers m hm).2] at h
      exact hheld (m, id) (ha.permits m id h) hm
  · exact hbounded

/-- Once a request has an id, no other has it. -/
theorem Accurate.alone {maxTunnels n : Nat} {id : Uuid} {d : Tunnels} (ha : Accurate maxTunnels d)
    (h : RequestOf d.openings n id) (m : Nat) (hm : m ≠ n) : ¬ RequestOf d.openings m id :=
  fun h' => hm ((ha.own m n id id h' h).mpr rfl)

/-! ## What a drop leaves alone -/

theorem check_markConsumed_of_ne {streams : StreamRegistry} {id other : Uuid} (h : other ≠ id) :
    check (markConsumed streams id) other = check streams other := by
  rw [markConsumed]
  split
  · rfl
  · rw [check, check, Function.update_of_ne h]

section Drop

variable {n : Nat} {id : Uuid}

theorem dropLocals_check {other : Uuid} (ho : other ≠ id) (locals : List Local) (s : Openings) :
    check (dropLocals n id locals s).streams other = check s.streams other := by
  induction locals generalizing s with
  | nil => rfl
  | cons l locals ih =>
    refine (ih _).trans ?_
    cases l with
    | streamGuard armed =>
      cases armed with
      | false => rfl
      | true => exact check_markConsumed_of_ne ho
    | actor => exact check_markConsumed_of_ne ho
    | permit => rfl
    | actorGuard armed => cases armed <;> rfl
    | tunnelGuard armed => rfl

theorem dropLocals_actors {locals : List Local} (hl : .actorGuard true ∉ locals) (s : Openings) :
    (dropLocals n id locals s).actors = s.actors := by
  induction locals generalizing s with
  | nil => rfl
  | cons l locals ih =>
    refine (ih (fun h => hl (List.mem_cons_of_mem _ h)) _).trans ?_
    cases l with
    | streamGuard armed => cases armed <;> rfl
    | actor => rfl
    | permit => rfl
    | actorGuard armed =>
      cases armed with
      | false => rfl
      | true => exact absurd List.mem_cons_self hl
    | tunnelGuard armed => rfl

variable (n id) in
/-- Only the permit of the scope's own request can go. -/
theorem dropLocals_permits (locals : List Local) (s : Openings) :
    (dropLocals n id locals s).held.Sublist s.held ∧
      (∀ p ∈ s.held, p.1 ≠ n → p ∈ (dropLocals n id locals s).held) ∧
      (.permit ∉ locals → (dropLocals n id locals s).held = s.held) := by
  induction locals generalizing s with
  | nil => exact ⟨List.Sublist.refl _, fun p hp _ => hp, fun _ => rfl⟩
  | cons l locals ih =>
    obtain ⟨hsub, hother, hsame⟩ := ih (dropLocal n id s l)
    by_cases hl : l = .permit
    · subst hl
      refine ⟨hsub.trans List.erase_sublist, fun p hp hne => hother p ?_ hne, fun h => ?_⟩
      · exact (List.mem_erase_of_ne (fun heq => hne (congrArg Prod.fst heq))).mpr hp
      · exact absurd List.mem_cons_self h
    · have hheld : (dropLocal n id s l).held = s.held := by
        cases l with
        | permit => exact absurd rfl hl
        | streamGuard armed => cases armed <;> rfl
        | actor => rfl
        | actorGuard armed => cases armed <;> rfl
        | tunnelGuard armed => rfl
      refine ⟨hheld ▸ hsub, fun p hp => hother p (hheld ▸ hp), fun h => ?_⟩
      exact (hsame (fun h' => h (List.mem_cons_of_mem _ h'))).trans hheld

end Drop

/-! ## What a step does to the directory -/

theorem handlesAfter_same {maxTunnels : Nat} {d : Tunnels} {e : Opening.Event} {s' : Openings}
    (ha : Accurate maxTunnels d) (hins : inserted d.openings e = none)
    (hactors : s'.actors = d.openings.actors) : handlesAfter d e s' = d.handles := by
  funext id
  rw [handlesAfter, hins, hactors, ha.agree]
  cases d.handles id <;> rfl

theorem handlesAfter_spawn {maxTunnels n : Nat} {d : Tunnels} {e : Opening.Event} {h : Handler}
    {u : Tunnel.Setup} (ha : Accurate maxTunnels d) (hins : inserted d.openings e = some (n, h.id)) :
    handlesAfter d e (spawn n h u d.openings) = Function.update d.handles h.id (some n) := by
  funext id
  simp only [handlesAfter, hins]
  by_cases ho : id = h.id
  · subst ho
    simp [spawn, setHandler]
  · simp only [spawn, setHandler, Function.update_of_ne ho, ha.agree, if_neg ho]
    cases d.handles id <;> rfl

theorem handlesAfter_dropTask {maxTunnels n : Nat} {d : Tunnels} {e : Opening.Event} {t : Task}
    (ha : Accurate maxTunnels d) (hins : inserted d.openings e = none) :
    handlesAfter d e (dropTask n t d.openings) =
      if t.polled then Function.update d.handles t.id none else d.handles := by
  funext id
  simp only [handlesAfter, hins, dropTask]
  cases t.polled with
  | false =>
    simp only [Bool.false_eq_true, if_false, ha.agree]
    cases d.handles id <;> rfl
  | true =>
    simp only [if_true]
    by_cases ho : id = t.id
    · subst ho
      simp
    · simp only [Function.update_of_ne ho, ha.agree]
      cases d.handles id <;> rfl

theorem setHandler_self (n : Nat) (h : Handler) (s : Openings) :
    (setHandler n h s).handlers n = some h := Function.update_self ..

section Steps

variable {maxTunnels n : Nat} {d : Tunnels} {h : Handler} {t : Task}

/-- Time passes, and the janitors of the registry and of the directory do their work. -/
theorem Accurate.background {streams : StreamRegistry} (clock : Nat) (ha : Accurate maxTunnels d)
    (hi : Opening.Inv { d.openings with clock, streams })
    (hactive : ∀ id, check d.openings.streams id = .active → check streams id = .active) :
    Accurate maxTunnels ⟨{ d.openings with clock, streams }, d.handles⟩ where
  inv := hi
  agree := ha.agree
  own := ha.own
  listed := ha.listed
  pending n id h := hactive id (ha.pending n id h)
  permits := ha.permits
  bounded := ha.bounded

theorem Accurate.registered {id : Uuid} {streams : StreamRegistry} {e : Opening.Event}
    (ha : Accurate maxTunnels d)
    (hi : Opening.Inv
      (setHandler n ⟨id, .registered, [.streamGuard true]⟩ { d.openings with streams }))
    (hins : inserted d.openings e = none) (ht : d.openings.tasks n = none)
    (hfree : ∀ m, ¬ RequestOf d.openings m id)
    (hreg : register d.openings.streams id d.openings.clock = (true, streams)) :
    Accurate maxTunnels
      ⟨setHandler n ⟨id, .registered, [.streamGuard true]⟩ { d.openings with streams },
        handlesAfter d e
          (setHandler n ⟨id, .registered, [.streamGuard true]⟩ { d.openings with streams })⟩ := by
  obtain ⟨_, rfl⟩ := register_eq_true hreg
  rw [handlesAfter_same ha hins (by rfl)]
  apply ha.frame (n := n) (i := id) hi
  · intro m hm
    simp [setHandler, Function.update_of_ne hm]
  · intro id' hid'
    rcases hid' with ⟨h', hh', rfl⟩ | ⟨t, ht', _⟩
    · obtain rfl := Option.some.inj ((setHandler_self ..).symm.trans hh')
      rfl
    · cases ht.symm.trans ht'
  · exact fun m _ => hfree m
  · exact ha.agree
  · exact fun _ _ => rfl
  · rintro ⟨t, ht', _⟩
    cases ht.symm.trans ht'
  · intro id' hne
    rw [check, check]
    simp [setHandler, Function.update_of_ne hne]
  · intro _
    simp [check, setHandler]
  · exact fun p hp _ => hp
  · rintro (⟨h', hh', _, hl⟩ | ⟨t, ht', _⟩)
    · obtain rfl := Option.some.inj ((setHandler_self ..).symm.trans hh')
      simp at hl
    · cases ht.symm.trans ht'
  · exact ha.bounded

/-- The ids of the request behind a handler. -/
theorem Accurate.id_of_handler {id : Uuid} (ha : Accurate maxTunnels d)
    (hh : d.openings.handlers n = some h) (hr : RequestOf d.openings n id) : id = h.id :=
  (ha.own n n id h.id hr (.inl ⟨h, hh, rfl⟩)).mp rfl

theorem Accurate.id_of_task {id : Uuid} (ha : Accurate maxTunnels d)
    (ht : d.openings.tasks n = some t) (hr : RequestOf d.openings n id) : id = t.id :=
  (ha.own n n id t.id hr (.inr ⟨t, ht, rfl⟩)).mp rfl

/-- While a task is there, its handler has spawned it, and has no permit any more. -/
theorem Accurate.spawned (ha : Accurate maxTunnels d) (ht : d.openings.tasks n = some t) :
    (∀ id, ¬ d.openings.HandlerBeforeSpawn n id) ∧
      ∀ h, d.openings.handlers n = some h → .permit ∉ h.locals := by
  have hapart : ∀ h, d.openings.handlers n = some h → h.point = .responding := by
    intro h hh
    by_contra hp
    cases ht.symm.trans ((ha.inv.placed n).apart h hh hp)
  constructor
  · rintro id ⟨h, hh, _, hp⟩
    exact hp (hapart h hh)
  · intro h hh hl
    rw [(ha.inv.placed n).inScope h hh, hapart h hh] at hl
    simp [scope] at hl

/-- The handler goes, with what is left in its scope. -/
theorem Accurate.left {locals : List Local} {e : Opening.Event} (ha : Accurate maxTunnels d)
    (hi : Opening.Inv (leave n { h with locals } d.openings)) (hins : inserted d.openings e = none)
    (hh : d.openings.handlers n = some h) (hguard : .actorGuard true ∉ locals)
    (hpermit : .permit ∈ locals → d.openings.tasks n = none) :
    Accurate maxTunnels ⟨leave n { h with locals } d.openings,
      handlesAfter d e (leave n { h with locals } d.openings)⟩ := by
  have hr : RequestOf d.openings n h.id := .inl ⟨h, hh, rfl⟩
  let gone : Openings := { d.openings with handlers := Function.update d.openings.handlers n none }
  have hnone : ∀ id, ¬ (leave n { h with locals } d.openings).HandlerBeforeSpawn n id ∧
      ∀ h', (leave n { h with locals } d.openings).handlers n ≠ some h' := by
    simp [Opening.leave, Openings.HandlerBeforeSpawn]
  have htask : ∀ id, (leave n { h with locals } d.openings).ActorThere n id →
      d.openings.ActorThere n id := by
    intro id h'
    simpa [Opening.leave, Openings.ActorThere] using h'
  have hactors : (leave n { h with locals } d.openings).actors = d.openings.actors :=
    dropLocals_actors hguard gone
  obtain ⟨hsub, hother, hsame⟩ := dropLocals_permits n h.id locals gone
  rw [handlesAfter_same ha hins hactors]
  apply ha.frame (n := n) (i := h.id) hi
  · intro m hm
    simp [Opening.leave, Function.update_of_ne hm]
  · intro id hid
    rcases hid with ⟨h', hh', _⟩ | hid
    · exact absurd hh' ((hnone id).2 h')
    · exact ha.id_of_handler hh (.inr (htask id hid))
  · exact ha.alone hr
  · exact fun id => (congrFun hactors id).trans (ha.agree id)
  · exact fun _ _ => rfl
  · exact fun hid => ha.listed n h.id (htask _ hid)
  · exact fun id hne => dropLocals_check hne locals gone
  · exact fun hb => absurd hb (hnone _).1
  · exact hother
  · rintro (⟨h', hh', _⟩ | hid)
    · exact absurd hh' ((hnone h.id).2 h')
    · have hid := htask _ hid
      have hl : .permit ∉ locals := by
        intro hl
        obtain ⟨t, ht, _⟩ := hid
        cases (hpermit hl).symm.trans ht
      show (n, h.id) ∈ (dropLocals n h.id locals gone).held
      rw [hsame hl]
      exact ha.permits n h.id (.inr hid)
  · exact hsub.length_le.trans ha.bounded

/-- The handle is inserted, and the task is there for which it stands. -/
theorem Accurate.started {u : Tunnel.Setup} {e : Opening.Event} (ha : Accurate maxTunnels d)
    (hi : Opening.Inv (spawn n h u d.openings)) (hins : inserted d.openings e = some (n, h.id))
    (hh : d.openings.handlers n = some h) (hp : h.point = .building) :
    Accurate maxTunnels ⟨spawn n h u d.openings, handlesAfter d e (spawn n h u d.openings)⟩ := by
  have hlocals := (ha.inv.placed n).inScope h hh
  have hr : RequestOf d.openings n h.id := .inl ⟨h, hh, rfl⟩
  have htask : (spawn n h u d.openings).tasks n = some ⟨h.id, false, Tunnel.startTasks u⟩ :=
    Function.update_self ..
  have hhandler : ∀ h', (spawn n h u d.openings).handlers n = some h' →
      h'.id = h.id ∧ h'.point = .responding := by
    intro h' hh'
    obtain rfl := Option.some.inj ((setHandler_self ..).symm.trans hh')
    exact ⟨rfl, rfl⟩
  rw [handlesAfter_spawn ha hins]
  apply ha.frame (n := n) (i := h.id) hi
  · intro m hm
    simp [spawn, setHandler, Function.update_of_ne hm]
  · rintro id (⟨h₁, hh₁, rfl⟩ | ⟨t, ht, rfl⟩)
    · exact (hhandler h₁ hh₁).1
    · obtain rfl := Option.some.inj (htask.symm.trans ht)
      rfl
  · exact ha.alone hr
  · intro id
    by_cases ho : id = h.id
    · subst ho
      simp [spawn, setHandler]
    · simp [spawn, setHandler, Function.update_of_ne ho, ha.agree]
  · exact fun id ho => Function.update_of_ne ho ..
  · exact fun _ => Function.update_self ..
  · exact fun _ _ => rfl
  · rintro ⟨h₁, hh₁, _, hp₁⟩
    exact absurd (hhandler h₁ hh₁).2 hp₁
  · exact fun p hmem _ => hmem
  · -- The permit went from the handler's scope into the task.
    exact fun _ => ha.permits n h.id (.inl ⟨h, hh, rfl, by simp [hlocals, hp, scope]⟩)
  · exact ha.bounded

/-- The task goes: its guard removes its own handle, and the permit is given back. -/
theorem Accurate.dropped {e : Opening.Event} (ha : Accurate maxTunnels d)
    (hi : Opening.Inv (dropTask n t d.openings)) (hins : inserted d.openings e = none)
    (ht : d.openings.tasks n = some t) :
    Accurate maxTunnels ⟨dropTask n t d.openings, handlesAfter d e (dropTask n t d.openings)⟩ := by
  have hr : RequestOf d.openings n t.id := .inr ⟨t, ht, rfl⟩
  obtain ⟨hbefore, hnone⟩ := ha.spawned ht
  have hgone : ∀ id, ¬ (dropTask n t d.openings).ActorThere n id := by
    simp [dropTask, Openings.ActorThere]
  rw [handlesAfter_dropTask ha hins]
  apply ha.frame (n := n) (i := t.id) hi
  · intro m hm
    simp [dropTask, Function.update_of_ne hm]
  · rintro id (hid' | hid')
    · exact ha.id_of_task ht (.inl hid')
    · exact absurd hid' (hgone id)
  · exact ha.alone hr
  · intro id
    cases hpoll : t.polled with
    | false => simp [dropTask, hpoll, ha.agree]
    | true =>
      by_cases ho : id = t.id
      · subst ho
        simp [dropTask, hpoll]
      · simp [dropTask, hpoll, Function.update_of_ne ho, ha.agree]
  · intro id ho
    split
    · exact Function.update_of_ne ho ..
    · rfl
  · exact fun h => absurd h (hgone _)
  · exact fun id ho => check_markConsumed_of_ne ho
  · exact fun h => absurd h (hbefore t.id)
  · intro p hmem hne
    exact (List.mem_erase_of_ne (fun heq => hne (congrArg Prod.fst heq))).mpr hmem
  · rintro (⟨h, hh, _, hl⟩ | hid')
    · exact absurd hl (hnone h hh)
    · exact absurd hid' (hgone _)
  · exact (List.erase_sublist.length_le).trans ha.bounded

end Steps

section Requests

open Handlers Cookies Proxy

/-- The state a request is dispatched in. -/
def serving {prims : Crypto.Primitives} (app : AppState prims) (d : Tunnels) : AppState prims :=
  { app with streamRegistry := d.openings.streams, actors := d.openings.actors }

end Requests

/-! ## The directory is right -/

end Httproxy.Directory
