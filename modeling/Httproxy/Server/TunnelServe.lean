/-
  The tunnel actor at the grain at which other tasks can see it.

  A turn of the actor's `select!` is synchronous, but the segments it hands out live in OTHER tasks,
  on other threads.  They meet the actor in the slot (a mutex) and in the done channel.  For every
  branch but one it makes no difference whether the turn is one step: nobody else can fill or empty
  the slot during it.  The branch of a done notification is the exception.  Its loop in
  `serve_pending_continue` hands out a segment in one iteration and looks at the slot again in the
  next, and by then the first segment may have come to its byte limit and given the shaper back.

  1. **System** — `Tasks`: the tunnel, and the local variables of `serve_pending_continue` while it
     runs.  `taskStep` takes its loop ONE reply at a time; everything else is the step of
     `Tunnel.step`.  A loop that nobody disturbs is the turn of that model (`serve_uninterrupted`).

  2. **Property (`SingleOwner`)** — the shaper is in one place, at most one segment is outstanding and
     `segment_active` says so, `take_segment` is never called to give out a second one, and the done
     channel has room.

  3. **The defect** — two replies are queued when the notification comes.  The segment of the first
     is polled to its limit and dropped while the loop stands between the two, and the second is
     given ANOTHER segment although the first has not been seen as done (`second_segment`).
     Without that interleaving the property holds in every state (`shaper_has_single_owner`).
-/
import Httproxy.Server.TunnelOwner

namespace Httproxy.Tunnel

open Machine

/-! ## The system -/

structure Tasks where
  tunnel : TunnelState
  /-- `alive` and the replies that are still to be looked at, while `serve_pending_continue` runs. -/
  serving : Option (Bool × List Reply)
  deriving DecidableEq

inductive TaskEvent where
  /-- An event of the tunnel; a done notification only begins its branch. -/
  | tunnel (e : Event)
  /-- One iteration of the loop in `serve_pending_continue`, or the end of the turn. -/
  | serve
  deriving DecidableEq

/-- The actor receives a done notification, up to the call of `serve_pending_continue`. -/
def receiveDone (t : TunnelState) : TunnelState :=
  let t := { t with doneQueue := t.doneQueue - 1, segmentActive := false }
  if shaperAlive t then
    { t with phase := .rotating, rotationDeadline := t.clock + ROTATION_STALENESS }
  else { t with phase := .draining }

/-- `std::mem::take(&mut self.pending_continue)`. -/
def takePending (t : TunnelState) : TunnelState := { t with pendingContinue := [] }

/-- The events that are turns of the actor itself; the others happen in other tasks. -/
def Event.byActor : Event → Bool
  | .segmentDone | .cmd _ | .cmdClosed | .rotationTimeout | .shutdownSignal | .idleSleep => true
  | .tick _ | .poll _ _ | .release _ | .notify | .direct _ | .upload => false

def taskStep (s : Tasks) : TaskEvent → Option Tasks
  | .tunnel .segmentDone =>
    if s.serving = none ∧ s.tunnel.left = none ∧ s.tunnel.doneQueue ≠ 0 then
      let t := receiveDone s.tunnel
      some ⟨takePending t, some (shaperAlive t, t.pendingContinue)⟩
    else none
  | .tunnel e =>
    if e.byActor ∧ s.serving ≠ none then none
    else (step s.tunnel e).map fun t => ⟨t, s.serving⟩
  | .serve =>
    match s.serving with
    | none => none
    | some (_, []) => some ⟨endTurn s.tunnel, none⟩
    | some (alive, reply :: pending) => some ⟨serveReply alive reply s.tunnel, some (alive, pending)⟩

/-- An event other than a done notification is the step of the tunnel. -/
theorem taskStep_tunnel (s : Tasks) {e : Event} (h : e ≠ .segmentDone) :
    taskStep s (.tunnel e) =
      if e.byActor ∧ s.serving ≠ none then none
      else (step s.tunnel e).map fun t => ⟨t, s.serving⟩ := by
  cases e with
  | segmentDone => exact absurd rfl h
  | _ => rfl

/-- The tunnel as `run` finds it. -/
def startTasks (u : Setup) : Tasks := ⟨start u, none⟩

/-! ## The loop as one step -/

theorem serve_all (alive : Bool) (rs : List Reply) (t : TunnelState) :
    run taskStep ⟨t, some (alive, rs)⟩ (List.replicate (rs.length + 1) .serve) =
      some ⟨endTurn (servePendingContinue alive rs t), none⟩ := by
  induction rs generalizing t with
  | nil => rfl
  | cons r rs ih =>
    show run taskStep ⟨serveReply alive r t, some (alive, rs)⟩ _ = _
    exact ih (serveReply alive r t)

@[simp] theorem receiveDone_pending (t : TunnelState) :
    (receiveDone t).pendingContinue = t.pendingContinue := by
  rw [receiveDone]
  dsimp only
  split <;> rfl

theorem segmentDone_eq (t : TunnelState) :
    segmentDone t = servePendingContinue (shaperAlive (receiveDone t)) t.pendingContinue
      (takePending (receiveDone t)) := by
  rw [segmentDone, receiveDone]
  dsimp only
  split <;> rfl

/-- **A loop that nobody disturbs** is the turn of the coarser model. -/
theorem serve_uninterrupted {t t' : TunnelState} (h : step t .segmentDone = some t') :
    run taskStep ⟨t, none⟩
      (.tunnel .segmentDone :: List.replicate (t.pendingContinue.length + 1) .serve) =
      some ⟨t', none⟩ := by
  rw [step] at h
  split at h
  · cases h
  · rename_i hd
    obtain ⟨hl, rfl⟩ := turn_eq_some.mp h
    have hstep : taskStep ⟨t, none⟩ (.tunnel .segmentDone) =
        some ⟨takePending (receiveDone t), some (shaperAlive (receiveDone t), t.pendingContinue)⟩ := by
      rw [← receiveDone_pending]
      exact if_pos ⟨rfl, hl, hd⟩
    rw [run_cons, hstep, segmentDone_eq]
    exact serve_all _ _ _

/-! ## The property -/

/-- The event, in this state, makes the actor call `take_segment`. -/
def CallsTakeSegment (s : Tasks) : TaskEvent → Prop
  | .tunnel (.cmd (.continue reply)) =>
    s.serving = none ∧ s.tunnel.left = none ∧ s.tunnel.phase = .rotating ∧ reply.receiver ≠ .closed
  | .serve => ∃ reply pending, s.serving = some (true, reply :: pending) ∧ reply.receiver ≠ .closed
  | _ => False

/-- Where the shaper is: the slot, or a live segment. -/
def places (t : TunnelState) : Nat :=
  t.slot.toList.length + (t.segments.filter fun g => g.shaper.isSome).length

structure SingleOwner (s : Tasks) : Prop where
  in_one_place : places s.tunnel ≤ 1
  at_most_one : outstanding s.tunnel ≤ 1
  active_iff : outstanding s.tunnel = 1 ↔ s.tunnel.segmentActive = true
  no_second : ∀ e, CallsTakeSegment s e → takeSegment s.tunnel ≠ none → outstanding s.tunnel = 0
  room : s.tunnel.doneQueue < SEGMENT_DONE_CHANNEL_CAPACITY

/-! ## The invariant -/

/-- The replies of a running loop that will make it look at the slot. -/
def Tasks.unserved (s : Tasks) : List Reply :=
  match s.serving with
  | none => []
  | some (_, pending) => waiting pending

/-- What holds between two steps.  While the loop still has a reply to serve, the shaper is only in
    the slot when no segment is outstanding. -/
structure Held (s : Tasks) : Prop where
  single : Single s.tunnel
  rotating : s.tunnel.phase = .rotating → s.tunnel.segmentActive = false
  unserved : s.unserved ≠ [] → s.tunnel.slot.isSome → outstanding s.tunnel = 0

/-- The step puts the shaper back while the loop still has a reply to serve. -/
def disturbs (s : Tasks) : TaskEvent → Bool
  | .tunnel (.release i) => !s.unserved.isEmpty && s.tunnel.segments[i]?.any Segment.parks
  | _ => false

def Undisturbed (s : Tasks) (e : TaskEvent) : Prop := disturbs s e = false

instance (s : Tasks) (e : TaskEvent) : Decidable (Undisturbed s e) :=
  inferInstanceAs (Decidable (disturbs s e = false))

theorem single_cleanup {t : TunnelState} (h : Single t) (why : Exit) : Single (cleanup why t) := by
  refine { h with apart := ?_ }
  intro hs
  apply h.apart
  revert hs
  show (if t.shaperSlot then none else t.slot).isSome → t.slot.isSome
  split
  · intro hs
    cases hs
  · exact id

/-- Leaving the loop of `run`. -/
theorem held_cleanup {t : TunnelState} (h : Single t) (why : Exit) : Held ⟨cleanup why t, none⟩ where
  single := single_cleanup h why
  rotating := by rintro ⟨⟩
  unserved := fun hu => absurd rfl hu

/-- A done notification is received: nothing is outstanding any more. -/
theorem single_receiveDone {t : TunnelState} (h : Single t) (hd : t.doneQueue ≠ 0) :
    Single (receiveDone t) ∧ outstanding (receiveDone t) = 0 ∧
      (receiveDone t).segmentActive = false := by
  obtain ⟨hseg, hdrop, hdone⟩ := h.done_alone hd
  have hzero : outstanding { t with doneQueue := t.doneQueue - 1, segmentActive := false } = 0 := by
    simp [outstanding, hseg, hdrop, hdone]
  have hnow : Single { t with doneQueue := t.doneQueue - 1, segmentActive := false } := by
    constructor
    · omega
    · simp [hzero]
    · simp [hseg]
    · simp [hseg]
  rw [receiveDone]
  dsimp only
  split
  · exact ⟨{ hnow with }, hzero, rfl⟩
  · exact ⟨{ hnow with }, hzero, rfl⟩

/-- `take_segment` out of a filled slot, or not at all. -/
theorem takeSegment_cases (t : TunnelState) :
    takeSegment t = none ∨ ∃ shaper, t.slot = some shaper ∧
      takeSegment t = some (Segment.new shaper t.maxDownloadBytes,
        { t with slot := none, segmentActive := true }) := by
  rw [takeSegment]
  split
  · cases hsl : t.slot with
    | none => exact .inl rfl
    | some shaper => exact .inr ⟨shaper, rfl, rfl⟩
  · exact .inl rfl

/-- **Inversion** of one iteration of the loop. -/
theorem serveReply_cases (alive : Bool) (r : Reply) (t : TunnelState) :
    serveReply alive r t = t ∨ serveReply alive r t = sendNone r t ∨
    serveReply alive r t = sendNone r { t with phase := .draining } ∨
    ∃ shaper, r.receiver ≠ .closed ∧ t.slot = some shaper ∧
      serveReply alive r t = grant r shaper t := by
  rw [serveReply]
  split
  · exact .inr (.inl rfl)
  · split
    · exact .inl rfl
    · rename_i hopen
      rcases takeSegment_cases t with hnone | ⟨shaper, hsl, hsome⟩
      · rw [hnone]
        exact .inr (.inr (.inl rfl))
      · rw [hsome]
        exact .inr (.inr (.inr ⟨shaper, hopen, hsl, rfl⟩))

theorem held_grant {t : TunnelState} (h0 : outstanding t = 0) (r : Reply) (shaper : Shaper)
    (serving : Option (Bool × List Reply)) : Held ⟨grant r shaper t, serving⟩ := by
  constructor
  · exact single_grant shaper r h0
  · intro hp
    rw [show (grant r shaper t).phase = .active from grant_phase r shaper t] at hp
    cases hp
  · intro _ hs
    rw [show (grant r shaper t).slot = none from grant_slot r shaper t] at hs
    cases hs

theorem waiting_cons_ne_nil {r : Reply} {pending : List Reply} (h : waiting pending ≠ []) :
    waiting (r :: pending) ≠ [] := by
  intro hnil
  apply h
  rw [waiting, List.filter_cons] at hnil
  split at hnil
  · cases hnil
  · exact hnil

/-- **One iteration of the loop** in `serve_pending_continue`. -/
theorem held_serveReply {t : TunnelState} {alive : Bool} {r : Reply} {pending : List Reply}
    (h : Held ⟨t, some (alive, r :: pending)⟩) :
    Held ⟨serveReply alive r t, some (alive, pending)⟩ := by
  have hunserved : waiting pending ≠ [] → t.slot.isSome → outstanding t = 0 :=
    fun hu hs => h.unserved (waiting_cons_ne_nil hu) hs
  rcases serveReply_cases alive r t with heq | heq | heq | ⟨shaper, hopen, hsl, heq⟩
  · rw [heq]
    exact { h with unserved := hunserved }
  · rw [heq]
    exact { h with single := { h.single with }, unserved := hunserved }
  · rw [heq]
    exact {
      single := { h.single with }
      rotating := by rintro ⟨⟩
      unserved := hunserved }
  · rw [heq]
    have hw : waiting (r :: pending) ≠ [] := by simp [waiting, hopen]
    exact held_grant (h.unserved hw (by simp [hsl])) r shaper _

theorem held_endTurn {t : TunnelState} {alive : Bool} (h : Held ⟨t, some (alive, [])⟩) :
    Held ⟨endTurn t, none⟩ := by
  rw [endTurn]
  split
  · exact held_cleanup h.single _
  · exact { h with unserved := fun hu => absurd rfl hu }

/-- A `Continue` that the actor dispatches. -/
theorem held_continue {t : TunnelState} (h : Held ⟨t, none⟩) (r : Reply) :
    Held ⟨dispatchContinue r t, none⟩ := by
  have hun : (Tasks.mk t none).unserved = [] := rfl
  rw [dispatchContinue]
  split
  · rename_i hp
    have hzero : outstanding t = 0 := h.single.none_outstanding (h.rotating hp)
    dsimp only
    split
    · exact { h with
        single := { h.single with }
        rotating := by rintro ⟨⟩ }
    · rcases takeSegment_cases { t with phase := .active } with hnone | ⟨shaper, hsl, hsome⟩
      · rw [hnone]
        exact { h with
          single := { h.single with }
          rotating := by rintro ⟨⟩ }
      · rw [hsome]
        exact held_grant hzero r shaper none
  · split
    · exact { h with single := { h.single with } }
    · exact { h with single := { h.single with } }

/-- A segment in another task gives the shaper back or drops it. -/
theorem held_release {s : Tasks} (h : Held s) {i : Nat} {g : Segment}
    (hg : s.tunnel.segments[i]? = some g) (hun : Undisturbed s (.tunnel (.release i))) :
    Held ⟨release g { s.tunnel with
      segments := s.tunnel.segments.eraseIdx i, dropping := s.tunnel.dropping + 1 }, s.serving⟩ := by
  obtain ⟨-, -, -, -, hsl⟩ := h.single.live_alone hg
  refine ⟨single_release h.single hg, h.rotating, ?_⟩
  intro hu hs
  have hu' : s.unserved ≠ [] := hu
  have hparks : g.parks = false := by
    simpa [Undisturbed, disturbs, hg, hu'] using hun
  -- the slot stays as it is, and that is empty while the segment lives
  simp [release, hparks, hsl] at hs

/-- A step of the tunnel other than a done notification; a turn of the actor finds no loop running. -/
theorem held_turn {s : Tasks} {e : Event} {t' : TunnelState} (h : Held s)
    (hun : Undisturbed s (.tunnel e)) (hdone : e ≠ .segmentDone)
    (hactor : e.byActor = true → s.serving = none) (ht : Turn s.tunnel e t') :
    Held ⟨t', s.serving⟩ := by
  have hnote : Single (noteCommand s.tunnel) := { h.single with }
  cases ht with
  | tick secs => exact { h with single := { h.single with } }
  | segmentDone => exact absurd rfl hdone
  | cont _ r =>
    have hidle := hactor rfl
    rw [hidle]
    have hc : Held ⟨dispatchContinue r (noteCommand s.tunnel), none⟩ :=
      held_continue { h with single := hnote, unserved := fun hu => absurd rfl hu } r
    have hc' : Held ⟨dispatchContinue r (noteCommand s.tunnel), some (true, [])⟩ :=
      { hc with unserved := fun hu => absurd rfl hu }
    exact held_endTurn hc'
  | shutdown =>
    rw [hactor rfl]
    exact held_cleanup hnote _
  | cmdClosed =>
    rw [hactor rfl]
    exact held_cleanup hnote _
  | rotationTimeout =>
    rw [hactor rfl]
    exact held_cleanup h.single _
  | shutdownSignal =>
    rw [hactor rfl]
    exact held_cleanup h.single _
  | idleExit =>
    rw [hactor rfl]
    exact held_cleanup h.single _
  | idleReset => exact { h with single := { h.single with } }
  | @pollFrame i g g' data ready hg hp =>
    have hs := single_set h.single i (pollNext_holds hp (h.single.holds _ (List.mem_of_getElem? hg)))
    refine ⟨{ hs with }, h.rotating, fun hu hsl => ?_⟩
    have := h.unserved hu hsl
    simpa [outstanding, noteDownload] using this
  | @pollOther i g g' r ready hg hp =>
    have hs := single_set h.single i (pollNext_holds hp (h.single.holds _ (List.mem_of_getElem? hg)))
    refine ⟨hs, h.rotating, fun hu hsl => ?_⟩
    have := h.unserved hu hsl
    simpa [outstanding] using this
  | release hg => exact held_release h hg hun
  | notify hd =>
    obtain ⟨heq, hs⟩ := single_notify h.single hd
    rw [heq]
    refine ⟨hs, h.rotating, fun hu hsl => ?_⟩
    have hzero := h.unserved hu hsl
    rw [outstanding] at hzero
    omega
  | directFrame => exact { h with single := { h.single with } }
  | directErr => exact h
  | upload => exact { h with single := { h.single with } }

/-- The actor enters the branch of a done notification. -/
theorem held_receiveDone {s : Tasks} (h : Held s) (hd : s.tunnel.doneQueue ≠ 0)
    (serving : Option (Bool × List Reply)) : Held ⟨takePending (receiveDone s.tunnel), serving⟩ := by
  obtain ⟨hsingle, hzero, hidle⟩ := single_receiveDone h.single hd
  exact ⟨{ hsingle with }, fun _ => hidle, fun _ _ => hzero⟩

/-- **One step keeps it**, unless it disturbs the loop. -/
theorem held_step {s s' : Tasks} {e : TaskEvent} (h : Held s) (hun : Undisturbed s e)
    (hstep : taskStep s e = some s') : Held s' := by
  cases e with
  | serve =>
    obtain ⟨t, serving⟩ := s
    rw [taskStep] at hstep
    split at hstep
    · cases hstep
    · rename_i alive hserving
      obtain rfl : serving = some (alive, []) := hserving
      obtain rfl : _ = s' := Option.some.inj hstep
      exact held_endTurn h
    · rename_i alive r pending hserving
      obtain rfl : serving = some (alive, r :: pending) := hserving
      obtain rfl : _ = s' := Option.some.inj hstep
      exact held_serveReply h
  | tunnel e =>
    by_cases hdone : e = .segmentDone
    · subst hdone
      rw [taskStep, Option.ite_none_right_eq_some] at hstep
      obtain ⟨⟨-, -, hd⟩, heq⟩ := hstep
      obtain rfl : _ = s' := Option.some.inj heq
      exact held_receiveDone h hd _
    · rw [taskStep_tunnel s hdone, Option.ite_none_left_eq_some] at hstep
      obtain ⟨hguard, heq⟩ := hstep
      obtain ⟨t', ht', rfl⟩ := Option.map_eq_some_iff.mp heq
      apply held_turn h hun hdone _ (step_turn ht')
      intro hactor
      by_contra hrun
      exact hguard ⟨hactor, hrun⟩

theorem held_start {u : Setup} {m : UInt64} (hm : u.maxDownloadBytes = some m) :
    Held (startTasks u) := by
  have ho := owned_start hm
  exact ⟨ho.single, ho.rotating, fun hu => absurd rfl hu⟩

theorem Held.none_taken {s : Tasks} (h : Held s) {e : TaskEvent} (hcall : CallsTakeSegment s e)
    (htake : takeSegment s.tunnel ≠ none) : outstanding s.tunnel = 0 := by
  have hslot : s.tunnel.slot.isSome := by
    rcases takeSegment_cases s.tunnel with hnone | ⟨shaper, hsl, -⟩
    · exact absurd hnone htake
    · simp [hsl]
  match e, hcall with
  | .tunnel (.cmd (.continue _)), ⟨_, _, hp, _⟩ =>
    exact h.single.none_outstanding (h.rotating hp)
  | .serve, ⟨r, pending, hserving, hopen⟩ =>
    apply h.unserved _ hslot
    simp [Tasks.unserved, hserving, waiting, hopen]

/-- What the invariant says about the state. -/
theorem Held.singleOwner {s : Tasks} (h : Held s) : SingleOwner s where
  in_one_place := by
    rw [places]
    cases hsl : s.tunnel.slot with
    | some shaper =>
      have hnil := h.single.apart (by simp [hsl])
      simp [hnil]
    | none =>
      have hone := h.single.one
      rw [outstanding] at hone
      have hle := List.length_filter_le (fun g => g.shaper.isSome) s.tunnel.segments
      simp only [Option.toList_none, List.length_nil]
      omega
  at_most_one := h.single.one
  active_iff := h.single.active.symm
  no_second _ := h.none_taken
  room := by
    have hone := h.single.one
    rw [outstanding] at hone
    show s.tunnel.doneQueue < 2
    omega

/-- **The shaper has a single owner** in every state of every run of a segmented tunnel in which no
    segment gives the shaper back while `serve_pending_continue` still has a reply to serve. -/
theorem shaper_has_single_owner (u : Setup) (m : UInt64) (hm : u.maxDownloadBytes = some m)
    (es : List TaskEvent) (s : Tasks) (hmeets : Meets taskStep Undisturbed (startTasks u) es)
    (hrun : run taskStep (startTasks u) es = some s) : SingleOwner s := by
  have hheld : Held s :=
    run_invariant_of_meets (fun _ _ _ h hun hstep => held_step h hun hstep) es _ _ (held_start hm)
      hmeets hrun
  exact hheld.singleOwner

theorem raceSetup_opened : 0 ≤ 0 := Nat.le_refl 0

theorem raceSetup_accepted : ∀ u ∈ ([] : List Nat), u ≤ 0 := fun _ hu => absurd hu List.not_mem_nil

/-- A segmented tunnel with a limit of one byte over three frames. -/
def raceSetup : Setup where
  maxDownloadBytes := some 1
  shaper := [.frame [7], .frame [8], .frame [9]]
  opened := 0
  began := 0
  accepted := []
  opened_le := raceSetup_opened
  accepted_le := raceSetup_accepted

/-- Two replies are queued; the first segment comes to its limit and is done; the loop serves the
    first reply.  What follows is another matter. -/
def raceEvents : List TaskEvent :=
  [.tunnel (.cmd (.continue ⟨1, .open⟩)), .tunnel (.cmd (.continue ⟨2, .open⟩)),
   .tunnel (.poll 0 true), .tunnel (.release 0), .tunnel .notify, .tunnel .segmentDone, .serve]

theorem shaper_has_single_owner_demo :
    ∃ s, run taskStep (startTasks raceSetup) raceEvents = some s ∧ SingleOwner s := by
  refine ⟨_, rfl, shaper_has_single_owner raceSetup 1 rfl raceEvents _ ?_ rfl⟩
  decide

/-- **Two segments at once.**  The segment of the first reply is polled to its limit and gives the
    shaper back while the loop stands before the second reply: that reply gets a segment too, and the
    first has not been announced as done. -/
theorem second_segment :
    ∃ s, run taskStep (startTasks raceSetup)
        (raceEvents ++ [.tunnel (.poll 0 true), .tunnel (.release 0), .serve]) = some s ∧
      outstanding s.tunnel = 2 ∧ ¬ SingleOwner s := by
  refine ⟨_, rfl, by decide, ?_⟩
  intro h
  exact absurd h.at_most_one (by decide)

end Httproxy.Tunnel
