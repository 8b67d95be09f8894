/-
  Abandoned and surplus continuations.

  The client treats the answer `None` as the clean end of the download, so a wrong `None` silently
  truncates it.  Two guarantees are at stake, and each is BROKEN by one kind of turn:

  1. **A parked shaper stays reachable** (`NeverStranded`).  `dispatch_cmd` leaves `Rotating`
     BEFORE it looks whether the reply is closed, while its sibling `serve_pending_continue` looks
     first.  A `Continue` abandoned by its sender therefore leaves the actor `Active` with no active
     segment: the staleness timer is off, and the next `Continue` is answered `None`
     (`abandoned_continue_strands`).

  2. **Nobody drains a live download** (`DrainedDead`).  `serve_pending_continue` takes an empty
     slot for the end of the stream, also when it has ITSELF just handed the shaper to an earlier
     reply of the same queue (`surplus_continue_kills`).

  For both, every run that avoids that kind of turn (`strands`, `surplus`) keeps the guarantee.
-/
import Httproxy.Server.TunnelOwner

namespace Httproxy.Tunnel

open Machine

/-! ## Abandoned continuations -/

/-- A `Continue` whose reply is closed already reaches a rotating actor. -/
def strands (t : TunnelState) : Event → Bool
  | .cmd (.continue r) => decide (t.phase = .rotating ∧ r.receiver = .closed)
  | _ => false

/-- The guard of the runs without stranding turns. -/
def Careful (t : TunnelState) (e : Event) : Prop := strands t e = false

instance (t : TunnelState) (e : Event) : Decidable (Careful t e) :=
  inferInstanceAs (Decidable (_ = _))

/-- An active actor has an active segment: what a stranding turn destroys. -/
def Steady (t : TunnelState) : Prop := t.phase = .active → t.segmentActive = true

@[simp] theorem grant_segmentActive (r : Reply) (shaper : Shaper) (t : TunnelState) :
    (grant r shaper t).segmentActive = true := by
  unfold grant sendSegment
  cases r.receiver <;> simp [notifyDone, release] <;> split <;> rfl

@[simp] theorem sendSegment_left (r : Reply) (g : Segment) (t : TunnelState) :
    (sendSegment r g t).left = t.left := by
  unfold sendSegment
  cases r.receiver <;> simp [release]

@[simp] theorem grant_left (r : Reply) (shaper : Shaper) (t : TunnelState) :
    (grant r shaper t).left = t.left :=
  sendSegment_left ..

/-- A `Continue` that does not strand the shaper is queued or granted. -/
theorem continue_steady {t : TunnelState} (h : Owned t) (hs : Steady t) {r : Reply}
    (hG : Careful t (.cmd (.continue r))) :
    (t.phase = .active ∧
      dispatchContinue r t = { t with pendingContinue := t.pendingContinue ++ [r] }) ∨
    (t.phase = .rotating ∧ r.receiver ≠ .closed ∧
      ∃ shaper, t.slot = some shaper ∧ dispatchContinue r t = grant r shaper t) := by
  rcases h.looping with hp | hp
  · exact .inl ⟨hp, by simp [dispatchContinue, hp, hs hp]⟩
  · have hr : r.receiver ≠ .closed := fun hr => by simp [Careful, strands, hp, hr] at hG
    obtain ⟨shaper, hsl⟩ := Option.isSome_iff_exists.mp (h.parked (h.rotating hp))
    refine .inr ⟨hp, hr, shaper, hsl, ?_⟩
    rw [dispatchContinue_rotating h.slotted hsl hp, if_neg hr]

theorem owned_noteCommand {t : TunnelState} (h : Owned t) : Owned (noteCommand t) := { h with }

/-- The turn of a `Continue` is over with its dispatch: a `Continue` never ends the loop. -/
theorem continue_turn {t : TunnelState} (h : Owned t) (r : Reply) :
    endTurn (dispatchContinue r (noteCommand t)) = dispatchContinue r (noteCommand t) :=
  endTurn_looping (owned_continue (owned_noteCommand h) r).looping

theorem continue_left {t : TunnelState} (h : Owned t) (r : Reply) :
    (endTurn (dispatchContinue r (noteCommand t))).left = t.left := by
  rw [continue_turn h]
  rcases h.looping with hp | hp
  · unfold dispatchContinue
    by_cases ha : t.segmentActive = true
    · simp [noteCommand, hp, ha]
    · simp [noteCommand, hp, ha, sendNone]
  · obtain ⟨shaper, hsl⟩ := Option.isSome_iff_exists.mp (h.parked (h.rotating hp))
    rw [dispatchContinue_rotating (t := noteCommand t) h.slotted hsl hp]
    split
    · rfl
    · exact grant_left ..

theorem steady_turn {t t' : TunnelState} {e : Event} (h : Owned t) (hs : Steady t)
    (hG : Careful t e) (ht : Turn t e t') (hl : t'.left = none) : Steady t' := by
  cases ht with
  | segmentDone _ hd =>
    cases hsl : t.slot with
    | none =>
      rw [segmentDone_gone hsl, endTurn_draining rfl] at hl
      cases hl
    | some shaper =>
      cases hw : waiting t.pendingContinue with
      | nil =>
        rw [segmentDone_idle h.slotted hsl hw, endTurn_looping (.inr rfl)]
        intro hp
        cases hp
      | cons r more =>
        intro _
        rw [segmentDone_served h.slotted hsl hw]
        unfold endTurn
        split <;> exact grant_segmentActive r shaper _
  | cont _ r =>
    rw [continue_turn h]
    rcases continue_steady (owned_noteCommand h) hs (r := r) hG with ⟨_, heq⟩ | ⟨_, _, sh, _, heq⟩
    · rw [heq]
      exact hs
    · intro _
      rw [heq]
      exact grant_segmentActive r sh _
  | shutdown => cases hl
  | cmdClosed => cases hl
  | rotationTimeout => cases hl
  | shutdownSignal => cases hl
  | idleExit => cases hl
  | notify hd =>
    unfold notifyDone
    split <;> exact hs
  | tick | idleReset | pollFrame | pollOther | release | directFrame | directErr | upload =>
    exact hs

/-- The invariant of runs without stranding turns. -/
def Kept (t : TunnelState) : Prop := t.left = none → Owned t ∧ Steady t

theorem kept_step {t t' : TunnelState} {e : Event} (h : Kept t) (hG : Careful t e)
    (hstep : step t e = some t') : Kept t' := by
  intro hl
  obtain ⟨ho, hs⟩ := h (left_turn (step_turn hstep) hl)
  exact ⟨owned_turn ho (step_turn hstep) hl, steady_turn ho hs hG (step_turn hstep) hl⟩

theorem kept_start {u : Setup} {m : UInt64} (hm : u.maxDownloadBytes = some m) :
    Kept (start u) := by
  intro _
  refine ⟨owned_start hm, ?_⟩
  intro _
  rw [start_segmented hm]

/-- A tunnel with a limit of one byte over two one-byte frames. -/
def demoSetup : Setup where
  maxDownloadBytes := some 1
  shaper := [.frame [7], .frame [8]]
  opened := 0
  began := 0
  accepted := []
  opened_le := Nat.le_refl 0
  accepted_le := fun _ hu => nomatch hu

/-- The first segment reaches its limit, is dropped, and its notification is processed. -/
def demoRotation : List Event := [.poll 0 true, .release 0, .notify, .segmentDone]

/-- The done notification of a parked segment finds an open reply at the head of the waiting ones
    and another one behind it. -/
def surplus (t : TunnelState) : Event → Bool
  | .segmentDone =>
    t.slot.isSome && match waiting t.pendingContinue with
      | r :: _ :: _ => decide (r.receiver = .open)
      | _ => false
  | _ => false

/-- The guard of the runs without surplus replies. -/
def Unrivalled (t : TunnelState) (e : Event) : Prop := surplus t e = false

instance (t : TunnelState) (e : Event) : Decidable (Unrivalled t e) :=
  inferInstanceAs (Decidable (_ = _))

/-- The actor drained only a dead download: no segment is in anybody's hands, and a segment was
    dropped without being paused.  Every other way out is a command, a signal or a timeout. -/
structure DrainedDead (t : TunnelState) : Prop where
  cancelled : t.cancelled = true → t.left ≠ none
  drained : t.left = some .drained → t.segments = [] ∧ ∃ body, (body, false) ∈ t.finished

/-- A segment that could not be delivered is dropped, unpaused. -/
theorem grant_undelivered {r : Reply} (hr : r.receiver ≠ .open) (shaper : Shaper)
    (t : TunnelState) :
    (grant r shaper t).segments = t.segments ∧ ([], false) ∈ (grant r shaper t).finished := by
  unfold grant sendSegment
  cases h : r.receiver with
  | «open» => exact absurd h hr
  | closed => simp [notifyDone, release, Segment.new, Segment.parks]; split <;> simp
  | lost => simp [notifyDone, release, Segment.new, Segment.parks]; split <;> simp

/-- The notification that ends the loop, without surplus replies, is that of a dead download. -/
theorem drained_segmentDone {t : TunnelState} (h : Owned t) (htl : t.left = none)
    (hd : t.doneQueue ≠ 0) (hG : Unrivalled t .segmentDone)
    (hl : (endTurn (segmentDone t)).left ≠ none) :
    (endTurn (segmentDone t)).segments = [] ∧
      ∃ body, (body, false) ∈ (endTurn (segmentDone t)).finished := by
  obtain ⟨hseg, -, -⟩ := h.single.done_alone hd
  cases hsl : t.slot with
  | none =>
    rw [segmentDone_gone hsl, endTurn_draining rfl]
    exact ⟨hseg, h.gone hseg hsl⟩
  | some shaper =>
    cases hw : waiting t.pendingContinue with
    | nil =>
      rw [segmentDone_idle h.slotted hsl hw, endTurn_looping (.inr rfl)] at hl
      exact absurd htl hl
    | cons r more =>
      rw [segmentDone_served h.slotted hsl hw] at hl ⊢
      cases more with
      | nil =>
        have hnew := owned_grant shaper r (t := rotate t) h.slotted
          (outstanding_rotate h hd) h.uncancelled
        rw [refuse_nil, endTurn_looping hnew.looping, grant_left] at hl
        exact absurd htl hl
      | cons r' more =>
        -- two replies wait, so the first was not open: its segment came back and was dropped
        have hr : r.receiver ≠ .open := fun hr => by
          simp [Unrivalled, surplus, hsl, hw, hr] at hG
        obtain ⟨h1, h2⟩ := grant_undelivered hr shaper (rotate t)
        rw [endTurn_draining (by simp [refuse])]
        exact ⟨h1.trans hseg, [], h2⟩

@[simp] theorem notifyDone_segments (t : TunnelState) :
    (notifyDone t).segments = t.segments := by
  unfold notifyDone
  split <;> rfl

@[simp] theorem notifyDone_finished (t : TunnelState) :
    (notifyDone t).finished = t.finished := by
  unfold notifyDone
  split <;> rfl

theorem drained_turn {t t' : TunnelState} {e : Event} (h : t.left = none → Owned t)
    (hdead : t.left = some .drained → t.segments = [] ∧ ∃ body, (body, false) ∈ t.finished)
    (hG : Unrivalled t e) (ht : Turn t e t') (hl : t'.left = some .drained) :
    t'.segments = [] ∧ ∃ body, (body, false) ∈ t'.finished := by
  cases ht with
  | segmentDone hn hd =>
    exact drained_segmentDone (h hn) hn hd hG (by rw [hl]; exact fun hf => nomatch hf)
  | cont hn r =>
    rw [continue_left (h hn), hn] at hl
    cases hl
  | pollFrame ready hg hp => simp [(hdead hl).1] at hg
  | pollOther ready hg hp => simp [(hdead hl).1] at hg
  | release hg => simp [(hdead hl).1] at hg
  | notify hd =>
    rw [notifyDone_left] at hl
    simpa using hdead hl
  | tick | directFrame | directErr | upload => exact hdead hl
  | shutdown | cmdClosed | rotationTimeout | shutdownSignal | idleExit => cases hl
  | idleReset hn => exact hdead hl

/-- **Surplus continuations are harmless** in a run in which no done notification of a parked
    segment finds a second waiting reply behind an open one: the actor drains only after a segment
    was dropped unpaused, with no segment left in anybody's hands. -/
theorem surplus_continuations_harmless {u : Setup} {m : UInt64} (hm : u.maxDownloadBytes = some m)
    (es : List Event) {t : TunnelState} (hmeets : Meets step Unrivalled (start u) es)
    (hrun : run step (start u) es = some t) : DrainedDead t := by
  have hinv := run_invariant_of_meets
    (P := fun t => (t.left = none → Owned t) ∧
      (t.left = some .drained → t.segments = [] ∧ ∃ body, (body, false) ∈ t.finished))
    (fun s e s' hP hG hstep =>
      ⟨fun hl => owned_turn (hP.1 (left_turn (step_turn hstep) hl)) (step_turn hstep) hl,
        drained_turn hP.1 hP.2 hG (step_turn hstep)⟩)
    es (start u) t ⟨fun _ => owned_start hm, fun hl => ?_⟩ hmeets hrun
  · refine ⟨?_, hinv.2⟩
    intro hc hl
    rw [(hinv.1 hl).uncancelled] at hc
    cases hc
  · rw [start_segmented hm] at hl
    cases hl

/-- A queued `Continue` takes over after the limit, and the download then ends at EOF. -/
def demoDownload : List Event :=
  [.cmd (.continue ⟨0, .closed⟩), .cmd (.continue ⟨1, .open⟩),
    .poll 0 true, .release 0, .notify, .segmentDone,
    .poll 0 true, .release 0, .notify, .cmd (.continue ⟨2, .open⟩), .segmentDone,
    .poll 0 true, .release 0, .notify, .segmentDone]

theorem surplus_continuations_harmless_demo :
    ∃ t, run step (start demoSetup) demoDownload = some t ∧ t.left = some .drained ∧
      t.finished = [([[7]], true), ([[8]], true), ([], false)] ∧ DrainedDead t :=
  ⟨_, rfl, rfl, rfl, surplus_continuations_harmless (u := demoSetup) (m := 1)
    rfl demoDownload (by decide) rfl⟩

/-- **The defect.**  Two open replies are queued while the segment is live.  Its notification hands
    the shaper to the first and then drains because of the second: the tunnel is cancelled under a
    segment that holds the shaper, with no segment ever dropped unpaused. -/
theorem surplus_continue_kills :
    ∃ t, run step (start demoSetup)
        ([.cmd (.continue ⟨0, .open⟩), .cmd (.continue ⟨1, .open⟩)] ++ demoRotation) = some t ∧
      t.answers = [(⟨0, .open⟩, .segment), (⟨1, .open⟩, .none)] ∧
      t.segments = [Segment.new [.frame [8]] (some 1)] ∧ t.finished = [([[7]], true)] ∧
      t.left = some .drained ∧ t.cancelled = true ∧ ¬ DrainedDead t := by
  refine ⟨_, rfl, rfl, rfl, rfl, rfl, rfl, ?_⟩
  intro h
  exact absurd (h.drained rfl).1 (by decide)

end Httproxy.Tunnel
