/-
  Who holds the shaper of a segmented tunnel, and what the actor may conclude from it.

  1. **Turns** — `segmentDone` and `dispatchContinue` are brought into closed form by what is in
     the slot and by the replies that are `waiting` (those not found closed): the first of them is
     GRANTED the shaper, every later one is refused and sends the actor to `Draining`.

  2. **Ownership (`Owned`)** — while `run` is in its loop, at most one segment is outstanding
     (live, being dropped, or announced as done), `segment_active` says whether there is one, and
     the shaper is in the slot, in that segment, or was dropped with a segment that did not pause.
-/
import Httproxy.Server.Tunnel

namespace Httproxy.Tunnel

open Machine

/-! ## Turns in closed form -/

/-- The replies whose receiver passes the `is_closed` test. -/
def waiting (replies : List Reply) : List Reply :=
  replies.filter fun r => decide (r.receiver ≠ .closed)

/-- The shaper leaves the slot for a segment that is sent to `reply`. -/
def grant (reply : Reply) (shaper : Shaper) (t : TunnelState) : TunnelState :=
  sendSegment reply (Segment.new shaper t.maxDownloadBytes)
    { t with slot := none, segmentActive := true, phase := .active }

/-- The replies `more` find the slot empty. -/
def refuse (more : List Reply) (t : TunnelState) : TunnelState :=
  { t with
    phase := if more = [] then t.phase else .draining
    answers := t.answers ++ more.map fun r => (r, .none) }

/-- The done notification of a segment that parked the shaper, before any reply is served. -/
def rotate (t : TunnelState) : TunnelState :=
  { t with
    doneQueue := t.doneQueue - 1
    segmentActive := false
    phase := .rotating
    rotationDeadline := t.clock + ROTATION_STALENESS
    pendingContinue := [] }

@[simp] theorem refuse_nil (t : TunnelState) : refuse [] t = t := by simp [refuse]

theorem takeSegment_parked {t : TunnelState} {shaper : Shaper} (hs : t.shaperSlot = true)
    (h : t.slot = some shaper) :
    takeSegment t = some (Segment.new shaper t.maxDownloadBytes,
      { t with slot := none, segmentActive := true }) := by
  unfold takeSegment
  rw [if_pos hs, h]
  rfl

theorem takeSegment_empty {t : TunnelState} (h : t.slot = none) : takeSegment t = none := by
  unfold takeSegment
  rw [h]
  split <;> rfl

/-- Closed replies are skipped. -/
theorem servePending_waiting (rs : List Reply) (t : TunnelState) :
    servePendingContinue true rs t = servePendingContinue true (waiting rs) t := by
  induction rs generalizing t with
  | nil => rfl
  | cons r rs ih =>
    by_cases hr : r.receiver = .closed
    · have hw : waiting (r :: rs) = waiting rs := by simp [waiting, hr]
      rw [hw, servePendingContinue, ih]
      simp [serveReply, hr]
    · have hw : waiting (r :: rs) = r :: waiting rs := by simp [waiting, hr]
      rw [hw, servePendingContinue, servePendingContinue, ih]

/-- With an empty slot every reply that is still waiting is refused. -/
theorem servePending_empty (rs : List Reply) (t : TunnelState)
    (hw : ∀ r ∈ rs, r.receiver ≠ .closed) (h : t.slot = none) :
    servePendingContinue true rs t = refuse rs t := by
  induction rs generalizing t with
  | nil => simp [servePendingContinue, refuse]
  | cons r rs ih =>
    have hr : serveReply true r t = sendNone r { t with phase := .draining } := by
      simp [serveReply, hw r List.mem_cons_self, takeSegment_empty h]
    rw [servePendingContinue, hr, ih (sendNone r { t with phase := .draining })
      (fun x hx => hw x (List.mem_cons_of_mem _ hx)) h]
    simp [refuse, sendNone]

theorem servePending_dead (rs : List Reply) (t : TunnelState) :
    servePendingContinue false rs t =
      { t with answers := t.answers ++ rs.map fun r => (r, .none) } := by
  induction rs generalizing t with
  | nil => simp [servePendingContinue]
  | cons r rs ih =>
    rw [servePendingContinue, ih]
    simp [serveReply, sendNone]

theorem mem_waiting {r : Reply} {rs : List Reply} (h : r ∈ waiting rs) :
    r.receiver ≠ .closed := by
  simpa using (List.mem_filter.mp h).2

/-- Granting empties the slot, unless the segment comes back PAUSED, which a fresh one never is. -/
theorem grant_slot (r : Reply) (shaper : Shaper) (t : TunnelState) :
    (grant r shaper t).slot = none := by
  unfold grant sendSegment
  cases r.receiver <;>
    simp [notifyDone, release, Segment.new, Segment.parks] <;> split <;> rfl

/-- The notification of a segment that did not park the shaper: everybody is refused, and the
    actor drains. -/
theorem segmentDone_gone {t : TunnelState} (h : t.slot = none) :
    segmentDone t = { t with
      doneQueue := t.doneQueue - 1
      segmentActive := false
      phase := .draining
      pendingContinue := []
      answers := t.answers ++ t.pendingContinue.map fun r => (r, .none) } := by
  simp [segmentDone, shaperAlive, h, servePending_dead]

theorem segmentDone_parked {t : TunnelState} {shaper : Shaper} (hs : t.shaperSlot = true)
    (h : t.slot = some shaper) :
    segmentDone t = servePendingContinue true (waiting t.pendingContinue) (rotate t) := by
  rw [← servePending_waiting]
  simp [segmentDone, shaperAlive, hs, h, rotate]

/-- The notification of a segment that parked the shaper, with nobody waiting. -/
theorem segmentDone_idle {t : TunnelState} {shaper : Shaper} (hs : t.shaperSlot = true)
    (h : t.slot = some shaper) (hw : waiting t.pendingContinue = []) :
    segmentDone t = rotate t := by
  rw [segmentDone_parked hs h, hw]
  rfl

/-- The notification of a segment that parked the shaper: the FIRST waiting reply is granted it,
    the others are refused. -/
theorem segmentDone_served {t : TunnelState} {shaper : Shaper} {r : Reply} {more : List Reply}
    (hs : t.shaperSlot = true) (h : t.slot = some shaper)
    (hw : waiting t.pendingContinue = r :: more) :
    segmentDone t = refuse more (grant r shaper (rotate t)) := by
  have hmem : ∀ x ∈ r :: more, x.receiver ≠ .closed := fun x hx => mem_waiting (hw ▸ hx)
  have hone : serveReply true r (rotate t) = grant r shaper (rotate t) := by
    simp only [serveReply, hmem r List.mem_cons_self, Bool.not_true, Bool.false_eq_true, if_false,
      takeSegment_parked (t := rotate t) hs h]
    rfl
  rw [segmentDone_parked hs h, hw, servePendingContinue, hone,
    servePending_empty more _ (fun x hx => hmem x (List.mem_cons_of_mem _ hx))
      (grant_slot r shaper (rotate t))]

/-- A `Continue` that finds the actor rotating and the shaper parked. -/
theorem dispatchContinue_rotating {t : TunnelState} {shaper : Shaper} {r : Reply}
    (hs : t.shaperSlot = true) (h : t.slot = some shaper) (hp : t.phase = .rotating) :
    dispatchContinue r t =
      if r.receiver = .closed then { t with phase := .active } else grant r shaper t := by
  unfold dispatchContinue
  simp only [hp, if_true]
  split
  · rfl
  · rw [takeSegment_parked (t := { t with phase := .active }) hs h]
    rfl

/-! ## One segment at a time -/

/-- Segments that are live, being dropped, or announced as done. -/
def outstanding (t : TunnelState) : Nat := t.segments.length + t.dropping + t.doneQueue

/-- At most one segment is outstanding, the flag says whether there is one, and the shaper is in the
    slot or in a segment, not in both. -/
structure Single (t : TunnelState) : Prop where
  one : outstanding t ≤ 1
  active : t.segmentActive = true ↔ outstanding t = 1
  holds : ∀ g ∈ t.segments, g.shaper.isSome
  apart : t.slot.isSome → t.segments = []

/-- Nothing is outstanding while no segment is active. -/
theorem Single.none_outstanding {t : TunnelState} (h : Single t) (ha : t.segmentActive = false) :
    outstanding t = 0 := by
  have h1 := h.one
  have h2 : outstanding t ≠ 1 := fun h1 => by simp [h.active.mpr h1] at ha
  omega

/-- A live segment is the only one outstanding. -/
theorem Single.live_alone {t : TunnelState} (h : Single t) {i : Nat} {g : Segment}
    (hg : t.segments[i]? = some g) :
    i = 0 ∧ t.segments = [g] ∧ t.dropping = 0 ∧ t.doneQueue = 0 ∧ t.slot = none := by
  have h1 := h.one
  unfold outstanding at h1
  obtain ⟨hlt, heq⟩ := List.getElem?_eq_some_iff.mp hg
  have hi : i = 0 := by omega
  subst hi
  obtain ⟨x, hx⟩ := List.length_eq_one_iff.mp (show t.segments.length = 1 by omega)
  have hxg : x = g := by simpa [hx] using hg
  refine ⟨rfl, by rw [hx, hxg], by omega, by omega, ?_⟩
  cases hsl : t.slot with
  | none => rfl
  | some shaper =>
    have := h.apart (by rw [hsl]; rfl)
    simp [hx] at this

/-- The segment of a done notification was the only one outstanding. -/
theorem Single.done_alone {t : TunnelState} (h : Single t) (hd : t.doneQueue ≠ 0) :
    t.segments = [] ∧ t.dropping = 0 ∧ t.doneQueue = 1 := by
  have h1 := h.one
  unfold outstanding at h1
  exact ⟨List.eq_nil_of_length_eq_zero (by omega), by omega, by omega⟩

/-- Polling keeps the shaper in the segment. -/
theorem pollNext_holds {g g' : Segment} {c ready : Bool} {r : PollResult}
    (hp : pollNext c ready g = (r, g')) (h : g.shaper.isSome) : g'.shaper.isSome := by
  unfold pollNext at hp
  repeat' split at hp
  all_goals
    obtain ⟨-, rfl⟩ := Prod.mk.inj hp
    first | exact h | rfl

theorem single_set {t : TunnelState} (h : Single t) (i : Nat) {g' : Segment}
    (hg' : g'.shaper.isSome) :
    Single { t with segments := t.segments.set i g' } := by
  constructor
  · simpa [outstanding] using h.one
  · simpa [outstanding] using h.active
  · intro x hx
    rcases List.mem_or_eq_of_mem_set hx with hx | rfl
    · exact h.holds x hx
    · exact hg'
  · simpa using h.apart

theorem single_release {t : TunnelState} (h : Single t) {i : Nat} {g : Segment}
    (hg : t.segments[i]? = some g) :
    Single (release g { t with segments := t.segments.eraseIdx i, dropping := t.dropping + 1 }) := by
  obtain ⟨rfl, hseg, hdrop, hdone, -⟩ := h.live_alone hg
  have hact : t.segmentActive = true := h.active.mpr (by simp [outstanding, hseg, hdrop, hdone])
  constructor
  · simp [outstanding, release, hseg, hdrop, hdone]
  · simp [outstanding, release, hseg, hdrop, hdone, hact]
  · simp [release, hseg]
  · simp [release, hseg]

/-- There is room for the notification, and it takes the place of the dropped segment. -/
theorem single_notify {t : TunnelState} (h : Single t) (hd : t.dropping ≠ 0) :
    notifyDone { t with dropping := t.dropping - 1 } =
      { t with dropping := t.dropping - 1, doneQueue := t.doneQueue + 1 } ∧
    Single { t with dropping := t.dropping - 1, doneQueue := t.doneQueue + 1 } := by
  have h1 := h.one
  have h2 := h.active
  unfold outstanding at h1 h2
  constructor
  · apply if_pos
    show t.doneQueue < 2
    omega
  · refine { h with one := ?_, active := ?_ }
    · show t.segments.length + (t.dropping - 1) + (t.doneQueue + 1) ≤ 1
      omega
    · show _ ↔ t.segments.length + (t.dropping - 1) + (t.doneQueue + 1) = 1
      rw [h2]
      omega

/-- Handing the parked shaper to a waiting reply when nothing is outstanding: its segment is live, or
    came back and is announced as done without having paused. -/
theorem grant_cases {t : TunnelState} (shaper : Shaper) (r : Reply) (h0 : outstanding t = 0) :
    grant r shaper t = { t with
      slot := none, segmentActive := true, phase := .active
      answers := t.answers ++ [(r, .segment)]
      segments := [Segment.new shaper t.maxDownloadBytes] } ∨
    grant r shaper t = { t with
      slot := none, segmentActive := true, phase := .active, doneQueue := 1
      answers := t.answers ++ [(r, .segment)]
      finished := t.finished ++ [([], false)] } := by
  have hsum : t.segments.length = 0 ∧ t.dropping = 0 ∧ t.doneQueue = 0 := by
    unfold outstanding at h0
    omega
  obtain ⟨hseg, -, hdone⟩ := hsum
  have hnil : t.segments = [] := List.eq_nil_of_length_eq_zero hseg
  unfold grant sendSegment
  cases hr : r.receiver with
  | «open» =>
    left
    simp [hnil]
  | closed =>
    right
    simp [notifyDone, release, Segment.new, Segment.parks, hdone, SEGMENT_DONE_CHANNEL_CAPACITY]
  | lost =>
    right
    simp [notifyDone, release, Segment.new, Segment.parks, hdone, SEGMENT_DONE_CHANNEL_CAPACITY]

theorem single_grant {t : TunnelState} (shaper : Shaper) (r : Reply) (h0 : outstanding t = 0) :
    Single (grant r shaper t) := by
  have hsum : t.segments.length = 0 ∧ t.dropping = 0 ∧ t.doneQueue = 0 := by
    unfold outstanding at h0
    omega
  obtain ⟨hseg, hdrop, hdone⟩ := hsum
  have hnil : t.segments = [] := List.eq_nil_of_length_eq_zero hseg
  rcases grant_cases shaper r h0 with heq | heq
  · rw [heq]
    constructor <;> simp [outstanding, hdrop, hdone, Segment.new]
  · rw [heq]
    constructor <;> simp [outstanding, hnil, hdrop]

/-- A granted shaper makes the actor active. -/
theorem grant_phase (r : Reply) (shaper : Shaper) (t : TunnelState) :
    (grant r shaper t).phase = .active := by
  unfold grant sendSegment
  cases r.receiver <;> simp [notifyDone, release] <;> split <;> rfl

/-! ## Ownership -/

/-- Where the shaper is, and what the actor knows about it, while `run` is in its loop. -/
structure Owned (t : TunnelState) : Prop where
  slotted : t.shaperSlot = true
  one : outstanding t ≤ 1
  active : t.segmentActive = true ↔ outstanding t = 1
  holds : ∀ g ∈ t.segments, g.shaper.isSome
  apart : t.slot.isSome → t.segments = []
  looping : t.phase = .active ∨ t.phase = .rotating
  rotating : t.phase = .rotating → t.segmentActive = false
  parked : t.segmentActive = false → t.slot.isSome
  queued : t.segmentActive = false → t.pendingContinue = []
  gone : t.segments = [] → t.slot = none → ∃ body, (body, false) ∈ t.finished
  uncancelled : t.cancelled = false

theorem Owned.single {t : TunnelState} (h : Owned t) : Single t := { h with }

theorem endTurn_looping {t : TunnelState} (h : t.phase = .active ∨ t.phase = .rotating) :
    endTurn t = t := by
  unfold endTurn
  rcases h with h | h <;> simp [h]

theorem endTurn_draining {t : TunnelState} (h : t.phase = .draining) :
    endTurn t = cleanup .drained t := by
  simp [endTurn, h]

theorem owned_grant {t : TunnelState} (shaper : Shaper) (r : Reply) (hs : t.shaperSlot = true)
    (h0 : outstanding t = 0) (hc : t.cancelled = false) : Owned (grant r shaper t) := by
  have hsingle := single_grant shaper r h0
  refine { hsingle with
    slotted := ?_, looping := .inl (grant_phase r shaper t), rotating := ?_, parked := ?_
    queued := ?_, gone := ?_, uncancelled := ?_ }
  · rcases grant_cases shaper r h0 with heq | heq <;> simp [heq, hs]
  · intro hrot
    rw [grant_phase] at hrot
    cases hrot
  · intro hact
    rcases grant_cases shaper r h0 with heq | heq <;> simp [heq] at hact
  · intro hact
    rcases grant_cases shaper r h0 with heq | heq <;> simp [heq] at hact
  · rcases grant_cases shaper r h0 with heq | heq <;> simp [heq]
  · rcases grant_cases shaper r h0 with heq | heq <;> simp [heq, hc]

theorem outstanding_rotate {t : TunnelState} (h : Owned t) (hd : t.doneQueue ≠ 0) :
    outstanding (rotate t) = 0 := by
  obtain ⟨hseg, hdrop, hdone⟩ := h.single.done_alone hd
  simp [outstanding, rotate, hseg, hdrop, hdone]

/-- Processing a done notification: either the actor leaves, or the shaper is parked again or in
    the one segment just handed out. -/
theorem owned_segmentDone {t : TunnelState} (h : Owned t) (hd : t.doneQueue ≠ 0)
    (hl : (endTurn (segmentDone t)).left = none) : Owned (endTurn (segmentDone t)) := by
  have hnew := fun r shaper => owned_grant shaper r (t := rotate t) h.slotted
    (outstanding_rotate h hd) h.uncancelled
  cases hsl : t.slot with
  | none =>
    rw [segmentDone_gone hsl, endTurn_draining rfl] at hl
    cases hl
  | some shaper =>
    cases hw : waiting t.pendingContinue with
    | nil =>
      rw [segmentDone_idle h.slotted hsl hw, endTurn_looping (.inr rfl)]
      obtain ⟨hseg, hdrop, hdone⟩ := h.single.done_alone hd
      constructor <;>
        simp [outstanding, rotate, hseg, hdrop, hdone, hsl, h.slotted, h.uncancelled]
    | cons r more =>
      rw [segmentDone_served h.slotted hsl hw] at hl ⊢
      cases more with
      | nil =>
        rw [refuse_nil, endTurn_looping (hnew r shaper).looping]
        exact hnew r shaper
      | cons r' more =>
        rw [endTurn_draining (by simp [refuse])] at hl
        cases hl

/-- A `Continue` never ends the loop. -/
theorem owned_continue {t : TunnelState} (h : Owned t) (r : Reply) :
    Owned (dispatchContinue r t) := by
  rcases h.looping with hp | hp
  · -- an active actor queues the reply, or refuses it when no segment is active
    by_cases ha : t.segmentActive = true
    · have heq : dispatchContinue r t =
          { t with pendingContinue := t.pendingContinue ++ [r] } := by
        simp [dispatchContinue, hp, ha]
      rw [heq]
      exact { h with queued := fun hf => by simp [ha] at hf }
    · have heq : dispatchContinue r t = sendNone r t := by simp [dispatchContinue, hp, ha]
      rw [heq]
      exact { h with }
  · have ha := h.rotating hp
    obtain ⟨shaper, hsl⟩ := Option.isSome_iff_exists.mp (h.parked ha)
    rw [dispatchContinue_rotating h.slotted hsl hp]
    split
    · exact { h with looping := .inl rfl, rotating := fun hf => nomatch hf }
    · exact owned_grant _ r h.slotted (h.single.none_outstanding ha) h.uncancelled

theorem owned_set {t : TunnelState} (h : Owned t) (i : Nat) {g' : Segment}
    (hg' : g'.shaper.isSome) :
    Owned { t with segments := t.segments.set i g' } := by
  have hs := single_set h.single i hg'
  refine { h with one := hs.one, active := hs.active, holds := hs.holds, apart := hs.apart, gone := ?_ }
  simpa using h.gone

theorem owned_release {t : TunnelState} (h : Owned t) {i : Nat} {g : Segment}
    (hg : t.segments[i]? = some g) :
    Owned (release g { t with segments := t.segments.eraseIdx i, dropping := t.dropping + 1 }) := by
  have hs := single_release h.single hg
  obtain ⟨rfl, hseg, hdrop, hdone, hsl⟩ := h.single.live_alone hg
  have hact : t.segmentActive = true := h.active.mpr (by simp [outstanding, hseg, hdrop, hdone])
  refine { h with
    one := hs.one, active := hs.active, holds := hs.holds, apart := hs.apart
    parked := ?_, gone := ?_ }
  · simp [release, hact]
  · intro _ hnone
    refine ⟨g.body, ?_⟩
    have hholds := h.holds g (by simp [hseg])
    have hparks : g.parks = false := by
      cases hp : g.parks with
      | false => rfl
      | true =>
        simp only [release, hp, if_true] at hnone
        simp [hnone] at hholds
    simp [release, hparks]

theorem owned_notify {t : TunnelState} (h : Owned t) (hd : t.dropping ≠ 0) :
    Owned (notifyDone { t with dropping := t.dropping - 1 }) := by
  obtain ⟨heq, hs⟩ := single_notify h.single hd
  rw [heq]
  exact { h with one := hs.one, active := hs.active }

/-- **One step keeps ownership**, as long as `run` stays in its loop. -/
theorem owned_turn {t t' : TunnelState} {e : Event} (h : Owned t) (ht : Turn t e t')
    (hl : t'.left = none) : Owned t' := by
  cases ht with
  | tick secs => exact { h with }
  | segmentDone _ hd => exact owned_segmentDone h hd hl
  | cont _ r =>
    have hn : Owned (noteCommand t) := { h with }
    have hc := owned_continue hn r
    rw [endTurn_looping hc.looping]
    exact hc
  | shutdown => cases hl
  | cmdClosed => cases hl
  | rotationTimeout => cases hl
  | shutdownSignal => cases hl
  | idleExit => cases hl
  | idleReset => exact { h with }
  | @pollFrame i g g' data ready hg hp =>
    have hs := owned_set h i (pollNext_holds hp (h.holds _ (List.mem_of_getElem? hg)))
    exact { hs with }
  | pollOther ready hg hp =>
    exact owned_set h _ (pollNext_holds hp (h.holds _ (List.mem_of_getElem? hg)))
  | release hg => exact owned_release h hg
  | notify hd => exact owned_notify h hd
  | directFrame => exact { h with }
  | directErr => exact h
  | upload => exact { h with }

theorem owned_start {u : Setup} {m : UInt64} (hm : u.maxDownloadBytes = some m) :
    Owned (start u) := by
  rw [start_segmented hm]
  constructor <;> simp [outstanding, new, Segment.new]

/-- **Ownership holds in every reachable state** of a segmented tunnel whose `run` is in its
    loop. -/
theorem owned_run {u : Setup} {m : UInt64} (hm : u.maxDownloadBytes = some m) {es : List Event}
    {t : TunnelState} (hrun : run step (start u) es = some t) (hl : t.left = none) : Owned t :=
  run_invariant (P := fun t => t.left = none → Owned t)
    (fun _ _ _ hP hstep hl => owned_turn (hP (left_turn (step_turn hstep) hl)) (step_turn hstep) hl)
    es (start u) t (fun _ => owned_start hm) hrun hl

end Httproxy.Tunnel
