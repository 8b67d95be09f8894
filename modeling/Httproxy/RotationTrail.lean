/-
  The trail that a rotation leaves: which bodies are over, and who got them.

  `Rotation` follows the shaper's frames.  A client follows something else: the bodies, one after the
  other, each with the news whether another one is to be asked for.

  1. **`Move`** — what a step of an honest run does to segments, slot and replies; all that follows goes
     through it.

  2. **`closed`** — the bodies that are over, each with whether it parked the shaper.  They are only ever
     added to (`Grows`), and a body that is not over only gets longer.

  3. **`Trail`** — every body that is over has parked the shaper, except perhaps the last; and if the last
     has not, then nothing is left of the shaper, and only then does the actor leave.

  4. **`Asked`** — the `n`-th request is granted the segment behind the `n`-th, in order.
-/
import Httproxy.Rotation

namespace Httproxy.Tunnel

open Machine

/-! ## What an honest step does -/

/-- The part of the state that a client finds out about. -/
structure View where
  finished : List (List Bytes × Bool)
  segments : List Segment
  slot : Option Shaper
  answers : List (Reply × Answer)
  pending : List Reply
  left : Option Exit

def view (t : TunnelState) : View :=
  ⟨t.finished, t.segments, t.slot, t.answers, t.pendingContinue, t.left⟩

/-- `Move t e t'` — what `e` does to the view. -/
inductive Move (t : TunnelState) : Event → TunnelState → Prop where
  | still {e t'} (hown : ∀ c, e ≠ .cmd c) (hview : view t' = view t) : Move t e t'
  /-- The live segment is polled. -/
  | polls {e t'} (hown : ∀ c, e ≠ .cmd c) (g g' : Segment) (hsegs : t.segments = [g])
      (hgoing : g.ended = false) (hbody : g.body <+: g'.body)
      (hview : view t' = { view t with segments := [g'] }) : Move t e t'
  /-- A segment that is over is dropped. -/
  | drops {e t'} (hown : ∀ c, e ≠ .cmd c) (g : Segment) (slot : Option Shaper)
      (hsegs : t.segments = [g]) (hover : g.ended = true) (hslot : g.parks = false → slot = t.slot)
      (hview : view t' =
        { view t with finished := t.finished ++ [(g.body, g.parks)], segments := [], slot }) :
      Move t e t'
  /-- A request has to wait. -/
  | queues {r t'} (hpending : t.pendingContinue = []) (hleft : t.left = none)
      (hview : view t' = { view t with pending := [r] }) : Move t (.cmd (.continue r)) t'
  /-- A request is granted the parked shaper at once. -/
  | grants {r t'} (shaper : Shaper) (m : UInt64) (hpending : t.pendingContinue = [])
      (hleft : t.left = none) (hslot : t.slot = some shaper) (hsegs : t.segments = [])
      (hview : view t' = { view t with
        segments := [Segment.new shaper (some m)], slot := none
        answers := t.answers ++ [(r, .segment)] }) : Move t (.cmd (.continue r)) t'
  /-- The request that was waiting is granted it. -/
  | serves {r t'} (shaper : Shaper) (m : UInt64) (hpending : t.pendingContinue = [r])
      (hleft : t.left = none) (hslot : t.slot = some shaper) (hsegs : t.segments = [])
      (hview : view t' = { view t with
        segments := [Segment.new shaper (some m)], slot := none
        answers := t.answers ++ [(r, .segment)], pending := [] }) : Move t .segmentDone t'
  /-- The shaper is gone: the actor leaves. -/
  | leaves {t'} (why : Exit) (hleft : t.left = none) (hslot : t.slot = none) (hsegs : t.segments = [])
      (hgone : ∃ body, (body, false) ∈ t.finished)
      (hview : view t' = { view t with
        answers := t.answers ++ t.pendingContinue.map fun r => (r, .none)
        pending := [], left := some why }) : Move t .segmentDone t'

theorem view_grant {m : UInt64} {t : TunnelState} {shaper : Shaper} {r : Reply}
    (hlimit : t.maxDownloadBytes = some m) (hr : r.receiver = .open) (hsegs : t.segments = []) :
    view (grant r shaper t) = { view t with
      segments := [Segment.new shaper (some m)], slot := none
      answers := t.answers ++ [(r, .segment)] } := by
  simp [view, grant, sendSegment, hr, hsegs, hlimit]

theorem move_segmentDone {m : UInt64} {frames : List Bytes} {t : TunnelState}
    (h : Whole m frames t) (ho : Owned t) (hl : t.left = none) (hd : t.doneQueue ≠ 0) :
    Move t .segmentDone (endTurn (segmentDone t)) := by
  obtain ⟨hsegs, -, -⟩ := ho.single.done_alone hd
  cases hsl : t.slot with
  | none =>
    refine .leaves .drained hl hsl hsegs (ho.gone hsegs hsl) ?_
    rw [segmentDone_gone hsl, endTurn_draining rfl]
    simp [view, cleanup, hsl]
  | some shaper =>
    have hw : waiting t.pendingContinue = t.pendingContinue := waiting_open h.openReply
    cases hpc : t.pendingContinue with
    | nil =>
      refine .still (by rintro c ⟨⟩) ?_
      rw [segmentDone_idle ho.slotted hsl (hw.trans hpc), endTurn_looping (.inr rfl)]
      simp [view, rotate, hpc]
    | cons r more =>
      have hmore : more = [] := by
        have hone := h.oneReply
        rw [hpc, List.length_cons] at hone
        exact List.eq_nil_of_length_eq_zero (by omega)
      subst hmore
      have hr : r.receiver = .open := h.openReply r (by rw [hpc]; exact List.mem_cons_self)
      have hloop := (owned_grant shaper r (t := rotate t) ho.slotted
        (outstanding_rotate ho hd) ho.uncancelled).looping
      refine .serves shaper m hpc hl hsl hsegs ?_
      rw [segmentDone_served ho.slotted hsl (hw.trans hpc), refuse_nil, endTurn_looping hloop,
        view_grant (t := rotate t) h.limit hr hsegs]
      rfl

theorem move_continue {m : UInt64} {frames : List Bytes} {t : TunnelState}
    (h : Whole m frames t) (ho : Owned t) (hs : Steady t) (hl : t.left = none) {r : Reply}
    (hG : Honest t (.cmd (.continue r))) :
    Move t (.cmd (.continue r)) (endTurn (dispatchContinue r (noteCommand t))) := by
  obtain ⟨hr, hpc⟩ : r.receiver = .open ∧ t.pendingContinue = [] := by
    simpa [Honest, honest] using hG
  have hn : Owned (noteCommand t) := owned_noteCommand ho
  rw [continue_turn ho]
  rcases continue_steady hn hs (honest_careful hG) with ⟨-, heq⟩ | ⟨-, -, shaper, hsl, heq⟩
  · refine .queues hpc hl ?_
    rw [heq]
    simp [view, noteCommand, hpc]
  · have hsegs : t.segments = [] := hn.apart (by rw [hsl]; rfl)
    refine .grants shaper m hpc hl hsl hsegs ?_
    rw [heq, view_grant (t := noteCommand t) h.limit hr hsegs]
    rfl

theorem move_poll {m : UInt64} {frames : List Bytes} {t t' : TunnelState} {e : Event}
    (h : Whole m frames t) (ho : Owned t) {i : Nat} {g g' : Segment} {ready : Bool} {r : PollResult}
    (hg : t.segments[i]? = some g) (hp : pollNext t.cancelled ready g = (r, g'))
    (hown : ∀ c, e ≠ .cmd c) (hview : view t' = { view t with segments := t.segments.set i g' }) :
    Move t e t' := by
  obtain ⟨rfl, hsegs, -, -, rest, hsh, -⟩ := whole_live h ho hg
  rw [ho.uncancelled] at hp
  have hset : t.segments.set 0 g' = [g'] := by
    rw [hsegs]
    rfl
  rw [hset] at hview
  rcases pollNext_frames hsh hp with ⟨rfl, -⟩ | ⟨he, -, rfl, -⟩ | ⟨he, data, rest', -, -, rfl⟩
  · refine .still hown (hview.trans ?_)
    show _ = view t
    rw [← hsegs]
    rfl
  · exact .polls hown g { g with ended := true } hsegs he List.prefix_rfl hview
  · exact .polls hown g _ hsegs he (List.prefix_append _ _) hview

/-- **The inversion of an honest step.** -/
theorem honest_move {m : UInt64} {frames : List Bytes} {t t' : TunnelState} {e : Event}
    (h : Whole m frames t) (hk : Kept t) (hG : Honest t e) (ht : Turn t e t') : Move t e t' := by
  -- a segment in somebody's hands means that the loop has not been left
  have hlive : ∀ {i : Nat} {g : Segment}, t.segments[i]? = some g → t.left = none := by
    intro i g hg
    by_contra hn
    simp [(h.delivered hn).1] at hg
  cases ht with
  | segmentDone hl hd => exact move_segmentDone h (hk hl).1 hl hd
  | cont hl r => exact move_continue h (hk hl).1 (hk hl).2 hl hG
  | pollFrame ready hg hp => exact move_poll h (hk (hlive hg)).1 hg hp (by rintro c ⟨⟩) rfl
  | pollOther ready hg hp => exact move_poll h (hk (hlive hg)).1 hg hp (by rintro c ⟨⟩) rfl
  | @release i g hg =>
    have he : g.ended = true := by simpa [Honest, honest, hg] using hG
    obtain ⟨rfl, hsegs, -⟩ := whole_live h (hk (hlive hg)).1 hg
    refine .drops (by rintro c ⟨⟩) g (if g.parks then g.shaper else t.slot) hsegs he
      (fun hno => by rw [hno]; rfl) ?_
    simp [view, release, hsegs]
  | notify hd =>
    refine .still (by rintro c ⟨⟩) ?_
    unfold notifyDone
    split <;> rfl
  | shutdown | cmdClosed | rotationTimeout | shutdownSignal => cases hG
  | idleExit hl hd hi =>
    have hlt : t.clock - t.lastActivity < STREAM_IDLE_TIMEOUT_SECS := by
      simpa [Honest, honest] using hG
    omega
  | tick | idleReset | directFrame | directErr | upload => exact .still (by rintro c ⟨⟩) rfl

/-! ## Bodies that are over -/

/-- The body of a segment, once it is over, and whether the segment will park the shaper. -/
def Segment.closes (g : Segment) : List (List Bytes × Bool) :=
  if g.ended then [(g.body, g.parks)] else []

/-- The bodies that are over, in order. -/
def closed (t : TunnelState) : List (List Bytes × Bool) :=
  t.finished ++ t.segments.flatMap Segment.closes

/-- There is at most one segment, and the slot is empty while there is one. -/
structure OneSegment (t : TunnelState) : Prop where
  one : t.segments = [] ∨ ∃ g, t.segments = [g]
  apart : t.segments ≠ [] → t.slot = none

theorem one_segment {m : UInt64} {frames : List Bytes} {t : TunnelState} (h : Whole m frames t)
    (hk : Kept t) : OneSegment t := by
  by_cases hl : t.left = none
  · obtain ⟨ho, -⟩ := hk hl
    have hone : t.segments.length ≤ 1 := by
      have hout := ho.one
      unfold outstanding at hout
      omega
    constructor
    · match hsegs : t.segments, hone with
      | [], _ => exact .inl rfl
      | [g], _ => exact .inr ⟨g, rfl⟩
    · intro hne
      cases hsl : t.slot with
      | none => rfl
      | some shaper => exact absurd (ho.apart (by rw [hsl]; rfl)) hne
  · obtain ⟨hsegs, hsl⟩ := h.delivered hl
    exact ⟨.inl hsegs, fun _ => hsl⟩

/-- How a body is over: at the limit, or before it. -/
theorem closed_ended {m : UInt64} {frames : List Bytes} {t : TunnelState} (h : Whole m frames t)
    (hk : Kept t) : ∀ p ∈ closed t, Ended m p := by
  intro p hp
  rcases List.mem_append.mp hp with hp | hp
  · exact h.ended p hp
  · obtain ⟨g, hg, hp⟩ := List.mem_flatMap.mp hp
    unfold Segment.closes at hp
    split at hp
    · rename_i he
      obtain rfl := List.mem_singleton.mp hp
      obtain ⟨i, hi⟩ := List.mem_iff_getElem?.mp hg
      have hl : t.left = none := by
        by_contra hn
        rw [(h.delivered hn).1] at hg
        exact absurd hg List.not_mem_nil
      obtain ⟨-, -, -, hok, rest, hsh, -⟩ := whole_live h (hk hl).1 hi
      have hparks : g.parks = g.pauseOnDrop := by simp [Segment.parks, hsh]
      rw [hparks]
      exact ⟨hok.paused, fun hpd => (hok.eof he hpd).2⟩
    · exact absurd hp List.not_mem_nil

/-- The bodies that are over come first. -/
theorem closed_bodies {t : TunnelState} (h : OneSegment t) :
    (closed t).map Prod.fst <+: bodies t := by
  rcases h.one with hsegs | ⟨g, hsegs⟩
  · simp [closed, bodies, hsegs]
  · simp only [closed, bodies, hsegs, List.flatMap_cons, List.flatMap_nil, List.append_nil,
      List.map_append]
    refine (List.prefix_append_right_inj _).mpr ?_
    unfold Segment.closes
    split
    · exact List.prefix_rfl
    · exact List.nil_prefix

/-- Bodies that are over stay as they are; the others get longer at most. -/
structure Grows (t t' : TunnelState) : Prop where
  settled : closed t <+: closed t'
  longer : ∀ (i : Nat) (b : List Bytes), (bodies t)[i]? = some b →
    ∃ more, (bodies t')[i]? = some (b ++ more)

/-- No body that is there changes. -/
theorem grows_of_prefix {t t' : TunnelState} (hclosed : closed t <+: closed t')
    (hbodies : bodies t <+: bodies t') : Grows t t' := by
  refine ⟨hclosed, fun i b hb => ⟨[], ?_⟩⟩
  rcases hbodies with ⟨rest, hrest⟩
  have hi : i < (bodies t).length := (List.getElem?_eq_some_iff.mp hb).1
  rw [List.append_nil, ← hrest, List.getElem?_append_left hi, hb]

theorem closes_new (shaper : Shaper) (maxBytes : Option UInt64) :
    (Segment.new shaper maxBytes).closes = [] := rfl

theorem closes_ended {g : Segment} (he : g.ended = true) : g.closes = [(g.body, g.parks)] := if_pos he

theorem closes_going {g : Segment} (he : g.ended = false) : g.closes = [] := by
  unfold Segment.closes
  rw [he]
  rfl

/-- The bodies and those that are over can be read off the view. -/
theorem closed_of_view {t : TunnelState} {v : View} (hview : view t = v) :
    closed t = v.finished ++ v.segments.flatMap Segment.closes := by
  subst hview
  rfl

theorem bodies_of_view {t : TunnelState} {v : View} (hview : view t = v) :
    bodies t = v.finished.map Prod.fst ++ v.segments.map Segment.body := by
  subst hview
  rfl

theorem move_grows {t t' : TunnelState} {e : Event} (h : Move t e t') : Grows t t' := by
  cases h with
  | still hown hview =>
    refine grows_of_prefix ?_ ?_
    · rw [closed_of_view hview]
      exact List.prefix_rfl
    · rw [bodies_of_view hview]
      exact List.prefix_rfl
  | polls hown g g' hsegs hgoing hbody hview =>
    have hclosed := closed_of_view hview
    have hbodies := bodies_of_view hview
    constructor
    case settled =>
      have hbefore : closed t = t.finished := by
        rw [closed, hsegs, List.flatMap_cons, closes_going hgoing]
        exact List.append_nil _
      rw [hbefore, hclosed]
      exact List.prefix_append _ _
    case longer =>
      intro i b hb
      rw [hbodies]
      rw [bodies, hsegs] at hb
      show ∃ more, (t.finished.map Prod.fst ++ [g'.body])[i]? = some (b ++ more)
      rcases hbody with ⟨more, hmore⟩
      by_cases hi : i < (t.finished.map Prod.fst).length
      · refine ⟨[], ?_⟩
        rw [List.append_nil, List.getElem?_append_left hi]
        rwa [List.getElem?_append_left hi] at hb
      · refine ⟨more, ?_⟩
        rw [List.getElem?_append_right (Nat.le_of_not_lt hi)] at hb ⊢
        have hzero : i - (t.finished.map Prod.fst).length = 0 := by
          have hlt := (List.getElem?_eq_some_iff.mp hb).1
          simp only [List.map_cons, List.map_nil, List.length_cons, List.length_nil] at hlt
          omega
        rw [hzero] at hb ⊢
        obtain rfl : g.body = b := Option.some.inj hb
        rw [hmore]
        rfl
  | drops hown g slot hsegs hover hslot hview =>
    refine grows_of_prefix ?_ ?_
    · rw [closed_of_view hview, closed, hsegs, List.flatMap_cons, closes_ended hover]
      show t.finished ++ [(g.body, g.parks)] <+: t.finished ++ [(g.body, g.parks)] ++ []
      exact List.prefix_append _ _
    · rw [bodies_of_view hview, bodies, hsegs]
      show t.finished.map Prod.fst ++ [g.body] <+:
        (t.finished ++ [(g.body, g.parks)]).map Prod.fst ++ []
      rw [List.map_append]
      exact List.prefix_append _ _
  | queues hpending hleft hview =>
    refine grows_of_prefix ?_ ?_
    · rw [closed_of_view hview]
      exact List.prefix_rfl
    · rw [bodies_of_view hview]
      exact List.prefix_rfl
  | grants shaper m hpending hleft hslot hsegs hview | serves shaper m hpending hleft hslot hsegs hview =>
    refine grows_of_prefix ?_ ?_
    · rw [closed_of_view hview, closed, hsegs]
      exact List.prefix_rfl
    · rw [bodies_of_view hview, bodies, hsegs]
      show t.finished.map Prod.fst ++ [] <+: t.finished.map Prod.fst ++ [_]
      rw [List.append_nil]
      exact List.prefix_append _ _
  | leaves why hleft hslot hsegs hgone hview =>
    refine grows_of_prefix ?_ ?_
    · rw [closed_of_view hview]
      exact List.prefix_rfl
    · rw [bodies_of_view hview]
      exact List.prefix_rfl

/-! ## Only the last body is not at the limit -/

structure Trail (t : TunnelState) : Prop where
  front : ∀ p ∈ (closed t).dropLast, p.2 = true
  last : ∀ p, (closed t).getLast? = some p → p.2 = false →
    t.slot = none ∧ ∀ g ∈ t.segments, g.ended = true
  left : t.left ≠ none → ∃ p, (closed t).getLast? = some p ∧ p.2 = false

/-- A list is its front and its last. -/
theorem mem_dropLast_or_last {α : Type} {l : List α} {a : α} (h : a ∈ l) :
    a ∈ l.dropLast ∨ l.getLast? = some a := by
  have hne : l ≠ [] := List.ne_nil_of_mem h
  rw [← List.dropLast_append_getLast hne] at h
  rcases List.mem_append.mp h with h | h
  · exact .inl h
  · rw [List.getLast?_eq_some_getLast hne, ← List.mem_singleton.mp h]
    exact .inr rfl

/-- As long as the shaper has a place, every body that is over has parked it. -/
theorem Trail.all_parked {t : TunnelState} (h : Trail t)
    (hplace : t.slot ≠ none ∨ ∃ g ∈ t.segments, g.ended = false) : ∀ p ∈ closed t, p.2 = true := by
  intro p hp
  rcases mem_dropLast_or_last hp with hp | hp
  · exact h.front p hp
  · by_contra hno
    obtain ⟨hslot, hended⟩ := h.last p hp (by simpa using hno)
    rcases hplace with hplace | ⟨g, hg, hgoing⟩
    · exact hplace hslot
    · rw [hended g hg] at hgoing
      cases hgoing

theorem trail_move {t t' : TunnelState} {e : Event} (h : Trail t) (hone : OneSegment t)
    (hm : Move t e t') : Trail t' := by
  -- a state with the same bodies behind it
  have hsame : closed t' = closed t → t'.slot = t.slot → t'.segments = t.segments →
      t'.left = t.left → Trail t' := by
    intro hclosed hslot hsegs hleft
    refine ⟨?_, ?_, ?_⟩
    · rw [hclosed]
      exact h.front
    · rw [hclosed, hslot, hsegs]
      exact h.last
    · rw [hclosed, hleft]
      exact h.left
  -- a state whose bodies that are over have all parked the shaper
  have hparked : (∀ p ∈ closed t', p.2 = true) → t'.left = none → Trail t' := by
    intro hall hleft
    refine ⟨fun p hp => hall p (List.dropLast_subset _ hp), fun p hp hno => ?_,
      fun hne => absurd hleft hne⟩
    rw [hall p (List.mem_of_getLast? hp)] at hno
    cases hno
  cases hm with
  | still hown hview =>
    exact hsame (closed_of_view hview) (congrArg View.slot hview) (congrArg View.segments hview)
      (congrArg View.left hview)
  | queues hpending hleft hview =>
    exact hsame (closed_of_view hview) (congrArg View.slot hview) (congrArg View.segments hview)
      (congrArg View.left hview)
  | polls hown g g' hsegs hgoing hbody hview =>
    have hall := h.all_parked (.inr ⟨g, by rw [hsegs]; exact List.mem_cons_self, hgoing⟩)
    have hleft : t'.left = none := by
      rw [show t'.left = t.left from congrArg View.left hview]
      by_contra hne
      rcases h.left hne with ⟨p, hp, hno⟩
      rw [hall p (List.mem_of_getLast? hp)] at hno
      cases hno
    have hslot : t'.slot = none :=
      (congrArg View.slot hview).trans (hone.apart (by rw [hsegs]; exact List.cons_ne_nil _ _))
    have hbefore : closed t = t.finished := by
      rw [closed, hsegs, List.flatMap_cons, closes_going hgoing]
      exact List.append_nil _
    have hafter : closed t' = closed t ++ g'.closes := by
      rw [closed_of_view hview, hbefore]
      exact congrArg (t.finished ++ ·) (List.append_nil _)
    have hsegs' : t'.segments = [g'] := congrArg View.segments hview
    cases hended : g'.ended with
    | false =>
      rw [closes_going hended, List.append_nil] at hafter
      exact hparked (hafter ▸ hall) hleft
    | true =>
      rw [closes_ended hended] at hafter
      refine ⟨?_, fun p _ _ => ⟨hslot, ?_⟩, fun hne => absurd hleft hne⟩
      · rw [hafter, List.dropLast_concat]
        exact hall
      · rw [hsegs']
        intro x hx
        rw [List.mem_singleton.mp hx]
        exact hended
  | drops hown g slot hsegs hover hslot hview =>
    have hclosed : closed t' = closed t := by
      rw [closed_of_view hview, closed, hsegs, List.flatMap_cons, closes_ended hover]
      exact List.append_nil _
    have hlast : (closed t).getLast? = some (g.body, g.parks) := by
      rw [closed, hsegs, List.flatMap_cons, closes_ended hover]
      exact List.getLast?_concat
    refine ⟨?_, fun p hp hno => ?_, ?_⟩
    · rw [hclosed]
      exact h.front
    · rw [hclosed, hlast] at hp
      obtain rfl := Option.some.inj hp
      constructor
      · rw [show t'.slot = slot from congrArg View.slot hview, hslot hno]
        exact hone.apart (by rw [hsegs]; exact List.cons_ne_nil _ _)
      · rw [show t'.segments = [] from congrArg View.segments hview]
        exact fun x hx => absurd hx List.not_mem_nil
    · rw [hclosed, show t'.left = t.left from congrArg View.left hview]
      exact h.left
  | grants shaper m hpending hleft hslot hsegs hview | serves shaper m hpending hleft hslot hsegs hview =>
    have hclosed : closed t' = closed t := by
      rw [closed_of_view hview, closed, hsegs]
      rfl
    refine hparked ?_ ((congrArg View.left hview).trans hleft)
    rw [hclosed]
    exact h.all_parked (.inl (by rw [hslot]; exact Option.some_ne_none _))
  | leaves why hleft hslot hsegs hgone hview =>
    have hclosed : closed t' = closed t := closed_of_view hview
    have hbefore : closed t = t.finished := by
      rw [closed, hsegs]
      exact List.append_nil _
    refine ⟨?_, fun p _ _ => ⟨?_, ?_⟩, fun _ => ?_⟩
    · rw [hclosed]
      exact h.front
    · exact (congrArg View.slot hview).trans hslot
    · rw [show t'.segments = [] from (congrArg View.segments hview).trans hsegs]
      exact fun x hx => absurd hx List.not_mem_nil
    · rw [hclosed]
      rcases hgone with ⟨body, hbody⟩
      rw [← hbefore] at hbody
      rcases mem_dropLast_or_last hbody with hbody | hbody
      · exact nomatch h.front _ hbody
      · exact ⟨_, hbody, rfl⟩

/-- When the last body has not parked the shaper, the bodies are all of the frames. -/
theorem nothing_left {m : UInt64} {frames : List Bytes} {t : TunnelState} (h : Whole m frames t)
    (hk : Kept t) (htrail : Trail t) {p : List Bytes × Bool} (hp : (closed t).getLast? = some p)
    (hno : p.2 = false) : bodies t = (closed t).map Prod.fst ∧ (bodies t).flatten = frames := by
  obtain ⟨hslot, hended⟩ := htrail.last p hp hno
  rcases (one_segment h hk).one with hsegs | ⟨g, hsegs⟩
  · refine ⟨by simp [bodies, closed, hsegs], ?_⟩
    obtain ⟨rest, hrest, hrem⟩ := h.chain
    have hnil : rest = [] := by
      simpa [remaining, hsegs, hslot] using hrem.symm
    rw [← hrest, hnil, List.append_nil]
  · have he : g.ended = true := hended g (by rw [hsegs]; exact List.mem_cons_self)
    have hl : t.left = none := by
      by_contra hn
      rw [(h.delivered hn).1] at hsegs
      cases hsegs
    have hclosed : closed t = t.finished ++ [(g.body, g.parks)] := by
      rw [closed, hsegs, List.flatMap_cons, closes_ended he]
      rfl
    rw [hclosed, List.getLast?_concat] at hp
    obtain rfl := Option.some.inj hp
    have hg : t.segments[0]? = some g := by rw [hsegs]; rfl
    obtain ⟨-, -, -, hok, rest, hsh, hrest⟩ := whole_live h (hk hl).1 hg
    have hpd : g.pauseOnDrop = false := by simpa [Segment.parks, hsh] using hno
    have hnil : rest = [] := by
      have heof := (hok.eof he hpd).1
      rw [hsh] at heof
      simpa using heof
    constructor
    · rw [bodies, hclosed, hsegs, List.map_append]
      rfl
    · rw [← hrest, hnil, bodies, hsegs, List.append_nil, List.flatten_append]
      simp

theorem trail_start {u : Setup} {m : UInt64} (hm : u.maxDownloadBytes = some m) :
    Trail (start u) := by
  rw [start_segmented hm]
  exact ⟨fun p hp => absurd hp List.not_mem_nil, (by rintro p ⟨⟩), fun hne => absurd rfl hne⟩

/-! ## The requests are granted in order -/

/-- The requests that were granted a segment. -/
def grantedIn (answers : List (Reply × Answer)) : List Nat :=
  (answers.filter fun p => decide (p.2 = .segment)).map fun p => p.1.id

def granted (t : TunnelState) : List Nat := grantedIn t.answers

/-- `delivered` requests have reached the actor, numbered from 0. -/
structure Asked (t : TunnelState) (delivered : Nat) : Prop where
  inOrder : granted t = List.range (granted t).length
  bodies : (bodies t).length = (granted t).length + 1
  waiting : ∀ r ∈ t.pendingContinue, r.id = (granted t).length
  count : t.left = none → delivered = (granted t).length + t.pendingContinue.length

theorem granted_of_view {t : TunnelState} {v : View} (hview : view t = v) :
    granted t = grantedIn v.answers := by
  subst hview
  rfl

theorem grantedIn_append (answers : List (Reply × Answer)) (r : Reply) :
    grantedIn (answers ++ [(r, .segment)]) = grantedIn answers ++ [r.id] := by
  simp [grantedIn]

/-- Nobody is granted anything. -/
theorem Asked.same {t t' : TunnelState} {delivered : Nat} (h : Asked t delivered)
    (hgranted : granted t' = granted t) (hbodies : (Tunnel.bodies t').length = (Tunnel.bodies t).length)
    (hpending : t'.pendingContinue = t.pendingContinue) (hleft : t'.left = t.left) :
    Asked t' delivered := by
  refine ⟨hgranted ▸ h.inOrder, ?_, ?_, ?_⟩
  · rw [hbodies, hgranted]
    exact h.bodies
  · rw [hpending, hgranted]
    exact h.waiting
  · rw [hpending, hgranted, hleft]
    exact h.count

/-- The next number is granted the next segment. -/
theorem Asked.grant {t t' : TunnelState} {delivered : Nat} (h : Asked t delivered) {r : Reply}
    (hr : r.id = (granted t).length) (hgranted : granted t' = granted t ++ [r.id])
    (hbodies : (Tunnel.bodies t').length = (Tunnel.bodies t).length + 1)
    (hpending : t'.pendingContinue = []) : Asked t' ((granted t).length + 1) := by
  have hlength : (granted t').length = (granted t).length + 1 := by
    rw [hgranted, List.length_append, List.length_singleton]
  refine ⟨?_, ?_, ?_, fun _ => ?_⟩
  · rw [hlength, List.range_succ, ← h.inOrder, hgranted, hr]
  · rw [hbodies, h.bodies, hlength]
  · rw [hpending]
    exact fun x hx => absurd hx List.not_mem_nil
  · rw [hpending, hlength]
    rfl

theorem asked_move {t t' : TunnelState} {e : Event} {delivered : Nat} (h : Asked t delivered)
    (hown : ∀ c, e ≠ .cmd c) (hm : Move t e t') : Asked t' delivered := by
  cases hm with
  | still _ hview =>
    refine h.same (granted_of_view hview) ?_ (congrArg View.pending hview) (congrArg View.left hview)
    rw [bodies_of_view hview]
    rfl
  | polls _ g g' hsegs hgoing hbody hview =>
    refine h.same (granted_of_view hview) ?_ (congrArg View.pending hview) (congrArg View.left hview)
    rw [bodies_of_view hview, bodies, hsegs, List.length_append, List.length_append]
    rfl
  | drops _ g slot hsegs hover hslot hview =>
    refine h.same (granted_of_view hview) ?_ (congrArg View.pending hview) (congrArg View.left hview)
    rw [bodies_of_view hview, bodies, hsegs]
    simp
  | queues => exact absurd rfl (hown _)
  | grants => exact absurd rfl (hown _)
  | @serves r _ shaper m hpending hleft hslot hsegs hview =>
    have hr : r.id = (granted t).length := h.waiting r (by rw [hpending]; exact List.mem_cons_self)
    have hcount : delivered = (granted t).length + 1 := by
      rw [h.count hleft, hpending]
      rfl
    rw [hcount]
    refine h.grant hr ((granted_of_view hview).trans (grantedIn_append _ r)) ?_
      (congrArg View.pending hview)
    rw [bodies_of_view hview, bodies, hsegs]
    simp [view]
  | leaves why hleft hslot hsegs hgone hview =>
    have hgranted : granted t' = granted t := by
      rw [granted_of_view hview, granted]
      simp [grantedIn]
    have hbodies : (bodies t').length = (bodies t).length := by
      rw [bodies_of_view hview]
      rfl
    refine ⟨hgranted ▸ h.inOrder, by rw [hbodies, hgranted]; exact h.bodies, ?_, fun hno => ?_⟩
    · rw [show t'.pendingContinue = [] from congrArg View.pending hview]
      exact fun x hx => absurd hx List.not_mem_nil
    · rw [show t'.left = some why from congrArg View.left hview] at hno
      cases hno

/-- The next request comes while no other is waiting. -/
theorem asked_continue {t t' : TunnelState} {delivered : Nat} (h : Asked t delivered)
    (hm : Move t (.cmd (.continue ⟨delivered, .open⟩)) t') : Asked t' (delivered + 1) := by
  cases hm with
  | still hown => exact absurd rfl (hown _)
  | polls hown => exact absurd rfl (hown _)
  | drops hown => exact absurd rfl (hown _)
  | queues hpending hleft hview =>
    have hcount : delivered = (granted t).length := by
      rw [h.count hleft, hpending]
      rfl
    have hgranted : granted t' = granted t := granted_of_view hview
    have hpending' : t'.pendingContinue = [⟨delivered, .open⟩] := congrArg View.pending hview
    have hbodies : (bodies t').length = (bodies t).length := by
      rw [bodies_of_view hview]
      rfl
    refine ⟨hgranted ▸ h.inOrder, by rw [hbodies, hgranted]; exact h.bodies, ?_, fun _ => ?_⟩
    · intro r hr
      rw [hpending'] at hr
      rw [List.mem_singleton.mp hr, hgranted]
      exact hcount
    · rw [hpending', hgranted, ← hcount]
      rfl
  | grants shaper m hpending hleft hslot hsegs hview =>
    have hcount : delivered = (granted t).length := by
      rw [h.count hleft, hpending]
      rfl
    have hnext : Asked t' ((granted t).length + 1) := by
      refine h.grant (r := ⟨delivered, .open⟩) hcount ((granted_of_view hview).trans (grantedIn_append _ _))
        ?_ ((congrArg View.pending hview).trans hpending)
      rw [bodies_of_view hview, bodies, hsegs]
      simp [view]
    rwa [← hcount] at hnext

theorem asked_start {u : Setup} {m : UInt64} (hm : u.maxDownloadBytes = some m) :
    Asked (start u) 0 := by
  rw [start_segmented hm]
  exact ⟨rfl, rfl, fun r hr => absurd hr List.not_mem_nil, fun _ => rfl⟩

end Httproxy.Tunnel
