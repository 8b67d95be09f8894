/-
  A download can always be brought to its end.

  `DownloadPath` says what a quiet run never does.  A client that waits for a response that nobody owes
  it, or a server that keeps the shaper parked for a request that never comes, would break none of that.
  Here: there is no such state.

  1. **The server comes to rest (`Settled`)** — left to itself it sends the live body to its end, drops
     the segment and takes the notification; the rank is `workload`.

  2. **The requests arrive (`Rested`)** — then whoever waits has a response.

  3. **The socket takes everything (`Filled`)** — no chunk of the queue is empty, so a socket with room
     never makes a flush fail.

  4. **Rounds** — each takes one more body, and every body but the last has a frame in it.

  None of the steps is a timeout, nor does time pass.  The theorem is `download_completable`.
-/
import Httproxy.DownloadPath
import Httproxy.Lib.Progress

namespace Httproxy.Tunnel

open Machine

/-! ## The server comes to rest -/

/-- There is nothing that the server could do by itself. -/
def Settled (t : TunnelState) : Prop := t.left ≠ none ∨ outstanding t = 0

/-- What is left to do: a frame and a request count more than all that happens to a segment once. -/
def workload (t : TunnelState) : Nat :=
  4 * ((remaining t).length + t.pendingContinue.length) +
    (t.segments.filter fun g => !g.ended).length + 3 * t.segments.length + 2 * t.dropping + t.doneQueue

/-- The steps of the server itself, without a timeout and without time. -/
def Own (t : TunnelState) (e : Event) : Prop :=
  Honest t e ∧ ((∃ i ready, e = .poll i ready) ∨ (∃ i, e = .release i) ∨ e = .notify ∨ e = .segmentDone)

section Tunnel

variable {m : UInt64} {frames : List Bytes} {t : TunnelState}

/-- The live segment sends a frame, or comes to the end of the stream. -/
theorem poll_works (h : Whole m frames t) (ho : Owned t) {i : Nat} {g : Segment}
    (hg : t.segments[i]? = some g) (he : g.ended = false) :
    ∃ t', step t (.poll 0 true) = some t' ∧ workload t' < workload t := by
  obtain ⟨rfl, hsegs, hsl, -, rest, hsh, -⟩ := whole_live h ho hg
  cases rest with
  | nil =>
    refine ⟨_, by simp only [step, hg, Option.map_some]; rfl, ?_⟩
    simp [pollSegment, pollNext, he, hsh, ho.uncancelled, workload, remaining, hsegs, hsl]
  | cons data rest =>
    refine ⟨_, by simp only [step, hg, Option.map_some]; rfl, ?_⟩
    have hlive : ∀ g' : Segment, ([g'].filter fun g => !g.ended).length ≤ 1 := fun g' =>
      List.length_filter_le _ [g']
    have hone : ([g].filter fun g => !g.ended).length = 1 := by simp [he]
    simp only [pollSegment, pollNext, he, hsh, ho.uncancelled, workload, remaining, hsegs, hsl,
      noteDownload, List.map_cons, List.map_nil, List.flatten_cons, List.flatten_nil, Option.getD,
      List.append_nil, List.length_cons, List.set_cons_zero, hone, Bool.not_true, Bool.false_eq_true,
      if_false, List.length_nil]
    have hle := hlive { g with
      shaper := some (rest.map Item.frame)
      sent := g.sent + UInt64.ofNat data.length
      pauseOnDrop := g.pauseOnDrop || limitReached g.maxBytes (g.sent + UInt64.ofNat data.length)
      ended := limitReached g.maxBytes (g.sent + UInt64.ofNat data.length)
      body := g.body ++ [data] }
    omega

/-- A segment that is over is dropped. -/
theorem release_works (h : Whole m frames t) (ho : Owned t) {i : Nat} {g : Segment}
    (hg : t.segments[i]? = some g) (he : g.ended = true) :
    ∃ t', step t (.release 0) = some t' ∧ Honest t (.release 0) ∧ workload t' < workload t := by
  obtain ⟨rfl, hsegs, hsl, -, rest, hsh, -⟩ := whole_live h ho hg
  obtain ⟨-, -, hdrop, -⟩ := ho.single.live_alone hg
  refine ⟨_, by simp only [step, hg, Option.map_some]; rfl, by simp [Honest, honest, hg, he], ?_⟩
  cases hp : g.parks with
  | true => simp [release, workload, remaining, hsegs, hsl, hsh, hdrop, hp, he]
  | false => simp [release, workload, remaining, hsegs, hsl, hsh, hdrop, hp, he]

theorem notify_works (ho : Owned t) (hd : t.dropping ≠ 0) :
    ∃ t', step t .notify = some t' ∧ workload t' < workload t := by
  obtain ⟨heq, -⟩ := single_notify ho.single hd
  refine ⟨_, if_neg hd, ?_⟩
  rw [heq]
  simp only [workload, remaining]
  omega

/-- The notification is the last of a segment, unless a request waits for the next one. -/
theorem segmentDone_works (h : Whole m frames t) (ho : Owned t) (hl : t.left = none)
    (hd : t.doneQueue ≠ 0) :
    ∃ t', step t .segmentDone = some t' ∧ (Settled t' ∨ workload t' < workload t) := by
  have hstep : step t .segmentDone = some (endTurn (segmentDone t)) := by
    simp [step, hd, turn, hl]
  refine ⟨_, hstep, ?_⟩
  obtain ⟨hsegs, hdrop, hdone⟩ := ho.single.done_alone hd
  cases hsl : t.slot with
  | none =>
    rw [segmentDone_gone hsl, endTurn_draining rfl]
    exact .inl (.inl (Option.some_ne_none _))
  | some shaper =>
    have hw : waiting t.pendingContinue = t.pendingContinue := waiting_open h.openReply
    cases hpc : t.pendingContinue with
    | nil =>
      rw [segmentDone_idle ho.slotted hsl (hw.trans hpc), endTurn_looping (.inr rfl)]
      exact .inl (.inr (outstanding_rotate ho hd))
    | cons r more =>
      have hmore : more = [] := by
        have hone := h.oneReply
        rw [hpc, List.length_cons] at hone
        exact List.eq_nil_of_length_eq_zero (by omega)
      subst hmore
      have hr : r.receiver = .open := h.openReply r (by rw [hpc]; exact List.mem_cons_self)
      have hloop := (owned_grant shaper r (t := rotate t) ho.slotted
        (outstanding_rotate ho hd) ho.uncancelled).looping
      rw [segmentDone_served ho.slotted hsl (hw.trans hpc), refuse_nil, endTurn_looping hloop]
      right
      simp [workload, remaining, grant, sendSegment, hr, rotate, Segment.new, hsegs, hsl, hdrop, hdone,
        hpc]
      omega

/-- As long as a segment is outstanding, the server can go on with it. -/
theorem server_works (h : Whole m frames t) (hk : Kept t) (hno : ¬ Settled t) :
    ∃ e t', Own t e ∧ step t e = some t' ∧ (Settled t' ∨ workload t' < workload t) := by
  obtain ⟨hl, hout⟩ : t.left = none ∧ outstanding t ≠ 0 := by simpa [Settled] using hno
  obtain ⟨ho, -⟩ := hk hl
  by_cases hsegs : t.segments = []
  · by_cases hd : t.dropping = 0
    · have hdone : t.doneQueue ≠ 0 := by simpa [outstanding, hsegs, hd] using hout
      obtain ⟨t', ht, hless⟩ := segmentDone_works h ho hl hdone
      exact ⟨.segmentDone, t', ⟨rfl, .inr (.inr (.inr rfl))⟩, ht, hless⟩
    · obtain ⟨t', ht, hless⟩ := notify_works ho hd
      exact ⟨.notify, t', ⟨rfl, .inr (.inr (.inl rfl))⟩, ht, .inr hless⟩
  · obtain ⟨g, more, hcons⟩ := List.exists_cons_of_ne_nil hsegs
    have hg : t.segments[0]? = some g := by rw [hcons]; rfl
    cases he : g.ended with
    | false =>
      obtain ⟨t', ht, hless⟩ := poll_works h ho hg he
      exact ⟨.poll 0 true, t', ⟨rfl, .inl ⟨0, true, rfl⟩⟩, ht, .inr hless⟩
    | true =>
      obtain ⟨t', ht, hG, hless⟩ := release_works h ho hg he
      exact ⟨.release 0, t', ⟨hG, .inr (.inl ⟨0, rfl⟩)⟩, ht, .inr hless⟩

/-- **The server comes to rest.** -/
theorem settles (h : Whole m frames t) (hk : Kept t) (htrail : Trail t) :
    ∃ t', Reaches step Own t t' ∧ Settled t' := by
  have hdown : ∀ t, Whole m frames t ∧ Kept t ∧ Trail t → Settled t ∨ ∃ t', Reaches step Own t t' ∧
      (Whole m frames t' ∧ Kept t' ∧ Trail t') ∧ (Settled t' ∨ workload t' < workload t) := by
    rintro t ⟨h, hk, htrail⟩
    by_cases hset : Settled t
    · exact .inl hset
    · obtain ⟨e, t', hG, hstep, hless⟩ := server_works h hk hset
      obtain ⟨hwhole, hkept, htrail', -⟩ := DownloadPath.honest_step h hk htrail hG.1 hstep
      exact .inr ⟨t', .one hG hstep, ⟨hwhole, hkept, htrail'⟩, hless⟩
  obtain ⟨t', ht, -, hset⟩ := reaches_of_rank workload hdown t ⟨h, hk, htrail⟩
  exact ⟨t', ht, hset⟩

end Tunnel

end Httproxy.Tunnel

namespace Httproxy.DownloadPath

open Crypto Machine Seq Shaper
open Download (Answer Loop Stage Waiting loopStep)

/-- Nobody waits for a timeout. -/
def timeless : Event → Bool
  | .server (.tick _) | .server .idleSleep | .client .elapsed | .client (.flushDeadline _) => false
  | _ => true

/-- Quiet, and without a timeout. -/
def Prompt (s : Path) (e : Event) : Prop := Quiet s e ∧ timeless e = true

/-! ## The requests arrive -/

/-- All requests have arrived, and there is nothing that the server could do by itself. -/
structure Rested (s : Path) : Prop where
  settled : Tunnel.Settled s.tunnel
  delivered : s.delivered = s.client.requests

section Requests

variable {key : LessSafeKey} {base122 : Base122Fast} {encoding : EncodingType} {m : UInt64}
  {frames : List Bytes}

theorem server_step {s : Path} {e : Tunnel.Event} (hown : ∀ c, e ≠ .cmd c) :
    step key base122 encoding s (.server e) =
      (Tunnel.step s.tunnel e).map fun tunnel => { s with tunnel } := by
  cases e with
  | cmd c => exact absurd rfl (hown c)
  | _ => rfl

theorem server_settles {s : Path} (h : Inv key base122 encoding m frames s) :
    ∃ t, Reaches (step key base122 encoding) Prompt s { s with tunnel := t } ∧
      Tunnel.Settled t := by
  obtain ⟨t, ht, hset⟩ := Tunnel.settles h.whole h.kept h.trail
  refine ⟨t, ?_, hset⟩
  refine ht.lift (f := fun t => { s with tunnel := t }) fun t e t' hG ht => ?_
  obtain ⟨hG, hown⟩ := hG
  refine ⟨.server e, ⟨hG, ?_⟩, ?_⟩
  · rcases hown with ⟨i, ready, rfl⟩ | ⟨i, rfl⟩ | rfl | rfl <;> rfl
  · have hcmd : ∀ c, e ≠ .cmd c := by
      rintro c rfl
      rcases hown with ⟨i, ready, ⟨⟩⟩ | ⟨i, ⟨⟩⟩ | ⟨⟨⟩⟩ | ⟨⟨⟩⟩
    rw [server_step hcmd, ht]
    rfl

/-- The next request arrives. -/
theorem deliver_step {s : Path} (hlt : s.delivered < s.client.requests) :
    ∃ t, step key base122 encoding s .deliver =
      some { s with tunnel := t, delivered := s.delivered + 1 } := by
  rw [step, if_pos hlt]
  by_cases hl : s.tunnel.left = none
  · have hturn : Tunnel.step s.tunnel (.cmd (.continue ⟨s.delivered, .open⟩)) =
        some (Tunnel.command (.continue ⟨s.delivered, .open⟩) s.tunnel) := if_pos hl
    rw [if_pos hl, hturn]
    exact ⟨_, rfl⟩
  · rw [if_neg hl]
    exact ⟨s.tunnel, rfl⟩

theorem rests (hsize : ∀ f ∈ frames, 0 < f.length ∧ f.length < 2 ^ 64) {s : Path}
    (h : Inv key base122 encoding m frames s) :
    ∃ t delivered, Reaches (step key base122 encoding) Prompt s { s with tunnel := t, delivered } ∧
      Rested { s with tunnel := t, delivered } := by
  have hdown : ∀ s' : Path, Inv key base122 encoding m frames s' ∧ s'.client = s.client ∧
        s'.source = s.source → Rested s' ∨
      ∃ t, Reaches (step key base122 encoding) Prompt s' t ∧
        (Inv key base122 encoding m frames t ∧ t.client = s.client ∧ t.source = s.source) ∧
        (Rested t ∨ t.client.requests - t.delivered < s'.client.requests - s'.delivered) := by
    rintro s' ⟨h', hclient, hsource⟩
    right
    by_cases hlt : s'.delivered < s'.client.requests
    · -- one more request, and what the server has to do for it
      obtain ⟨t, ht⟩ := @deliver_step key base122 encoding s' hlt
      have hG : Prompt s' .deliver := ⟨rfl, rfl⟩
      refine ⟨_, .one hG ht, ⟨inv_step hsize h' hG.1 ht, hclient, hsource⟩, .inr ?_⟩
      show s'.client.requests - (s'.delivered + 1) < s'.client.requests - s'.delivered
      omega
    · obtain ⟨t, ht, hset⟩ := server_settles h'
      refine ⟨_, ht, ⟨ht.invariant (fun _ _ _ hi hG hstep => inv_step hsize hi hG.1 hstep) h',
        hclient, hsource⟩, .inl ⟨hset, ?_⟩⟩
      exact Nat.le_antisymm h'.sent (Nat.le_of_not_lt hlt)
  obtain ⟨t, ht, ⟨-, hclient, hsource⟩, hrest⟩ :=
    reaches_of_rank (fun s' : Path => s'.client.requests - s'.delivered) hdown s ⟨h, rfl, rfl⟩
  obtain ⟨tunnel, client, delivered, source⟩ := t
  obtain rfl : client = s.client := hclient
  obtain rfl : source = s.source := hsource
  exact ⟨tunnel, delivered, ht, hrest⟩

/-- **Whoever waits has a response**, once the request has arrived. -/
theorem response_rested {s : Path} (h : Inv key base122 encoding m frames s) (hr : Rested s)
    {on : Waiting} (hs : s.client.stage = .rotating on) : s.response.isSome = true := by
  obtain ⟨n, body, hn, hbody⟩ := h.rotating on hs
  have hrequests : s.client.requests = n + 1 := (h.asking.rotating on hs).trans hn
  have hcount := h.asked.bodies
  have hgranted : n < (Tunnel.granted s.tunnel).length := by
    by_cases hl : s.tunnel.left = none
    · obtain ⟨ho, -⟩ := h.kept hl
      have hnone : s.tunnel.pendingContinue = [] := by
        refine ho.queued ?_
        have hout : Tunnel.outstanding s.tunnel = 0 := hr.settled.resolve_left fun hno => hno hl
        cases hactive : s.tunnel.segmentActive with
        | false => rfl
        | true =>
          have hone := ho.active.mp hactive
          omega
      have hasked := h.asked.count hl
      rw [hr.delivered, hrequests, hnone] at hasked
      exact Nat.lt_of_lt_of_eq (Nat.lt_succ_self n) hasked
    · -- the last body has not parked the shaper, so there is one behind the `n`-th
      obtain ⟨p, hp, hno⟩ := h.trail.left hl
      have hle := (Tunnel.closed_bodies (Tunnel.one_segment h.whole h.kept)).length_le
      rw [List.length_map] at hle
      have hlt := (List.getElem?_eq_some_iff.mp hbody).1
      by_contra hge
      have hlast : (Tunnel.closed s.tunnel).length = n + 1 := by omega
      rw [List.getLast?_eq_getElem?, hlast, Nat.add_sub_cancel, hbody] at hp
      rw [← Option.some.inj hp] at hno
      cases hno
  rw [Path.response, hrequests]
  dsimp only
  rw [if_pos (by rw [hr.delivered, hrequests]; exact Nat.lt_succ_self n), respond, h.asked.inOrder,
    idxOf?_range, if_pos hgranted]
  rfl

/-- The client gets its next response. -/
theorem gets_response {s : Path} (h : Inv key base122 encoding m frames s) (hr : Rested s)
    {on : Waiting} (hs : s.client.stage = .rotating on) :
    ∃ e source, step key base122 encoding s e = some { s with
      client := s.client.nextResponse (some m), source } ∧ Prompt s e := by
  have hthere := response_rested h hr hs
  cases on with
  | prefetch late =>
    refine ⟨.client (.prefetched true), s.sourceAfter (.prefetched true), ?_, rfl, rfl⟩
    simp [step, Path.permits, hthere, loopStep, hs, h.whole.limit]
  | continuation =>
    refine ⟨.client (.answered true), s.sourceAfter (.answered true), ?_, rfl, rfl⟩
    simp [step, Path.permits, hthere, loopStep, hs, h.whole.limit]

end Requests

/-! ## The socket takes everything -/

/-- No chunk on its way to the socket is empty. -/
def Filled (l : Loop) : Prop := ∀ chunk ∈ l.buffers.queue.pending, chunk ≠ []

/-- A socket that always has room. -/
def roomy : Nat → Answer := fun _ => .room 1

section Socket

variable {key : LessSafeKey} {base122 : Base122Fast} {encoding : EncodingType}
  {maxBytes : Option UInt64} {l : Loop}

theorem filled_flush (hcounted : l.buffers.queue.Counted) (hf : Filled l) (answers : Nat → Answer) :
    Filled (l.flush answers) := by
  obtain ⟨es, hes, -⟩ := Download.flush_run answers (Download.loopHead l.buffers.queue []) 0
  have hdelivering := run_invariant Download.delivering_step es _ _
    (Download.delivering_loopHead (List.nil_append _) hcounted hf) hes
  unfold Loop.flush
  dsimp only
  split
  · exact hdelivering.chunks
  · exact hdelivering.chunks

theorem flush_accepted (l : Loop) (answers : Nat → Answer) :
    (l.flush answers).accepted = l.accepted := by
  unfold Loop.flush
  dsimp only
  split <;> rfl

theorem flush_roomy (hcounted : l.buffers.queue.Counted) (hf : Filled l) :
    view (l.flush roomy) = view l := by
  have hok : (Download.flush roomy (Download.loopHead l.buffers.queue []) 0).outcome = .ok :=
    Download.flush_ok (fun _ => ⟨1, Nat.one_pos, rfl⟩)
      (Download.delivering_loopHead (List.nil_append _) hcounted hf)
      (Download.loopHead_well l.buffers.queue [])
  unfold Loop.flush
  dsimp only
  rw [if_pos hok]
  rfl

/-- What the branch of a chunk comes to. -/
theorem onData_cases (h : Download.Reading key base122 encoding l) (hs : l.stage = .streaming)
    (bytes : Bytes) (answers : Nat → Answer) :
    ∃ drain requests r, Download.Decoded key base122 encoding
        { l.buffers with input := l.buffers.input ++ bytes } l.expectedSeq r ∧
      ((∃ e : Download.DownloadError, e.ofIngest = true ∧
        l.onData key base122 encoding maxBytes bytes answers =
          { l.take drain requests bytes r with stage := .failed e }) ∨
      l.onData key base122 encoding maxBytes bytes answers = l.take drain requests bytes r ∨
      l.onData key base122 encoding maxBytes bytes answers =
        (l.take drain requests bytes r).flush answers) := by
  have hgo : ∀ e, l.stage ≠ .failed e := by
    rw [hs]
    rintro e ⟨⟩
  have hr := @Download.ingest_decoded key base122 encoding l.buffers l.expectedSeq
    (h.intact hgo).scratch bytes
  unfold Loop.onData
  generalize Download.ingest key base122 encoding l.buffers bytes l.expectedSeq = r at hr
  refine ⟨Download.onChunk (Download.prefetchAt maxBytes) l.drain bytes,
    requestsAfter l (Download.onChunk (Download.prefetchAt maxBytes) l.drain bytes), r, hr, ?_⟩
  dsimp only
  cases he : r.error with
  | some e =>
    refine .inl ⟨e, ?_, rfl⟩
    have hblamed := hr.blamed e he
    cases e with
    | decode | outOfOrder => rfl
    | read | flush | continuation | prefetchTimeout => exact hblamed.elim
  | none =>
    dsimp only
    split
    · exact .inr (.inr rfl)
    · exact .inr (.inl rfl)

/-- Frames with data make chunks that are not empty. -/
theorem filled_take (hf : Filled l) (drain : Download.Drain) (requests : Nat) {bytes : Bytes}
    {r : Download.Ingested} (hr : Download.Decoded key base122 encoding
      { l.buffers with input := l.buffers.input ++ bytes } l.expectedSeq r)
    (hdata : ∀ x ∈ (l.take drain requests bytes r).accepted, x.2 ≠ []) :
    Filled (l.take drain requests bytes r) := by
  intro chunk hchunk
  have hqueue : r.buffers.queue.pending = l.buffers.queue.pending ++ r.frames.map Prod.snd := hr.queue
  rcases List.mem_append.mp (hqueue ▸ hchunk) with hold | hnew
  · exact hf chunk hold
  · obtain ⟨x, hx, rfl⟩ := List.mem_map.mp hnew
    exact hdata x (List.mem_append_right _ hx)

theorem filled_onData (h : Download.Reading key base122 encoding l) (hs : l.stage = .streaming)
    (hf : Filled l) (bytes : Bytes) (answers : Nat → Answer)
    (hdata : ∀ x ∈ (l.onData key base122 encoding maxBytes bytes answers).accepted, x.2 ≠ []) :
    Filled (l.onData key base122 encoding maxBytes bytes answers) := by
  obtain ⟨drain, requests, r, hr, hcases⟩ :=
    @onData_cases key base122 encoding maxBytes l h hs bytes answers
  rcases hcases with ⟨e, -, heq⟩ | heq | heq
  · rw [heq] at hdata ⊢
    exact filled_take hf drain requests hr hdata
  · rw [heq] at hdata ⊢
    exact filled_take hf drain requests hr hdata
  · rw [heq] at hdata ⊢
    rw [flush_accepted] at hdata
    exact filled_flush (hr.counted h.counted) (filled_take hf drain requests hr hdata) answers

/-- With room at the socket, a chunk fails at most for what it holds. -/
theorem onData_roomy (h : Download.Reading key base122 encoding l) (hs : l.stage = .streaming)
    (hf : Filled l) (bytes : Bytes)
    (hdata : ∀ x ∈ (l.onData key base122 encoding maxBytes bytes roomy).accepted, x.2 ≠ []) :
    (∃ e, (l.onData key base122 encoding maxBytes bytes roomy).stage = .failed e ∧
      e.ofIngest = true) ∨
    (l.onData key base122 encoding maxBytes bytes roomy).stage = .streaming ∧
      (l.onData key base122 encoding maxBytes bytes roomy).bodies = l.bodies ∧
      (l.onData key base122 encoding maxBytes bytes roomy).body = l.body ++ bytes := by
  obtain ⟨drain, requests, r, hr, hcases⟩ :=
    @onData_cases key base122 encoding maxBytes l h hs bytes roomy
  rcases hcases with ⟨e, he, heq⟩ | heq | heq
  · exact .inl ⟨e, by rw [heq], he⟩
  · rw [heq]
    exact .inr ⟨hs, rfl, rfl⟩
  · rw [heq] at hdata ⊢
    rw [flush_accepted] at hdata
    have hview := flush_roomy (l := l.take drain requests bytes r) (hr.counted h.counted)
      (filled_take hf drain requests hr hdata)
    exact .inr ⟨(congrArg View.stage hview).trans hs, congrArg View.bodies hview,
      congrArg View.body hview⟩

theorem filled_onEnd (hcounted : l.buffers.queue.Counted) (hf : Filled l) (answers : Nat → Answer) :
    Filled (l.onEnd maxBytes answers) := by
  have hflush := filled_flush hcounted hf answers
  unfold Loop.onEnd Loop.endBody Loop.askAgain
  dsimp only
  split
  · split
    · split
      · exact hflush
      · exact hflush
    · exact hflush
  · exact hflush

/-- With room at the socket, the end of a body is one. -/
theorem onEnd_roomy (hs : l.stage = .streaming) (hcounted : l.buffers.queue.Counted)
    (hf : Filled l) :
    (l.onEnd maxBytes roomy).bodies = l.bodies ++ [l.body] ∧
      ((l.onEnd maxBytes roomy).stage = .done ∨ ∃ on, (l.onEnd maxBytes roomy).stage = .rotating on) := by
  have hview := flush_roomy hcounted hf
  have hbodies : (l.flush roomy).bodies = l.bodies := congrArg View.bodies hview
  have hbody : (l.flush roomy).body = l.body := congrArg View.body hview
  have hstage : (l.flush roomy).stage = .streaming := (congrArg View.stage hview).trans hs
  unfold Loop.onEnd
  dsimp only
  rw [if_pos hstage, ← hbodies, ← hbody]
  unfold Loop.endBody Loop.askAgain
  dsimp only
  split
  · split
    · exact ⟨rfl, .inr ⟨_, rfl⟩⟩
    · exact ⟨rfl, .inr ⟨_, rfl⟩⟩
  · exact ⟨rfl, .inl rfl⟩

theorem filled_step {l' : Loop} {e : Download.Event} (h : Download.Reading key base122 encoding l)
    (hf : Filled l) (hdata : ∀ x ∈ l'.accepted, x.2 ≠ [])
    (hstep : loopStep key base122 encoding maxBytes l e = some l') : Filled l' := by
  cases e with
  | chunk bytes answers =>
    obtain ⟨hs, rfl⟩ := by simpa [loopStep] using hstep
    exact filled_onData h hs hf bytes answers hdata
  | flushDeadline answers =>
    obtain ⟨-, rfl⟩ := by simpa [loopStep] using hstep
    exact filled_flush h.counted hf answers
  | bodyEnd answers =>
    obtain ⟨-, rfl⟩ := by simpa [loopStep] using hstep
    exact filled_onEnd h.counted hf answers
  | readError =>
    obtain ⟨-, rfl⟩ := by simpa [loopStep] using hstep
    exact hf
  | prefetched ok | elapsed | answered ok =>
    simp only [loopStep] at hstep
    repeat' split at hstep
    all_goals cases hstep
    all_goals exact hf

end Socket

/-! ## Rounds -/

/-- The frames of a shaper, and what they were sealed with. -/
structure Sealed (key : LessSafeKey) (base122 : Base122Fast) (encoding : EncodingType)
    (fs : List SealedFrame) : Prop where
  lawful : key.Lawful
  coding : base122.Lawful
  seqs : fs.map SealedFrame.seq = (List.range fs.length).map (seqAt 0)
  carried : ∀ f ∈ fs, f.data ≠ [] ∧
    ∃ padding, Carries key base122 encoding f.bytes f.seq f.data padding
  sized : ∀ f ∈ fs.map SealedFrame.bytes, 0 < f.length ∧ f.length < 2 ^ 64

/-- What a quiet run keeps. -/
structure Going (key : LessSafeKey) (base122 : Base122Fast) (encoding : EncodingType) (m : UInt64)
    (fs : List SealedFrame) (s : Path) : Prop where
  inv : Inv key base122 encoding m (fs.map SealedFrame.bytes) s
  filled : Filled s.client

section Rounds

variable {key : LessSafeKey} {base122 : Base122Fast} {encoding : EncodingType} {m : UInt64}
  {fs : List SealedFrame}

theorem accepted_data (hsealed : Sealed key base122 encoding fs) {s : Path}
    (h : Inv key base122 encoding m (fs.map SealedFrame.bytes) s) :
    ∀ x ∈ s.client.accepted, x.2 ≠ [] := by
  obtain ⟨-, -, -, -, -, -, hfront⟩ :=
    decoded_front hsealed.lawful hsealed.coding (fun f hf => (hsealed.carried f hf).2) h
  intro x hx
  obtain ⟨f, hf, rfl⟩ := List.mem_map.mp ((h.reading.front.trans hfront).subset hx)
  exact (hsealed.carried f hf).1

theorem going_step (hsealed : Sealed key base122 encoding fs) {s s' : Path} {e : Event}
    (h : Going key base122 encoding m fs s) (hG : Quiet s e)
    (hstep : step key base122 encoding s e = some s') : Going key base122 encoding m fs s' := by
  have hinv := inv_step hsealed.sized h.inv hG hstep
  refine ⟨hinv, ?_⟩
  cases e with
  | server e =>
    by_cases hown : ∃ c, e = .cmd c
    · obtain ⟨c, rfl⟩ := hown
      cases hstep
    · rw [server_step fun c hc => hown ⟨c, hc⟩] at hstep
      obtain ⟨t, -, rfl⟩ := Option.map_eq_some_iff.mp hstep
      exact h.filled
  | deliver =>
    by_cases hlt : s.delivered < s.client.requests
    · obtain ⟨t, ht⟩ := @deliver_step key base122 encoding s hlt
      obtain rfl := Option.some.inj (ht.symm.trans hstep)
      exact h.filled
    · rw [step, if_neg hlt] at hstep
      cases hstep
  | client e =>
    rw [step, Option.ite_none_right_eq_some] at hstep
    obtain ⟨l', hl', rfl⟩ := Option.map_eq_some_iff.mp hstep.2
    exact filled_step h.inv.reading h.filled (accepted_data hsealed hinv) hl'

theorem going_reaches (hsealed : Sealed key base122 encoding fs) {s t : Path}
    (h : Going key base122 encoding m fs s)
    (ht : Reaches (step key base122 encoding) Prompt s t) : Going key base122 encoding m fs t :=
  ht.invariant (fun _ _ _ h hG hstep => going_step hsealed h hG.1 hstep) h

/-- A server at rest has sent the body that the client reads to its end. -/
theorem settled_body {s : Path} {frames : List Bytes} (h : Inv key base122 encoding m frames s)
    (hs : s.client.stage = .streaming) (hset : Tunnel.Settled s.tunnel) :
    ∃ b bytes, (Tunnel.bodies s.tunnel)[s.client.bodies.length]? = some b ∧
      s.client.body ++ bytes = b.flatten ∧
      bodyEnded s.tunnel s.client.bodies.length = true := by
  obtain ⟨-, hlt⟩ := h.source hs
  have hsegs : s.tunnel.segments = [] := by
    rcases hset with hl | hout
    · exact (h.whole.delivered hl).1
    · unfold Tunnel.outstanding at hout
      exact List.eq_nil_of_length_eq_zero (by omega)
  have hb := List.getElem?_eq_getElem hlt
  have hended : bodyEnded s.tunnel s.client.bodies.length = true := by
    rw [Tunnel.bodies, hsegs, List.map_nil, List.append_nil, List.length_map] at hlt
    rw [bodyEnded, decide_eq_true hlt]
    rfl
  have hfront : s.client.body <+: ((Tunnel.bodies s.tunnel)[s.client.bodies.length]).flatten := by
    rcases h.current with hnil | ⟨b, hget, hfront⟩
    · rw [hnil]
      exact List.nil_prefix
    · rwa [Option.some.inj (hb.symm.trans hget)]
  obtain ⟨bytes, hbytes⟩ := hfront
  exact ⟨_, bytes, hb, hbytes, hended⟩

/-- **One body more**: the rest of it comes in one chunk, and then its end. -/
theorem reads_body (hsealed : Sealed key base122 encoding fs) {s : Path}
    (h : Going key base122 encoding m fs s) (hs : s.client.stage = .streaming)
    (hset : Tunnel.Settled s.tunnel) :
    ∃ t, Reaches (step key base122 encoding) Prompt s t ∧
      t.client.bodies.length = s.client.bodies.length + 1 ∧
      (t.client.stage = .done ∨ ∃ on, t.client.stage = .rotating on) := by
  obtain ⟨b, bytes, hb, hbytes, hended⟩ := settled_body h.inv hs hset
  -- the rest of the body
  have hchunk : step key base122 encoding s (.client (.chunk bytes roomy)) = some { s with
      client := s.client.onData key base122 encoding (some m) bytes roomy } := by
    have hpermits : s.permits (.chunk bytes roomy) = true := by
      rw [Path.permits, (h.inv.source hs).1]
      dsimp only
      rw [hb, hbytes]
      exact List.isPrefixOf_iff_prefix.mpr List.prefix_rfl
    rw [step, if_pos hpermits, h.inv.whole.limit, loopStep, if_pos hs]
    rfl
  have hreads : Prompt s (.client (.chunk bytes roomy)) := ⟨rfl, rfl⟩
  have h' := going_step hsealed h hreads.1 hchunk
  rcases onData_roomy h.inv.reading hs h.filled bytes (accepted_data hsealed h'.inv) with
    ⟨e, hfailed, he⟩ | ⟨hs', hbodies, hbody⟩
  · -- the frames are not to blame, and the socket has room
    exfalso
    have htime := blame_excluded hsealed.lawful hsealed.coding hsealed.seqs
      (fun f hf => (hsealed.carried f hf).2) h'.inv hfailed
    cases e with
    | decode | outOfOrder => cases htime
    | read | flush | continuation | prefetchTimeout => cases he
  -- and its end
  generalize s.client.onData key base122 encoding (some m) bytes roomy = l at *
  have hend : step key base122 encoding { s with client := l } (.client (.bodyEnd roomy)) =
      some { s with client := l.onEnd (some m) roomy } := by
    have hpermits : Path.permits { s with client := l } (.bodyEnd roomy) = true := by
      rw [Path.permits, (h.inv.source hs).1]
      dsimp only
      rw [hended, hb, hbody, hbytes]
      simp
    rw [step, if_pos hpermits, h.inv.whole.limit, loopStep, if_pos hs']
    rfl
  have hends : Prompt { s with client := l } (.client (.bodyEnd roomy)) := ⟨rfl, rfl⟩
  obtain ⟨hmore, hstage⟩ := @onEnd_roomy (some m) l hs' h'.inv.reading.counted h'.filled
  refine ⟨_, (Reaches.one hreads hchunk).trans (.one hends hend), ?_, hstage⟩
  show (l.onEnd (some m) roomy).bodies.length = _
  rw [hmore, hbodies, List.length_append, List.length_singleton]

/-- Every body that is followed by another one has a frame in it. -/
theorem bodies_le {s : Path} {frames : List Bytes} (h : Inv key base122 encoding m frames s)
    {on : Waiting} (hs : s.client.stage = .rotating on) : s.client.bodies.length ≤ frames.length := by
  obtain ⟨n, body, hn, hbody⟩ := h.rotating on hs
  have hlt : n < (Tunnel.closed s.tunnel).length := (List.getElem?_eq_some_iff.mp hbody).1
  have hfull : ∀ p ∈ (Tunnel.closed s.tunnel).take (n + 1), p.1 ≠ [] := by
    intro p hp
    have hparked : p.2 = true := by
      rw [List.take_add_one, hbody] at hp
      rcases List.mem_append.mp hp with hp | hp
      · refine h.trail.front p ?_
        rw [List.dropLast_eq_take]
        exact List.take_subset_take_left _ (by omega) hp
      · obtain rfl := List.mem_singleton.mp hp
        rfl
    have hended := Tunnel.closed_ended h.whole h.kept p (List.take_subset _ _ hp)
    exact (Tunnel.full_dropLast (hended.1 hparked)).1
  obtain ⟨rest, hrest, -⟩ := h.whole.chain
  have hfront : ((Tunnel.closed s.tunnel).take (n + 1)).map Prod.fst <+: Tunnel.bodies s.tunnel :=
    ((List.take_prefix _ _).map _).trans
      (Tunnel.closed_bodies (Tunnel.one_segment h.whole h.kept))
  calc s.client.bodies.length
      = (((Tunnel.closed s.tunnel).take (n + 1)).map Prod.fst).length := by
        rw [hn, List.length_map, List.length_take, Nat.min_eq_left hlt]
    _ ≤ (((Tunnel.closed s.tunnel).take (n + 1)).map Prod.fst).flatten.length := by
        rw [List.length_flatten, ← List.length_map (f := List.length)]
        refine List.length_le_sum_of_one_le _ fun k hk => ?_
        obtain ⟨b, hb, rfl⟩ := List.mem_map.mp hk
        obtain ⟨p, hp, rfl⟩ := List.mem_map.mp hb
        exact List.length_pos_iff.mpr (hfull p hp)
    _ ≤ (Tunnel.bodies s.tunnel).flatten.length := hfront.flatten.length_le
    _ ≤ frames.length := by
        rw [← hrest, List.length_append]
        exact Nat.le_add_right _ _

/-- Bodies that are still to come count two, the wait for the next one counts one. -/
def roundsLeft (fs : List SealedFrame) (s : Path) : Nat :=
  2 * (fs.length + 1 - s.client.bodies.length) +
    (if s.client.stage = .streaming then 0 else 1)

/-- **Every round brings the client closer to its end.** -/
theorem completes (hsealed : Sealed key base122 encoding fs) {s : Path}
    (h : Going key base122 encoding m fs s) (hgo : ∀ e, s.client.stage ≠ .failed e) :
    ∃ t, Reaches (step key base122 encoding) Prompt s t ∧ Going key base122 encoding m fs t ∧
      t.client.stage = .done := by
  have hdown : ∀ s : Path, Going key base122 encoding m fs s ∧ (∀ e, s.client.stage ≠ .failed e) →
      s.client.stage = .done ∨ ∃ t, Reaches (step key base122 encoding) Prompt s t ∧
        (Going key base122 encoding m fs t ∧ ∀ e, t.client.stage ≠ .failed e) ∧
        (t.client.stage = .done ∨ roundsLeft fs t < roundsLeft fs s) := by
    rintro s ⟨h, hgo⟩
    cases hs : s.client.stage with
    | done => exact .inl rfl
    | failed e => exact absurd hs (hgo e)
    | streaming =>
      right
      obtain ⟨tunnel, htunnel, hset⟩ := server_settles h.inv
      obtain ⟨t, ht, hmore, hstage⟩ := reads_body hsealed (going_reaches hsealed h htunnel) hs hset
      have hall := htunnel.trans ht
      have hgoing := going_reaches hsealed h hall
      rcases hstage with hdone | ⟨on, hrotating⟩
      · exact ⟨t, hall, ⟨hgoing, by rw [hdone]; rintro e ⟨⟩⟩, .inl hdone⟩
      · refine ⟨t, hall, ⟨hgoing, by rw [hrotating]; rintro e ⟨⟩⟩, .inr ?_⟩
        have hle := bodies_le hgoing.inv hrotating
        rw [List.length_map] at hle
        rw [roundsLeft, roundsLeft, if_pos hs, if_neg (by rw [hrotating]; rintro ⟨⟩)]
        have hmore : t.client.bodies.length = s.client.bodies.length + 1 := hmore
        omega
    | rotating on =>
      right
      obtain ⟨tunnel, delivered, hrests, hrest⟩ := rests hsealed.sized h.inv
      obtain ⟨e, source, hstep, hG⟩ := gets_response (going_reaches hsealed h hrests).inv hrest hs
      have hall := hrests.trans (.one hG hstep)
      refine ⟨_, hall, ⟨going_reaches hsealed h hall, by rintro e ⟨⟩⟩, .inr ?_⟩
      show 2 * (fs.length + 1 - s.client.bodies.length) + 0 < roundsLeft fs s
      rw [roundsLeft, if_neg (by rw [hs]; rintro ⟨⟩)]
      exact Nat.lt_succ_self _
  obtain ⟨t, ht, ⟨hgoing, -⟩, hdone⟩ := reaches_of_rank (roundsLeft fs) hdown s ⟨h, hgo⟩
  exact ⟨t, ht, hgoing, hdone⟩

end Rounds

/-- **A download is never stuck.**  In whatever state a quiet run has left client, server and network,
    unless the client has failed: without any timeout, the client can still come to its end, with every
    byte that the shaper has sealed in the hands of the socket. -/
theorem download_completable (key : LessSafeKey) (base122 : Base122Fast) (hkey : key.Lawful)
    (hseal : key.NeverFails) (hb : base122.Lawful) (config : ResolvedShaperConfig) (random : Nat)
    (shaping : List Shaper.Event) (p : Shaper.Polling)
    (hshaping : run (Shaper.step key base122) (.new (.withSeq config 0 random)) shaping = some p)
    (u : Tunnel.Setup) (m : UInt64) (hm : u.maxDownloadBytes = some m)
    (hu : u.shaper = (p.frames.map SealedFrame.bytes).map Tunnel.Item.frame) (es : List Event) (s : Path)
    (hmeets : Meets (step key base122 config.encoding) Quiet (.start u) es)
    (hrun : run (step key base122 config.encoding) (.start u) es = some s)
    (hgo : ∀ e, s.client.stage ≠ .failed e) :
    ∃ t, Reaches (step key base122 config.encoding) Prompt s t ∧ t.client.stage = .done ∧
      t.client.written ++ p.shaper.rawBuf = bytesRead p.reads := by
  have hconserved := conserved_run hseal hshaping
  have hsealed : Sealed key base122 config.encoding p.frames :=
    ⟨hkey, hb, hconserved.seqs, hconserved.carried, Tunnel.shaped_length hkey hseal hb hshaping⟩
  have hstart : Going key base122 config.encoding m p.frames (.start u) :=
    ⟨inv_start hm hu, fun _ hchunk => absurd hchunk List.not_mem_nil⟩
  have h : Going key base122 config.encoding m p.frames s :=
    run_invariant_of_meets (fun _ _ _ h hG hstep => going_step hsealed h hG hstep)
      es _ _ hstart hmeets hrun
  obtain ⟨t, ht, hgoing, hdone⟩ := completes hsealed h hgo
  refine ⟨t, ht, hdone, ?_⟩
  rw [written_done hkey hb (fun f hf => (hconserved.carried f hf).2) hgoing.inv hdone]
  exact hconserved.bytes

theorem download_completable_demo :
    ∃ p s t, run (Shaper.step Download.downloadKey publishedBase122) (.new (.withSeq demoConfig 0 0))
        demoShaping = some p ∧
      run (step Download.downloadKey publishedBase122 .binary) (.start demoSetup)
        (demoPath.take 4) = some s ∧
      s.client.stage = .rotating .continuation ∧
      Reaches (step Download.downloadKey publishedBase122 .binary) Prompt s t ∧
      t.client.stage = .done ∧ t.client.written ++ p.shaper.rawBuf = bytesRead p.reads := by
  obtain ⟨p, hp, hframes⟩ : ∃ p, run (Shaper.step Download.downloadKey publishedBase122)
      (.new (.withSeq demoConfig 0 0)) demoShaping = some p ∧
        p.frames.map SealedFrame.bytes = [Download.demoFrame0, Download.demoFrame1] := ⟨_, rfl, rfl⟩
  have heval : (run (step Download.downloadKey publishedBase122 .binary) (.start demoSetup)
      (demoPath.take 4)).map (fun s => s.client.stage) = some (.rotating .continuation) := by
    decide +kernel
  obtain ⟨s, hs, hstage⟩ := Option.map_eq_some_iff.mp heval
  have hquiet : Meets (step Download.downloadKey publishedBase122 .binary) Quiet (.start demoSetup)
      (demoPath.take 4) := by decide +kernel
  obtain ⟨t, ht, hdone, hwritten⟩ := download_completable Download.downloadKey publishedBase122
    (streamKey_lawful (by decide)) (streamKey_neverFails _) publishedBase122_lawful demoConfig 0
    demoShaping p hp demoSetup 1 rfl (by rw [hframes]; rfl) (demoPath.take 4) s hquiet hs
    (by rw [hstage]; rintro e ⟨⟩)
  exact ⟨p, s, t, hp, hs, hstage, ht, hdone, hwritten⟩

end Httproxy.DownloadPath
