/-
  The whole way of a download: from the frames of the server's shaper to the client's local socket,
  through a chain of responses.

  The pieces are the tunnel actor with its segments (`Server.Tunnel`), the client's loop
  (`Client.DownloadLoop`) and the handler between them, `dispatch_to_actor` in `src/server/handlers.rs`,
  for a request whose body has no frames.  Here they run side by side.

  1. **System (`Path`)** — the client's requests are on their way for any time; the handler responds with
     a segment, or with a 204 if it was refused one; the client gets the bytes of a body in any pieces,
     and any time after they were sent.

  2. **Quiet runs (`Quiet`)** — connections hold and nobody's time is up.

  3. **Invariant (`Inv`)** — what the client has read is a front of the trail of bodies
     (`RotationTrail`).  It asks for another one exactly when the last one has parked the shaper, hence
     never twice for one and never in vain; and it stops exactly when nothing is left.

  The theorem is `download_end_to_end`.
-/
import Httproxy.Client.DownloadLoop
import Httproxy.RotationTrail
import Httproxy.UploadPath

namespace Httproxy.DownloadPath

open Crypto Machine Seq Shaper
open Download (Loop loopStep)
open Tunnel (TunnelState)

/-! ## The system -/

/-- A response to a request for the next segment. -/
inductive Response where
  /-- 200, with the body of the `j`-th segment. -/
  | segment (j : Nat)
  /-- 204, without a body. -/
  | noContent
  deriving DecidableEq, Repr

structure Path where
  tunnel : TunnelState
  client : Loop
  /-- How many of the client's requests have reached the server; they are numbered from 0. -/
  delivered : Nat
  /-- The response that the client reads, or has read last. -/
  source : Response

/-- The client has the response to its first request, with the first segment. -/
def Path.start (u : Tunnel.Setup) : Path :=
  ⟨Tunnel.start u, .new u.maxDownloadBytes, 0, .segment 0⟩

inductive Event where
  /-- A step of the tunnel that no request causes. -/
  | server (e : Tunnel.Event)
  /-- The client's next request reaches the server. -/
  | deliver
  /-- A step of the client. -/
  | client (e : Download.Event)

/-- What `dispatch_to_actor` responds to the request `id`, once it can: a reply that got `None`, or that
    was dropped with the actor, comes to a 204. -/
def respond (t : TunnelState) (id : Nat) : Option Response :=
  match (Tunnel.granted t).idxOf? id with
  | some i => some (.segment (i + 1))
  | none =>
    if t.answers.any (fun p => p.1.id = id) ||
        t.left.isSome && t.pendingContinue.any (fun r => r.id = id) then
      some .noContent
    else none

/-- The response to the client's last request. -/
def Path.response (s : Path) : Option Response :=
  match s.client.requests with
  | 0 => none
  | id + 1 => if id < s.delivered then respond s.tunnel id else none

/-- The `j`-th body has been sent to its end. -/
def bodyEnded (t : TunnelState) (j : Nat) : Bool :=
  decide (j < t.finished.length) || (t.segments[j - t.finished.length]?).any Tunnel.Segment.ended

/-- What the network lets happen to the client: it gets the bytes of its response in order, the end behind
    all of them, and a response when there is one.  It may lose anything at any time. -/
def Path.permits (s : Path) : Download.Event → Bool
  | .chunk bytes _ =>
    match s.source with
    | .segment j =>
      ((Tunnel.bodies s.tunnel)[j]?).any fun b => (s.client.body ++ bytes).isPrefixOf b.flatten
    | .noContent => bytes.isEmpty
  | .bodyEnd _ =>
    match s.source with
    | .segment j => bodyEnded s.tunnel j &&
        ((Tunnel.bodies s.tunnel)[j]?).any fun b => decide (s.client.body = b.flatten)
    | .noContent => true
  | .prefetched ok | .answered ok => !ok || s.response.isSome
  | .readError | .flushDeadline _ | .elapsed => true

/-- The response that the client reads after an event. -/
def Path.sourceAfter (s : Path) : Download.Event → Response
  | .prefetched true | .answered true => s.response.getD s.source
  | _ => s.source

section Program

variable (key : LessSafeKey) (base122 : Base122Fast) (encoding : EncodingType)

def step (s : Path) : Event → Option Path
  | .server e =>
    match e with
    | .cmd _ => none
    | e => (Tunnel.step s.tunnel e).map fun tunnel => { s with tunnel }
  | .deliver =>
    if s.delivered < s.client.requests then
      if s.tunnel.left = none then
        (Tunnel.step s.tunnel (.cmd (.continue ⟨s.delivered, .open⟩))).map fun tunnel =>
          { s with tunnel, delivered := s.delivered + 1 }
      else some { s with delivered := s.delivered + 1 }
    else none
  | .client e =>
    if s.permits e then
      (loopStep key base122 encoding s.tunnel.maxDownloadBytes s.client e).map fun client =>
        { s with client, source := s.sourceAfter e }
    else none

end Program

/-- Connections hold and nobody's time is up. -/
def quiet (s : Path) : Event → Bool
  | .server e => Tunnel.honest s.tunnel e
  | .deliver => true
  | .client .readError => false
  | .client (.prefetched ok) | .client (.answered ok) => ok
  | .client _ => true

def Quiet (s : Path) (e : Event) : Prop := quiet s e = true

instance (s : Path) (e : Event) : Decidable (Quiet s e) := inferInstanceAs (Decidable (_ = _))

/-! ## What a step of the client does -/

open Download (Drain Stage DownloadError Waiting onChunk prefetchAt usePrefetch shouldRotate)

/-- The part of the client that the server finds out about. -/
structure View where
  stage : Stage
  bodies : List Bytes
  body : Bytes
  drain : Drain
  prefetch : Bool
  requests : Nat

def view (l : Loop) : View := ⟨l.stage, l.bodies, l.body, l.drain, l.prefetch, l.requests⟩

/-- The errors of a quiet run that the bodies are not to blame for. -/
def ofTime : DownloadError → Bool
  | .flush _ | .prefetchTimeout => true
  | _ => false

/-- How many requests have been sent after a chunk: the prefetch goes out once. -/
def requestsAfter (l : Loop) (drain : Drain) : Nat :=
  if drain.fired && !l.drain.fired then l.requests + 1 else l.requests

/-- The steps of the client in a quiet run. -/
inductive Motion (maxBytes : Option UInt64) (l : Loop) : Download.Event → Loop → Prop where
  /-- The socket does not take it in time, or the response does not come. -/
  | fails {e l'} (error : DownloadError) (herror : ofTime error = true)
      (hview : view l' = { view l with stage := .failed error }) : Motion maxBytes l e l'
  | reads {bytes answers l'} (stage : Stage) (hs : l.stage = .streaming)
      (hstage : stage = .streaming ∨
        ∃ error, stage = .failed error ∧ (ofTime error = true ∨ error.ofIngest = true))
      (hview : view l' = { view l with
        stage
        body := l.body ++ bytes
        drain := onChunk (prefetchAt maxBytes) l.drain bytes
        requests := requestsAfter l (onChunk (prefetchAt maxBytes) l.drain bytes) }) :
      Motion maxBytes l (.chunk bytes answers) l'
  | flushes {answers l'} (hs : l.stage = .streaming) (hview : view l' = view l) :
      Motion maxBytes l (.flushDeadline answers) l'
  /-- The body is over, and was the last one. -/
  | finishes {answers l'} (hs : l.stage = .streaming)
      (hlast : shouldRotate maxBytes l.drain.bytesReceived = false)
      (hview : view l' = { view l with stage := .done, bodies := l.bodies ++ [l.body], body := [] }) :
      Motion maxBytes l (.bodyEnd answers) l'
  /-- The body is over, and the prefetch is waited for, or the next one is asked for. -/
  | rotates {answers l'} (on : Waiting) (requests : Nat) (hs : l.stage = .streaming)
      (hnext : shouldRotate maxBytes l.drain.bytesReceived = true)
      (hrequests : requests = if l.prefetch then l.requests else l.requests + 1)
      (hview : view l' = { view l with
        stage := .rotating on, bodies := l.bodies ++ [l.body], body := [], requests }) :
      Motion maxBytes l (.bodyEnd answers) l'
  | responds {e l'} (on : Waiting) (hs : l.stage = .rotating on)
      (hevent : e = .prefetched true ∨ e = .answered true)
      (hview : view l' = { view l with
        stage := .streaming
        body := []
        drain := ⟨0, usePrefetch maxBytes, false⟩
        prefetch := usePrefetch maxBytes }) : Motion maxBytes l e l'
  /-- One more window. -/
  | waits {l'} (on on' : Waiting) (hs : l.stage = .rotating on)
      (hview : view l' = { view l with stage := .rotating on' }) : Motion maxBytes l .elapsed l'

section Client

variable {key : LessSafeKey} {base122 : Base122Fast} {encoding : EncodingType}
  {maxBytes : Option UInt64} {l l' : Loop}

theorem view_flush (hcounted : l.buffers.queue.Counted) (answers : Nat → Download.Answer) :
    view (l.flush answers) = view l ∨
      ∃ error, ofTime error = true ∧ view (l.flush answers) = { view l with stage := .failed error } := by
  have hflushed := Download.flushed l hcounted answers
  generalize l.flush answers = l' at hflushed ⊢
  rcases hflushed with
    ⟨written, pendingBytes, hwritten, hcount⟩ | ⟨written, queue, outcome, hwritten, hcount, hno⟩
  · exact .inl rfl
  · exact .inr ⟨.flush outcome, rfl, rfl⟩

theorem motion_chunk (h : Download.Reading key base122 encoding l) (hs : l.stage = .streaming)
    (bytes : Bytes) (answers : Nat → Download.Answer) :
    Motion maxBytes l (.chunk bytes answers)
      (l.onData key base122 encoding maxBytes bytes answers) := by
  have hgo : ∀ e, l.stage ≠ .failed e := by
    rw [hs]
    rintro e ⟨⟩
  have hr := @Download.ingest_decoded key base122 encoding l.buffers l.expectedSeq
    (h.intact hgo).scratch bytes
  unfold Loop.onData
  generalize Download.ingest key base122 encoding l.buffers bytes l.expectedSeq = r at hr
  dsimp only
  cases he : r.error with
  | some e =>
    have hof : e.ofIngest = true := by
      have hblamed := hr.blamed e he
      cases e with
      | decode | outOfOrder => rfl
      | read | flush | continuation | prefetchTimeout => exact hblamed.elim
    exact .reads (.failed e) hs (.inr ⟨e, rfl, .inr hof⟩) rfl
  | none =>
    dsimp only
    split
    · rcases view_flush (l := { l with
          drain := onChunk (prefetchAt maxBytes) l.drain bytes
          requests := requestsAfter l (onChunk (prefetchAt maxBytes) l.drain bytes)
          expectedSeq := r.expectedSeq
          buffers := r.buffers
          body := l.body ++ bytes
          accepted := l.accepted ++ r.frames }) (hr.counted h.counted) answers with
        hview | ⟨error, herror, hview⟩
      · exact .reads .streaming hs (.inl rfl) (hview.trans (by rw [← hs]; rfl))
      · exact .reads (.failed error) hs (.inr ⟨error, rfl, .inl herror⟩) hview
    · exact .reads .streaming hs (.inl rfl) (by rw [← hs]; rfl)

theorem motion_bodyEnd (h : Download.Reading key base122 encoding l) (hs : l.stage = .streaming)
    (answers : Nat → Download.Answer) :
    Motion maxBytes l (.bodyEnd answers) (l.onEnd maxBytes answers) := by
  unfold Loop.onEnd
  dsimp only
  rcases view_flush h.counted answers with hview | ⟨error, herror, hview⟩
  · have hstage : (l.flush answers).stage = .streaming := (congrArg View.stage hview).trans hs
    have hbytes : (l.flush answers).drain.bytesReceived = l.drain.bytesReceived :=
      congrArg (fun v => v.drain.bytesReceived) hview
    have hbodies : (l.flush answers).bodies = l.bodies := congrArg View.bodies hview
    have hbody : (l.flush answers).body = l.body := congrArg View.body hview
    have hdrain : (l.flush answers).drain = l.drain := congrArg View.drain hview
    have hprefetch : (l.flush answers).prefetch = l.prefetch := congrArg View.prefetch hview
    have hrequests : (l.flush answers).requests = l.requests := congrArg View.requests hview
    rw [if_pos hstage]
    unfold Loop.endBody Loop.askAgain
    dsimp only
    rw [hbytes, hprefetch]
    cases hrotate : shouldRotate maxBytes l.drain.bytesReceived with
    | false =>
      refine .finishes hs hrotate ?_
      simp [view, hbodies, hbody, hdrain, hrequests]
    | true =>
      cases hpre : l.prefetch with
      | true =>
        refine .rotates (.prefetch false) l.requests hs hrotate (if_pos hpre).symm ?_
        simp [view, hbodies, hbody, hdrain, hrequests, hpre]
      | false =>
        refine .rotates .continuation (l.requests + 1) hs hrotate (by rw [hpre]; rfl) ?_
        simp [view, hbodies, hbody, hdrain, hrequests, hpre]
  · have hstage : (l.flush answers).stage = .failed error := congrArg View.stage hview
    rw [if_neg (by rw [hstage]; rintro ⟨⟩)]
    exact .fails error herror hview

/-- The steps that a quiet run leaves to the client. -/
def calm : Download.Event → Bool
  | .readError | .prefetched false | .answered false => false
  | _ => true

/-- **The inversion of a step of the client.** -/
theorem motion_step {e : Download.Event} (h : Download.Reading key base122 encoding l)
    (hcalm : calm e = true) (hstep : loopStep key base122 encoding maxBytes l e = some l') :
    Motion maxBytes l e l' := by
  cases e with
  | chunk bytes answers =>
    obtain ⟨hs, rfl⟩ := by simpa [loopStep] using hstep
    exact motion_chunk h hs bytes answers
  | readError => cases hcalm
  | flushDeadline answers =>
    obtain ⟨⟨hs, -⟩, rfl⟩ := by simpa [loopStep] using hstep
    rcases view_flush h.counted answers with hview | ⟨error, herror, hview⟩
    · exact .flushes hs hview
    · exact .fails error herror hview
  | bodyEnd answers =>
    obtain ⟨hs, rfl⟩ := by simpa [loopStep] using hstep
    exact motion_bodyEnd h hs answers
  | prefetched ok =>
    cases ok with
    | false => cases hcalm
    | true =>
      simp only [loopStep] at hstep
      split at hstep
      · rename_i late hs
        obtain rfl := Option.some.inj hstep
        exact .responds _ hs (.inl rfl) rfl
      · cases hstep
  | elapsed =>
    simp only [loopStep] at hstep
    split at hstep
    · rename_i late hs
      split at hstep
      · obtain rfl := Option.some.inj hstep
        exact .fails .prefetchTimeout rfl rfl
      · obtain rfl := Option.some.inj hstep
        exact .waits _ _ hs rfl
    · cases hstep
  | answered ok =>
    cases ok with
    | false => cases hcalm
    | true =>
      simp only [loopStep] at hstep
      split at hstep
      · rename_i hs
        obtain rfl := Option.some.inj hstep
        exact .responds _ hs (.inr rfl) rfl
      · cases hstep

/-! ## The client counts, and asks once for each body -/

/-- The prefetch is armed: its request goes out at the latest with the chunk that reaches the limit. -/
def Armed (maxBytes : Option UInt64) (drain : Drain) (prefetch : Bool) : Prop :=
  if prefetch then
    drain.fired = false → drain.trigger = true ∧
      ∀ at', prefetchAt maxBytes = some at' → drain.bytesReceived < at'
  else drain.fired = false ∧ drain.trigger = false

structure Asking (maxBytes : Option UInt64) (l : Loop) : Prop where
  streaming : l.stage = .streaming →
    l.requests = l.bodies.length + (if l.drain.fired then 1 else 0) ∧
    l.drain.bytesReceived = UInt64.ofNat l.body.length ∧ Armed maxBytes l.drain l.prefetch
  rotating : ∀ on, l.stage = .rotating on → l.requests = l.bodies.length
  limited : l.prefetch = true → maxBytes.isSome

theorem armed_new {prefetch : Bool} (h : prefetch = true → usePrefetch maxBytes = true) :
    Armed maxBytes ⟨0, prefetch, false⟩ prefetch := by
  cases prefetch with
  | false => exact ⟨rfl, rfl⟩
  | true =>
    intro _
    refine ⟨rfl, fun at' hat => ?_⟩
    have huse := h rfl
    rw [usePrefetch, hat] at huse
    simpa using huse

/-- A chunk either leaves it armed or fires it. -/
theorem armed_chunk {drain : Drain} {prefetch : Bool} (h : Armed maxBytes drain prefetch)
    (hmax : prefetch = true → maxBytes.isSome) (bytes : Bytes) :
    Armed maxBytes (onChunk (prefetchAt maxBytes) drain bytes) prefetch := by
  cases prefetch with
  | false =>
    obtain ⟨hfired, htrigger⟩ := h
    unfold onChunk
    dsimp only
    rw [htrigger, Bool.and_false]
    exact ⟨hfired, rfl⟩
  | true =>
    obtain ⟨m, rfl⟩ := Option.isSome_iff_exists.mp (hmax rfl)
    intro hfired
    unfold onChunk at hfired ⊢
    dsimp only at hfired ⊢
    split at hfired
    · cases hfired
    · rename_i hno
      rw [if_neg hno]
      have harmed := h hfired
      refine ⟨harmed.1, fun at' hat => ?_⟩
      rw [hat] at hno
      simpa [harmed.1] using hno

/-- When the limit is reached, the prefetch has gone out. -/
theorem fired_of_rotate {drain : Drain} (h : Armed maxBytes drain true)
    (hrotate : shouldRotate maxBytes drain.bytesReceived = true) : drain.fired = true := by
  by_contra hno
  obtain ⟨-, hbelow⟩ := h (by simpa using hno)
  cases maxBytes with
  | none => simp [shouldRotate] at hrotate
  | some m =>
    obtain ⟨-, hle⟩ : 0 < drain.bytesReceived ∧ m ≤ drain.bytesReceived := by
      simpa [shouldRotate] using hrotate
    have hlt := hbelow _ rfl
    dsimp only at hlt
    split at hlt
    · rename_i hlead
      rw [UInt64.lt_iff_toNat_lt, UInt64.toNat_sub_of_le _ _ hlead] at hlt
      rw [UInt64.le_iff_toNat_le] at hle
      omega
    · exact UInt64.not_lt_zero hlt

theorem asking_new (maxBytes : Option UInt64) : Asking maxBytes (.new maxBytes) where
  streaming := by
    refine fun _ => ⟨rfl, rfl, armed_new fun h => ?_⟩
    rw [Download.prefetchFirst, Bool.and_eq_true] at h
    exact h.2
  rotating := by rintro on ⟨⟩
  limited := by
    intro h
    have hboth : Download.prefetchFirst maxBytes = true := h
    cases maxBytes with
    | none => cases hboth
    | some m => rfl

/-- What is kept can be read off the view. -/
theorem Asking.of_view (h : Asking maxBytes l) (hview : view l' = view l) : Asking maxBytes l' := by
  obtain ⟨stage, expectedSeq, drain, prefetch, buffers, written, bodies, body, accepted, requests⟩ := l
  obtain ⟨stage', expectedSeq', drain', prefetch', buffers', written', bodies', body', accepted',
    requests'⟩ := l'
  simp only [view, View.mk.injEq] at hview
  obtain ⟨rfl, rfl, rfl, rfl, rfl, rfl⟩ := hview
  exact ⟨h.streaming, h.rotating, h.limited⟩

theorem asking_motion {e : Download.Event} (h : Asking maxBytes l) (hm : Motion maxBytes l e l') :
    Asking maxBytes l' := by
  cases hm with
  | fails error herror hview =>
    have hstage : l'.stage = .failed error := congrArg View.stage hview
    refine ⟨fun hs => ?_, fun on hs => ?_, ?_⟩
    · rw [hstage] at hs
      cases hs
    · rw [hstage] at hs
      cases hs
    · rw [show l'.prefetch = l.prefetch from congrArg View.prefetch hview]
      exact h.limited
  | @reads bytes answers _ stage hs hstage hview =>
    have hstage' : l'.stage = stage := congrArg View.stage hview
    have hlimited : l'.prefetch = l.prefetch := congrArg View.prefetch hview
    obtain ⟨hrequests, hcounted, harmed⟩ := h.streaming hs
    refine ⟨fun _ => ⟨?_, ?_, ?_⟩, fun on hon => ?_, hlimited ▸ h.limited⟩
    · rw [show l'.requests = _ from congrArg View.requests hview,
        show l'.bodies = l.bodies from congrArg View.bodies hview,
        show l'.drain = _ from congrArg View.drain hview, requestsAfter, hrequests]
      have hkeep : l.drain.fired = true → (onChunk (prefetchAt maxBytes) l.drain bytes).fired = true := by
        intro hf
        unfold onChunk
        dsimp only
        split
        · rfl
        · exact hf
      cases hf : l.drain.fired with
      | false =>
        cases (onChunk (prefetchAt maxBytes) l.drain bytes).fired <;> rfl
      | true =>
        rw [hkeep hf]
        rfl
    · rw [show l'.drain = _ from congrArg View.drain hview,
        show l'.body = l.body ++ bytes from congrArg View.body hview,
        Download.onChunk_bytesReceived, hcounted, List.length_append, UInt64.ofNat_add]
    · rw [show l'.drain = _ from congrArg View.drain hview, hlimited]
      exact armed_chunk harmed h.limited bytes
    · rw [hstage'] at hon
      rcases hstage with rfl | ⟨error, rfl, -⟩
      · cases hon
      · cases hon
  | flushes hs hview => exact h.of_view hview
  | finishes hs hlast hview =>
    have hstage : l'.stage = .done := congrArg View.stage hview
    refine ⟨fun hs => ?_, fun on hs => ?_, ?_⟩
    · rw [hstage] at hs
      cases hs
    · rw [hstage] at hs
      cases hs
    · rw [show l'.prefetch = l.prefetch from congrArg View.prefetch hview]
      exact h.limited
  | rotates on requests hs hnext hrequests hview =>
    have hstage : l'.stage = .rotating on := congrArg View.stage hview
    obtain ⟨hcount, -, harmed⟩ := h.streaming hs
    refine ⟨fun hs => ?_, fun on hs => ?_, ?_⟩
    · rw [hstage] at hs
      cases hs
    · rw [show l'.requests = requests from congrArg View.requests hview,
        show l'.bodies = l.bodies ++ [l.body] from congrArg View.bodies hview, List.length_append,
        List.length_singleton, hrequests, hcount]
      cases hpre : l.prefetch with
      | false =>
        rw [hpre] at harmed
        rw [harmed.1]
        rfl
      | true =>
        rw [hpre] at harmed
        rw [fired_of_rotate harmed hnext]
        rfl
    · rw [show l'.prefetch = l.prefetch from congrArg View.prefetch hview]
      exact h.limited
  | responds on hs hevent hview =>
    have hstage : l'.stage = .streaming := congrArg View.stage hview
    have hprefetch : l'.prefetch = usePrefetch maxBytes := congrArg View.prefetch hview
    have hdrain : l'.drain = ⟨0, usePrefetch maxBytes, false⟩ := congrArg View.drain hview
    have hbody : l'.body = [] := congrArg View.body hview
    refine ⟨fun _ => ⟨?_, ?_, ?_⟩, fun on hs => ?_, fun hpre => ?_⟩
    · rw [show l'.requests = l.requests from congrArg View.requests hview,
        show l'.bodies = l.bodies from congrArg View.bodies hview, hdrain]
      exact h.rotating on hs
    · rw [hdrain, hbody]
      rfl
    · rw [hdrain, hprefetch]
      exact armed_new fun h => h
    · rw [hstage] at hs
      cases hs
    · rw [hprefetch] at hpre
      cases maxBytes with
      | none => cases hpre
      | some m => rfl
  | waits on on' hs hview =>
    have hstage : l'.stage = .rotating on' := congrArg View.stage hview
    refine ⟨fun hs => ?_, fun _ _ => ?_, ?_⟩
    · rw [hstage] at hs
      cases hs
    · rw [show l'.requests = l.requests from congrArg View.requests hview,
        show l'.bodies = l.bodies from congrArg View.bodies hview]
      exact h.rotating on hs
    · rw [show l'.prefetch = l.prefetch from congrArg View.prefetch hview]
      exact h.limited

end Client

/-! ## The invariant -/

section System

variable {key : LessSafeKey} {base122 : Base122Fast} {encoding : EncodingType} {m : UInt64}
  {frames : List Bytes}

/-- What holds at every point of a quiet run. -/
structure Inv (key : LessSafeKey) (base122 : Base122Fast) (encoding : EncodingType) (m : UInt64)
    (frames : List Bytes) (s : Path) : Prop where
  whole : Tunnel.Whole m frames s.tunnel
  kept : Tunnel.Kept s.tunnel
  trail : Tunnel.Trail s.tunnel
  asked : Tunnel.Asked s.tunnel s.delivered
  reading : Download.Reading key base122 encoding s.client
  asking : Asking (some m) s.client
  sent : s.delivered ≤ s.client.requests
  bounded : s.client.requests ≤ (Tunnel.bodies s.tunnel).length
  ended : s.client.bodies <+: (Tunnel.closed s.tunnel).map fun p => p.1.flatten
  current : s.client.body = [] ∨ ∃ b, (Tunnel.bodies s.tunnel)[s.client.bodies.length]? = some b ∧
    s.client.body <+: b.flatten
  source : s.client.stage = .streaming → s.source = .segment s.client.bodies.length ∧
    s.client.bodies.length < (Tunnel.bodies s.tunnel).length
  rotating : ∀ on, s.client.stage = .rotating on → ∃ n body, s.client.bodies.length = n + 1 ∧
    (Tunnel.closed s.tunnel)[n]? = some (body, true)
  done : s.client.stage = .done → ∃ n body, s.client.bodies.length = n + 1 ∧
    (Tunnel.closed s.tunnel)[n]? = some (body, false)
  blameless : ∀ e, s.client.stage = .failed e → ofTime e = true ∨ e.ofIngest = true

theorem grows_length {t t' : TunnelState} (h : Tunnel.Grows t t') :
    (Tunnel.bodies t).length ≤ (Tunnel.bodies t').length := by
  refine Nat.le_of_not_lt fun hlt => ?_
  obtain ⟨more, hmore⟩ := h.longer (Tunnel.bodies t').length _ (List.getElem?_eq_getElem hlt)
  exact Nat.lt_irrefl _ (List.getElem?_eq_some_iff.mp hmore).1

theorem getElem?_of_prefix {α : Type} {l l' : List α} (h : l <+: l') {n : Nat} {a : α}
    (hn : l[n]? = some a) : l'[n]? = some a := by
  rcases h with ⟨rest, rfl⟩
  rw [List.getElem?_append_left (List.getElem?_eq_some_iff.mp hn).1, hn]

/-- The tunnel goes on, and the client has what it had. -/
theorem Inv.tunnel {s : Path} {t' : TunnelState} {delivered : Nat}
    (h : Inv key base122 encoding m frames s) (hwhole : Tunnel.Whole m frames t')
    (hkept : Tunnel.Kept t') (htrail : Tunnel.Trail t') (hasked : Tunnel.Asked t' delivered)
    (hgrows : Tunnel.Grows s.tunnel t') (hsent : delivered ≤ s.client.requests) :
    Inv key base122 encoding m frames { s with tunnel := t', delivered } where
  whole := hwhole
  kept := hkept
  trail := htrail
  asked := hasked
  reading := h.reading
  asking := h.asking
  sent := hsent
  bounded := Nat.le_trans h.bounded (grows_length hgrows)
  ended := h.ended.trans (hgrows.settled.map _)
  current := by
    rcases h.current with hnil | ⟨b, hb, hfront⟩
    · exact .inl hnil
    · obtain ⟨more, hmore⟩ := hgrows.longer _ b hb
      refine .inr ⟨b ++ more, hmore, ?_⟩
      rw [List.flatten_append]
      exact hfront.trans (List.prefix_append _ _)
  source := fun hs => ⟨(h.source hs).1, Nat.lt_of_lt_of_le (h.source hs).2 (grows_length hgrows)⟩
  rotating := by
    intro on hs
    rcases h.rotating on hs with ⟨n, body, hn, hbody⟩
    exact ⟨n, body, hn, getElem?_of_prefix hgrows.settled hbody⟩
  done := by
    intro hs
    rcases h.done hs with ⟨n, body, hn, hbody⟩
    exact ⟨n, body, hn, getElem?_of_prefix hgrows.settled hbody⟩
  blameless := h.blameless

/-- An honest step of the tunnel. -/
theorem honest_step {t t' : TunnelState} {e : Tunnel.Event} (hwhole : Tunnel.Whole m frames t)
    (hkept : Tunnel.Kept t) (htrail : Tunnel.Trail t) (hG : Tunnel.Honest t e)
    (hstep : Tunnel.step t e = some t') :
    Tunnel.Whole m frames t' ∧ Tunnel.Kept t' ∧ Tunnel.Trail t' ∧ Tunnel.Move t e t' := by
  have hturn := Tunnel.step_turn hstep
  have hmove := Tunnel.honest_move hwhole hkept hG hturn
  exact ⟨Tunnel.whole_turn hwhole hkept hG hturn,
    Tunnel.kept_step hkept (Tunnel.honest_careful hG) hstep,
    Tunnel.trail_move htrail (Tunnel.one_segment hwhole hkept) hmove, hmove⟩

theorem inv_server {s s' : Path} {e : Tunnel.Event} (h : Inv key base122 encoding m frames s)
    (hG : Tunnel.Honest s.tunnel e) (hstep : step key base122 encoding s (.server e) = some s') :
    Inv key base122 encoding m frames s' := by
  have hown : ∀ c, e ≠ .cmd c := by
    rintro c rfl
    cases hstep
  obtain ⟨t', ht, rfl⟩ : ∃ t', Tunnel.step s.tunnel e = some t' ∧ { s with tunnel := t' } = s' := by
    cases e with
    | cmd c => exact absurd rfl (hown c)
    | _ => exact Option.map_eq_some_iff.mp hstep
  obtain ⟨hwhole, hkept, htrail, hmove⟩ := honest_step h.whole h.kept h.trail hG ht
  exact h.tunnel hwhole hkept htrail (Tunnel.asked_move h.asked hown hmove)
    (Tunnel.move_grows hmove) h.sent

theorem inv_deliver {s s' : Path} (h : Inv key base122 encoding m frames s)
    (hstep : step key base122 encoding s .deliver = some s') :
    Inv key base122 encoding m frames s' := by
  rw [step, Option.ite_none_right_eq_some] at hstep
  obtain ⟨hlt, hstep⟩ := hstep
  split at hstep
  · rename_i hleft
    obtain ⟨t', ht, rfl⟩ := Option.map_eq_some_iff.mp hstep
    -- no request waits: there are not more requests than bodies
    have hnone : s.tunnel.pendingContinue = [] := by
      have hcount := h.asked.count hleft
      have hbodies := h.asked.bodies
      have hbounded := h.bounded
      exact List.eq_nil_of_length_eq_zero (by omega)
    have hG : Tunnel.Honest s.tunnel (.cmd (.continue ⟨s.delivered, .open⟩)) := by
      simp [Tunnel.Honest, Tunnel.honest, hnone]
    obtain ⟨hwhole, hkept, htrail, hmove⟩ := honest_step h.whole h.kept h.trail hG ht
    exact h.tunnel hwhole hkept htrail (Tunnel.asked_continue h.asked hmove)
      (Tunnel.move_grows hmove) hlt
  · rename_i hleft
    obtain rfl := Option.some.inj hstep
    refine h.tunnel h.whole h.kept h.trail ?_ (Tunnel.grows_of_prefix List.prefix_rfl List.prefix_rfl)
      hlt
    exact ⟨h.asked.inOrder, h.asked.bodies, h.asked.waiting, fun hno => absurd hno hleft⟩

/-! ## The end of a body, and the next response -/

/-- The body that has been sent to its end is over. -/
theorem closed_of_bodyEnded {t : TunnelState} (hone : Tunnel.OneSegment t) {j : Nat} {b : List Bytes}
    (hended : bodyEnded t j = true) (hb : (Tunnel.bodies t)[j]? = some b) :
    ∃ parked, (Tunnel.closed t)[j]? = some (b, parked) := by
  have hclosed := Tunnel.closed_bodies hone
  have hlt : j < (Tunnel.closed t).length := by
    rw [bodyEnded, Bool.or_eq_true, decide_eq_true_eq] at hended
    rcases hended with hlt | hlive
    · rw [Tunnel.closed, List.length_append]
      omega
    · cases hg : t.segments[j - t.finished.length]? with
      | none =>
        rw [hg] at hlive
        cases hlive
      | some g =>
        rw [hg] at hlive
        have he : g.ended = true := hlive
        rcases hone.one with hsegs | ⟨g', hsegs⟩
        · rw [hsegs] at hg
          cases hg
        · rw [hsegs] at hg
          have hzero : j - t.finished.length = 0 := by
            have hj := (List.getElem?_eq_some_iff.mp hg).1
            rw [List.length_singleton] at hj
            omega
          rw [hzero] at hg
          obtain rfl : g' = g := Option.some.inj hg
          rw [Tunnel.closed, hsegs, List.flatMap_cons, Tunnel.closes_ended he, List.flatMap_nil,
            List.append_nil, List.length_append, List.length_singleton]
          omega
  have hat := getElem?_of_prefix hclosed (List.getElem?_eq_getElem (by rwa [List.length_map]))
  rw [hb, List.getElem_map] at hat
  refine ⟨((Tunnel.closed t)[j]).2, ?_⟩
  rw [List.getElem?_eq_getElem hlt, Option.some.inj hat]

/-- The client rotates exactly when the shaper was parked. -/
theorem shouldRotate_iff_parked {p : List Bytes × Bool} (h : Tunnel.Ended m p)
    (hsize : ∀ f ∈ p.1, 0 < f.length ∧ f.length < 2 ^ 64) :
    shouldRotate (some m) (UInt64.ofNat p.1.flatten.length) = p.2 := by
  have hcount : UInt64.ofNat p.1.flatten.length = Bytes.count p.1 := rfl
  rw [hcount]
  cases hp : p.2 with
  | true =>
    have hfull := h.1 hp
    have hpos := Tunnel.full_count_pos hfull hsize
    have hle := (Tunnel.full_dropLast hfull).2.1
    simp [shouldRotate, hpos, hle]
  | false =>
    rcases h.2 hp with hnil | hlt
    · rw [hnil]
      rfl
    · simp [shouldRotate, hlt]

theorem inv_body {s : Path} (h : Inv key base122 encoding m frames s) {j : Nat} {b : List Bytes}
    (hb : (Tunnel.bodies s.tunnel)[j]? = some b) : ∀ f ∈ b, f ∈ frames := by
  intro f hf
  obtain ⟨rest, hrest, -⟩ := h.whole.chain
  rw [← hrest]
  exact List.mem_append_left _ (List.mem_flatten.mpr ⟨b, List.mem_of_getElem? hb, hf⟩)

theorem idxOf?_range {n k : Nat} : (List.range n).idxOf? k = if k < n then some k else none := by
  split
  · rename_i hlt
    rw [List.idxOf?_eq_some_iff]
    refine ⟨by rwa [List.length_range], List.getElem_range _, fun j hj => ?_⟩
    rw [List.getElem_range]
    omega
  · rename_i hge
    rw [List.idxOf?_eq_none_iff, List.mem_range]
    exact hge

/-- **A client that waits is never refused**: the response to its request, once there is one, is the next
    segment. -/
theorem response_segment {s : Path} (h : Inv key base122 encoding m frames s) {on : Waiting}
    (hs : s.client.stage = .rotating on) {r : Response} (hr : s.response = some r) :
    r = .segment s.client.bodies.length ∧
      s.client.bodies.length < (Tunnel.bodies s.tunnel).length := by
  obtain ⟨n, body, hn, hbody⟩ := h.rotating on hs
  have hrequests := h.asking.rotating on hs
  rw [Path.response, hrequests, hn] at hr
  dsimp only at hr
  split at hr
  · have hcount := h.asked.bodies
    rw [respond, h.asked.inOrder, idxOf?_range] at hr
    by_cases hlt : n < (Tunnel.granted s.tunnel).length
    · rw [if_pos hlt] at hr
      obtain rfl := Option.some.inj hr
      refine ⟨by rw [hn], by omega⟩
    · rw [if_neg hlt] at hr
      exfalso
      dsimp only at hr
      split at hr
      · rename_i hrefused
        -- then the actor has left, and the last body has not parked the shaper
        have hleft : s.tunnel.left ≠ none := by
          rw [Bool.or_eq_true, Bool.and_eq_true] at hrefused
          rcases hrefused with hanswer | ⟨hleft, -⟩
          · obtain ⟨⟨reply, answer⟩, hmem, hsame⟩ := List.any_eq_true.mp hanswer
            have hid : reply.id = n := by simpa using hsame
            cases answer with
            | none => exact h.whole.refused ⟨reply, hmem⟩
            | segment =>
              have hgranted : n ∈ Tunnel.granted s.tunnel := by
                refine List.mem_map.mpr ⟨(reply, .segment), ?_, hid⟩
                exact List.mem_filter.mpr ⟨hmem, by simp⟩
              rw [h.asked.inOrder, List.mem_range] at hgranted
              exact absurd hgranted hlt
          · intro hno
            rw [hno] at hleft
            cases hleft
        obtain ⟨p, hp, hno⟩ := h.trail.left hleft
        have hle := (Tunnel.closed_bodies (Tunnel.one_segment h.whole h.kept)).length_le
        rw [List.length_map] at hle
        have hlast : (Tunnel.closed s.tunnel).length = n + 1 := by
          have hlt' := (List.getElem?_eq_some_iff.mp hbody).1
          omega
        rw [List.getLast?_eq_getElem?, hlast, Nat.add_sub_cancel, hbody] at hp
        rw [← Option.some.inj hp] at hno
        cases hno
      · cases hr
  · cases hr

/-! ## A step of the client keeps it -/

/-- What the client's part of the invariant is read off. -/
structure Follows (m : UInt64) (s : Path) (client : Loop) (source : Response) : Prop where
  sent : s.client.requests ≤ client.requests
  bounded : client.requests ≤ (Tunnel.bodies s.tunnel).length
  ended : client.bodies <+: (Tunnel.closed s.tunnel).map fun p => p.1.flatten
  current : client.body = [] ∨ ∃ b, (Tunnel.bodies s.tunnel)[client.bodies.length]? = some b ∧
    client.body <+: b.flatten
  source : client.stage = .streaming → source = .segment client.bodies.length ∧
    client.bodies.length < (Tunnel.bodies s.tunnel).length
  rotating : ∀ on, client.stage = .rotating on → ∃ n body, client.bodies.length = n + 1 ∧
    (Tunnel.closed s.tunnel)[n]? = some (body, true)
  done : client.stage = .done → ∃ n body, client.bodies.length = n + 1 ∧
    (Tunnel.closed s.tunnel)[n]? = some (body, false)
  blameless : ∀ e, client.stage = .failed e → ofTime e = true ∨ e.ofIngest = true

/-- The chunk is the next piece of the body. -/
theorem permits_chunk {s : Path} (h : Inv key base122 encoding m frames s)
    (hs : s.client.stage = .streaming) {bytes : Bytes} {answers : Nat → Download.Answer}
    (hp : s.permits (.chunk bytes answers) = true) :
    ∃ b, (Tunnel.bodies s.tunnel)[s.client.bodies.length]? = some b ∧
      s.client.body ++ bytes <+: b.flatten := by
  rw [Path.permits, (h.source hs).1] at hp
  dsimp only at hp
  cases hb : (Tunnel.bodies s.tunnel)[s.client.bodies.length]? with
  | none =>
    rw [hb] at hp
    cases hp
  | some b =>
    rw [hb] at hp
    exact ⟨b, rfl, List.isPrefixOf_iff_prefix.mp hp⟩

/-- The body is over, and the client has all of it. -/
theorem permits_bodyEnd {s : Path} (h : Inv key base122 encoding m frames s)
    (hs : s.client.stage = .streaming) {answers : Nat → Download.Answer}
    (hp : s.permits (.bodyEnd answers) = true) :
    ∃ b parked, (Tunnel.closed s.tunnel)[s.client.bodies.length]? = some (b, parked) ∧
      s.client.body = b.flatten ∧ ∀ f ∈ b, f ∈ frames := by
  rw [Path.permits, (h.source hs).1, Bool.and_eq_true] at hp
  obtain ⟨hended, hp⟩ := hp
  cases hb : (Tunnel.bodies s.tunnel)[s.client.bodies.length]? with
  | none =>
    rw [hb] at hp
    cases hp
  | some b =>
    rw [hb] at hp
    have hall : s.client.body = b.flatten := of_decide_eq_true hp
    obtain ⟨parked, hclosed⟩ :=
      closed_of_bodyEnded (Tunnel.one_segment h.whole h.kept) hended hb
    exact ⟨b, parked, hclosed, hall, inv_body h hb⟩

/-- One more body is over. -/
theorem ended_concat {s : Path} (h : Inv key base122 encoding m frames s) {b : List Bytes}
    {parked : Bool} (hclosed : (Tunnel.closed s.tunnel)[s.client.bodies.length]? = some (b, parked)) :
    s.client.bodies ++ [b.flatten] <+: (Tunnel.closed s.tunnel).map fun p => p.1.flatten := by
  rcases h.ended with ⟨rest, hrest⟩
  cases rest with
  | nil =>
    rw [List.append_nil] at hrest
    have hlen := (List.getElem?_eq_some_iff.mp hclosed).1
    rw [hrest, List.length_map] at hlen
    exact absurd hlen (Nat.lt_irrefl _)
  | cons x rest =>
    have hat : ((Tunnel.closed s.tunnel).map fun p => p.1.flatten)[s.client.bodies.length]? =
        some x := by
      rw [← hrest, List.getElem?_append_right (Nat.le_refl _), Nat.sub_self]
      rfl
    rw [List.getElem?_map, hclosed] at hat
    refine ⟨rest, ?_⟩
    rw [← hrest, ← Option.some.inj hat, List.append_assoc]
    rfl

theorem follows_motion (hsize : ∀ f ∈ frames, 0 < f.length ∧ f.length < 2 ^ 64) {s : Path}
    {e : Download.Event} {l' : Loop} (h : Inv key base122 encoding m frames s)
    (hp : s.permits e = true) (hm : Motion (some m) s.client e l') :
    Follows m s l' (s.sourceAfter e) := by
  cases hm with
  | fails error herror hview =>
    have hstage : l'.stage = .failed error := congrArg View.stage hview
    have hbodies : l'.bodies = s.client.bodies := congrArg View.bodies hview
    have hbody : l'.body = s.client.body := congrArg View.body hview
    have hrequests : l'.requests = s.client.requests := congrArg View.requests hview
    constructor
    case sent => rw [hrequests]
    case bounded => exact hrequests ▸ h.bounded
    case ended => exact hbodies ▸ h.ended
    case current => exact hbody ▸ hbodies ▸ h.current
    case source => rw [hstage]; rintro ⟨⟩
    case rotating => rw [hstage]; rintro on ⟨⟩
    case done => rw [hstage]; rintro ⟨⟩
    case blameless =>
      rw [hstage]
      rintro e ⟨⟩
      exact .inl herror
  | @reads bytes answers _ stage hs hstage hview =>
    have hstage' : l'.stage = stage := congrArg View.stage hview
    have hbodies : l'.bodies = s.client.bodies := congrArg View.bodies hview
    have hbody : l'.body = s.client.body ++ bytes := congrArg View.body hview
    have hrequests : l'.requests =
        requestsAfter s.client (onChunk (prefetchAt (some m)) s.client.drain bytes) :=
      congrArg View.requests hview
    obtain ⟨hcount, -, -⟩ := h.asking.streaming hs
    obtain ⟨hsource, hlt⟩ := h.source hs
    have hafter : s.client.requests ≤ l'.requests ∧ l'.requests ≤ s.client.bodies.length + 1 := by
      rw [hrequests, requestsAfter]
      cases hf : s.client.drain.fired with
      | false =>
        rw [hf] at hcount
        have hcount : s.client.requests = s.client.bodies.length := hcount
        cases (onChunk (prefetchAt (some m)) s.client.drain bytes).fired with
        | false => exact ⟨Nat.le_refl _, by rw [hcount]; exact Nat.le_succ _⟩
        | true => exact ⟨Nat.le_succ _, by rw [hcount]; exact Nat.le_refl _⟩
      | true =>
        rw [hf] at hcount
        have hcount : s.client.requests = s.client.bodies.length + 1 := hcount
        rw [Bool.not_true, Bool.and_false]
        exact ⟨Nat.le_refl _, Nat.le_of_eq hcount⟩
    constructor
    case sent => exact hafter.1
    case bounded => exact Nat.le_trans hafter.2 hlt
    case ended => exact hbodies ▸ h.ended
    case current =>
      rw [hbody, hbodies]
      exact .inr (permits_chunk h hs hp)
    case source => exact fun _ => hbodies ▸ ⟨hsource, hlt⟩
    case rotating =>
      intro on hon
      rw [hstage'] at hon
      rcases hstage with rfl | ⟨error, rfl, -⟩
      · cases hon
      · cases hon
    case done =>
      intro hdone
      rw [hstage'] at hdone
      rcases hstage with rfl | ⟨error, rfl, -⟩
      · cases hdone
      · cases hdone
    case blameless =>
      intro e he
      rw [hstage'] at he
      rcases hstage with rfl | ⟨error, rfl, herror⟩
      · cases he
      · exact Stage.failed.inj he ▸ herror
  | flushes hs hview =>
    have hstage : l'.stage = s.client.stage := congrArg View.stage hview
    have hbodies : l'.bodies = s.client.bodies := congrArg View.bodies hview
    have hbody : l'.body = s.client.body := congrArg View.body hview
    have hrequests : l'.requests = s.client.requests := congrArg View.requests hview
    exact ⟨Nat.le_of_eq hrequests.symm, hrequests ▸ h.bounded, hbodies ▸ h.ended,
      hbody ▸ hbodies ▸ h.current, hstage ▸ hbodies ▸ h.source, hstage ▸ hbodies ▸ h.rotating,
      hstage ▸ hbodies ▸ h.done, hstage ▸ h.blameless⟩
  | finishes hs hlast hview =>
    have hstage : l'.stage = .done := congrArg View.stage hview
    have hbodies : l'.bodies = s.client.bodies ++ [s.client.body] := congrArg View.bodies hview
    have hbody : l'.body = [] := congrArg View.body hview
    have hrequests : l'.requests = s.client.requests := congrArg View.requests hview
    obtain ⟨b, parked, hclosed, hall, hmem⟩ := permits_bodyEnd h hs hp
    have hparked := shouldRotate_iff_parked
      (Tunnel.closed_ended h.whole h.kept _ (List.mem_of_getElem? hclosed)) fun f hf =>
        hsize f (hmem f hf)
    rw [← hall, ← (h.asking.streaming hs).2.1, hlast] at hparked
    constructor
    case sent => rw [hrequests]
    case bounded => exact hrequests ▸ h.bounded
    case ended => rw [hbodies, hall]; exact ended_concat h hclosed
    case current => exact .inl hbody
    case source => rw [hstage]; rintro ⟨⟩
    case rotating => rw [hstage]; rintro on ⟨⟩
    case done =>
      refine fun _ => ⟨s.client.bodies.length, b, ?_, ?_⟩
      · rw [hbodies, List.length_append, List.length_singleton]
      · rw [hclosed]
        exact congrArg (fun parked => some (b, parked)) hparked.symm
    case blameless => rw [hstage]; rintro e ⟨⟩
  | rotates on requests hs hnext hrequests hview =>
    have hstage : l'.stage = .rotating on := congrArg View.stage hview
    have hbodies : l'.bodies = s.client.bodies ++ [s.client.body] := congrArg View.bodies hview
    have hbody : l'.body = [] := congrArg View.body hview
    have hrequests' : l'.requests = requests := congrArg View.requests hview
    obtain ⟨b, parked, hclosed, hall, hmem⟩ := permits_bodyEnd h hs hp
    have hparked := shouldRotate_iff_parked
      (Tunnel.closed_ended h.whole h.kept _ (List.mem_of_getElem? hclosed)) fun f hf =>
        hsize f (hmem f hf)
    rw [← hall, ← (h.asking.streaming hs).2.1, hnext] at hparked
    constructor
    case sent =>
      rw [hrequests', hrequests]
      split <;> simp
    case bounded =>
      rw [hrequests', hrequests]
      obtain ⟨hcount, -, harmed⟩ := h.asking.streaming hs
      cases hpre : s.client.prefetch with
      | true => exact h.bounded
      | false =>
        rw [hpre] at harmed
        rw [harmed.1] at hcount
        rw [hcount]
        exact (h.source hs).2
    case ended => rw [hbodies, hall]; exact ended_concat h hclosed
    case current => exact .inl hbody
    case source => rw [hstage]; rintro ⟨⟩
    case rotating =>
      refine fun _ _ => ⟨s.client.bodies.length, b, ?_, ?_⟩
      · rw [hbodies, List.length_append, List.length_singleton]
      · rw [hclosed]
        exact congrArg (fun parked => some (b, parked)) hparked.symm
    case done => rw [hstage]; rintro ⟨⟩
    case blameless => rw [hstage]; rintro e ⟨⟩
  | responds on hs hevent hview =>
    have hstage : l'.stage = .streaming := congrArg View.stage hview
    have hbodies : l'.bodies = s.client.bodies := congrArg View.bodies hview
    have hbody : l'.body = [] := congrArg View.body hview
    have hrequests : l'.requests = s.client.requests := congrArg View.requests hview
    obtain ⟨r, hr⟩ : ∃ r, s.response = some r := by
      rcases hevent with rfl | rfl
      · exact Option.isSome_iff_exists.mp hp
      · exact Option.isSome_iff_exists.mp hp
    have hafter : s.sourceAfter e = r := by
      rcases hevent with rfl | rfl
      · rw [Path.sourceAfter, hr]
        rfl
      · rw [Path.sourceAfter, hr]
        rfl
    obtain ⟨hsegment, hlt⟩ := response_segment h hs hr
    constructor
    case sent => rw [hrequests]
    case bounded => exact hrequests ▸ h.bounded
    case ended => exact hbodies ▸ h.ended
    case current => exact .inl hbody
    case source => exact fun _ => hbodies ▸ hafter ▸ ⟨hsegment, hlt⟩
    case rotating => rw [hstage]; rintro on ⟨⟩
    case done => rw [hstage]; rintro ⟨⟩
    case blameless => rw [hstage]; rintro e ⟨⟩
  | waits on on' hs hview =>
    have hstage : l'.stage = .rotating on' := congrArg View.stage hview
    have hbodies : l'.bodies = s.client.bodies := congrArg View.bodies hview
    have hbody : l'.body = s.client.body := congrArg View.body hview
    have hrequests : l'.requests = s.client.requests := congrArg View.requests hview
    constructor
    case sent => rw [hrequests]
    case bounded => exact hrequests ▸ h.bounded
    case ended => exact hbodies ▸ h.ended
    case current => exact hbody ▸ hbodies ▸ h.current
    case source => rw [hstage]; rintro ⟨⟩
    case rotating => exact fun _ _ => hbodies ▸ h.rotating on hs
    case done => rw [hstage]; rintro ⟨⟩
    case blameless => rw [hstage]; rintro e ⟨⟩

theorem quiet_calm {s : Path} {e : Download.Event} (hG : Quiet s (.client e)) : calm e = true := by
  cases e with
  | prefetched ok | answered ok =>
    have hok : ok = true := hG
    rw [hok]
    rfl
  | readError => cases hG
  | chunk | flushDeadline | bodyEnd | elapsed => rfl

theorem inv_step (hsize : ∀ f ∈ frames, 0 < f.length ∧ f.length < 2 ^ 64) {s s' : Path} {e : Event}
    (h : Inv key base122 encoding m frames s) (hG : Quiet s e)
    (hstep : step key base122 encoding s e = some s') : Inv key base122 encoding m frames s' := by
  cases e with
  | server e => exact inv_server h hG hstep
  | deliver => exact inv_deliver h hstep
  | client e =>
    rw [step, Option.ite_none_right_eq_some] at hstep
    obtain ⟨hp, hstep⟩ := hstep
    obtain ⟨l', hl', rfl⟩ := Option.map_eq_some_iff.mp hstep
    rw [h.whole.limit] at hl'
    have hmotion := motion_step h.reading (quiet_calm hG) hl'
    have hfollows := follows_motion hsize h hp hmotion
    exact { hfollows with
      whole := h.whole
      kept := h.kept
      trail := h.trail
      asked := h.asked
      reading := Download.reading_step _ _ _ h.reading hl'
      asking := asking_motion h.asking hmotion
      sent := Nat.le_trans h.sent hfollows.sent }

theorem inv_start {u : Tunnel.Setup} (hm : u.maxDownloadBytes = some m)
    (hf : u.shaper = frames.map Tunnel.Item.frame) :
    Inv key base122 encoding m frames (.start u) where
  whole := Tunnel.whole_start hm hf
  kept := Tunnel.kept_start hm
  trail := Tunnel.trail_start hm
  asked := Tunnel.asked_start hm
  reading := Download.reading_new
  asking := by
    show Asking (some m) (.new u.maxDownloadBytes)
    rw [hm]
    exact asking_new (some m)
  sent := Nat.le_refl 0
  bounded := Nat.zero_le _
  ended := List.nil_prefix
  current := .inl rfl
  source := by
    refine fun _ => ⟨rfl, ?_⟩
    show 0 < (Tunnel.bodies (Tunnel.start u)).length
    rw [(Tunnel.asked_start hm).bodies]
    exact Nat.succ_pos _
  rotating := by rintro on ⟨⟩
  done := by rintro ⟨⟩
  blameless := by rintro e ⟨⟩

end System

/-! ## What the bodies decode to -/

section Bodies

variable {key : LessSafeKey} {base122 : Base122Fast} {encoding : EncodingType} {m : UInt64}
  {fs : List SealedFrame}

open UploadLoop (bytesOf)
open UploadPath (itemsOf)
open Download (decoded)

/-- Pieces of a mapped list are mapped pieces of it. -/
theorem groups_of_flatten {α β : Type} {f : α → β} {bodies : List (List β)} {rest : List β}
    {xs : List α} (h : bodies.flatten ++ rest = xs.map f) :
    ∃ (groups : List (List α)) (left : List α), groups.flatten ++ left = xs ∧
      bodies = groups.map (List.map f) := by
  induction bodies generalizing xs with
  | nil => exact ⟨[], xs, rfl, rfl⟩
  | cons b bodies ih =>
    rw [List.flatten_cons, List.append_assoc] at h
    obtain ⟨g, xs', rfl, rfl, hrest⟩ := List.append_eq_map_iff.mp h
    rcases ih hrest.symm with ⟨groups, left, rfl, rfl⟩
    exact ⟨g :: groups, left, by rw [List.flatten_cons, List.append_assoc], rfl⟩

/-- More bytes only add frames. -/
theorem frames_append (b more : Bytes) :
    (Decoder.frames key base122 encoding b).1 <+:
      (Decoder.frames key base122 encoding (b ++ more)).1 := by
  fun_induction Decoder.frames key base122 encoding b with
  | case1 b decoding f hres rest ih =>
    rw [Download.frames_append_found hres more]
    exact (List.prefix_cons_inj _).mpr ih
  | case2 => exact List.nil_prefix
  | case3 => exact List.nil_prefix

/-- Groups of frames decode to their numbers and data. -/
theorem decoded_groups (hkey : key.Lawful) (hb : base122.Lawful) {groups : List (List SealedFrame)}
    (hfs : ∀ g ∈ groups, ∀ f ∈ g, ∃ padding, Carries key base122 encoding f.bytes f.seq f.data padding) :
    decoded key base122 encoding (groups.map bytesOf) = itemsOf groups.flatten := by
  induction groups with
  | nil => rfl
  | cons g groups ih =>
    have hg := UploadPath.frames_bytesOf hkey hb (hfs g List.mem_cons_self)
    have ih := ih fun g' hg' => hfs g' (List.mem_cons_of_mem g hg')
    rw [decoded] at ih
    rw [decoded, List.map_cons, List.map_cons, List.flatten_cons, hg, ih, itemsOf, itemsOf, itemsOf,
      List.flatten_cons, List.map_append]

/-- What the client has read so far, and what it would decode to. -/
theorem decoded_front (hkey : key.Lawful) (hb : base122.Lawful)
    (hfs : ∀ f ∈ fs, ∃ padding, Carries key base122 encoding f.bytes f.seq f.data padding) {s : Path}
    (h : Inv key base122 encoding m (fs.map SealedFrame.bytes) s) :
    ∃ (groups : List (List SealedFrame)) (left : List SealedFrame), groups.flatten ++ left = fs ∧
      Tunnel.bodies s.tunnel = groups.map (List.map SealedFrame.bytes) ∧
      s.client.bodies = (groups.take s.client.bodies.length).map bytesOf ∧
      (s.client.body = [] ∨ ∃ g, groups[s.client.bodies.length]? = some g ∧
        s.client.body <+: bytesOf g) ∧
      decoded key base122 encoding (s.client.bodies ++ [s.client.body]) <+: itemsOf fs := by
  obtain ⟨rest, hrest, -⟩ := h.whole.chain
  rcases groups_of_flatten hrest with ⟨groups, left, rfl, hbodies⟩
  have hclosed := Tunnel.closed_bodies (Tunnel.one_segment h.whole h.kept)
  have hread : s.client.bodies <+: groups.map bytesOf := by
    have hmap := hclosed.map List.flatten
    rw [List.map_map, hbodies, List.map_map] at hmap
    exact h.ended.trans hmap
  have htake : s.client.bodies = (groups.take s.client.bodies.length).map bytesOf := by
    rw [List.map_take]
    exact List.prefix_iff_eq_take.mp hread
  have hcurrent : s.client.body = [] ∨ ∃ g, groups[s.client.bodies.length]? = some g ∧
      s.client.body <+: bytesOf g := by
    rcases h.current with hnil | ⟨b, hget, hfront⟩
    · exact .inl hnil
    · rw [hbodies, List.getElem?_map] at hget
      obtain ⟨g, hg, rfl⟩ := Option.map_eq_some_iff.mp hget
      exact .inr ⟨g, hg, hfront⟩
  refine ⟨groups, left, rfl, hbodies, htake, hcurrent, ?_⟩
  have hcarries : ∀ g ∈ groups, ∀ f ∈ g,
      ∃ padding, Carries key base122 encoding f.bytes f.seq f.data padding := fun g hg f hf =>
    hfs f (List.mem_append_left _ (List.mem_flatten.mpr ⟨g, hg, hf⟩))
  have hdone : decoded key base122 encoding s.client.bodies =
      itemsOf (groups.take s.client.bodies.length).flatten := by
    have hgroups := decoded_groups hkey hb fun g hg =>
      hcarries g (List.take_subset s.client.bodies.length groups hg)
    rwa [← htake] at hgroups
  rw [Download.decoded_concat, hdone]
  rcases hcurrent with hnil | ⟨g, hg, hfront⟩
  · rw [hnil, Download.frames_nil, List.append_nil]
    refine List.IsPrefix.map _ (List.IsPrefix.trans ?_ (List.prefix_append _ _))
    exact (List.take_prefix _ _).flatten
  · rcases hfront with ⟨more, hmore⟩
    have hwhole := UploadPath.frames_bytesOf hkey hb (hcarries g (List.mem_of_getElem? hg))
    have hpart := @frames_append key base122 encoding s.client.body more
    rw [hmore, hwhole] at hpart
    refine ((List.prefix_append_right_inj _).mpr hpart).trans ?_
    have hnext : (groups.take (s.client.bodies.length + 1)).flatten =
        (groups.take s.client.bodies.length).flatten ++ g := by
      rw [List.take_add_one, hg, List.flatten_append]
      simp
    show itemsOf _ ++ itemsOf g <+: itemsOf _
    rw [itemsOf, itemsOf, ← List.map_append, ← hnext]
    refine List.IsPrefix.map _ (List.IsPrefix.trans ?_ (List.prefix_append _ _))
    exact (List.take_prefix _ _).flatten

/-- When the client is done, it has read all frames. -/
theorem decoded_done (hkey : key.Lawful) (hb : base122.Lawful)
    (hfs : ∀ f ∈ fs, ∃ padding, Carries key base122 encoding f.bytes f.seq f.data padding) {s : Path}
    (h : Inv key base122 encoding m (fs.map SealedFrame.bytes) s) (hdone : s.client.stage = .done) :
    decoded key base122 encoding s.client.bodies = itemsOf fs := by
  obtain ⟨groups, left, rfl, hbodies, htake, -, -⟩ := decoded_front hkey hb hfs h
  obtain ⟨n, body, hn, hbody⟩ := h.done hdone
  -- the body that did not park the shaper is the last one
  have hlast : (Tunnel.closed s.tunnel).length = n + 1 := by
    have hlt := (List.getElem?_eq_some_iff.mp hbody).1
    by_contra hmore
    have hmem : (body, false) ∈ (Tunnel.closed s.tunnel).dropLast := by
      refine List.mem_of_getElem? (i := n) ?_
      rw [List.dropLast_eq_take, List.getElem?_take_of_lt (by omega), hbody]
    exact nomatch h.trail.front _ hmem
  have hget : (Tunnel.closed s.tunnel).getLast? = some (body, false) := by
    rw [List.getLast?_eq_getElem?, hlast, Nat.add_sub_cancel, hbody]
  obtain ⟨hall, hframes⟩ := Tunnel.nothing_left h.whole h.kept h.trail hget rfl
  have hlength : groups.length = s.client.bodies.length := by
    have hsame := congrArg List.length hall
    rw [hbodies, List.length_map, List.length_map, hlast, ← hn] at hsame
    exact hsame
  have hnil : left = [] := by
    have hcount := congrArg List.length hframes
    rw [hbodies, List.map_append, List.length_append, ← List.map_flatten] at hcount
    simpa using hcount
  rw [htake, ← hlength, List.take_length, decoded_groups hkey hb fun g hg f hf =>
    hfs f (List.mem_append_left _ (List.mem_flatten.mpr ⟨g, hg, hf⟩)), hnil, List.append_nil]

theorem itemsOf_data (fs : List SealedFrame) :
    (itemsOf fs).map Prod.snd = fs.map SealedFrame.data := by
  rw [itemsOf, List.map_map]
  rfl

/-- When the client is done, the socket has taken the data of all frames. -/
theorem written_done (hkey : key.Lawful) (hb : base122.Lawful)
    (hfs : ∀ f ∈ fs, ∃ padding, Carries key base122 encoding f.bytes f.seq f.data padding) {s : Path}
    (h : Inv key base122 encoding m (fs.map SealedFrame.bytes) s) (hdone : s.client.stage = .done) :
    s.client.written = (fs.map SealedFrame.data).flatten := by
  have hgo : ∀ e, s.client.stage ≠ .failed e := by
    rw [hdone]
    rintro e ⟨⟩
  obtain ⟨hnil, -, hbody⟩ := h.reading.quiet (by rw [hdone]; rintro ⟨⟩) hgo
  have hflow := h.reading.flow
  rwa [hnil, List.flatten_nil, List.append_nil, (h.reading.intact hgo).accepted, hbody,
    Download.decoded_concat, Download.frames_nil, List.append_nil,
    decoded_done hkey hb hfs h hdone, itemsOf_data] at hflow

/-- No frame was to blame: a quiet run fails at most for the time or the socket. -/
theorem blame_excluded (hkey : key.Lawful) (hb : base122.Lawful)
    (hseqs : fs.map SealedFrame.seq = (List.range fs.length).map (seqAt 0))
    (hfs : ∀ f ∈ fs, ∃ padding, Carries key base122 encoding f.bytes f.seq f.data padding) {s : Path}
    (h : Inv key base122 encoding m (fs.map SealedFrame.bytes) s) {e : DownloadError}
    (hstage : s.client.stage = .failed e) : ofTime e = true := by
  rcases h.blameless e hstage with htime | hof
  · exact htime
  obtain ⟨groups, left, hsplit, -, -, hcurrent, hfront⟩ := decoded_front hkey hb hfs h
  exfalso
  cases e with
  | decode e =>
    have hbroken := h.reading.undecodable e hstage
    rcases hcurrent with hnil | ⟨g, hg, more, hmore⟩
    · have hempty := hbroken []
      rw [hnil, List.append_nil, Download.frames_nil] at hempty
      cases hempty
    · have hwhole := UploadPath.frames_bytesOf hkey hb fun f hf =>
        hfs f (hsplit ▸ List.mem_append_left _ (List.mem_flatten.mpr ⟨g, List.mem_of_getElem? hg, hf⟩))
      have hthis := hbroken more
      rw [hmore, hwhole] at hthis
      cases hthis
  | outOfOrder seq expectedSeq =>
    obtain ⟨hne, hexpected, data, hnext⟩ := h.reading.disordered seq expectedSeq hstage
    have hat : (itemsOf fs)[s.client.accepted.length]? = some (seq, data) := by
      refine getElem?_of_prefix (hnext.trans hfront) ?_
      rw [List.getElem?_append_right (Nat.le_refl _), Nat.sub_self]
      rfl
    obtain ⟨f, hf, hitem⟩ := Option.map_eq_some_iff.mp ((List.getElem?_map ..).symm.trans hat)
    have hnumber := congrArg (fun l => l[s.client.accepted.length]?) hseqs
    have hlt := (List.getElem?_eq_some_iff.mp hf).1
    rw [List.getElem?_map, hf, List.getElem?_map, List.getElem?_range hlt] at hnumber
    refine hne ?_
    rw [hexpected, ← show f.seq = seq from congrArg Prod.fst hitem]
    exact Option.some.inj hnumber
  | read | flush | continuation | prefetchTimeout => cases hof

end Bodies

/-- **End to end.**  In every quiet run, with any cuts, delays and turns: what the socket has taken is a
    front of the bytes that came from upstream; when the client is done it is all of them that the
    shaper has sealed; the client fails at most because the socket does not take its bytes or a response
    does not come in time; while it waits for a response, its request is not refused; and the server never
    has more than one request to keep waiting. -/
theorem download_end_to_end (key : LessSafeKey) (base122 : Base122Fast) (hkey : key.Lawful)
    (hseal : key.NeverFails) (hb : base122.Lawful) (config : ResolvedShaperConfig) (random : Nat)
    (shaping : List Shaper.Event) (p : Shaper.Polling)
    (hshaping : run (Shaper.step key base122) (.new (.withSeq config 0 random)) shaping = some p)
    (u : Tunnel.Setup) (m : UInt64) (hm : u.maxDownloadBytes = some m)
    (hu : u.shaper = (p.frames.map SealedFrame.bytes).map Tunnel.Item.frame) (es : List Event) (s : Path)
    (hmeets : Meets (step key base122 config.encoding) Quiet (.start u) es)
    (hrun : run (step key base122 config.encoding) (.start u) es = some s) :
    s.client.written <+: bytesRead p.reads ∧
    (s.client.stage = .done → s.client.written ++ p.shaper.rawBuf = bytesRead p.reads) ∧
    (∀ e, s.client.stage = .failed e → ofTime e = true) ∧
    (∀ on, s.client.stage = .rotating on → s.response ≠ some .noContent) ∧
    s.tunnel.pendingContinue.length ≤ 1 := by
  have hconserved := conserved_run hseal hshaping
  have hfs := fun f hf => (hconserved.carried f hf).2
  have h : Inv key base122 config.encoding m (p.frames.map SealedFrame.bytes) s :=
    run_invariant_of_meets
      (fun _ _ _ hinv hG hstep => inv_step (Tunnel.shaped_length hkey hseal hb hshaping) hinv hG hstep)
      es _ _ (inv_start hm hu) hmeets hrun
  obtain ⟨-, -, -, -, -, -, hfront⟩ := decoded_front hkey hb hfs h
  refine ⟨?_, fun hdone => ?_, fun e he => blame_excluded hkey hb hconserved.seqs hfs h he,
    fun on hs hrefused => ?_, h.whole.oneReply⟩
  · have hall := ((h.reading.front.trans hfront).map Prod.snd).flatten
    rw [itemsOf_data, ← h.reading.flow] at hall
    exact ((List.prefix_append _ _).trans hall).trans ⟨_, hconserved.bytes⟩
  · rw [written_done hkey hb hfs h hdone]
    exact hconserved.bytes
  · obtain ⟨hsegment, -⟩ := response_segment h hs hrefused
    cases hsegment

/-- The server's shaper seals `[1]` and `[2]`. -/
def demoShaping : List Shaper.Event :=
  [.call [], .turn ⟨.filled [1], false, demoDraw⟩, .turn ⟨.pending, true, demoDraw⟩,
    .call [], .turn ⟨.filled [2], false, demoDraw⟩, .turn ⟨.pending, true, demoDraw⟩]

/-- A tunnel over that shaper, with a limit of one byte. -/
def demoSetup : Tunnel.Setup :=
  { Tunnel.demoSetup with
    shaper := [Download.demoFrame0, Download.demoFrame1].map Tunnel.Item.frame }

/-- The first request waits at the server, the second comes when the shaper is parked. -/
def demoPath : List Event :=
  [.server (.poll 0 true), .client (.chunk (Download.demoFrame0.take 20) fun _ => .room 1),
    .client (.chunk (Download.demoFrame0.drop 20) fun _ => .room 1),
    .client (.bodyEnd fun _ => .room 1), .deliver,
    .server (.release 0), .server .notify, .server .segmentDone, .client (.answered true),
    .server (.poll 0 true), .client (.chunk Download.demoFrame1 fun _ => .room 1),
    .server (.release 0), .server .notify, .server .segmentDone,
    .client (.bodyEnd fun _ => .room 1), .deliver, .client (.answered true),
    .server (.poll 0 true), .client (.bodyEnd fun _ => .room 1)]

theorem download_end_to_end_demo :
    ∃ p s, run (Shaper.step Download.downloadKey publishedBase122) (.new (.withSeq demoConfig 0 0))
        demoShaping = some p ∧
      run (step Download.downloadKey publishedBase122 .binary) (.start demoSetup) demoPath = some s ∧
      s.client.stage = .done ∧ s.client.bodies.length = 3 ∧ bytesRead p.reads = [1, 2] ∧
      s.client.written ++ p.shaper.rawBuf = bytesRead p.reads := by
  obtain ⟨p, hp, hframes, hread⟩ : ∃ p, run (Shaper.step Download.downloadKey publishedBase122)
      (.new (.withSeq demoConfig 0 0)) demoShaping = some p ∧
        p.frames.map SealedFrame.bytes = [Download.demoFrame0, Download.demoFrame1] ∧
        bytesRead p.reads = [1, 2] := ⟨_, rfl, rfl, rfl⟩
  have heval : (run (step Download.downloadKey publishedBase122 .binary) (.start demoSetup)
      demoPath).map (fun s => (s.client.stage, s.client.bodies.length)) = some (.done, 3) := by
    decide +kernel
  obtain ⟨s, hs, hsummary⟩ := Option.map_eq_some_iff.mp heval
  obtain ⟨hdone, hbodies⟩ := Prod.mk.inj hsummary
  have hquiet : Meets (step Download.downloadKey publishedBase122 .binary) Quiet (.start demoSetup)
      demoPath := by decide +kernel
  have hend := download_end_to_end Download.downloadKey publishedBase122 (streamKey_lawful (by decide))
    (streamKey_neverFails _) publishedBase122_lawful demoConfig 0 demoShaping p hp demoSetup 1 rfl
    (by rw [hframes]; rfl) demoPath s hquiet hs
  exact ⟨p, s, hp, hs, hdone, hbodies, hread, hend.2.1 hdone⟩

end Httproxy.DownloadPath
