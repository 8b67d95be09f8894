/-
  The client's download loop as a whole (`DownloadLoopActor::run` in
  `src/client/actor/download_loop.rs`): response after response, from the chunks of the bodies to the
  local socket.

  1. **Program** — `ingest` with its loop over `decode_frame`, and `step`: one branch of the `select!`
     in `drain_response`, the end of a response, or one outcome of the waits in `do_rotate`.  A flush runs
     inside its branch, against any answers of the socket (`Client.DownloadQueue`).

  2. **Specification** — `Decoder.frames`, which knows the frames of a body that lies there as a whole.

  3. **The crux (`Reading`)** — the frames of the body, WHATEVER IS STILL TO COME, are those that were
     accepted followed by the frames of what is left in `input`.  A chunk that was cut anywhere keeps it,
     since more bytes change nothing of a frame that was found.

  The theorem is `download_decodes_bodies`: for any responses, cut in any way.
-/
import Httproxy.Client.Download
import Httproxy.Client.DownloadQueue
import Httproxy.Lib.Seq
import Httproxy.Server.FrameDecoder

namespace Httproxy.Download

open Crypto Machine Seq Shaper

/-! ## Program -/

def PREFETCH_LEAD_BYTES : UInt64 := 20 * 1024 * 1024

/-- Why `run` returns an error. -/
inductive DownloadError where
  | decode (e : IoError)
  /-- `download frame seq {seq} out of order, expected {expected_seq}`. -/
  | outOfOrder (seq expectedSeq : UInt64)
  /-- `response read error`. -/
  | read
  /-- The flush ended in this way. -/
  | flush (outcome : Outcome)
  /-- The Continue request failed, timed out or was rejected. -/
  | continuation
  /-- `prefetch continuation timed out after {}s`. -/
  | prefetchTimeout
  deriving DecidableEq, Repr

/-- `DecodeBuffers`, both sides. -/
structure Buffers where
  input : Bytes
  jsonScratch : Scratch
  queue : DecodeBuffers
  deriving DecidableEq, Repr

/-- `DecodeBuffers::new`. -/
def Buffers.new : Buffers := ⟨[], ⟨[], 0⟩, ⟨[], 0⟩⟩

/-- What a call of `ingest` leaves; `frames` is a log of those it has put into the queue. -/
structure Ingested where
  buffers : Buffers
  expectedSeq : UInt64
  frames : List (UInt64 × Bytes)
  error : Option DownloadError
  deriving DecidableEq, Repr

/-- `pending.push_back(data)`, counted. -/
def DecodeBuffers.push (q : DecodeBuffers) (data : Bytes) : DecodeBuffers :=
  ⟨q.pending ++ [data], q.pendingBytes + data.length⟩

/-- `std::mem::take(json_scratch)`, where the frame lies in it. -/
def scratchAfter (scratch : Scratch) : DecodedFrame → Scratch
  | .inJsonScratch _ _ _ => ⟨[], 0⟩
  | .owned _ _ => scratch

/-- What `do_rotate` waits for. -/
inductive Waiting where
  /-- `prefetch_rx`, in the first window or in the one more. -/
  | prefetch (late : Bool)
  /-- `send_continue_request`. -/
  | continuation
  deriving DecidableEq, Repr

/-- `Phase`, with what `do_rotate` is at, and the end with an error. -/
inductive Stage where
  | streaming
  | rotating (on : Waiting)
  | done
  | failed (e : DownloadError)
  deriving DecidableEq, Repr

structure Loop where
  stage : Stage
  expectedSeq : UInt64
  drain : Drain
  /-- `prefetch_rx.is_some()`. -/
  prefetch : Bool
  buffers : Buffers
  /-- What the local socket has taken. -/
  written : Bytes
  /-- Log: the bodies that were read to their end. -/
  bodies : List Bytes
  /-- Log: what has come of the body that is being read. -/
  body : Bytes
  /-- Log: the frames put into the queue. -/
  accepted : List (UInt64 × Bytes)
  /-- Log: how many Continue requests were sent. -/
  requests : Nat
  deriving DecidableEq, Repr

/-- `max_bytes.map(|m| m.saturating_sub(PREFETCH_LEAD_BYTES))`. -/
def prefetchAt (maxBytes : Option UInt64) : Option UInt64 :=
  maxBytes.map fun m => if PREFETCH_LEAD_BYTES ≤ m then m - PREFETCH_LEAD_BYTES else 0

/-- `use_prefetch`. -/
def usePrefetch (maxBytes : Option UInt64) : Bool :=
  (prefetchAt maxBytes).any fun at' => decide (at' > 0)

/-- `rotate_enabled && use_prefetch`. -/
def prefetchFirst (maxBytes : Option UInt64) : Bool :=
  (maxBytes.any fun m => decide (m > 0)) && usePrefetch maxBytes

/-- `DownloadLoopActor::new`. -/
def Loop.new (maxBytes : Option UInt64) : Loop where
  stage := .streaming
  expectedSeq := 0
  drain := ⟨0, prefetchFirst maxBytes, false⟩
  prefetch := prefetchFirst maxBytes
  buffers := .new
  written := []
  bodies := []
  body := []
  accepted := []
  requests := 0

inductive Event where
  /-- `data_stream.next()` yields a chunk; `answers` are those of the socket, should it be flushed. -/
  | chunk (bytes : Bytes) (answers : Nat → Answer)
  /-- `data_stream.next()` yields an error. -/
  | readError
  /-- `flush_deadline`. -/
  | flushDeadline (answers : Nat → Answer)
  /-- `data_stream.next()` yields `None`. -/
  | bodyEnd (answers : Nat → Answer)
  /-- `prefetch_rx` yields a response, or that there is none. -/
  | prefetched (ok : Bool)
  /-- `PREFETCH_ROTATE_TIMEOUT` is over. -/
  | elapsed
  /-- The loop's own Continue request comes to a response, or to an error. -/
  | answered (ok : Bool)

/-- `flush`, and the error it returns. -/
def Loop.flush (l : Loop) (answers : Nat → Answer) : Loop :=
  let f := Download.flush answers (loopHead l.buffers.queue []) 0
  let l := { l with buffers := { l.buffers with queue := f.buffers }, written := l.written ++ f.written }
  if f.outcome = .ok then l else { l with stage := .failed (.flush f.outcome) }

/-- The end of `do_rotate`: the next response is there. -/
def Loop.nextResponse (maxBytes : Option UInt64) (l : Loop) : Loop :=
  { l with
    stage := .streaming
    drain := ⟨0, usePrefetch maxBytes, false⟩
    prefetch := usePrefetch maxBytes
    body := [] }

/-- `send_continue_request` is called by `do_rotate`. -/
def Loop.askAgain (l : Loop) : Loop :=
  { l with stage := .rotating .continuation, requests := l.requests + 1 }

/-- The end of `drain_response`, once all is written, and what `do_streaming` makes of it. -/
def Loop.endBody (maxBytes : Option UInt64) (l : Loop) : Loop :=
  let l := { l with
    buffers := { l.buffers with input := [] }
    bodies := l.bodies ++ [l.body]
    body := [] }
  if shouldRotate maxBytes l.drain.bytesReceived then
    if l.prefetch then { l with stage := .rotating (.prefetch false) } else l.askAgain
  else { l with stage := .done }

section Program

variable (key : LessSafeKey) (base122 : Base122Fast) (encoding : EncodingType)

/-- The loop of `ingest`. -/
def decodeLoop (b : Buffers) (expectedSeq : UInt64) : Ingested :=
  let decoding := decodeFrame key base122 b.input b.jsonScratch encoding
  let b' := { b with input := decoding.src, jsonScratch := decoding.scratch }
  match _h : decoding.result with
  | .error e => ⟨b', expectedSeq, [], some (.decode e)⟩
  | .ok none => ⟨b', expectedSeq, [], none⟩
  | .ok (some frame) =>
    let item := Decoder.itemOf decoding.scratch frame
    let b' := { b' with jsonScratch := scratchAfter decoding.scratch frame }
    if item.1 ≠ expectedSeq then ⟨b', expectedSeq, [], some (.outOfOrder item.1 expectedSeq)⟩
    else
      let rest := decodeLoop { b' with queue := b.queue.push item.2 } (expectedSeq + 1)
      { rest with frames := item :: rest.frames }
termination_by b.input.length
decreasing_by exact Decoder.decodeFrame_some_length _h

/-- `DecodeBuffers::ingest`. -/
def ingest (b : Buffers) (chunk : Bytes) (expectedSeq : UInt64) : Ingested :=
  decodeLoop key base122 encoding
    { b with input := if b.input = [] then chunk else b.input ++ chunk } expectedSeq

variable (maxBytes : Option UInt64)

/-- The branch of a chunk. -/
def Loop.onData (l : Loop) (bytes : Bytes) (answers : Nat → Answer) : Loop :=
  let drain := onChunk (prefetchAt maxBytes) l.drain bytes
  let requests := if drain.fired && !l.drain.fired then l.requests + 1 else l.requests
  let r := ingest key base122 encoding l.buffers bytes l.expectedSeq
  let l := { l with
    drain, requests
    expectedSeq := r.expectedSeq
    buffers := r.buffers
    body := l.body ++ bytes
    accepted := l.accepted ++ r.frames }
  match r.error with
  | some e => { l with stage := .failed e }
  | none => if l.buffers.queue.pendingBytes ≥ WRITE_BUF_CAPACITY then l.flush answers else l

/-- The end of a body: what is left is written first. -/
def Loop.onEnd (l : Loop) (answers : Nat → Answer) : Loop :=
  let l := l.flush answers
  if l.stage = .streaming then l.endBody maxBytes else l

def loopStep (l : Loop) : Event → Option Loop
  | .chunk bytes answers =>
    if l.stage = .streaming then some (l.onData key base122 encoding maxBytes bytes answers) else none
  | .readError => if l.stage = .streaming then some { l with stage := .failed .read } else none
  | .flushDeadline answers =>
    if l.stage = .streaming ∧ l.buffers.queue.pendingBytes > 0 then some (l.flush answers) else none
  | .bodyEnd answers => if l.stage = .streaming then some (l.onEnd maxBytes answers) else none
  | .prefetched ok =>
    match l.stage with
    | .rotating (.prefetch late) =>
      if ok then some (l.nextResponse maxBytes)
      else if late then some { l with stage := .failed .prefetchTimeout }
      else some l.askAgain
    | _ => none
  | .elapsed =>
    match l.stage with
    | .rotating (.prefetch late) =>
      if late then some { l with stage := .failed .prefetchTimeout }
      else some { l with stage := .rotating (.prefetch true) }
    | _ => none
  | .answered ok =>
    if l.stage = .rotating .continuation then
      if ok then some (l.nextResponse maxBytes) else some { l with stage := .failed .continuation }
    else none

end Program

/-! ## One flush -/

/-- What holds at every turn of a flush, chunks without bytes or not. -/
structure Flushing (pending : List Bytes) (f : Flush) : Prop where
  once : f.written ++ f.buffers.pending.flatten = pending.flatten
  counted : f.buffers.Counted
  no_overflow : f.outcome ≠ .overflow
  ok_empty : f.outcome = .ok → f.buffers.pending = []

theorem flushing_loopHead {pending : List Bytes} {b : DecodeBuffers} {written : Bytes}
    (honce : written ++ b.pending.flatten = pending.flatten) (hcounted : b.Counted) :
    Flushing pending (loopHead b written) := by
  unfold loopHead
  split
  · rename_i hempty
    exact ⟨honce, hcounted, by simp, fun _ => List.isEmpty_iff.mp hempty⟩
  · exact ⟨honce, hcounted, by simp, by simp⟩

theorem flushing_step {pending : List Bytes} (f : Flush) (a : Answer) (f' : Flush)
    (hf : Flushing pending f) (h : step f a = some f') : Flushing pending f' := by
  obtain ⟨-, hturn⟩ := step_turned h
  cases hturn with
  | failed => exact ⟨hf.once, hf.counted, by simp, by simp⟩
  | elapsed => exact ⟨hf.once, hf.counted, by simp, by simp⟩
  | writeZero => exact ⟨hf.once, hf.counted, by simp, by simp⟩
  | overflow n taken hc =>
    obtain ⟨b', hb', -⟩ := @consumeLoop_counted taken _ _ hf.counted
    rw [DecodeBuffers.consume, hb'] at hc
    cases hc
  | wrote n taken b' hpos hle hc =>
    obtain ⟨b'', hb'', hcounted⟩ := @consumeLoop_counted taken _ _ hf.counted
    obtain rfl : b' = b'' := Option.some.inj (hc.symm.trans hb'')
    refine flushing_loopHead ?_ hcounted
    rw [consumeLoop_flatten hc, List.append_assoc, List.take_append_drop]
    exact hf.once

/-- What the socket has taken and what is still queued make up the queue. -/
theorem flushing_flush (answers : Nat → Answer) {q : DecodeBuffers} (hq : q.Counted) :
    Flushing q.pending (flush answers (loopHead q []) 0) := by
  obtain ⟨es, hes, -⟩ := flush_run answers (loopHead q []) 0
  exact run_invariant flushing_step es _ _ (flushing_loopHead (List.nil_append _) hq) hes

/-- **What a flush does to the loop**: bytes go from the queue to the socket, and if it does not fail, all
    of them. -/
inductive Flushed (l : Loop) : Loop → Prop where
  | ok (written : Bytes) (pendingBytes : Nat)
      (hwritten : written = l.written ++ l.buffers.queue.pending.flatten) (hcount : pendingBytes = 0) :
      Flushed l { l with buffers := { l.buffers with queue := ⟨[], pendingBytes⟩ }, written }
  | failed (written : Bytes) (queue : DecodeBuffers) (outcome : Outcome)
      (hwritten : written ++ queue.pending.flatten = l.written ++ l.buffers.queue.pending.flatten)
      (hcount : queue.Counted) (hno : outcome ≠ .overflow) :
      Flushed l { l with
        buffers := { l.buffers with queue }, written, stage := .failed (.flush outcome) }

theorem flushed (l : Loop) (hq : l.buffers.queue.Counted) (answers : Nat → Answer) :
    Flushed l (l.flush answers) := by
  have hf := flushing_flush answers hq
  unfold Loop.flush
  generalize flush answers (loopHead l.buffers.queue []) 0 = f at hf
  obtain ⟨⟨pending, pendingBytes⟩, written, outcome⟩ := f
  have honce : written ++ pending.flatten = l.buffers.queue.pending.flatten := hf.once
  dsimp only
  split
  · rename_i hok
    have hnil : pending = [] := hf.ok_empty hok
    have hcount : pendingBytes = (pending.map List.length).sum := hf.counted
    subst hnil
    refine .ok _ _ ?_ hcount
    rw [← honce, List.flatten_nil, List.append_nil]
  · refine .failed _ _ _ ?_ hf.counted hf.no_overflow
    rw [List.append_assoc, honce]

/-! ## One chunk -/

section Chunk

variable {key : LessSafeKey} {base122 : Base122Fast} {encoding : EncodingType}

/-- A frame that was found in `input` is the first of `input` and whatever follows. -/
theorem frames_append_found {input : Bytes} {frame : DecodedFrame}
    (h : (decodeFrame key base122 input ⟨[], 0⟩ encoding).result = .ok (some frame)) (more : Bytes) :
    Decoder.frames key base122 encoding (input ++ more) =
      (Decoder.itemOf (decodeFrame key base122 input ⟨[], 0⟩ encoding).scratch frame ::
        (Decoder.frames key base122 encoding
          ((decodeFrame key base122 input ⟨[], 0⟩ encoding).src ++ more)).1,
       (Decoder.frames key base122 encoding
          ((decodeFrame key base122 input ⟨[], 0⟩ encoding).src ++ more)).2) := by
  have happ : Decoder.Extends (decodeFrame key base122 input ⟨[], 0⟩ encoding) more
      (decodeFrame key base122 (input ++ more) ⟨[], 0⟩ encoding) := Decoder.decodeFrame_append more
  rw [Decoder.Extends, h] at happ
  have hwhole : (decodeFrame key base122 (input ++ more) ⟨[], 0⟩ encoding).result =
      .ok (some frame) := by
    rw [happ]
  rw [Decoder.frames_some hwhole, happ]

/-- The scratch buffer is empty again after a frame. -/
theorem scratchAfter_eq {input : Bytes} {frame : DecodedFrame}
    (h : (decodeFrame key base122 input ⟨[], 0⟩ encoding).result = .ok (some frame)) :
    scratchAfter (decodeFrame key base122 input ⟨[], 0⟩ encoding).scratch frame = ⟨[], 0⟩ := by
  cases frame with
  | inJsonScratch => rfl
  | owned seq data => exact Decoder.decodeFrame_owned h

theorem counted_push {q : DecodeBuffers} (h : q.Counted) (data : Bytes) : (q.push data).Counted := by
  unfold DecodeBuffers.Counted DecodeBuffers.push
  have hq : q.pendingBytes = (q.pending.map List.length).sum := h
  simp [hq]

/-- What an error of `ingest` says of the frames, whatever follows: they do not make up all of the body;
    or the one behind those `taken` does not have the next number. -/
def Blamed (frames : Bytes → List (UInt64 × Bytes) × Bool) (startSeq : UInt64)
    (taken : List (UInt64 × Bytes)) : DownloadError → Prop
  | .decode _ => ∀ more, (frames more).2 = false
  | .outOfOrder seq expectedSeq => seq ≠ expectedSeq ∧ expectedSeq = seqAt startSeq taken.length ∧
      ∃ data, ∀ more, taken ++ [(seq, data)] <+: (frames more).1
  | _ => False

/-- What the loop of `ingest` comes to, from a scratch buffer that is empty. -/
structure Decoded (key : LessSafeKey) (base122 : Base122Fast) (encoding : EncodingType) (b : Buffers)
    (expectedSeq : UInt64) (r : Ingested) : Prop where
  numbered : r.frames.map Prod.fst = (List.range r.frames.length).map (seqAt expectedSeq)
  next : r.expectedSeq = seqAt expectedSeq r.frames.length
  queue : r.buffers.queue.pending = b.queue.pending ++ r.frames.map Prod.snd
  counted : b.queue.Counted → r.buffers.queue.Counted
  /-- The frames that were taken are the first of the buffer, whatever follows it. -/
  front : ∀ more, r.frames <+: (Decoder.frames key base122 encoding (b.input ++ more)).1
  /-- Without an error those behind them are still in the buffer, which holds no whole one. -/
  rest : r.error = none → r.buffers.jsonScratch = ⟨[], 0⟩ ∧
    (Decoder.frames key base122 encoding r.buffers.input).1 = [] ∧
    ∀ more, Decoder.frames key base122 encoding (b.input ++ more) =
      (r.frames ++ (Decoder.frames key base122 encoding (r.buffers.input ++ more)).1,
        (Decoder.frames key base122 encoding (r.buffers.input ++ more)).2)
  /-- An error comes from the frame behind them. -/
  blamed : ∀ e, r.error = some e →
    Blamed (fun more => Decoder.frames key base122 encoding (b.input ++ more)) expectedSeq r.frames e

theorem range_seqAt_succ (s : UInt64) (n : Nat) :
    (List.range (n + 1)).map (seqAt s) = s :: (List.range n).map (seqAt (s + 1)) := by
  rw [List.range_succ_eq_map, List.map_cons, List.map_map, seqAt_zero]
  congr 1
  exact List.map_congr_left fun i _ => (seqAt_succ_left s i).symm

/-- An error on `input` is an error on `input` and whatever follows. -/
theorem frames_append_broken {input : Bytes} {e : IoError}
    (h : (decodeFrame key base122 input ⟨[], 0⟩ encoding).result = .error e) (more : Bytes) :
    Decoder.frames key base122 encoding (input ++ more) = ([], false) := by
  have happ : Decoder.Extends (decodeFrame key base122 input ⟨[], 0⟩ encoding) more
      (decodeFrame key base122 (input ++ more) ⟨[], 0⟩ encoding) := Decoder.decodeFrame_append more
  rw [Decoder.Extends, h] at happ
  rcases happ with ⟨e', he'⟩
  exact Decoder.frames_error he'

/-- The same error, with one frame more in front. -/
theorem Blamed.cons {frames frames' : Bytes → List (UInt64 × Bytes) × Bool} {startSeq : UInt64}
    {taken : List (UInt64 × Bytes)} {e : DownloadError} {item : UInt64 × Bytes}
    (hfound : ∀ more, frames more = (item :: (frames' more).1, (frames' more).2))
    (h : Blamed frames' (startSeq + 1) taken e) : Blamed frames startSeq (item :: taken) e := by
  cases e with
  | decode e =>
    intro more
    rw [hfound more]
    exact h more
  | outOfOrder seq expectedSeq =>
    rcases h with ⟨hne, hexpected, data, hfront⟩
    refine ⟨hne, hexpected.trans (seqAt_succ_left startSeq taken.length), data, fun more => ?_⟩
    rw [hfound more]
    exact (List.prefix_cons_inj item).mpr (hfront more)
  | read | flush | continuation | prefetchTimeout => exact h.elim

theorem decodeLoop_decoded {b : Buffers} {expectedSeq : UInt64} (hs : b.jsonScratch = ⟨[], 0⟩) :
    Decoded key base122 encoding b expectedSeq (decodeLoop key base122 encoding b expectedSeq) := by
  fun_induction decodeLoop key base122 encoding b expectedSeq with
  | case1 b expectedSeq decoding b' e hres =>
    refine ⟨rfl, (seqAt_zero _).symm, (List.append_nil _).symm, fun h => h, fun _ => List.nil_prefix,
      (by rintro ⟨⟩), fun e' he => ?_⟩
    obtain rfl := Option.some.inj he
    have hbroken : (decodeFrame key base122 b.input ⟨[], 0⟩ encoding).result = .error e := hs ▸ hres
    exact fun more => congrArg Prod.snd (frames_append_broken hbroken more)
  | case2 b expectedSeq decoding b' hres =>
    obtain ⟨hkeep, -⟩ := Decoder.decodeFrame_none hres
    have hsrc : decoding.src = b.input := congrArg Decoding.src hkeep
    have hscratch : decoding.scratch = ⟨[], 0⟩ := (congrArg Decoding.scratch hkeep).trans hs
    have hnone : (decodeFrame key base122 b.input ⟨[], 0⟩ encoding).result = .ok none := hs ▸ hres
    refine ⟨rfl, (seqAt_zero _).symm, (List.append_nil _).symm, fun h => h, fun _ => List.nil_prefix,
      fun _ => ⟨hscratch, ?_, fun more => ?_⟩, by rintro e ⟨⟩⟩
    · show (Decoder.frames key base122 encoding decoding.src).1 = []
      rw [hsrc, Decoder.frames_none hnone]
    · show _ = ([] ++ (Decoder.frames key base122 encoding (decoding.src ++ more)).1,
        (Decoder.frames key base122 encoding (decoding.src ++ more)).2)
      rw [hsrc, List.nil_append]
  | case3 b expectedSeq decoding b' frame hres item b'' hne =>
    refine ⟨rfl, (seqAt_zero _).symm, (List.append_nil _).symm, fun h => h, fun _ => List.nil_prefix,
      (by rintro ⟨⟩), fun e he => ?_⟩
    obtain rfl := Option.some.inj he
    have hsome : (decodeFrame key base122 b.input ⟨[], 0⟩ encoding).result = .ok (some frame) :=
      hs ▸ hres
    have hitem : item = Decoder.itemOf (decodeFrame key base122 b.input ⟨[], 0⟩ encoding).scratch
        frame := by
      rw [← hs]
    refine ⟨hne, (seqAt_zero _).symm, item.2, fun more => ?_⟩
    show [item] <+: (Decoder.frames key base122 encoding (b.input ++ more)).1
    rw [frames_append_found hsome more, ← hitem]
    exact (List.prefix_cons_inj item).mpr List.nil_prefix
  | case4 b expectedSeq decoding b' frame hres item b'' heq rest ih =>
    have heq : item.1 = expectedSeq := Decidable.not_not.mp heq
    have hsome : (decodeFrame key base122 b.input ⟨[], 0⟩ encoding).result = .ok (some frame) :=
      hs ▸ hres
    have hdecoding : decoding = decodeFrame key base122 b.input ⟨[], 0⟩ encoding := by
      rw [← hs]
    have hscratch : scratchAfter decoding.scratch frame = ⟨[], 0⟩ := hdecoding ▸ scratchAfter_eq hsome
    have hfound := fun more => frames_append_found hsome more
    rw [← hdecoding] at hfound
    have ih := ih hscratch
    constructor
    case numbered =>
      show item.1 :: rest.frames.map Prod.fst = _
      rw [ih.numbered, heq]
      exact (range_seqAt_succ expectedSeq rest.frames.length).symm
    case next => exact ih.next.trans (seqAt_succ_left expectedSeq rest.frames.length)
    case queue =>
      refine ih.queue.trans ?_
      show (b.queue.pending ++ [item.2]) ++ _ = b.queue.pending ++ (item.2 :: _)
      rw [List.append_assoc]
      rfl
    case counted => exact fun h => ih.counted (counted_push h item.2)
    case front =>
      intro more
      rw [hfound more]
      exact (List.prefix_cons_inj item).mpr (ih.front more)
    case rest =>
      intro he
      obtain ⟨hempty, hnone, hrest⟩ := ih.rest he
      refine ⟨hempty, hnone, fun more => ?_⟩
      rw [hfound more, hrest more]
      rfl
    case blamed => exact fun e he => (ih.blamed e he).cons hfound

/-- `ingest` decodes what it had kept and the chunk, in a row. -/
theorem ingest_decoded {b : Buffers} {expectedSeq : UInt64} (hs : b.jsonScratch = ⟨[], 0⟩)
    (chunk : Bytes) :
    Decoded key base122 encoding { b with input := b.input ++ chunk } expectedSeq
      (ingest key base122 encoding b chunk expectedSeq) := by
  have hinput : (if b.input = [] then chunk else b.input ++ chunk) = b.input ++ chunk := by
    split
    · rename_i hnil
      rw [hnil, List.nil_append]
    · rfl
  unfold ingest
  rw [hinput]
  exact decodeLoop_decoded hs

end Chunk

/-! ## Every run -/

section Run

variable {key : LessSafeKey} {base122 : Base122Fast} {encoding : EncodingType}
  {maxBytes : Option UInt64}

theorem frames_nil (key : LessSafeKey) (base122 : Base122Fast) (encoding : EncodingType) :
    Decoder.frames key base122 encoding [] = ([], true) := by
  have hnone : (decodeFrame key base122 [] ⟨[], 0⟩ encoding).result = .ok none := by
    cases encoding with
    | binary => rfl
    | json => rfl
  rw [Decoder.frames_none hnone]
  rfl

/-- The frames of some bodies, each decoded as a whole. -/
def decoded (key : LessSafeKey) (base122 : Base122Fast) (encoding : EncodingType)
    (bodies : List Bytes) : List (UInt64 × Bytes) :=
  (bodies.map fun b => (Decoder.frames key base122 encoding b).1).flatten

theorem decoded_concat (bodies : List Bytes) (body : Bytes) :
    decoded key base122 encoding (bodies ++ [body]) =
      decoded key base122 encoding bodies ++ (Decoder.frames key base122 encoding body).1 := by
  simp [decoded]

/-- Between two chunks: all frames of the body so far were accepted, and what may follow is decoded as
    if `input` stood in front of it. -/
structure Intact (key : LessSafeKey) (base122 : Base122Fast) (encoding : EncodingType) (l : Loop) :
    Prop where
  scratch : l.buffers.jsonScratch = ⟨[], 0⟩
  accepted : l.accepted = decoded key base122 encoding (l.bodies ++ [l.body])
  behind : ∀ more, Decoder.frames key base122 encoding (l.body ++ more) =
    ((Decoder.frames key base122 encoding l.body).1 ++
        (Decoder.frames key base122 encoding (l.buffers.input ++ more)).1,
      (Decoder.frames key base122 encoding (l.buffers.input ++ more)).2)

/-- What holds after any events. -/
structure Reading (key : LessSafeKey) (base122 : Base122Fast) (encoding : EncodingType) (l : Loop) :
    Prop where
  numbered : l.accepted.map Prod.fst = (List.range l.accepted.length).map (seqAt 0)
  next : l.expectedSeq = seqAt 0 l.accepted.length
  flow : l.written ++ l.buffers.queue.pending.flatten = (l.accepted.map Prod.snd).flatten
  counted : l.buffers.queue.Counted
  front : l.accepted <+: decoded key base122 encoding (l.bodies ++ [l.body])
  intact : (∀ e, l.stage ≠ .failed e) → Intact key base122 encoding l
  quiet : l.stage ≠ .streaming → (∀ e, l.stage ≠ .failed e) →
    l.buffers.queue.pending = [] ∧ l.buffers.input = [] ∧ l.body = []
  no_overflow : l.stage ≠ .failed (.flush .overflow)
  undecodable : ∀ e, l.stage = .failed (.decode e) →
    ∀ more, (Decoder.frames key base122 encoding (l.body ++ more)).2 = false
  disordered : ∀ seq expectedSeq, l.stage = .failed (.outOfOrder seq expectedSeq) →
    seq ≠ expectedSeq ∧ expectedSeq = seqAt 0 l.accepted.length ∧
      ∃ data, l.accepted ++ [(seq, data)] <+: decoded key base122 encoding (l.bodies ++ [l.body])

theorem reading_new : Reading key base122 encoding (.new maxBytes) where
  numbered := rfl
  next := (seqAt_zero 0).symm
  flow := rfl
  counted := rfl
  front := List.nil_prefix
  intact := by
    intro _
    refine ⟨rfl, ?_, fun more => ?_⟩
    · show [] = decoded key base122 encoding [[]]
      simp [decoded, frames_nil]
    · show Decoder.frames key base122 encoding more =
        ((Decoder.frames key base122 encoding []).1 ++
          (Decoder.frames key base122 encoding more).1, (Decoder.frames key base122 encoding more).2)
      rw [frames_nil]
      rfl
  quiet := fun h => absurd rfl h
  no_overflow := by rintro ⟨⟩
  undecodable := by rintro e ⟨⟩
  disordered := by rintro seq expectedSeq ⟨⟩

/-- What is to be shown of a loop that has not failed. -/
theorem reading_going {l : Loop} (hgo : ∀ e, l.stage ≠ .failed e)
    (numbered : l.accepted.map Prod.fst = (List.range l.accepted.length).map (seqAt 0))
    (next : l.expectedSeq = seqAt 0 l.accepted.length)
    (flow : l.written ++ l.buffers.queue.pending.flatten = (l.accepted.map Prod.snd).flatten)
    (counted : l.buffers.queue.Counted) (intact : Intact key base122 encoding l)
    (quiet : l.stage ≠ .streaming →
      l.buffers.queue.pending = [] ∧ l.buffers.input = [] ∧ l.body = []) :
    Reading key base122 encoding l where
  numbered := numbered
  next := next
  flow := flow
  counted := counted
  front := intact.accepted ▸ List.prefix_rfl
  intact := fun _ => intact
  quiet := fun hne _ => quiet hne
  no_overflow := hgo _
  undecodable := fun e he => absurd he (hgo _)
  disordered := fun _ _ he => absurd he (hgo _)

/-- An error of `ingest`. -/
def DownloadError.ofIngest : DownloadError → Bool
  | .decode _ | .outOfOrder _ _ => true
  | _ => false

/-- An error that does not come from the bodies ends the loop, whatever it is. -/
theorem Reading.failed {l : Loop} (h : Reading key base122 encoding l) {e : DownloadError}
    (he : e ≠ .flush .overflow) (hof : e.ofIngest = false) :
    Reading key base122 encoding { l with stage := .failed e } where
  numbered := h.numbered
  next := h.next
  flow := h.flow
  counted := h.counted
  front := h.front
  intact := fun hno => absurd rfl (hno e)
  quiet := fun _ hno => absurd rfl (hno e)
  no_overflow := fun hstage => he (Stage.failed.inj hstage)
  undecodable := by
    rintro e' hstage
    obtain rfl := Stage.failed.inj hstage
    cases hof
  disordered := by
    rintro seq expectedSeq hstage
    obtain rfl := Stage.failed.inj hstage
    cases hof

/-- A flush of a loop that is reading a body. -/
theorem reading_flush {l : Loop} (h : Reading key base122 encoding l) (hs : l.stage = .streaming)
    (answers : Nat → Answer) :
    Reading key base122 encoding (l.flush answers) ∧
      ((l.flush answers).stage = .streaming → (l.flush answers).buffers.queue.pending = []) := by
  have hflushed := flushed l h.counted answers
  generalize l.flush answers = l' at hflushed ⊢
  rcases hflushed with
    ⟨written, pendingBytes, hwritten, hcount⟩ | ⟨written, queue, outcome, hwritten, hcount, hno⟩
  · have hreading : Reading key base122 encoding { l with
        buffers := { l.buffers with queue := ⟨[], pendingBytes⟩ }, written } :=
      { h with
        flow := by
          show written ++ ([] : List Bytes).flatten = _
          rw [hwritten, List.flatten_nil, List.append_nil]
          exact h.flow
        counted := hcount
        intact := fun hgo => ⟨(h.intact hgo).scratch, (h.intact hgo).accepted, (h.intact hgo).behind⟩
        quiet := fun hne => absurd hs hne }
    exact ⟨hreading, fun _ => rfl⟩
  · refine ⟨?_, by rintro ⟨⟩⟩
    have hflow : Reading key base122 encoding
        { l with buffers := { l.buffers with queue }, written } :=
      { h with
        flow := hwritten.trans h.flow
        counted := hcount
        intact := fun hgo => ⟨(h.intact hgo).scratch, (h.intact hgo).accepted, (h.intact hgo).behind⟩
        quiet := fun hne => absurd hs hne }
    exact hflow.failed (fun he => hno (DownloadError.flush.inj he)) rfl

/-- The loop as `ingest` leaves it. -/
def Loop.take (l : Loop) (drain : Drain) (requests : Nat) (bytes : Bytes) (r : Ingested) : Loop :=
  { l with
    drain, requests
    expectedSeq := r.expectedSeq
    buffers := r.buffers
    body := l.body ++ bytes
    accepted := l.accepted ++ r.frames }

theorem reading_take {l : Loop} (h : Reading key base122 encoding l) (hs : l.stage = .streaming)
    (drain : Drain) (requests : Nat) (bytes : Bytes) {r : Ingested}
    (hr : Decoded key base122 encoding { l.buffers with input := l.buffers.input ++ bytes }
      l.expectedSeq r) :
    (r.error = none → Reading key base122 encoding (l.take drain requests bytes r)) ∧
      ∀ e, r.error = some e →
        Reading key base122 encoding { l.take drain requests bytes r with stage := .failed e } := by
  have hgo : ∀ e, l.stage ≠ .failed e := by
    rw [hs]
    rintro e ⟨⟩
  have hi := h.intact hgo
  have hnumbered : (l.accepted ++ r.frames).map Prod.fst =
      (List.range (l.accepted ++ r.frames).length).map (seqAt 0) :=
    numbered_append h.numbered (h.next ▸ hr.numbered)
  have hlength : seqAt l.expectedSeq r.frames.length = seqAt 0 (l.accepted ++ r.frames).length := by
    rw [h.next, seqAt_add, List.length_append]
  have hflow : l.written ++ r.buffers.queue.pending.flatten =
      ((l.accepted ++ r.frames).map Prod.snd).flatten := by
    rw [hr.queue, List.flatten_append, ← List.append_assoc, List.map_append, List.flatten_append]
    show (l.written ++ l.buffers.queue.pending.flatten) ++ _ = _
    rw [h.flow]
  have hbody := fun more => hi.behind (bytes ++ more)
  simp only [← List.append_assoc] at hbody
  -- the frames of the longer body: those accepted before, and those of `input` with the chunk
  have hlonger := hbody []
  simp only [List.append_nil] at hlonger
  have hfront : ∀ more, r.frames ++ more <+:
      (Decoder.frames key base122 encoding (l.buffers.input ++ bytes)).1 →
        l.accepted ++ r.frames ++ more <+:
          decoded key base122 encoding (l.bodies ++ [l.body ++ bytes]) := by
    intro more hmore
    rw [hi.accepted, decoded_concat, decoded_concat, hlonger, List.append_assoc, List.append_assoc]
    exact (List.prefix_append_right_inj _).mpr ((List.prefix_append_right_inj _).mpr hmore)
  constructor
  · intro herr
    obtain ⟨hscratch, hnone, hrest⟩ := hr.rest herr
    have hwhole := hrest []
    simp only [List.append_nil] at hwhole
    have hframes : (Decoder.frames key base122 encoding (l.body ++ bytes)).1 =
        (Decoder.frames key base122 encoding l.body).1 ++ r.frames := by
      rw [hlonger, hwhole, hnone, List.append_nil]
    refine reading_going hgo hnumbered (hr.next.trans hlength) hflow (hr.counted h.counted)
      ⟨hscratch, ?_, ?_⟩ (fun hne => absurd hs hne)
    · show l.accepted ++ r.frames = decoded key base122 encoding (l.bodies ++ [l.body ++ bytes])
      rw [hi.accepted, decoded_concat, decoded_concat, hframes, List.append_assoc]
    · intro more
      show Decoder.frames key base122 encoding (l.body ++ bytes ++ more) =
        ((Decoder.frames key base122 encoding (l.body ++ bytes)).1 ++ _, _)
      rw [hbody more, hrest more, hframes, List.append_assoc]
      rfl
  · intro e he
    have hblamed := hr.blamed e he
    have htaken := hr.front []
    rw [List.append_nil] at htaken
    constructor
    case numbered => exact hnumbered
    case next => exact hr.next.trans hlength
    case flow => exact hflow
    case counted => exact hr.counted h.counted
    case front =>
      have hall := hfront [] (by rwa [List.append_nil])
      rwa [List.append_nil] at hall
    case intact => exact fun hno => absurd rfl (hno e)
    case quiet => exact fun _ hno => absurd rfl (hno e)
    case no_overflow =>
      intro hstage
      obtain rfl := Stage.failed.inj hstage
      exact hblamed
    case undecodable =>
      intro e' hstage more
      obtain rfl := Stage.failed.inj hstage
      show (Decoder.frames key base122 encoding (l.body ++ bytes ++ more)).2 = false
      rw [hbody more]
      exact hblamed more
    case disordered =>
      intro seq expectedSeq hstage
      obtain rfl := Stage.failed.inj hstage
      rcases hblamed with ⟨hne, hexpected, data, hnext⟩
      refine ⟨hne, hexpected.trans hlength, data, hfront _ ?_⟩
      have hnext : r.frames ++ [(seq, data)] <+:
          (Decoder.frames key base122 encoding (l.buffers.input ++ bytes ++ [])).1 := hnext []
      rwa [List.append_nil] at hnext

theorem reading_onData {l : Loop} (h : Reading key base122 encoding l) (hs : l.stage = .streaming)
    (bytes : Bytes) (answers : Nat → Answer) :
    Reading key base122 encoding (l.onData key base122 encoding maxBytes bytes answers) := by
  have hgo : ∀ e, l.stage ≠ .failed e := by
    rw [hs]
    rintro e ⟨⟩
  have hr := @ingest_decoded key base122 encoding l.buffers l.expectedSeq (h.intact hgo).scratch bytes
  unfold Loop.onData
  generalize ingest key base122 encoding l.buffers bytes l.expectedSeq = r at hr
  generalize onChunk (prefetchAt maxBytes) l.drain bytes = drain
  dsimp only
  generalize (if drain.fired && !l.drain.fired then l.requests + 1 else l.requests) = requests
  obtain ⟨hok, hfail⟩ := reading_take h hs drain requests bytes hr
  cases he : r.error with
  | some e => exact hfail e he
  | none =>
    have htaken := hok he
    dsimp only
    split
    · exact (reading_flush htaken hs answers).1
    · exact htaken

/-- The end of a body whose queue was written. -/
theorem reading_endBody {l : Loop} (h : Reading key base122 encoding l) (hs : l.stage = .streaming)
    (hnil : l.buffers.queue.pending = []) :
    Reading key base122 encoding (l.endBody maxBytes) := by
  have hgo : ∀ e, l.stage ≠ .failed e := by
    rw [hs]
    rintro e ⟨⟩
  have hi := h.intact hgo
  -- the next body is empty so far
  have hnext : decoded key base122 encoding (l.bodies ++ [l.body] ++ [[]]) =
      decoded key base122 encoding (l.bodies ++ [l.body]) := by
    rw [decoded_concat, frames_nil, List.append_nil]
  have hended : ∀ (stage : Stage) (requests : Nat), (∀ e, stage ≠ .failed e) →
      Reading key base122 encoding { l with
        stage, requests
        buffers := { l.buffers with input := [] }
        bodies := l.bodies ++ [l.body]
        body := [] } := by
    intro stage requests hstage
    refine reading_going hstage h.numbered h.next h.flow h.counted
      ⟨hi.scratch, ?_, fun more => ?_⟩ (fun _ => ⟨hnil, rfl, rfl⟩)
    · show l.accepted = decoded key base122 encoding (l.bodies ++ [l.body] ++ [[]])
      rw [hnext]
      exact hi.accepted
    · show Decoder.frames key base122 encoding more =
        ((Decoder.frames key base122 encoding []).1 ++
          (Decoder.frames key base122 encoding more).1, (Decoder.frames key base122 encoding more).2)
      rw [frames_nil]
      rfl
  unfold Loop.endBody Loop.askAgain
  dsimp only
  split
  · split
    · exact hended _ _ (by rintro e ⟨⟩)
    · exact hended _ _ (by rintro e ⟨⟩)
  · exact hended _ _ (by rintro e ⟨⟩)

theorem reading_onEnd {l : Loop} (h : Reading key base122 encoding l) (hs : l.stage = .streaming)
    (answers : Nat → Answer) : Reading key base122 encoding (l.onEnd maxBytes answers) := by
  obtain ⟨hflushed, hnil⟩ := reading_flush h hs answers
  unfold Loop.onEnd
  dsimp only
  split
  · rename_i hstream
    exact reading_endBody hflushed hstream (hnil hstream)
  · exact hflushed

/-- What `do_rotate` does to a loop that is between two bodies. -/
theorem reading_between {l : Loop} (h : Reading key base122 encoding l) (hne : l.stage ≠ .streaming)
    (hgo : ∀ e, l.stage ≠ .failed e) {stage : Stage} (hstage : ∀ e, stage ≠ .failed e)
    (drain : Drain) (prefetch : Bool) (requests : Nat) :
    Reading key base122 encoding
      { l with stage, drain, prefetch, requests, body := [] } := by
  obtain ⟨hnil, hinput, hbody⟩ := h.quiet hne hgo
  have hi := h.intact hgo
  refine reading_going hstage h.numbered h.next h.flow h.counted
    ⟨hi.scratch, hbody ▸ hi.accepted, ?_⟩ (fun _ => ⟨hnil, hinput, rfl⟩)
  intro more
  have hbehind := hi.behind more
  rw [hbody] at hbehind
  exact hbehind

theorem reading_nextResponse {l : Loop} (h : Reading key base122 encoding l) {on : Waiting}
    (hs : l.stage = .rotating on) : Reading key base122 encoding (l.nextResponse maxBytes) :=
  reading_between h (by rw [hs]; rintro ⟨⟩) (by rw [hs]; rintro e ⟨⟩) (by rintro e ⟨⟩) _ _ _

/-- `do_rotate` waits for something else. -/
theorem reading_wait {l : Loop} (h : Reading key base122 encoding l) {on on' : Waiting}
    (hs : l.stage = .rotating on) (requests : Nat) :
    Reading key base122 encoding { l with stage := .rotating on', requests } := by
  have hne : l.stage ≠ .streaming := by
    rw [hs]
    rintro ⟨⟩
  have hgo : ∀ e, l.stage ≠ .failed e := by
    rw [hs]
    rintro e ⟨⟩
  have hrot : ∀ e, Stage.rotating on' ≠ .failed e := by
    rintro e ⟨⟩
  have hb := reading_between h hne hgo hrot l.drain l.prefetch requests
  have hbody : l.body = [] := (h.quiet hne hgo).2.2
  rwa [← hbody] at hb

theorem reading_step (l : Loop) (e : Event) (l' : Loop) (h : Reading key base122 encoding l)
    (hstep : loopStep key base122 encoding maxBytes l e = some l') :
    Reading key base122 encoding l' := by
  cases e with
  | chunk bytes answers =>
    obtain ⟨hs, rfl⟩ := by simpa [loopStep] using hstep
    exact reading_onData h hs bytes answers
  | readError =>
    obtain ⟨hs, rfl⟩ := by simpa [loopStep] using hstep
    exact h.failed (by rintro ⟨⟩) rfl
  | flushDeadline answers =>
    obtain ⟨⟨hs, -⟩, rfl⟩ := by simpa [loopStep] using hstep
    exact (reading_flush h hs answers).1
  | bodyEnd answers =>
    obtain ⟨hs, rfl⟩ := by simpa [loopStep] using hstep
    exact reading_onEnd h hs answers
  | prefetched ok =>
    simp only [loopStep] at hstep
    split at hstep
    · rename_i late hs
      split at hstep
      · obtain rfl := Option.some.inj hstep
        exact reading_nextResponse h hs
      · split at hstep
        · obtain rfl := Option.some.inj hstep
          exact h.failed (by rintro ⟨⟩) rfl
        · obtain rfl := Option.some.inj hstep
          exact reading_wait h hs _
    · cases hstep
  | elapsed =>
    simp only [loopStep] at hstep
    split at hstep
    · rename_i late hs
      split at hstep
      · obtain rfl := Option.some.inj hstep
        exact h.failed (by rintro ⟨⟩) rfl
      · obtain rfl := Option.some.inj hstep
        exact reading_wait h hs _
    · cases hstep
  | answered ok =>
    simp only [loopStep] at hstep
    split at hstep
    · rename_i hs
      split at hstep
      · obtain rfl := Option.some.inj hstep
        exact reading_nextResponse h hs
      · obtain rfl := Option.some.inj hstep
        exact h.failed (by rintro ⟨⟩) rfl
    · cases hstep

theorem reading_run {es : List Event} {l : Loop}
    (h : run (loopStep key base122 encoding maxBytes) (.new maxBytes) es = some l) :
    Reading key base122 encoding l :=
  run_invariant reading_step es _ _ reading_new h

end Run

/-- **The client delivers what the bodies decode to**, however the network cuts them and whatever they
    hold.

    The frames that were accepted have the numbers 0, 1, 2 and so on; what the socket has taken and what
    is queued are their data, in a row; they are the first of the frames that the bodies decode to as
    wholes, and all of them as long as there was no error.  When the loop is done the socket has taken
    everything; and `pending_bytes` never goes below zero.

    An error is never a false alarm: a body that does not decode is not made of frames, whatever would
    have followed; and behind a frame out of order stands one that does not have the next number. -/
theorem download_decodes_bodies (key : LessSafeKey) (base122 : Base122Fast) (encoding : EncodingType)
    (maxBytes : Option UInt64) (es : List Event) (l : Loop)
    (h : run (loopStep key base122 encoding maxBytes) (.new maxBytes) es = some l) :
    l.accepted.map Prod.fst = (List.range l.accepted.length).map (seqAt 0) ∧
    l.written ++ l.buffers.queue.pending.flatten = (l.accepted.map Prod.snd).flatten ∧
    l.accepted <+: decoded key base122 encoding (l.bodies ++ [l.body]) ∧
    ((∀ e, l.stage ≠ .failed e) → l.accepted = decoded key base122 encoding (l.bodies ++ [l.body])) ∧
    (l.stage = .done →
      l.written = ((decoded key base122 encoding l.bodies).map Prod.snd).flatten) ∧
    l.stage ≠ .failed (.flush .overflow) ∧
    (∀ e, l.stage = .failed (.decode e) →
      ∀ more, (Decoder.frames key base122 encoding (l.body ++ more)).2 = false) ∧
    (∀ seq expectedSeq, l.stage = .failed (.outOfOrder seq expectedSeq) →
      seq ≠ expectedSeq ∧ expectedSeq = seqAt 0 l.accepted.length ∧
        ∃ data, l.accepted ++ [(seq, data)] <+:
          decoded key base122 encoding (l.bodies ++ [l.body])) := by
  have hr := reading_run h
  refine ⟨hr.numbered, hr.flow, hr.front, fun hgo => (hr.intact hgo).accepted, fun hdone => ?_,
    hr.no_overflow, hr.undecodable, hr.disordered⟩
  have hgo : ∀ e, l.stage ≠ .failed e := by
    rw [hdone]
    rintro e ⟨⟩
  obtain ⟨hnil, -, hbody⟩ := hr.quiet (by rw [hdone]; rintro ⟨⟩) hgo
  have hflow := hr.flow
  rwa [hnil, List.flatten_nil, List.append_nil, (hr.intact hgo).accepted, hbody, decoded_concat,
    frames_nil, List.append_nil] at hflow

/-- The key of 32 zero bytes, with the tags of the frames 0 of `[1]` and 1 of `[2]`. -/
def downloadKey : LessSafeKey :=
  streamKey [([0, 0, 0, 0, 0, 0, 0, 0, 0, 1, 1],
      [0x9c, 0x88, 0x3b, 0x10, 0x24, 0x46, 0x7a, 0x31, 0x5c, 0x65, 0x1d, 0xff, 0x2f, 0x9a, 0x2f, 0x44]),
    ([0, 0, 0, 0, 0, 0, 0, 1, 0, 1, 2],
      [0x81, 0x95, 0x68, 0x2f, 0x47, 0xb2, 0x13, 0xcc, 0xc1, 0x8d, 0x6e, 0x8d, 0x3c, 0xa1, 0x56, 0x9e])]

/-- The bytes of the frame 0 of `[1]`, under that key and the nonce of zeros. -/
def demoFrame0 : Bytes :=
  [0, 39] ++ .replicate 12 0 ++ [0xce, 0xa7, 0x40, 0x3d, 0x4d, 0x60, 0x6b, 0x6e, 0x07, 0x4f, 0xc4,
    0x9c, 0x88, 0x3b, 0x10, 0x24, 0x46, 0x7a, 0x31, 0x5c, 0x65, 0x1d, 0xff, 0x2f, 0x9a, 0x2f, 0x44]

/-- The bytes of the frame 1 of `[2]`. -/
def demoFrame1 : Bytes :=
  [0, 39] ++ .replicate 12 0 ++ [0xce, 0xa7, 0x40, 0x3d, 0x4d, 0x60, 0x6b, 0x6f, 0x07, 0x4f, 0xc7,
    0x81, 0x95, 0x68, 0x2f, 0x47, 0xb2, 0x13, 0xcc, 0xc1, 0x8d, 0x6e, 0x8d, 0x3c, 0xa1, 0x56, 0x9e]

/-- With a limit of one byte: the first body in two pieces, the second in one, and an empty one. -/
def demoBodies : List Event :=
  [.chunk (demoFrame0.take 20) fun _ => .room 1, .chunk (demoFrame0.drop 20) fun _ => .room 1,
    .bodyEnd fun _ => .room 1, .answered true,
    .chunk demoFrame1 fun _ => .room 1, .bodyEnd fun _ => .room 1, .answered true,
    .bodyEnd fun _ => .room 1]

/-- What is read off a run. -/
def Loop.summary (l : Loop) : Stage × Bytes × List Bytes × Nat :=
  (l.stage, l.written, l.bodies, l.requests)

theorem download_decodes_bodies_demo :
    ∃ l, run (loopStep downloadKey publishedBase122 .binary (some 1)) (.new (some 1)) demoBodies =
        some l ∧
      l.stage = .done ∧ l.requests = 2 ∧ l.bodies = [demoFrame0, demoFrame1, []] ∧
      l.written =
        ((decoded downloadKey publishedBase122 .binary [demoFrame0, demoFrame1, []]).map
          Prod.snd).flatten := by
  have heval : (run (loopStep downloadKey publishedBase122 .binary (some 1)) (.new (some 1))
      demoBodies).map Loop.summary = some (.done, [1, 2], [demoFrame0, demoFrame1, []], 2) := by
    decide +kernel
  obtain ⟨l, hl, hs⟩ := Option.map_eq_some_iff.mp heval
  simp only [Loop.summary, Prod.mk.injEq] at hs
  obtain ⟨hdone, -, hbodies, hrequests⟩ := hs
  obtain ⟨-, -, -, -, hall, -⟩ :=
    download_decodes_bodies downloadKey publishedBase122 .binary (some 1) demoBodies l hl
  exact ⟨l, hl, hdone, hrequests, hbodies, hbodies ▸ hall hdone⟩

end Httproxy.Download
