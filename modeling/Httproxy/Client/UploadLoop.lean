/-
  The upload side of the client: the early data of the first request (`encode_initial_payload` in
  `src/client/utils.rs`) and the loop that sends everything after it in POSTs
  (`src/client/actor/upload_loop.rs`).

  1. **Early data** — up to `max_bytes` of the payload that came with the proxy request, cut into
     frames that are numbered from 0.  What does not fit goes to the shaper, in front of the socket.

  2. **Loop (`UploadLoopActor`)** — `do_batching` seals frames into a buffer until it is full or nothing is
     ready, waits for both semaphores and spawns a POST with the buffer as its body; `do_drain` waits
     for the POSTs that are left.  `Point` says where the loop stands; `step` takes it to the next
     place where something outside decides: what the reader answers, which POST is joined, how a
     POST ends.

  3. **Specification (`Inv`)** — the bodies are CONSECUTIVE GROUPS of the shaper's frames, none of them
     empty, and the frames that are in no body yet are the buffer's.  On every way into `Draining`
     the buffer is empty and the input has been read to its end.

  The seal future and a poll with the no-op waker are calls of `poll_fill_and_seal`, whose turns are
  those of `Shaper.turn`.  A POST holds its two permits until it ends.
-/
import Httproxy.Shaper.Traffic

namespace Httproxy.UploadLoop

open Crypto Machine Seq Shaper

/-! ## Constants (`src/client/constants.rs`) -/

def MAX_BATCH_BYTES : Nat := 1024 * 1024
def MAX_IN_FLIGHT_BYTES : Nat := 2 * 1024 * 1024
def UPLOAD_CONCURRENCY : Nat := 128
def MIN_IN_FLIGHT_BYTES : Nat := 20 * 1024

section Program

variable (key : LessSafeKey) (base122 : Base122Fast)

/-! ## Early data -/

section EarlyData

variable (config : ResolvedShaperConfig) (draw : UInt64 → Draw)

def rawPayloadLimit : EncodingType → Nat
  | .json => JSON_PAYLOAD_CAP
  | .binary => MAX_RAW_PAYLOAD

theorem rawPayloadLimit_pos (encoding : EncodingType) : 0 < rawPayloadLimit encoding := by
  cases encoding <;> decide

/-- The loop of `encode_initial_payload` from the offset where `data` begins; `draw` makes the random
    choices of each frame. -/
def encodeChunks (data : Bytes) (seq : UInt64) (body : Bytes) : Except IoError (Bytes × UInt64) :=
  if _hdata : data = [] then .ok (body, seq)
  else
    let chunk := data.take (rawPayloadLimit config.encoding)
    match encodeFrameInto key base122 (draw seq) chunk seq config.globalThreshold config.globalRange
        config.encoding body with
    | (_, .error e) => .error e
    | (body, .ok ()) => encodeChunks (data.drop (rawPayloadLimit config.encoding)) (seq + 1) body
termination_by data.length
decreasing_by
  have hpos := rawPayloadLimit_pos config.encoding
  have hlen := List.length_pos_iff.mpr _hdata
  rw [List.length_drop]
  omega

/-- `encode_initial_payload`: the body, the payload that is left, and the number of frames. -/
def encodeInitialPayload (initialPayload : Bytes) (maxBytes : Nat) :
    Except IoError (Bytes × Bytes × UInt64) :=
  let takeLen := min initialPayload.length maxBytes
  let dataToSend := initialPayload.take takeLen
  let remaining := if takeLen < initialPayload.length then initialPayload.drop takeLen else []
  match encodeChunks key base122 config draw dataToSend 0 [] with
  | .error e => .error e
  | .ok (body, seq) => .ok (body, remaining, seq)

end EarlyData

/-! ## The loop -/

/-- How the task of a POST ended. -/
inductive Outcome where
  /-- `send_upload_post` returned `Ok`: a success status, and the response was drained. -/
  | success
  | error
  | panicked
  deriving DecidableEq, Repr

/-- A spawned POST. -/
structure Post where
  body : Bytes
  /-- The permits it holds of `bytes_sem`. -/
  permitBytes : Nat
  outcome : Option Outcome
  /-- Its result has been taken out of the `JoinSet`. -/
  joined : Bool
  deriving DecidableEq, Repr

inductive Point where
  /-- The `select!` of the first frame and `join_next`. -/
  | sealing (batchBuf : Bytes)
  /-- The loop that polls with the no-op waker. -/
  | filling (batchBuf : Bytes)
  /-- Awaits a permit of `request_sem`. -/
  | requesting (batchBuf : Bytes) (streamEnded : Bool)
  /-- Awaits permits of `bytes_sem`. -/
  | reserving (batchBuf : Bytes) (streamEnded : Bool)
  /-- The `try_join_next` loop behind the spawn. -/
  | reaping (streamEnded : Bool)
  /-- `do_drain`. -/
  | draining (inflight : Nat)
  | returned (ok : Bool)
  deriving DecidableEq, Repr

/-- What the client's configuration fixes for the loop. -/
structure Limits where
  uploadConcurrency : Nat
  maxInFlightBytes : Nat
  maxBatchBytes : Nat

structure UploadLoopActor where
  limits : Limits
  /-- `shaped`, with what its polls have read and sealed so far. -/
  shaped : Polling
  /-- The first half of the reader: what is left of the payload. -/
  cursor : Bytes
  /-- Log: the bytes that came from the socket. -/
  socket : Bytes
  /-- Every POST spawned so far, in order. -/
  posts : List Post
  point : Point

/-- `UploadLoopActor::new`. -/
def UploadLoopActor.new (config : ResolvedShaperConfig) (uploadConcurrency maxInFlightBytes : Nat)
    (initialPayload : Bytes) (startSeq : UInt64) (random : Nat) : UploadLoopActor where
  limits :=
    { uploadConcurrency, maxInFlightBytes
      maxBatchBytes :=
        max (min MAX_BATCH_BYTES (maxInFlightBytes - maxEncodedFrameLen config.encoding)) 1 }
  shaped := .new (.withSeq config startSeq random)
  cursor := initialPayload
  socket := []
  posts := []
  point := .sealing []

/-- The POSTs whose task has not ended. -/
def inFlight (posts : List Post) : List Post := posts.filter fun p => p.outcome.isNone

/-- The tasks that are still in the `JoinSet`. -/
def tasks (posts : List Post) : List Post := posts.filter fun p => !p.joined

/-- Behind the filling loop. -/
def afterFill (u : UploadLoopActor) (batchBuf : Bytes) (streamEnded : Bool) : UploadLoopActor :=
  if batchBuf = [] then
    if streamEnded then { u with point := .draining (tasks u.posts).length }
    else { u with point := .sealing [] }
  else { u with point := .requesting batchBuf streamEnded }

/-- The test of the filling loop. -/
def fill (u : UploadLoopActor) (batchBuf : Bytes) : UploadLoopActor :=
  if batchBuf.length < u.limits.maxBatchBytes then { u with point := .filling batchBuf }
  else afterFill u batchBuf false

/-- What the environment has ready for a turn of the shaper's loop, when the reader is the payload
    that is left and then the socket. -/
def chain (cursor : Bytes) (io : Io) : Io :=
  if cursor = [] then io else { io with read := .filled cursor }

/-- One turn of `poll_fill_and_seal` on the batch buffer: what it does, and the loop with the shaper
    and the reader as it leaves them. -/
def pollSeal (u : UploadLoopActor) (io : Io) (batchBuf : Bytes) : Turned × UploadLoopActor :=
  let t := turn key base122 (chain u.cursor io) u.shaped.shaper batchBuf
  let got := bytesRead t.read.toList
  (t, { u with
    shaped :=
      { shaper := t.shaper
        call := t.call batchBuf
        reads := u.shaped.reads ++ t.read.toList
        frames := u.shaped.frames ++ t.frames batchBuf
        results := u.shaped.results ++ t.results }
    cursor := u.cursor.drop got.length
    socket := if u.cursor = [] then u.socket ++ got else u.socket })

/-- The permits of `bytes_sem` for a batch. -/
def permitBytes (limits : Limits) (batchBuf : Bytes) : Nat :=
  max (min batchBuf.length limits.maxInFlightBytes) 1 % 2 ^ 32

inductive Event where
  /-- A turn of the shaper's loop. -/
  | turn (io : Io)
  /-- The `JoinSet` yields the result of the `i`-th POST. -/
  | join (i : Nat)
  /-- The `JoinSet` yields nothing. -/
  | joinNone
  /-- The semaphore in question has the permits. -/
  | acquire
  /-- The task of the `i`-th POST ends. -/
  | ended (i : Nat) (outcome : Outcome)

def markJoined (posts : List Post) (i : Nat) : List Post :=
  posts.modify i fun p => { p with joined := true }

def markEnded (posts : List Post) (i : Nat) (outcome : Outcome) : List Post :=
  posts.modify i fun p => { p with outcome := some outcome }

/-- How a loop goes on when the `JoinSet` has yielded a result. -/
def joined (u : UploadLoopActor) (outcome : Outcome) : UploadLoopActor :=
  match outcome with
  | .success =>
    match u.point with
    | .sealing batchBuf => fill u batchBuf
    | .draining inflight => { u with point := .draining (inflight - 1) }
    | _ => u
  | .error | .panicked => { u with point := .returned false }

/-- The points where a task is joined. -/
def Point.joins : Point → Bool
  | .sealing _ | .reaping _ => true
  | .draining inflight => inflight > 0
  | _ => false

/-- `tasks.spawn`, with both permits moved into the task. -/
def spawn (u : UploadLoopActor) (batchBuf : Bytes) (streamEnded : Bool) : UploadLoopActor :=
  { u with
    posts := u.posts ++ [⟨batchBuf, permitBytes u.limits batchBuf, none, false⟩]
    point := .reaping streamEnded }

def step (u : UploadLoopActor) : Event → Option UploadLoopActor
  | .turn io =>
    match u.point with
    | .sealing batchBuf =>
      let (t, u) := pollSeal key base122 u io batchBuf
      match t.outcome with
      | .again | .pending => some { u with point := .sealing t.out }
      | .ready (.ok (some _)) => some (fill u t.out)
      | .ready (.ok none) => some (afterFill u t.out true)
      | .ready (.error _) => some { u with point := .returned false }
    | .filling batchBuf =>
      let (t, u) := pollSeal key base122 u io batchBuf
      match t.outcome with
      | .again => some { u with point := .filling t.out }
      | .pending => some (afterFill u t.out false)
      | .ready (.ok (some _)) => some (fill u t.out)
      | .ready (.ok none) => some (afterFill u t.out true)
      | .ready (.error _) => some { u with point := .returned false }
    | _ => none
  | .join i =>
    match u.posts[i]? with
    | some ⟨_, _, some outcome, false⟩ =>
      if u.point.joins then some (joined { u with posts := markJoined u.posts i } outcome) else none
    | _ => none
  | .joinNone =>
    match u.point with
    | .reaping streamEnded =>
      if streamEnded then some { u with point := .draining (tasks u.posts).length }
      else some { u with point := .sealing [] }
    | .draining inflight =>
      if inflight = 0 ∨ tasks u.posts = [] then some { u with point := .returned true } else none
    | _ => none
  | .acquire =>
    match u.point with
    | .requesting batchBuf streamEnded =>
      if (inFlight u.posts).length < u.limits.uploadConcurrency then
        some { u with point := .reserving batchBuf streamEnded }
      else none
    | .reserving batchBuf streamEnded =>
      if ((inFlight u.posts).map Post.permitBytes).sum + permitBytes u.limits batchBuf ≤
          u.limits.maxInFlightBytes then some (spawn u batchBuf streamEnded)
      else none
    | _ => none
  | .ended i outcome =>
    match u.posts[i]? with
    | some ⟨_, _, none, _⟩ => some { u with posts := markEnded u.posts i outcome }
    | _ => none

end Program

/-! ## Specification -/

/-- The bytes of some frames in a row. -/
def bytesOf (fs : List SealedFrame) : Bytes := (fs.map SealedFrame.bytes).flatten

@[simp] theorem bytesOf_nil : bytesOf [] = [] := rfl

theorem bytesOf_append (fs gs : List SealedFrame) : bytesOf (fs ++ gs) = bytesOf fs ++ bytesOf gs := by
  simp [bytesOf]

/-- What the loop has gathered for the next POST. -/
def Point.batchBuf : Point → Bytes
  | .sealing b | .filling b | .requesting b _ | .reserving b _ => b
  | .reaping _ | .draining _ | .returned _ => []

/-- The shaper has told the loop that the input is over. -/
def Point.streamEnded : Point → Bool
  | .sealing _ | .filling _ => false
  | .requesting _ ended | .reserving _ ended | .reaping ended => ended
  | .draining _ => true
  | .returned ok => ok

/-- The batch is about to be sent. -/
def Point.sends : Point → Bool
  | .requesting _ _ | .reserving _ _ => true
  | _ => false

/-- The bodies are consecutive groups of the frames, and the buffer has the frames behind them. -/
def Batches (posts : List Post) (frames : List SealedFrame) (batchBuf : Bytes) : Prop :=
  ∃ (groups : List (List SealedFrame)) (cur : List SealedFrame), groups.flatten ++ cur = frames ∧ posts.map Post.body = groups.map bytesOf ∧
    (∀ g ∈ groups, g ≠ []) ∧ bytesOf cur = batchBuf

/-- Where the bytes are: read from the payload and the socket, in order, and sealed in order. -/
structure Flow (key : LessSafeKey) (base122 : Base122Fast) (encoding : EncodingType)
    (startSeq : UInt64) (payload : Bytes) (u : UploadLoopActor) : Prop where
  conserved : Conserved key base122 encoding startSeq u.shaped
  reader : bytesRead u.shaped.reads ++ u.cursor = payload ++ u.socket

structure Inv (key : LessSafeKey) (base122 : Base122Fast) (encoding : EncodingType)
    (startSeq : UInt64) (payload : Bytes) (u : UploadLoopActor) : Prop
    extends Flow key base122 encoding startSeq payload u where
  batches : ∃ batchBuf, Batches u.posts u.shaped.frames batchBuf ∧
    (u.point ≠ .returned false → batchBuf = u.point.batchBuf)
  sends : u.point.sends = true → u.point.batchBuf ≠ []
  ended : u.point.streamEnded = true → u.shaped.shaper.rawBuf = [] ∧ u.cursor = []

/-! ## The frames of the early data -/

section EarlyFrames

variable {key : LessSafeKey} {base122 : Base122Fast}

variable {config : ResolvedShaperConfig} {draw : UInt64 → Draw}

/-- Frames that carry data under consecutive numbers from `startSeq` on. -/
structure Carried (key : LessSafeKey) (base122 : Base122Fast) (encoding : EncodingType)
    (startSeq : UInt64) (fs : List SealedFrame) : Prop where
  seqs : fs.map SealedFrame.seq = (List.range fs.length).map (seqAt startSeq)
  carries : ∀ f ∈ fs, f.data ≠ [] ∧
    ∃ padding, Carries key base122 encoding f.bytes f.seq f.data padding

theorem Carried.cons {encoding : EncodingType} {seq : UInt64} {data bytes : Bytes} {padding : Nat}
    {fs : List SealedFrame} (h : Carried key base122 encoding (seq + 1) fs) (hne : data ≠ [])
    (hf : Carries key base122 encoding bytes seq data padding) :
    Carried key base122 encoding seq (⟨seq, data, bytes⟩ :: fs) where
  seqs := by
    rw [List.map_cons, h.seqs, List.length_cons, List.range_succ_eq_map, List.map_cons, List.map_map,
      seqAt_zero]
    congr 1
    exact List.map_congr_left fun i _ => seqAt_succ_left seq i
  carries := by
    intro g hg
    rcases List.mem_cons.mp hg with rfl | hg
    · exact ⟨hne, padding, hf⟩
    · exact h.carries g hg

theorem encodeChunks_spec (hkey : key.NeverFails) (data : Bytes) (seq : UInt64) (body : Bytes) :
    ∃ fs, encodeChunks key base122 config draw data seq body =
        .ok (body ++ bytesOf fs, seqAt seq fs.length) ∧
      (fs.map SealedFrame.data).flatten = data ∧ Carried key base122 config.encoding seq fs := by
  fun_induction encodeChunks key base122 config draw data seq body with
  | case1 seq body =>
    refine ⟨[], by simp, rfl, rfl, fun f hf => absurd hf List.not_mem_nil⟩
  | case2 data seq body hdata chunk out e herr =>
    have hfits : chunk.length ≤ frameRawLimit config.encoding := by
      rw [List.length_take]
      cases config.encoding <;> exact Nat.min_le_left ..
    have hok : (encodeFrameInto key base122 (draw seq) chunk seq config.globalThreshold
        config.globalRange config.encoding body).2 = .ok () :=
      encodeFrameInto_neverFails hkey hfits ..
    rw [herr] at hok
    cases hok
  | case3 data seq body hdata chunk out hput ih =>
    obtain ⟨f, padding, rfl, hf⟩ := encodeFrameInto_carries hput
    obtain ⟨fs, heq, hflat, hcarried⟩ := ih
    have hchunk : chunk ≠ [] := by
      simp [chunk, hdata, Nat.ne_of_gt (rawPayloadLimit_pos config.encoding)]
    refine ⟨⟨seq, chunk, f⟩ :: fs, ?_, ?_, hcarried.cons hchunk hf⟩
    · rw [heq, seqAt_succ_left, List.length_cons, List.append_assoc]
      rfl
    · rw [List.map_cons, List.flatten_cons, hflat]
      exact List.take_append_drop ..

/-- **The early data.**  The frames in the body carry the front of the payload under the numbers from
    0 on, and what they do not carry is left. -/
theorem encodeInitialPayload_spec (hkey : key.NeverFails) (initialPayload : Bytes) (maxBytes : Nat) :
    ∃ fs remaining, encodeInitialPayload key base122 config draw initialPayload maxBytes =
        .ok (bytesOf fs, remaining, seqAt 0 fs.length) ∧
      (fs.map SealedFrame.data).flatten ++ remaining = initialPayload ∧
      Carried key base122 config.encoding 0 fs := by
  obtain ⟨fs, heq, hflat, hcarried⟩ : ∃ fs, encodeChunks key base122 config draw _ 0 [] = _ ∧ _ :=
    encodeChunks_spec hkey (initialPayload.take (min initialPayload.length maxBytes)) 0 []
  refine ⟨fs, if min initialPayload.length maxBytes < initialPayload.length then
    initialPayload.drop (min initialPayload.length maxBytes) else [], ?_, ?_, hcarried⟩
  · simp only [encodeInitialPayload, heq, List.nil_append]
  · rw [hflat]
    split
    · exact List.take_append_drop ..
    · rw [List.append_nil, List.take_of_length_le]
      omega

end EarlyFrames

/-! ## One turn of the shaper -/

section Turn

variable {key : LessSafeKey} {base122 : Base122Fast} {encoding : EncodingType} {startSeq : UInt64}
  {payload : Bytes} {u : UploadLoopActor}

/-- What a turn appends to the buffer is the frame it sealed, if any. -/
theorem turns_out {s : TrafficShaper} {out : Bytes} {t : Turned} (ht : Turns key base122 s out t) :
    t.out = out ++ bytesOf (t.frames out) := by
  by_cases hsealed : ∃ seq, t.outcome = .ready (.ok (some seq))
  · obtain ⟨seq, hseq⟩ := hsealed
    obtain ⟨_, _, _, f, _, hout, _⟩ := ht.sealed seq hseq
    rw [Turned.frames, hseq, hout]
    simp [bytesOf]
  · obtain ⟨_, _, hout⟩ := ht.unsealed fun seq hseq => hsealed ⟨seq, hseq⟩
    have hnone : t.frames out = [] := by
      rw [Turned.frames]
      split
      · rename_i seq hseq
        exact absurd ⟨seq, hseq⟩ hsealed
      · rfl
    rw [hnone, hout, bytesOf_nil, List.append_nil]

/-- What a turn reads when the reader has `offered`: nothing, or as much as there is room for. -/
theorem turn_read_filled {io : Io} {offered : Bytes} (hread : io.read = .filled offered)
    (s : TrafficShaper) (out : Bytes) :
    (turn key base122 io s out).read = none ∨ s.rawBuf.length < s.sealThreshold ∧
      (turn key base122 io s out).read =
        some (s.rawBuf.length, .filled (offered.take (READ_HIGH_WATER - s.rawBuf.length))) := by
  rw [turn]
  dsimp only
  split
  · exact .inl (sealTurn_read ..)
  · rename_i hroom
    refine .inr ⟨Nat.lt_of_not_le hroom, ?_⟩
    rw [hread]
    dsimp only
    split
    · split
      · rfl
      · exact sealTurn_read ..
    · rfl

/-- While there is a payload, a turn reads from its front. -/
theorem read_front {cursor : Bytes} (hc : cursor ≠ []) (io : Io) (s : TrafficShaper) (out : Bytes) :
    bytesRead (turn key base122 (chain cursor io) s out).read.toList <+: cursor := by
  have hread : (chain cursor io).read = .filled cursor := by rw [chain, if_neg hc]
  rcases turn_read_filled hread s out with hnone | ⟨_, hsome⟩
  · rw [hnone]
    exact List.nil_prefix
  · rw [hsome]
    simpa [bytesRead, Served.bytes] using List.take_prefix ..

/-- A turn moves bytes, from the front of the payload while there are any. -/
theorem Flow.poll (hkey : key.NeverFails) (h : Flow key base122 encoding startSeq payload u)
    (io : Io) (batchBuf : Bytes) :
    Turns key base122 u.shaped.shaper batchBuf (pollSeal key base122 u io batchBuf).1 ∧
      Flow key base122 encoding startSeq payload (pollSeal key base122 u io batchBuf).2 := by
  have hwf : u.shaped.shaper.sealThreshold = sealThresholdOf u.shaped.shaper.encoding := by
    rw [h.conserved.threshold_eq, h.conserved.encoding_eq]
  have ht : Turns key base122 u.shaped.shaper batchBuf
      (turn key base122 (chain u.cursor io) u.shaped.shaper batchBuf) := turn_turns hkey hwf _
  refine ⟨ht, conserved_turn h.conserved ht, ?_⟩
  have hreader := h.reader
  show bytesRead (u.shaped.reads ++ _) ++ u.cursor.drop _ = payload ++ (if u.cursor = [] then _ else _)
  rw [bytesRead_append]
  by_cases hc : u.cursor = []
  · rw [hc, List.append_nil] at hreader
    rw [hc, if_pos rfl, List.drop_nil, List.append_nil, hreader, List.append_assoc]
  · obtain ⟨rest, hrest⟩ : bytesRead (turn key base122 (chain u.cursor io) u.shaped.shaper
      batchBuf).read.toList <+: u.cursor := read_front hc io u.shaped.shaper batchBuf
    rw [if_neg hc, ← hreader, List.append_assoc]
    congr 1
    nth_rewrite 3 [← hrest]
    rw [List.drop_left, hrest]

/-- The shaper only reports the end when the payload and the socket have both ended. -/
theorem Flow.poll_ended (hkey : key.NeverFails)
    (h : Flow key base122 encoding startSeq payload u) (io : Io) (batchBuf : Bytes)
    (hend : (pollSeal key base122 u io batchBuf).1.outcome = .ready (.ok none)) :
    (pollSeal key base122 u io batchBuf).2.shaped.shaper.rawBuf = [] ∧
      (pollSeal key base122 u io batchBuf).2.cursor = [] := by
  obtain ⟨hread, hraw⟩ := (h.poll hkey io batchBuf).1.ended hend
  refine ⟨hraw, ?_⟩
  show u.cursor.drop _ = []
  by_cases hc : u.cursor = []
  · rw [hc, List.drop_nil]
  · have hfilled : (chain u.cursor io).read = .filled u.cursor := by rw [chain, if_neg hc]
    rcases turn_read_filled hfilled u.shaped.shaper batchBuf with hnone | ⟨hroom, hsome⟩
    · exact absurd (hnone.symm.trans hread) nofun
    · have hempty := hsome.symm.trans hread
      simp only [Option.some.injEq, Prod.mk.injEq, Served.filled.injEq, true_and,
        List.take_eq_nil_iff, hc, or_false] at hempty
      have hthr : sealThresholdOf encoding ≤ READ_HIGH_WATER := by cases encoding <;> decide
      rw [h.conserved.threshold_eq] at hroom
      omega

end Turn

/-! ## Batches -/

theorem Batches.sealed {key : LessSafeKey} {base122 : Base122Fast} {s : TrafficShaper}
    {posts : List Post} {frames : List SealedFrame} {batchBuf : Bytes} {t : Turned}
    (h : Batches posts frames batchBuf) (ht : Turns key base122 s batchBuf t) :
    Batches posts (frames ++ t.frames batchBuf) t.out := by
  obtain ⟨groups, cur, hframes, hbodies, hgroups, rfl⟩ := h
  refine ⟨groups, cur ++ t.frames (bytesOf cur), ?_, hbodies, hgroups, ?_⟩
  · rw [← hframes, List.append_assoc]
  · rw [bytesOf_append, turns_out ht]

theorem Batches.spawned {posts : List Post} {frames : List SealedFrame} {post : Post}
    (h : Batches posts frames post.body) (hne : post.body ≠ []) :
    Batches (posts ++ [post]) frames [] := by
  obtain ⟨groups, cur, hframes, hbodies, hgroups, hcur⟩ := h
  refine ⟨groups ++ [cur], [], ?_, ?_, ?_, rfl⟩
  · rw [List.append_nil, List.flatten_append, List.flatten_singleton, hframes]
  · simp [hbodies, hcur]
  · intro g hg
    rcases List.mem_append.mp hg with hg | hg
    · exact hgroups g hg
    · obtain rfl := List.mem_singleton.mp hg
      rintro rfl
      exact hne hcur.symm

theorem Batches.of_bodies {posts posts' : List Post} {frames : List SealedFrame} {batchBuf : Bytes}
    (h : Batches posts frames batchBuf) (hbodies : posts'.map Post.body = posts.map Post.body) :
    Batches posts' frames batchBuf := by
  rw [Batches, hbodies]
  exact h

theorem map_modify_of_eq {α β : Type} {f : α → α} {g : α → β} (h : ∀ a, g (f a) = g a) (l : List α)
    (i : Nat) : (l.modify i f).map g = l.map g := by
  induction l generalizing i with
  | nil => simp
  | cons a l ih =>
    cases i with
    | zero => simp [h]
    | succ i => simp [ih]

@[simp] theorem markJoined_bodies (posts : List Post) (i : Nat) :
    (markJoined posts i).map Post.body = posts.map Post.body := by
  apply map_modify_of_eq
  intro p
  rfl

@[simp] theorem markEnded_bodies (posts : List Post) (i : Nat) (outcome : Outcome) :
    (markEnded posts i outcome).map Post.body = posts.map Post.body := by
  apply map_modify_of_eq
  intro p
  rfl

/-! ## Every run of the loop -/

section Run

variable {key : LessSafeKey} {base122 : Base122Fast} {encoding : EncodingType} {startSeq : UInt64}
  {payload : Bytes} {u : UploadLoopActor}

theorem Flow.at_point {point : Point} {posts : List Post}
    (h : Flow key base122 encoding startSeq payload u) :
    Flow key base122 encoding startSeq payload { u with point, posts } :=
  ⟨h.conserved, h.reader⟩

theorem Inv.at_point {point : Point} (h : Flow key base122 encoding startSeq payload u)
    (hb : Batches u.posts u.shaped.frames point.batchBuf)
    (hsends : point.sends = true → point.batchBuf ≠ [])
    (hended : point.streamEnded = true → u.shaped.shaper.rawBuf = [] ∧ u.cursor = []) :
    Inv key base122 encoding startSeq payload { u with point } where
  conserved := h.conserved
  reader := h.reader
  batches := ⟨point.batchBuf, hb, fun _ => rfl⟩
  sends := hsends
  ended := hended

theorem Inv.failed {batchBuf : Bytes} (h : Flow key base122 encoding startSeq payload u)
    (hb : Batches u.posts u.shaped.frames batchBuf) :
    Inv key base122 encoding startSeq payload { u with point := .returned false } where
  conserved := h.conserved
  reader := h.reader
  batches := ⟨batchBuf, hb, fun hne => absurd rfl hne⟩
  sends := nofun
  ended := nofun

theorem inv_afterFill {batchBuf : Bytes} {streamEnded : Bool}
    (h : Flow key base122 encoding startSeq payload u) (hb : Batches u.posts u.shaped.frames batchBuf)
    (hended : streamEnded = true → u.shaped.shaper.rawBuf = [] ∧ u.cursor = []) :
    Inv key base122 encoding startSeq payload (afterFill u batchBuf streamEnded) := by
  rw [afterFill]
  split
  · rename_i hempty
    subst hempty
    cases streamEnded with
    | true => exact Inv.at_point h hb nofun (fun _ => hended rfl)
    | false => exact Inv.at_point h hb nofun nofun
  · rename_i hne
    exact Inv.at_point h hb (fun _ => hne) hended

theorem inv_fill {batchBuf : Bytes} (h : Flow key base122 encoding startSeq payload u)
    (hb : Batches u.posts u.shaped.frames batchBuf) :
    Inv key base122 encoding startSeq payload (fill u batchBuf) := by
  rw [fill]
  split
  · exact Inv.at_point h hb nofun nofun
  · exact inv_afterFill h hb nofun

/-- A turn of the shaper, at either of the points that poll it. -/
theorem inv_turn (hkey : key.NeverFails) {u' : UploadLoopActor} {io : Io}
    (h : Inv key base122 encoding startSeq payload u)
    (hstep : step key base122 u (.turn io) = some u') :
    Inv key base122 encoding startSeq payload u' := by
  obtain ⟨batchBuf, hb, hbuf⟩ := h.batches
  rw [step] at hstep
  cases hp : u.point with
  | sealing buf =>
    obtain rfl : batchBuf = buf := by simpa [hp, Point.batchBuf] using hbuf
    obtain ⟨ht, hflow⟩ := h.toFlow.poll hkey io batchBuf
    have hends := h.toFlow.poll_ended hkey io batchBuf
    have hbatches := hb.sealed ht
    simp only [hp] at hstep
    split at hstep <;> obtain rfl := Option.some.inj hstep
    · exact Inv.at_point hflow hbatches nofun nofun
    · exact Inv.at_point hflow hbatches nofun nofun
    · exact inv_fill hflow hbatches
    · rename_i hout
      exact inv_afterFill hflow hbatches (fun _ => hends hout)
    · exact Inv.failed hflow hbatches
  | filling buf =>
    obtain rfl : batchBuf = buf := by simpa [hp, Point.batchBuf] using hbuf
    obtain ⟨ht, hflow⟩ := h.toFlow.poll hkey io batchBuf
    have hends := h.toFlow.poll_ended hkey io batchBuf
    have hbatches := hb.sealed ht
    simp only [hp] at hstep
    split at hstep <;> obtain rfl := Option.some.inj hstep
    · exact Inv.at_point hflow hbatches nofun nofun
    · exact inv_afterFill hflow hbatches nofun
    · exact inv_fill hflow hbatches
    · rename_i hout
      exact inv_afterFill hflow hbatches (fun _ => hends hout)
    · exact Inv.failed hflow hbatches
  | requesting buf ended => simp [hp] at hstep
  | reserving buf ended => simp [hp] at hstep
  | reaping ended => simp [hp] at hstep
  | draining inflight => simp [hp] at hstep
  | returned ok => simp [hp] at hstep

theorem Inv.of_bodies {posts : List Post} (h : Inv key base122 encoding startSeq payload u)
    (hbodies : posts.map Post.body = u.posts.map Post.body) :
    Inv key base122 encoding startSeq payload { u with posts } := by
  obtain ⟨batchBuf, hb, hbuf⟩ := h.batches
  exact { h with batches := ⟨batchBuf, hb.of_bodies hbodies, hbuf⟩ }

/-- A result is taken out of the `JoinSet`. -/
theorem inv_joined {outcome : Outcome} (h : Inv key base122 encoding startSeq payload u) :
    Inv key base122 encoding startSeq payload (joined u outcome) := by
  obtain ⟨batchBuf, hb, hbuf⟩ := h.batches
  cases outcome with
  | error => exact Inv.failed h.toFlow hb
  | panicked => exact Inv.failed h.toFlow hb
  | success =>
    cases hp : u.point with
    | sealing buf =>
      obtain rfl : batchBuf = buf := by simpa [hp, Point.batchBuf] using hbuf
      simpa only [joined, hp] using inv_fill h.toFlow hb
    | draining inflight =>
      obtain rfl : batchBuf = [] := by simpa [hp, Point.batchBuf] using hbuf
      have hended := h.ended (by simp [hp, Point.streamEnded])
      simpa only [joined, hp] using
        (Inv.at_point h.toFlow hb nofun (fun _ => hended) : Inv _ _ _ _ _ { u with
          point := .draining (inflight - 1) })
    | filling buf => simpa only [joined, hp] using h
    | requesting buf ended => simpa only [joined, hp] using h
    | reserving buf ended => simpa only [joined, hp] using h
    | reaping ended => simpa only [joined, hp] using h
    | returned ok => simpa only [joined, hp] using h

theorem inv_step (hkey : key.NeverFails) {u' : UploadLoopActor} {e : Event}
    (h : Inv key base122 encoding startSeq payload u) (hstep : step key base122 u e = some u') :
    Inv key base122 encoding startSeq payload u' := by
  cases e with
  | turn io => exact inv_turn hkey h hstep
  | join i =>
    rw [step] at hstep
    split at hstep
    · rw [Option.ite_none_right_eq_some] at hstep
      obtain rfl := Option.some.inj hstep.2
      exact inv_joined (h.of_bodies (markJoined_bodies u.posts i))
    · cases hstep
  | joinNone =>
    obtain ⟨batchBuf, hb, hbuf⟩ := h.batches
    rw [step] at hstep
    split at hstep
    · rename_i streamEnded hp
      obtain rfl : batchBuf = [] := by simpa [hp, Point.batchBuf] using hbuf
      split at hstep <;> obtain rfl := Option.some.inj hstep
      · rename_i hends
        have hended := h.ended (by simpa [hp, Point.streamEnded] using hends)
        exact Inv.at_point h.toFlow hb nofun (fun _ => hended)
      · exact Inv.at_point h.toFlow hb nofun nofun
    · rename_i inflight hp
      obtain rfl : batchBuf = [] := by simpa [hp, Point.batchBuf] using hbuf
      rw [Option.ite_none_right_eq_some] at hstep
      obtain rfl := Option.some.inj hstep.2
      have hended := h.ended (by simp [hp, Point.streamEnded])
      exact Inv.at_point h.toFlow hb nofun (fun _ => hended)
    · cases hstep
  | acquire =>
    obtain ⟨batchBuf, hb, hbuf⟩ := h.batches
    rw [step] at hstep
    split at hstep
    · rename_i buf streamEnded hp
      obtain rfl : batchBuf = buf := by simpa [hp, Point.batchBuf] using hbuf
      rw [Option.ite_none_right_eq_some] at hstep
      obtain rfl := Option.some.inj hstep.2
      have hsends := h.sends
      have hended := h.ended
      rw [hp] at hsends hended
      exact Inv.at_point h.toFlow hb hsends hended
    · rename_i buf streamEnded hp
      obtain rfl : batchBuf = buf := by simpa [hp, Point.batchBuf] using hbuf
      rw [Option.ite_none_right_eq_some] at hstep
      obtain rfl := Option.some.inj hstep.2
      have hne : batchBuf ≠ [] := by simpa [hp, Point.batchBuf, Point.sends] using h.sends
      have hended := h.ended
      rw [hp] at hended
      constructor
      · exact ⟨h.conserved, h.reader⟩
      · exact ⟨[], hb.spawned hne, fun _ => rfl⟩
      · exact nofun
      · exact hended
    · cases hstep
  | ended i outcome =>
    rw [step] at hstep
    split at hstep
    · obtain rfl := Option.some.inj hstep
      exact h.of_bodies (markEnded_bodies u.posts i outcome)
    · cases hstep

/-- Bodies and frames are only added. -/
structure Grows (u u' : UploadLoopActor) : Prop where
  bodies : u.posts.map Post.body <+: u'.posts.map Post.body
  frames : u.shaped.frames <+: u'.shaped.frames

theorem grows_afterFill (u : UploadLoopActor) (batchBuf : Bytes) (streamEnded : Bool) :
    Grows u (afterFill u batchBuf streamEnded) := by
  rw [afterFill]
  split
  · split <;> exact ⟨List.prefix_rfl, List.prefix_rfl⟩
  · exact ⟨List.prefix_rfl, List.prefix_rfl⟩

theorem grows_fill (u : UploadLoopActor) (batchBuf : Bytes) : Grows u (fill u batchBuf) := by
  rw [fill]
  split
  · exact ⟨List.prefix_rfl, List.prefix_rfl⟩
  · exact grows_afterFill u batchBuf false

theorem Grows.poll {io : Io} {buf : Bytes} {u' : UploadLoopActor}
    (h : Grows (pollSeal key base122 u io buf).2 u') : Grows u u' :=
  ⟨h.bodies, (List.prefix_append _ _).trans h.frames⟩

theorem grows_step {u' : UploadLoopActor} {e : Event} (hstep : step key base122 u e = some u') :
    Grows u u' := by
  cases e with
  | turn io =>
    rw [step] at hstep
    split at hstep
    · dsimp only at hstep
      split at hstep <;> obtain rfl := Option.some.inj hstep <;> apply Grows.poll
      · exact ⟨List.prefix_rfl, List.prefix_rfl⟩
      · exact ⟨List.prefix_rfl, List.prefix_rfl⟩
      · exact grows_fill ..
      · exact grows_afterFill ..
      · exact ⟨List.prefix_rfl, List.prefix_rfl⟩
    · dsimp only at hstep
      split at hstep <;> obtain rfl := Option.some.inj hstep <;> apply Grows.poll
      · exact ⟨List.prefix_rfl, List.prefix_rfl⟩
      · exact grows_afterFill ..
      · exact grows_fill ..
      · exact grows_afterFill ..
      · exact ⟨List.prefix_rfl, List.prefix_rfl⟩
    · cases hstep
  | join i =>
    rw [step] at hstep
    split at hstep
    · rename_i outcome _
      rw [Option.ite_none_right_eq_some] at hstep
      obtain rfl := Option.some.inj hstep.2
      have hbodies : u.posts.map Post.body <+: (markJoined u.posts i).map Post.body := by
        rw [markJoined_bodies]
      cases outcome with
      | error => exact ⟨hbodies, List.prefix_rfl⟩
      | panicked => exact ⟨hbodies, List.prefix_rfl⟩
      | success =>
        rw [joined]
        dsimp only
        split
        · have hfill := grows_fill { u with posts := markJoined u.posts i } ‹Bytes›
          exact ⟨hbodies.trans hfill.bodies, hfill.frames⟩
        · exact ⟨hbodies, List.prefix_rfl⟩
        · exact ⟨hbodies, List.prefix_rfl⟩
    · cases hstep
  | joinNone =>
    rw [step] at hstep
    split at hstep
    · split at hstep <;> obtain rfl := Option.some.inj hstep <;>
        exact ⟨List.prefix_rfl, List.prefix_rfl⟩
    · rw [Option.ite_none_right_eq_some] at hstep
      obtain rfl := Option.some.inj hstep.2
      exact ⟨List.prefix_rfl, List.prefix_rfl⟩
    · cases hstep
  | acquire =>
    rw [step] at hstep
    split at hstep
    · rw [Option.ite_none_right_eq_some] at hstep
      obtain rfl := Option.some.inj hstep.2
      exact ⟨List.prefix_rfl, List.prefix_rfl⟩
    · rw [Option.ite_none_right_eq_some] at hstep
      obtain rfl := Option.some.inj hstep.2
      refine ⟨?_, List.prefix_rfl⟩
      rw [spawn, List.map_append]
      exact List.prefix_append ..
    · cases hstep
  | ended i outcome =>
    rw [step] at hstep
    split at hstep
    · obtain rfl := Option.some.inj hstep
      refine ⟨?_, List.prefix_rfl⟩
      rw [markEnded_bodies]
    · cases hstep

theorem inv_new (key : LessSafeKey) (base122 : Base122Fast) (config : ResolvedShaperConfig)
    (uploadConcurrency maxInFlightBytes : Nat) (payload : Bytes) (startSeq : UInt64) (random : Nat) :
    Inv key base122 config.encoding startSeq payload
      (.new config uploadConcurrency maxInFlightBytes payload startSeq random) where
  conserved := conserved_new key base122 config startSeq random
  reader := by simp [UploadLoopActor.new, Polling.new, bytesRead]
  batches := ⟨[], ⟨[], [], rfl, rfl, fun g hg => absurd hg List.not_mem_nil, rfl⟩, fun _ => rfl⟩
  sends := nofun
  ended := nofun

end Run

end Httproxy.UploadLoop
