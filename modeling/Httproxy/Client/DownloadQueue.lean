/-
  The download queue (`DecodeBuffers::flush` and `consume` in
  `src/client/actor/download_loop.rs`): decrypted frames on their way to the local socket.

  Each write offers a WINDOW of the queue and may stop anywhere in it; `consume` then takes what was
  written off the front.  `pending_bytes` is kept beside the queue.

  1. **Program** — `window` is the loop that fills the slices, `consume` the loop that empties the
     queue, with its subtractions CHECKED: it has no result where `pending_bytes` would go below zero.

  2. **Machine** — one step is one turn of `flush`'s loop, and the event is how the socket answers it:
     it has room for `n` bytes, it fails, or it does not answer before the timeout.  `flush` runs the
     turns to the end, against any sequence of answers.

  3. **The crux (`consume_spec`)** — taking `n` bytes off the queue drops `n` bytes of its
     concatenation, and `n` from the counter.  The window is a front of the queue (`window_front`), so
     what the socket took is what `consume` drops.

  The theorem is `flush_delivers_once`.
-/
import Httproxy.Lib.Bytes
import Httproxy.Lib.Machine

namespace Httproxy.Download

open Machine

def WRITE_BUF_CAPACITY : Nat := 64 * 1024
def MAX_WRITE_IOV : Nat := 64

/-! ## Program -/

/-- `DecodeBuffers`, the side that is written from. -/
structure DecodeBuffers where
  pending : List Bytes
  pendingBytes : Nat
  deriving DecidableEq, Repr

/-- The slices of one write: chunks of the queue until there are `MAX_WRITE_IOV` of them, or
    `WRITE_BUF_CAPACITY` bytes. -/
def window (count total : Nat) : List Bytes → List Bytes
  | [] => []
  | chunk :: rest =>
    if count + 1 = MAX_WRITE_IOV ∨ total + chunk.length ≥ WRITE_BUF_CAPACITY then [chunk]
    else chunk :: window (count + 1) (total + chunk.length) rest

/-- The loop of `consume`, over the queue and the counter. -/
def consumeLoop (n : Nat) (pending : List Bytes) (pendingBytes : Nat) : Option DecodeBuffers :=
  if n > 0 then
    match pending with
    | [] => some ⟨[], pendingBytes⟩
    | front :: rest =>
      if front.length ≤ n then
        if front.length ≤ pendingBytes then
          consumeLoop (n - front.length) rest (pendingBytes - front.length)
        else none
      else if n ≤ pendingBytes then some ⟨front.drop n :: rest, pendingBytes - n⟩
      else none
  else some ⟨pending, pendingBytes⟩

def DecodeBuffers.consume (b : DecodeBuffers) (n : Nat) : Option DecodeBuffers :=
  consumeLoop n b.pending b.pendingBytes

/-! ## Machine -/

/-- What comes of `timeout(.., write_vectored(..))`. -/
inductive Answer where
  /-- The socket has room for `n` bytes: it takes as many, or all that is offered. -/
  | room (n : Nat)
  | failed
  | elapsed
  deriving DecidableEq, Repr

/-- Where `flush` is; `overflow` is the panic of an underflowing subtraction. -/
inductive Outcome where
  | running
  | ok
  | writeZero
  | failed
  /-- `local socket write stalled for {}s`. -/
  | stalled
  | overflow
  deriving DecidableEq, Repr

structure Flush where
  buffers : DecodeBuffers
  /-- What the socket has taken so far. -/
  written : Bytes
  outcome : Outcome
  deriving DecidableEq, Repr

/-- The head of the loop: `while !self.pending.is_empty()`. -/
def loopHead (b : DecodeBuffers) (written : Bytes) : Flush :=
  if b.pending.isEmpty then ⟨b, written, .ok⟩ else ⟨b, written, .running⟩

/-- The body of the loop. -/
def turn (b : DecodeBuffers) (written : Bytes) : Answer → Flush
  | .failed => ⟨b, written, .failed⟩
  | .elapsed => ⟨b, written, .stalled⟩
  | .room n =>
    let offered := (window 0 0 b.pending).flatten
    let taken := min n offered.length
    if taken = 0 then ⟨b, written, .writeZero⟩
    else
      match b.consume taken with
      | none => ⟨b, written ++ offered.take taken, .overflow⟩
      | some b' => loopHead b' (written ++ offered.take taken)

def step (f : Flush) (a : Answer) : Option Flush :=
  if f.outcome = .running then some (turn f.buffers f.written a) else none

/-! ## The window -/

theorem window_front (count total : Nat) (pending : List Bytes) :
    ∃ rest, pending = window count total pending ++ rest := by
  induction pending generalizing count total with
  | nil => exact ⟨[], rfl⟩
  | cons chunk rest ih =>
    unfold window
    split
    · exact ⟨rest, rfl⟩
    · obtain ⟨behind, hbehind⟩ := ih (count + 1) (total + chunk.length)
      refine ⟨behind, ?_⟩
      rw [List.cons_append, ← hbehind]

/-- The slices fit in their array. -/
theorem window_length {count : Nat} (total : Nat) (pending : List Bytes)
    (h : count < MAX_WRITE_IOV) : count + (window count total pending).length ≤ MAX_WRITE_IOV := by
  induction pending generalizing count total with
  | nil =>
    show count + 0 ≤ MAX_WRITE_IOV
    omega
  | cons chunk rest ih =>
    unfold window
    split
    · show count + 1 ≤ MAX_WRITE_IOV
      omega
    · rename_i hmore
      rw [not_or] at hmore
      have hrest := ih (total + chunk.length) (show count + 1 < MAX_WRITE_IOV by omega)
      rw [List.length_cons]
      omega

/-- The first chunk of the queue is always offered. -/
theorem window_cons (count total : Nat) (chunk : Bytes) (rest : List Bytes) :
    ∃ more, window count total (chunk :: rest) = chunk :: more := by
  unfold window
  split
  · exact ⟨[], rfl⟩
  · exact ⟨_, rfl⟩

/-- What the socket takes of the window is a front of the queue's bytes. -/
theorem take_window {pending : List Bytes} {n : Nat}
    (h : n ≤ (window 0 0 pending).flatten.length) :
    n ≤ pending.flatten.length ∧
      (window 0 0 pending).flatten.take n = pending.flatten.take n := by
  obtain ⟨rest, hrest⟩ := window_front 0 0 pending
  have hflat : pending.flatten = (window 0 0 pending).flatten ++ rest.flatten := by
    rw [← List.flatten_append, ← hrest]
  rw [hflat, List.length_append, List.take_append_of_le_length h]
  exact ⟨by omega, rfl⟩

/-! ## Taking off the front -/

/-- The counter is the sum of the lengths. -/
def DecodeBuffers.Counted (b : DecodeBuffers) : Prop :=
  b.pendingBytes = (b.pending.map List.length).sum

/-- **What `consume` does to the bytes**: `n` of them go off the front, across chunks. -/
theorem consumeLoop_flatten {n : Nat} {pending : List Bytes} {pendingBytes : Nat}
    {b : DecodeBuffers} (h : consumeLoop n pending pendingBytes = some b) :
    b.pending.flatten = pending.flatten.drop n := by
  fun_induction consumeLoop n pending pendingBytes with
  | case1 n pendingBytes hn =>
    obtain rfl := Option.some.inj h
    rw [List.flatten_nil, List.drop_nil]
  | case2 n pendingBytes hn front rest hwhole hle ih =>
    rw [ih h, List.flatten_cons, List.drop_append, List.drop_of_length_le hwhole, List.nil_append]
  | case3 => cases h
  | case4 n pendingBytes hn front rest hmore hle =>
    obtain rfl := Option.some.inj h
    show (front.drop n :: rest).flatten = _
    rw [List.flatten_cons, List.flatten_cons, List.drop_append_of_le_length (by omega)]
  | case5 => cases h
  | case6 pending n pendingBytes hn =>
    obtain rfl := Option.some.inj h
    obtain rfl : n = 0 := by omega
    rfl

/-- What is left of the counter is still the sum, and no subtraction went below zero. -/
theorem consumeLoop_counted {n : Nat} {pending : List Bytes} {pendingBytes : Nat}
    (hcount : pendingBytes = (pending.map List.length).sum) :
    ∃ b, consumeLoop n pending pendingBytes = some b ∧ b.Counted := by
  fun_induction consumeLoop n pending pendingBytes with
  | case1 n pendingBytes hn => exact ⟨_, rfl, hcount⟩
  | case2 n pendingBytes hn front rest hwhole hle ih =>
    rw [List.map_cons, List.sum_cons] at hcount
    exact ih (by omega)
  -- the counter is a sum with this chunk in it, so the subtraction does not underflow
  | case3 n pendingBytes hn front rest hwhole hlt =>
    rw [List.map_cons, List.sum_cons] at hcount
    omega
  | case4 n pendingBytes hn front rest hmore hle =>
    rw [List.map_cons, List.sum_cons] at hcount
    refine ⟨_, rfl, ?_⟩
    show pendingBytes - n = ((front.drop n :: rest).map List.length).sum
    rw [List.map_cons, List.sum_cons, List.length_drop]
    omega
  | case5 n pendingBytes hn front rest hmore hlt =>
    rw [List.map_cons, List.sum_cons] at hcount
    omega
  | case6 pending n pendingBytes hn => exact ⟨_, rfl, hcount⟩

/-- No chunk is cut down to nothing. -/
theorem consumeLoop_chunks {n : Nat} {pending : List Bytes} {pendingBytes : Nat}
    {b : DecodeBuffers} (hchunks : ∀ chunk ∈ pending, chunk ≠ [])
    (h : consumeLoop n pending pendingBytes = some b) : ∀ chunk ∈ b.pending, chunk ≠ [] := by
  fun_induction consumeLoop n pending pendingBytes with
  | case1 n pendingBytes hn =>
    obtain rfl := Option.some.inj h
    exact hchunks
  | case2 n pendingBytes hn front rest hwhole hle ih =>
    exact ih (fun chunk hmem => hchunks chunk (List.mem_cons_of_mem _ hmem)) h
  | case3 => cases h
  | case4 n pendingBytes hn front rest hmore hle =>
    obtain rfl := Option.some.inj h
    intro chunk hmem
    rcases List.mem_cons.mp hmem with rfl | hmem
    · rw [Ne, List.drop_eq_nil_iff]
      omega
    · exact hchunks chunk (List.mem_cons_of_mem _ hmem)
  | case5 => cases h
  | case6 pending n pendingBytes hn =>
    obtain rfl := Option.some.inj h
    exact hchunks

/-! ## One turn -/

/-- What a turn can lead to. -/
inductive Turned (b : DecodeBuffers) (written : Bytes) : Answer → Flush → Prop where
  | failed : Turned b written .failed ⟨b, written, .failed⟩
  | elapsed : Turned b written .elapsed ⟨b, written, .stalled⟩
  | writeZero (n : Nat) (h : min n (window 0 0 b.pending).flatten.length = 0) :
      Turned b written (.room n) ⟨b, written, .writeZero⟩
  | overflow (n taken : Nat) (h : b.consume taken = none) :
      Turned b written (.room n) ⟨b, written ++ b.pending.flatten.take taken, .overflow⟩
  | wrote (n taken : Nat) (b' : DecodeBuffers) (hpos : 0 < taken)
      (hle : taken ≤ b.pending.flatten.length) (h : b.consume taken = some b') :
      Turned b written (.room n) (loopHead b' (written ++ b.pending.flatten.take taken))

theorem turned (b : DecodeBuffers) (written : Bytes) (a : Answer) :
    Turned b written a (turn b written a) := by
  cases a with
  | failed => exact .failed
  | elapsed => exact .elapsed
  | room n =>
    unfold turn
    dsimp only
    obtain ⟨taken, htaken⟩ : ∃ taken, min n (window 0 0 b.pending).flatten.length = taken :=
      ⟨_, rfl⟩
    -- the window is a front of the queue, so what is taken of it is taken of the queue
    obtain ⟨hle, htake⟩ := @take_window b.pending taken (by omega)
    rw [htaken, htake]
    split
    · exact .writeZero n (by omega)
    · cases hc : b.consume taken with
      | none => exact .overflow n taken hc
      | some b' => exact .wrote n taken b' (by omega) hle hc

theorem step_turned {f f' : Flush} {a : Answer} (h : step f a = some f') :
    f.outcome = .running ∧ Turned f.buffers f.written a f' := by
  unfold step at h
  split at h
  · rename_i hrunning
    exact ⟨hrunning, Option.some.inj h ▸ turned f.buffers f.written a⟩
  · cases h

/-- Turns left at most: one for each byte, and the one that is answered with a failure. -/
def Flush.left (f : Flush) : Nat :=
  if f.outcome = .running then f.buffers.pending.flatten.length + 1 else 0

theorem loopHead_left (b : DecodeBuffers) (written : Bytes) :
    (loopHead b written).left ≤ b.pending.flatten.length + 1 := by
  unfold loopHead Flush.left
  split
  · exact Nat.zero_le _
  · exact Nat.le_refl _

theorem step_left {f f' : Flush} {a : Answer} (h : step f a = some f') : f'.left < f.left := by
  obtain ⟨hrunning, hturn⟩ := step_turned h
  have hleft : f.left = f.buffers.pending.flatten.length + 1 := if_pos hrunning
  rw [hleft]
  cases hturn with
  | failed => exact Nat.succ_pos _
  | elapsed => exact Nat.succ_pos _
  | writeZero => exact Nat.succ_pos _
  | overflow => exact Nat.succ_pos _
  | wrote n taken b' hpos hle hc =>
    have hless := loopHead_left b' (f.written ++ f.buffers.pending.flatten.take taken)
    rw [consumeLoop_flatten hc, List.length_drop] at hless
    omega

/-- `flush`, where the `k`-th write is answered with `answers k`. -/
def flush (answers : Nat → Answer) (f : Flush) (k : Nat) : Flush :=
  match _h : step f (answers k) with
  | none => f
  | some f' => flush answers f' (k + 1)
termination_by f.left
decreasing_by exact step_left _h

/-! ## Every run of `flush` -/

/-- What holds at every turn, of the queue that `flush` was called with. -/
structure Delivering (pending : List Bytes) (f : Flush) : Prop where
  once : f.written ++ f.buffers.pending.flatten = pending.flatten
  counted : f.buffers.Counted
  chunks : ∀ chunk ∈ f.buffers.pending, chunk ≠ []
  no_overflow : f.outcome ≠ .overflow
  running_some : f.outcome = .running → f.buffers.pending ≠ []
  ok_empty : f.outcome = .ok → f.buffers.pending = []

theorem delivering_loopHead {pending : List Bytes} {b : DecodeBuffers} {written : Bytes}
    (honce : written ++ b.pending.flatten = pending.flatten) (hcounted : b.Counted)
    (hchunks : ∀ chunk ∈ b.pending, chunk ≠ []) :
    Delivering pending (loopHead b written) := by
  unfold loopHead
  split
  · rename_i hempty
    exact ⟨honce, hcounted, hchunks, by simp, by simp, fun _ => List.isEmpty_iff.mp hempty⟩
  · rename_i hsome
    exact ⟨honce, hcounted, hchunks, by simp, fun _ hnil => hsome (List.isEmpty_iff.mpr hnil),
      by simp⟩

theorem delivering_step {pending : List Bytes} (f : Flush) (a : Answer) (f' : Flush)
    (hf : Delivering pending f) (h : step f a = some f') : Delivering pending f' := by
  obtain ⟨-, hturn⟩ := step_turned h
  cases hturn with
  | failed => exact ⟨hf.once, hf.counted, hf.chunks, by simp, by simp, by simp⟩
  | elapsed => exact ⟨hf.once, hf.counted, hf.chunks, by simp, by simp, by simp⟩
  | writeZero => exact ⟨hf.once, hf.counted, hf.chunks, by simp, by simp, by simp⟩
  | overflow n taken hc =>
    -- with the counter right, `consume` has a result
    obtain ⟨b', hb', -⟩ := @consumeLoop_counted taken _ _ hf.counted
    rw [DecodeBuffers.consume, hb'] at hc
    cases hc
  | wrote n taken b' hpos hle hc =>
    obtain ⟨b'', hb'', hcounted⟩ := @consumeLoop_counted taken _ _ hf.counted
    obtain rfl : b' = b'' := Option.some.inj (hc.symm.trans hb'')
    apply delivering_loopHead _ hcounted (consumeLoop_chunks hf.chunks hc)
    rw [consumeLoop_flatten hc, List.append_assoc, List.take_append_drop]
    exact hf.once

/-- `flush` is a run, of as many answers as it needs. -/
theorem flush_run (answers : Nat → Answer) (f : Flush) (k : Nat) :
    ∃ es, run step f es = some (flush answers f k) ∧
      (flush answers f k).outcome ≠ .running := by
  fun_induction flush answers f k with
  | case1 f k h =>
    refine ⟨[], rfl, fun hrunning => ?_⟩
    rw [step, if_pos hrunning] at h
    cases h
  | case2 f k f' h ih =>
    obtain ⟨es, hes, hdone⟩ := ih
    exact ⟨answers k :: es, by rw [run_cons, h]; exact hes, hdone⟩

theorem run_left {f f' : Flush} {es : List Answer} (h : run step f es = some f') :
    es.length + f'.left ≤ f.left := by
  induction es generalizing f with
  | nil =>
    obtain rfl := Option.some.inj h
    show 0 + f.left ≤ f.left
    omega
  | cons a es ih =>
    rw [run_cons, Option.bind_eq_some_iff] at h
    obtain ⟨m, hm, h⟩ := h
    -- the first step has spent one of the turns
    have hfirst := step_left hm
    have hrest := ih h
    rw [List.length_cons]
    omega

/-- Neither a failure nor a stall so far. -/
def Flush.Well (f : Flush) : Prop := f.outcome = .running ∨ f.outcome = .ok

theorem loopHead_well (b : DecodeBuffers) (written : Bytes) : (loopHead b written).Well := by
  unfold loopHead
  split
  · exact .inr rfl
  · exact .inl rfl

/-- A byte in the first chunk and room for one: the window is not empty, and the write is none of 0
    bytes. -/
theorem step_well {pending : List Bytes} {f f' : Flush} {n : Nat} (hn : 0 < n)
    (hf : Delivering pending f) (h : step f (.room n) = some f') : f'.Well := by
  obtain ⟨hrunning, hturn⟩ := step_turned h
  cases hturn with
  | writeZero n hzero =>
    exfalso
    obtain ⟨chunk, rest, hcons⟩ := List.exists_cons_of_ne_nil (hf.running_some hrunning)
    obtain ⟨more, hmore⟩ := window_cons 0 0 chunk rest
    have hpos := List.length_pos_of_ne_nil (hf.chunks chunk (hcons ▸ List.mem_cons_self))
    rw [hcons, hmore, List.flatten_cons, List.length_append] at hzero
    omega
  | overflow => exact absurd rfl (delivering_step f _ _ hf h).no_overflow
  | wrote n taken b' hpos hle hc => exact loopHead_well _ _

theorem flush_ok {pending : List Bytes} {answers : Nat → Answer} {f : Flush} {k : Nat}
    (hroom : ∀ k, ∃ n, 0 < n ∧ answers k = .room n) (hf : Delivering pending f) (hwell : f.Well) :
    (flush answers f k).outcome = .ok := by
  fun_induction flush answers f k with
  | case1 f k h =>
    rcases hwell with hrunning | hok
    · rw [step, if_pos hrunning] at h
      cases h
    · exact hok
  | case2 f k f' h ih =>
    obtain ⟨n, hn, hk⟩ := hroom k
    rw [hk] at h
    exact ih (delivering_step f _ f' hf h) (step_well hn hf h)

/-- **Each byte of the queue is delivered once.**  However the socket answers, `flush` comes to its
    end, and at every turn what is written and what is queued make up the queue it was called with;
    it returns `Ok` only with an empty queue, and does so when the socket always has room. -/
theorem flush_delivers_once (b : DecodeBuffers) (hchunks : ∀ chunk ∈ b.pending, chunk ≠ [])
    (hcount : b.pendingBytes = (b.pending.map List.length).sum) :
    (∀ es f, run step (loopHead b []) es = some f →
      es.length ≤ b.pendingBytes + 1 ∧
      f.written ++ f.buffers.pending.flatten = b.pending.flatten ∧
      f.buffers.pendingBytes = (f.buffers.pending.map List.length).sum ∧
      f.outcome ≠ .overflow ∧
      (f.outcome = .ok → f.buffers.pending = [])) ∧
    ∀ answers,
      (∃ es, run step (loopHead b []) es = some (flush answers (loopHead b []) 0)) ∧
      (flush answers (loopHead b []) 0).outcome ≠ .running ∧
      ((∀ k, ∃ n, 0 < n ∧ answers k = .room n) →
        (flush answers (loopHead b []) 0).outcome = .ok) := by
  have hstart : Delivering b.pending (loopHead b []) :=
    delivering_loopHead (List.nil_append _) hcount hchunks
  constructor
  · intro es f h
    have hf := run_invariant delivering_step es _ f hstart h
    refine ⟨?_, hf.once, hf.counted, hf.no_overflow, hf.ok_empty⟩
    have hlen := run_left h
    have hstart := loopHead_left b []
    rw [List.length_flatten] at hstart
    omega
  · intro answers
    obtain ⟨es, hes, hdone⟩ := flush_run answers (loopHead b []) 0
    exact ⟨⟨es, hes⟩, hdone, fun hroom => flush_ok hroom hstart (loopHead_well b [])⟩

/-- Three chunks of three bytes; a write takes four of them, and the next one fails. -/
def demoQueue : DecodeBuffers := ⟨[[1, 1, 1], [2, 2, 2], [3, 3, 3]], 9⟩

theorem flush_delivers_once_demo :
    run step (loopHead demoQueue []) [.room 4, .failed] =
        some ⟨⟨[[2, 2], [3, 3, 3]], 5⟩, [1, 1, 1, 2], .failed⟩ ∧
      [1, 1, 1, 2] ++ [[2, 2], [3, 3, 3]].flatten = demoQueue.pending.flatten :=
  have hrun : run step (loopHead demoQueue []) [.room 4, .failed] =
      some ⟨⟨[[2, 2], [3, 3, 3]], 5⟩, [1, 1, 1, 2], .failed⟩ := by decide +kernel
  ⟨hrun, ((flush_delivers_once demoQueue (by decide) (by decide)).1 _ _ hrun).2.1⟩

end Httproxy.Download
