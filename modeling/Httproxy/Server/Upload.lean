/-
  The server's upload actor (`src/server/actor/upload.rs`) as a state machine.

  Upload frames of one tunnel arrive over several concurrent POSTs, hence in any order and with
  repeats.  The actor puts them back in sequence and writes them to the upstream connection; an
  `Eos { max_seq, ack }` asks to be told once everything up to `max_seq` has been written.

  1. **State** — `UploadActor`: the phase (`Reordering` / `Draining` / `Closed`), whether the
     upstream write half is still there, the last-activity instant and the run buffer, exactly the
     fields of the source, plus the two LOGS an observer sees: `writes` (every `write_run` call
     with its result) and `acks` (every answer sent on an EOS channel).

  2. **Program** — `handleFrame` (with its nested drain loop, `fillRun` inside `drainLoop`),
     `handleEos`, `shutdownAndDrain`, `ackAllWaiters`, `dispatch`, and `step`, one turn of the
     `select!` in `run`: a command, the closing of the channel, or the reorder timeout.

  3. **Environment** — `writeOk k` is the result of the `k`-th `write_frames` call under its
     timeout.  Quantifying over `writeOk` is quantifying over every pattern of write successes and
     failures.  Instants are milliseconds.

  Sequence numbers are `u64` and `*next_seq += 1` WRAPS (the release profile has no overflow
  checks).  `BTreeMap<u64, Bytes>` is used through `remove`, `contains_key`, `insert`, `len` and
  `is_empty` only, so an association list with distinct keys (`AList`) stands for it.
-/
import Httproxy.Lib.Bytes
import Httproxy.Lib.Machine
import Httproxy.Lib.Vec

namespace Httproxy.Upload

open Machine Vec

/-! ## Constants (`src/server/constants.rs`) -/

def MAX_PENDING_BYTES : Nat := 2 * 1024 * 1024
def MAX_PENDING_FRAMES : Nat := 8 * 1024
def MAX_EOS_WAITERS : Nat := 256
def MAX_REORDER_SECS : Nat := 10
def MAX_WRITE_IOV : Nat := 64

/-! ## Data -/



/-- `ServerError(StatusCode, String)`. -/
structure ServerError where
  status : Nat
  message : String
  deriving DecidableEq, Repr

def ServerError.badGateway (msg : String) : ServerError := ⟨502, msg⟩
def ServerError.gatewayTimeout (msg : String) : ServerError := ⟨504, msg⟩

/-- The identity of a `oneshot::Sender`: what is sent on it is logged under this name. -/
abbrev Ack := Nat

/-- `Result<(), ServerError>`, the answer to an EOS. -/
inductive Answer where
  | ok
  | err (e : ServerError)
  deriving DecidableEq, Repr

inductive UploadCmd where
  | frame (seq : UInt64) (data : Bytes)
  | eos (maxSeq : UInt64) (ack : Ack)
  | shutdown
  deriving DecidableEq, Repr

/-- The reorder map `BTreeMap<u64, Bytes>`. -/
abbrev Pending := AList (fun _ : UInt64 => Bytes)

/-- The fields of `UploadPhase::Reordering`. -/
structure Reorder where
  nextSeq : UInt64
  pending : Pending
  pendingBytes : Nat
  eosWaiters : List (UInt64 × Ack)

inductive UploadPhase where
  | reordering (r : Reorder)
  | draining (eosWaiters : List Ack)
  | closed

structure UploadActor where
  phase : UploadPhase
  /-- `Option<UpstreamWrite>` is `Some`. -/
  upstream : Bool
  lastActivity : Nat
  runBuf : List Bytes
  /-- Log: the frames of every `write_run` call, with what it returned. -/
  writes : List (List Bytes × Bool)
  /-- Log: every answer sent on an EOS channel. -/
  acks : List (Ack × Answer)
  /-- `run()` has returned. -/
  done : Bool

/-- `UploadActor::new` at instant `now`. -/
def new (initialSeq : UInt64) (now : Nat) : UploadActor where
  phase := .reordering ⟨initialSeq, ∅, 0, []⟩
  upstream := true
  lastActivity := now
  runBuf := []
  writes := []
  acks := []
  done := false

/-! ## Draining consecutive frames -/

/-- `pending.remove(next_seq)`, and `*pending_bytes -= next_data.len()` when it finds something. -/
def Reorder.removeNext (r : Reorder) : Option (Bytes × Reorder) :=
  match r.pending.lookup r.nextSeq with
  | none => none
  | some d =>
    some (d, { r with pending := r.pending.erase r.nextSeq
                      pendingBytes := r.pendingBytes - d.length })

/-- `*next_seq += 1`. -/
def Reorder.bump (r : Reorder) : Reorder := { r with nextSeq := r.nextSeq + 1 }

@[simp] theorem bump_nextSeq (r : Reorder) : r.bump.nextSeq = r.nextSeq + 1 := rfl
@[simp] theorem bump_pending (r : Reorder) : r.bump.pending = r.pending := rfl
@[simp] theorem bump_eosWaiters (r : Reorder) : r.bump.eosWaiters = r.eosWaiters := rfl

/-- The inner loop `while run_buf.len() < MAX_WRITE_IOV`: append consecutive pending frames. -/
def fillRun (r : Reorder) (buf : List Bytes) : Reorder × List Bytes :=
  if buf.length < MAX_WRITE_IOV then
    match r.removeNext with
    | none => (r, buf)
    | some (d, r') => fillRun r'.bump (buf ++ [d])
  else (r, buf)
termination_by MAX_WRITE_IOV - buf.length
decreasing_by
  rw [List.length_append, List.length_singleton]; omega

variable (writeOk : Nat → Bool)

/-- `write_run`: hand the run to the upstream, if there still is one. -/
def writeRun (a : UploadActor) : Bool × UploadActor :=
  let ok := a.upstream && writeOk a.writes.length
  (ok, { a with writes := a.writes ++ [(a.runBuf, ok)] })

theorem removeNext_length {r r' : Reorder} {d : Bytes} (h : r.removeNext = some (d, r')) :
    r'.pending.entries.length < r.pending.entries.length := by
  unfold Reorder.removeNext at h
  split at h
  · cases h
  · rename_i d' hd
    have hmem : r.nextSeq ∈ r.pending := AList.lookup_isSome.mp (by rw [hd]; rfl)
    rw [Option.some.injEq, Prod.mk.injEq] at h
    obtain ⟨-, rfl⟩ := h
    have hk : (r.pending.erase r.nextSeq).keys.length = r.pending.keys.length - 1 := by
      rw [AList.keys_erase, List.length_erase_of_mem (AList.mem_keys.mp hmem)]
    have hpos : 0 < r.pending.keys.length := List.length_pos_of_mem (AList.mem_keys.mp hmem)
    have hlen (p : Pending) : p.keys.length = p.entries.length := List.length_map ..
    rw [hlen, hlen] at hk
    rw [hlen] at hpos
    show (r.pending.erase r.nextSeq).entries.length < _
    omega

theorem fillRun_length (r : Reorder) (buf : List Bytes) :
    (fillRun r buf).1.pending.entries.length ≤ r.pending.entries.length := by
  fun_induction fillRun r buf with
  | case1 => exact Nat.le_refl _
  | case2 r buf hlt d r' hr ih =>
    have hlt' := removeNext_length hr
    rw [bump_pending] at ih
    omega
  | case3 => exact Nat.le_refl _

/-- The outer `loop`: push `head`, fill the run, write it, and start over from the next pending
    frame.  Returns whether every write succeeded, with the phase fields and the actor after it. -/
def drainLoop (a : UploadActor) (r : Reorder) (head : Bytes) : Bool × Reorder × UploadActor :=
  match writeRun writeOk { a with runBuf := (fillRun r.bump [head]).2 } with
  | (false, a') => (false, (fillRun r.bump [head]).1, a')
  | (true, a') =>
    match _hnext : (fillRun r.bump [head]).1.removeNext with
    | none => (true, (fillRun r.bump [head]).1, a')
    | some (d, r') => drainLoop a' r' d
termination_by r.pending.entries.length
decreasing_by
  exact Nat.lt_of_lt_of_le (removeNext_length _hnext) (fillRun_length r.bump [head])

/-- The waiter loop: `swap_remove` every waiter whose `max_seq` has been passed, answering `Ok`. -/
def releaseWaiters (next : UInt64) (ws : List (UInt64 × Ack)) (i : Nat)
    (acks : List (Ack × Answer)) : List (UInt64 × Ack) × List (Ack × Answer) :=
  if h : i < ws.length then
    if ws[i].1 < next then releaseWaiters next (swapRemove ws i) i (acks ++ [(ws[i].2, .ok)])
    else releaseWaiters next ws (i + 1) acks
  else (ws, acks)
termination_by ws.length - i
decreasing_by
  · have := length_swapRemove h; omega
  · omega

/-! ## The handlers -/

/-- `shutdown_and_drain`: drop the upstream and keep the waiters for `ack_all_waiters`. -/
def shutdownAndDrain (a : UploadActor) : UploadActor :=
  { a with
    upstream := false
    phase := match a.phase with
      | .reordering r => .draining (r.eosWaiters.map Prod.snd)
      | .draining ws => .draining ws
      | .closed => .closed }

/-- `handle_frame`; the Boolean is "leave the loop". -/
def handleFrame (a : UploadActor) (seq : UInt64) (data : Bytes) : Bool × UploadActor :=
  match a.phase with
  | .reordering r =>
    if seq < r.nextSeq then (false, a)
    else if seq = r.nextSeq then
      match drainLoop writeOk a r data with
      | (false, r', a') => (true, shutdownAndDrain { a' with phase := .reordering r' })
      | (true, r', a') =>
        let rel := releaseWaiters r'.nextSeq r'.eosWaiters 0 a'.acks
        let r'' := { r' with eosWaiters := rel.1 }
        (false, { a' with phase := .reordering r'', acks := rel.2 })
    else if (r.pending.lookup seq).isSome then (false, a)
    else if r.pending.entries.length ≥ MAX_PENDING_FRAMES ∨
        r.pendingBytes + data.length > MAX_PENDING_BYTES then
      (true, shutdownAndDrain a)
    else
      let r' := { r with pending := r.pending.insert seq data
                         pendingBytes := r.pendingBytes + data.length }
      (false, { a with phase := .reordering r' })
  | .draining _ => (false, a)
  | .closed => (false, a)

/-- `handle_eos`. -/
def handleEos (a : UploadActor) (maxSeq : UInt64) (ack : Ack) : Bool × UploadActor :=
  match a.phase with
  | .reordering r =>
    if r.nextSeq > maxSeq then (false, { a with acks := a.acks ++ [(ack, .ok)] })
    else if r.eosWaiters.length ≥ MAX_EOS_WAITERS then
      (true, { a with acks := a.acks ++
        [(ack, .err (.badGateway "upload EOS waiters overflow"))] })
    else
      let r' := { r with eosWaiters := r.eosWaiters ++ [(maxSeq, ack)] }
      (false, { a with phase := .reordering r' })
  | .draining ws => (false, { a with phase := .draining (ws ++ [ack]) })
  | .closed =>
    (true, { a with acks := a.acks ++ [(ack, .err (.badGateway "upload actor closed"))] })

/-- The EOS channels the phase still holds. -/
def UploadPhase.stored : UploadPhase → List Ack
  | .reordering r => r.eosWaiters.map Prod.snd
  | .draining ws => ws
  | .closed => []

/-- `ack_all_waiters`: whatever is still stored is answered with an error. -/
def ackAllWaiters (a : UploadActor) : UploadActor :=
  { a with
    phase := .closed
    acks := a.acks ++ a.phase.stored.map fun ack =>
      (ack, .err (.gatewayTimeout "upload drain timeout")) }

/-- `dispatch` at instant `now`. -/
def dispatch (a : UploadActor) (now : Nat) : UploadCmd → Bool × UploadActor
  | .shutdown => (true, shutdownAndDrain { a with lastActivity := now })
  | .frame seq data => handleFrame writeOk { a with lastActivity := now } seq data
  | .eos maxSeq ack => handleEos { a with lastActivity := now } maxSeq ack

/-! ## The `run` loop -/

inductive Event where
  /-- `rx.recv()` yields a command at instant `now`. -/
  | recv (now : Nat) (cmd : UploadCmd)
  /-- `rx.recv()` yields `None`. -/
  | closed
  /-- `sleep_until(idle_deadline)` completes at instant `now`. -/
  | timeout (now : Nat)
  deriving DecidableEq, Repr

/-- `has_pending`: the reorder timeout is armed. -/
def hasPending (a : UploadActor) : Bool :=
  match a.phase with
  | .reordering r => !r.pending.entries.isEmpty || !r.eosWaiters.isEmpty
  | _ => false

/-- Leaving the loop: `ack_all_waiters`, and `run` returns. -/
def finish (a : UploadActor) : UploadActor := { ackAllWaiters a with done := true }

/-- One turn of the `select!`. -/
def step (a : UploadActor) : Event → Option UploadActor
  | .recv now cmd =>
    if a.done then none
    else match dispatch writeOk a now cmd with
      | (true, a') => some (finish a')
      | (false, a') => some a'
  | .closed => if a.done then none else some (finish (shutdownAndDrain a))
  | .timeout now =>
    if a.done ∨ ¬ hasPending a ∨ now < a.lastActivity + 1000 * MAX_REORDER_SECS then none
    else some (finish (shutdownAndDrain a))

/-! ## What an observer reads off a run -/

/-- The payloads of the `write_run` calls that returned `true`, in order. -/
def written (a : UploadActor) : List Bytes := (a.writes.filter Prod.snd).flatMap Prod.fst

/-- The `Frame` commands among the events, in order of arrival. -/
def framesOf (es : List Event) : List (UInt64 × Bytes) :=
  es.filterMap fun
    | .recv _ (.frame seq data) => some (seq, data)
    | _ => none

/-- The `Eos` commands among the events, in order of arrival. -/
def eosOf (es : List Event) : List (UInt64 × Ack) :=
  es.filterMap fun
    | .recv _ (.eos maxSeq ack) => some (maxSeq, ack)
    | _ => none

end Httproxy.Upload
