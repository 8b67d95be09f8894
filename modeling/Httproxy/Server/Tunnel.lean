/-
  The server's tunnel actor (`src/server/actor/tunnel.rs`) with the segments it hands out.

  A tunnel's download direction is ONE shaper over the upstream connection.  In segmented mode
  (`max_download_bytes` set) the client reads it through a chain of HTTP responses: each response
  body is a `Segment` that takes the shaper out of the shared slot, emits frames until the byte
  limit, and on being dropped puts the shaper back.  The next `Continue` command then gets the next
  segment.

  1. **State** — `TunnelState`: the fields of `TunnelActor`, the content of the shared slot, the live
     segments, the done channel, the timers, and the LOGS an observer sees (`answers`, `finished`,
     and the times of uploads, downloads and commands).

  2. **Program** — `pollNext`/`release` (the segment), `takeSegment`, `servePendingContinue`,
     `dispatchCmd`, `cleanup`, and `step`: one turn of the `select!` in `run`, or one action of a
     segment, which lives in another task.

  3. **Environment** — WHO is ready when is up to the event list.  Branches of the `select!` are
     not disabled by an earlier ready branch: `biased` only orders the polls, and a notification
     may land between two of them.  Dropping a segment is two actions (`release` into the slot,
     then `notify`), with anything in between.

  A reply channel is looked at ONCE by the actor: with `is_closed` and then `send`, in
  `dispatch_cmd` or in `serve_pending_continue`.  `Receiver` is what the actor finds at that time:
  still there, already dropped, or dropped between the two calls (`lost`).

  Time is the value of `now_secs()`, in whole seconds; only `tick` advances it.
-/
import Httproxy.Lib.Bytes
import Httproxy.Lib.Machine

namespace Httproxy.Tunnel

open Machine

/-! ## Constants (`src/server/constants.rs`) -/

def STREAM_IDLE_TIMEOUT_SECS : Nat := 120
def ROTATION_STALENESS : Nat := 10
def SEGMENT_DONE_CHANNEL_CAPACITY : Nat := 2

/-! ## Data -/

inductive Phase where
  | connecting
  | active
  | rotating
  | draining
  | closed
  deriving DecidableEq, Repr

/-- An item of the shaper's stream, `Result<(u64, Bytes)>` without the ignored number. -/
inductive Item where
  | frame (data : Bytes)
  | err
  deriving DecidableEq, Repr

/-- The shaper, as the items it will still yield; the empty list is EOF. -/
abbrev Shaper := List Item

inductive Receiver where
  | open
  | closed
  | lost
  deriving DecidableEq, Repr

/-- A `oneshot::Sender<Option<SegmentStream>>`. -/
structure Reply where
  id : Nat
  receiver : Receiver
  deriving DecidableEq, Repr

/-- What is sent on a reply: `Some(segment)` or `None`. -/
inductive Answer where
  | segment
  | none
  deriving DecidableEq, Repr

inductive TunnelCmd where
  | continue (reply : Reply)
  | shutdown
  deriving DecidableEq, Repr

structure Segment where
  shaper : Option Shaper
  sent : UInt64
  maxBytes : Option UInt64
  pauseOnDrop : Bool
  ended : Bool
  /-- Log: the frames emitted, which make up the response body. -/
  body : List Bytes
  deriving DecidableEq, Repr

/-- Why `run` left its loop. -/
inductive Exit where
  | shutdown
  | cmdClosed
  | staleness
  | signal
  | idle
  | drained
  deriving DecidableEq, Repr

structure TunnelState where
  phase : Phase
  /-- `shaper_slot.is_some()`. -/
  shaperSlot : Bool
  /-- The content of the mutex that `shaper_slot` and the segments share. -/
  slot : Option Shaper
  segmentActive : Bool
  pendingContinue : List Reply
  /-- Notifications in `segment_done_rx`. -/
  doneQueue : Nat
  cancelled : Bool
  maxDownloadBytes : Option UInt64
  lastActivity : Nat
  rotationDeadline : Nat
  idleDeadline : Nat
  clock : Nat
  /-- The segments in the hands of a response. -/
  segments : List Segment
  /-- Segments that are being dropped: released, and about to notify. -/
  dropping : Nat
  /-- `run` has left its loop. -/
  left : Option Exit
  /-- Log: the body of every released segment, and whether it put the shaper back. -/
  finished : List (List Bytes × Bool)
  /-- Log: every answer sent. -/
  answers : List (Reply × Answer)
  /-- Logs: when an upload frame was accepted, a download frame emitted, a command received. -/
  uploads : List Nat
  downloads : List Nat
  commands : List Nat
  deriving DecidableEq, Repr

/-! ## The segment -/

inductive PollResult where
  | pending
  | eof
  | item (i : Item)
  deriving DecidableEq, Repr

/-- `max_bytes.is_some_and(|m| sent >= m)`. -/
def limitReached (maxBytes : Option UInt64) (sent : UInt64) : Bool :=
  maxBytes.any fun m => decide (sent ≥ m)

/-- `Segment::poll_next`; `ready` says whether the shaper has its next item ready. -/
def pollNext (cancelled ready : Bool) (g : Segment) : PollResult × Segment :=
  if g.ended then (.eof, g)
  else if cancelled then (.eof, { g with ended := true })
  else match g.shaper with
    | none => (.eof, { g with ended := true })
    | some shaper =>
      if !ready then (.pending, g)
      else match shaper with
        | .frame data :: rest =>
          let sent := g.sent + UInt64.ofNat data.length
          let full := limitReached g.maxBytes sent
          (.item (.frame data), { g with
            shaper := some rest, sent
            pauseOnDrop := g.pauseOnDrop || full
            ended := full
            body := g.body ++ [data] })
        | .err :: rest => (.item .err, { g with shaper := some rest, ended := true })
        | [] => (.eof, { g with ended := true })

/-- The segment puts the shaper back when it is dropped. -/
def Segment.parks (g : Segment) : Bool := g.shaper.isSome && g.pauseOnDrop

/-- `Segment::release`. -/
def release (g : Segment) (t : TunnelState) : TunnelState :=
  { t with
    slot := if g.parks then g.shaper else t.slot
    finished := t.finished ++ [(g.body, g.parks)] }

/-- `done_tx.try_send(())`: dropped when the channel is full. -/
def notifyDone (t : TunnelState) : TunnelState :=
  if t.doneQueue < SEGMENT_DONE_CHANNEL_CAPACITY then { t with doneQueue := t.doneQueue + 1 } else t

/-! ## The actor -/

/-- `Segment::new` on the shaper taken out of the slot. -/
def Segment.new (shaper : Shaper) (maxBytes : Option UInt64) : Segment where
  shaper := some shaper
  sent := 0
  maxBytes := maxBytes
  pauseOnDrop := false
  ended := false
  body := []

/-- `take_segment`. -/
def takeSegment (t : TunnelState) : Option (Segment × TunnelState) :=
  if t.shaperSlot then
    t.slot.map fun shaper =>
      (Segment.new shaper t.maxDownloadBytes, { t with slot := none, segmentActive := true })
  else none

/-- `reply.send(None)`; whether anyone still listens makes no difference to the actor. -/
def sendNone (reply : Reply) (t : TunnelState) : TunnelState :=
  { t with answers := t.answers ++ [(reply, .none)] }

/-- `reply.send(Some(segment))`.  If the receiver is gone the segment comes back in the error and
    is dropped on the spot. -/
def sendSegment (reply : Reply) (g : Segment) (t : TunnelState) : TunnelState :=
  let t' := { t with answers := t.answers ++ [(reply, .segment)] }
  match reply.receiver with
  | .open => { t' with segments := t'.segments ++ [g] }
  | .closed | .lost => notifyDone (release g t')

/-- `shaper_alive`. -/
def shaperAlive (t : TunnelState) : Bool := t.shaperSlot && t.slot.isSome

/-- The body of the loop in `serve_pending_continue`. -/
def serveReply (alive : Bool) (reply : Reply) (t : TunnelState) : TunnelState :=
  if !alive then sendNone reply t
  else if reply.receiver = .closed then t
  else match takeSegment t with
    | some (g, t') => sendSegment reply g { t' with phase := .active }
    | none => sendNone reply { t with phase := .draining }

/-- `serve_pending_continue`, over the replies taken out of `pending_continue`. -/
def servePendingContinue (alive : Bool) : List Reply → TunnelState → TunnelState
  | [], t => t
  | reply :: pending, t => servePendingContinue alive pending (serveReply alive reply t)

/-- `dispatch_cmd` on a `Continue`. -/
def dispatchContinue (reply : Reply) (t : TunnelState) : TunnelState :=
  if t.phase = .rotating then
    let t := { t with phase := .active }
    if reply.receiver = .closed then t
    else match takeSegment t with
      | some (g, t') => sendSegment reply g t'
      | none => sendNone reply { t with phase := .draining }
  else if t.phase = .active ∧ t.segmentActive then
    { t with pendingContinue := t.pendingContinue ++ [reply] }
  else sendNone reply t

/-- Leaving the loop: `cleanup`, after which the actor and the replies it still holds are dropped. -/
def cleanup (why : Exit) (t : TunnelState) : TunnelState :=
  { t with
    phase := .closed
    cancelled := true
    slot := if t.shaperSlot then none else t.slot
    shaperSlot := false
    left := some why }

/-- The test at the bottom of the loop. -/
def endTurn (t : TunnelState) : TunnelState :=
  if t.phase = .closed ∨ t.phase = .draining then cleanup .drained t else t

/-- The branch of a received done notification. -/
def segmentDone (t : TunnelState) : TunnelState :=
  let t := { t with doneQueue := t.doneQueue - 1, segmentActive := false }
  let alive := shaperAlive t
  let t := if alive then
      { t with phase := .rotating, rotationDeadline := t.clock + ROTATION_STALENESS }
    else { t with phase := .draining }
  servePendingContinue alive t.pendingContinue { t with pendingContinue := [] }

/-- `last_activity.store(now_secs())` on receiving from the command channel. -/
def noteCommand (t : TunnelState) : TunnelState :=
  { t with lastActivity := t.clock, commands := t.commands ++ [t.clock] }

/-- The branch of a received command. -/
def command (cmd : TunnelCmd) (t : TunnelState) : TunnelState :=
  match cmd with
  | .shutdown => cleanup .shutdown (noteCommand t)
  | .continue reply => endTurn (dispatchContinue reply (noteCommand t))

/-- The branch of `idle_sleep`. -/
def idleExpired (t : TunnelState) : TunnelState :=
  let idleSecs := t.clock - t.lastActivity
  if idleSecs ≥ STREAM_IDLE_TIMEOUT_SECS then cleanup .idle t
  else { t with idleDeadline := t.clock + (STREAM_IDLE_TIMEOUT_SECS - idleSecs) }

/-- `activity.store(now_secs())` on emitting a frame. -/
def noteDownload (t : TunnelState) : TunnelState :=
  { t with lastActivity := t.clock, downloads := t.downloads ++ [t.clock] }

/-- A response polls its segment. -/
def pollSegment (ready : Bool) (i : Nat) (g : Segment) (t : TunnelState) : TunnelState :=
  let r := pollNext t.cancelled ready g
  let t := { t with segments := t.segments.set i r.2 }
  match r.1 with
  | .item (.frame _) => noteDownload t
  | _ => t

/-! ## The system -/

inductive Event where
  /-- Time passes. -/
  | tick (secs : Nat)
  /-- `select!`: `segment_done_rx.recv()` (never `None`: the actor holds a sender itself). -/
  | segmentDone
  /-- `select!`: `rx.recv()` yields a command. -/
  | cmd (c : TunnelCmd)
  /-- `select!`: `rx.recv()` yields `None`. -/
  | cmdClosed
  /-- `select!`: `rotation_timeout`. -/
  | rotationTimeout
  /-- `select!`: `shutdown_signal.notified()`. -/
  | shutdownSignal
  /-- `select!`: `idle_sleep`. -/
  | idleSleep
  /-- The response that owns the `i`-th segment polls it. -/
  | poll (i : Nat) (ready : Bool)
  /-- The `i`-th segment is dropped: `release`. -/
  | release (i : Nat)
  /-- A released segment sends its done notification. -/
  | notify
  /-- The direct-mode stream yields an item. -/
  | direct (ok : Bool)
  /-- A POST hands an upload frame to `upload_tx` (`dispatch_to_actor`). -/
  | upload
  deriving DecidableEq, Repr

/-- One turn of the loop of `run`, guarded by `run` not having left it. -/
def turn (t t' : TunnelState) : Option TunnelState := if t.left = none then some t' else none

def step (t : TunnelState) : Event → Option TunnelState
  | .tick secs => some { t with clock := t.clock + secs }
  | .segmentDone => if t.doneQueue = 0 then none else turn t (endTurn (segmentDone t))
  | .cmd c => turn t (command c t)
  | .cmdClosed => turn t (cleanup .cmdClosed (noteCommand t))
  | .rotationTimeout =>
    if t.phase = .rotating ∧ t.rotationDeadline ≤ t.clock then turn t (cleanup .staleness t)
    else none
  | .shutdownSignal => turn t (cleanup .signal t)
  | .idleSleep => if t.idleDeadline ≤ t.clock then turn t (idleExpired t) else none
  | .poll i ready => t.segments[i]?.map fun g => pollSegment ready i g t
  | .release i => t.segments[i]?.map fun g =>
      release g { t with segments := t.segments.eraseIdx i, dropping := t.dropping + 1 }
  | .notify =>
    if t.dropping = 0 then none else some (notifyDone { t with dropping := t.dropping - 1 })
  | .direct ok =>
    if t.maxDownloadBytes = none then some (if ok then noteDownload t else t) else none
  | .upload => some { t with uploads := t.uploads ++ [t.clock] }

/-! ## Where a run starts -/

/-- What `setup_tunnel_response` did before it spawned `run`: the activity clock was set at
    `opened`, the frames of the opening request were accepted at `accepted`, and `run` starts at
    `began`. -/
structure Setup where
  maxDownloadBytes : Option UInt64
  shaper : Shaper
  opened : Nat
  began : Nat
  accepted : List Nat
  opened_le : opened ≤ began
  accepted_le : ∀ u ∈ accepted, u ≤ began

/-- `TunnelActor::new`. -/
def new (u : Setup) : TunnelState where
  phase := .connecting
  shaperSlot := false
  slot := none
  segmentActive := false
  pendingContinue := []
  doneQueue := 0
  cancelled := false
  maxDownloadBytes := u.maxDownloadBytes
  lastActivity := u.opened
  rotationDeadline := u.began + ROTATION_STALENESS
  idleDeadline := u.began + STREAM_IDLE_TIMEOUT_SECS
  clock := u.began
  segments := []
  dropping := 0
  left := none
  finished := []
  answers := []
  uploads := u.accepted
  downloads := []
  commands := []

/-- `on_upstream_connected`. -/
def onUpstreamConnected (shaper : Shaper) (t : TunnelState) : TunnelState :=
  { t with shaperSlot := true, slot := some shaper, phase := .active }

/-- The tunnel as `run` finds it: in direct mode the response streams the shaper itself, in
    segmented mode it holds the first segment. -/
def start (u : Setup) : TunnelState :=
  match u.maxDownloadBytes with
  | none => new u
  | some _ =>
    match takeSegment (onUpstreamConnected u.shaper (new u)) with
    | none => new u
    | some (g, t) => { t with segments := [g] }

/-- What `run` finds in segmented mode, written out. -/
theorem start_segmented {u : Setup} {m : UInt64} (hm : u.maxDownloadBytes = some m) :
    start u = { new u with
      phase := .active, shaperSlot := true, segmentActive := true
      segments := [Segment.new u.shaper (some m)] } := by
  unfold start
  rw [hm]
  simp [takeSegment, onUpstreamConnected, new, hm]

/-! ## What a step can do -/

/-- `Turn t e t'` — the event `e` can happen in `t` and leads to `t'`. -/
inductive Turn (t : TunnelState) : Event → TunnelState → Prop where
  | tick (secs : Nat) : Turn t (.tick secs) { t with clock := t.clock + secs }
  | segmentDone (hl : t.left = none) (hd : t.doneQueue ≠ 0) :
      Turn t .segmentDone (endTurn (segmentDone t))
  | shutdown (hl : t.left = none) : Turn t (.cmd .shutdown) (cleanup .shutdown (noteCommand t))
  | cont (hl : t.left = none) (reply : Reply) :
      Turn t (.cmd (.continue reply)) (endTurn (dispatchContinue reply (noteCommand t)))
  | cmdClosed (hl : t.left = none) : Turn t .cmdClosed (cleanup .cmdClosed (noteCommand t))
  | rotationTimeout (hl : t.left = none) (hp : t.phase = .rotating)
      (hd : t.rotationDeadline ≤ t.clock) : Turn t .rotationTimeout (cleanup .staleness t)
  | shutdownSignal (hl : t.left = none) : Turn t .shutdownSignal (cleanup .signal t)
  | idleExit (hl : t.left = none) (hd : t.idleDeadline ≤ t.clock)
      (hi : t.clock - t.lastActivity ≥ STREAM_IDLE_TIMEOUT_SECS) :
      Turn t .idleSleep (cleanup .idle t)
  | idleReset (hl : t.left = none) (hd : t.idleDeadline ≤ t.clock)
      (hi : t.clock - t.lastActivity < STREAM_IDLE_TIMEOUT_SECS) :
      Turn t .idleSleep { t with
        idleDeadline := t.clock + (STREAM_IDLE_TIMEOUT_SECS - (t.clock - t.lastActivity)) }
  | pollFrame {i : Nat} {g g' : Segment} {data : Bytes} (ready : Bool)
      (hg : t.segments[i]? = some g)
      (hp : pollNext t.cancelled ready g = (.item (.frame data), g')) :
      Turn t (.poll i ready) (noteDownload { t with segments := t.segments.set i g' })
  | pollOther {i : Nat} {g g' : Segment} {r : PollResult} (ready : Bool)
      (hg : t.segments[i]? = some g) (hp : pollNext t.cancelled ready g = (r, g'))
      (hr : ∀ data, r ≠ .item (.frame data)) :
      Turn t (.poll i ready) { t with segments := t.segments.set i g' }
  | release {i : Nat} {g : Segment} (hg : t.segments[i]? = some g) :
      Turn t (.release i)
        (release g { t with segments := t.segments.eraseIdx i, dropping := t.dropping + 1 })
  | notify (hd : t.dropping ≠ 0) :
      Turn t .notify (notifyDone { t with dropping := t.dropping - 1 })
  | directFrame (hm : t.maxDownloadBytes = none) : Turn t (.direct true) (noteDownload t)
  | directErr (hm : t.maxDownloadBytes = none) : Turn t (.direct false) t
  | upload : Turn t .upload { t with uploads := t.uploads ++ [t.clock] }

theorem turn_eq_some {t t' s : TunnelState} : turn t t' = some s ↔ t.left = none ∧ t' = s := by
  unfold turn
  split <;> simp_all

/-- **Inversion.**  Every proof about a step goes through this lemma. -/
theorem step_turn {t t' : TunnelState} {e : Event} (h : step t e = some t') : Turn t e t' := by
  cases e with
  | tick secs =>
    obtain rfl : _ = t' := Option.some.inj h
    exact .tick secs
  | segmentDone =>
    simp only [step] at h
    split at h
    · cases h
    · rename_i hd
      obtain ⟨hl, rfl⟩ := turn_eq_some.mp h
      exact .segmentDone hl hd
  | cmd c =>
    obtain ⟨hl, rfl⟩ := turn_eq_some.mp h
    cases c with
    | shutdown => exact .shutdown hl
    | «continue» reply => exact .cont hl reply
  | cmdClosed =>
    obtain ⟨hl, rfl⟩ := turn_eq_some.mp h
    exact .cmdClosed hl
  | rotationTimeout =>
    simp only [step] at h
    split at h
    · rename_i hc
      obtain ⟨hl, rfl⟩ := turn_eq_some.mp h
      exact .rotationTimeout hl hc.1 hc.2
    · cases h
  | shutdownSignal =>
    obtain ⟨hl, rfl⟩ := turn_eq_some.mp h
    exact .shutdownSignal hl
  | idleSleep =>
    simp only [step] at h
    split at h
    · rename_i hd
      obtain ⟨hl, rfl⟩ := turn_eq_some.mp h
      unfold idleExpired
      by_cases hi : t.clock - t.lastActivity ≥ STREAM_IDLE_TIMEOUT_SECS
      · rw [if_pos hi]
        exact .idleExit hl hd hi
      · rw [if_neg hi]
        exact .idleReset hl hd (Nat.lt_of_not_le hi)
    · cases h
  | poll i ready =>
    obtain ⟨g, hg, rfl⟩ := Option.map_eq_some_iff.mp h
    rcases hp : pollNext t.cancelled ready g with ⟨r, g'⟩
    unfold pollSegment
    rw [hp]
    dsimp only
    split
    · exact .pollFrame ready hg hp
    · rename_i hr
      exact .pollOther ready hg hp (fun data hd => hr data hd)
  | release i =>
    obtain ⟨g, hg, rfl⟩ := Option.map_eq_some_iff.mp h
    exact .release hg
  | notify =>
    simp only [step] at h
    split at h
    · cases h
    · rename_i hd
      obtain rfl : _ = t' := Option.some.inj h
      exact .notify hd
  | direct ok =>
    simp only [step] at h
    split at h
    · rename_i hm
      obtain rfl : _ = t' := Option.some.inj h
      cases ok with
      | true => exact .directFrame hm
      | false => exact .directErr hm
    · cases h
  | upload =>
    obtain rfl : _ = t' := Option.some.inj h
    exact .upload

@[simp] theorem notifyDone_left (t : TunnelState) : (notifyDone t).left = t.left := by
  unfold notifyDone
  split <;> rfl

/-- A run that is in its loop after a step was in it before. -/
theorem left_turn {t t' : TunnelState} {e : Event} (h : Turn t e t') (hl : t'.left = none) :
    t.left = none := by
  cases h <;> first | assumption | exact hl | simpa using hl

end Httproxy.Tunnel
