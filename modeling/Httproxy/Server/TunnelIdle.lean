/-
  The idle timeout: which traffic keeps a tunnel open.

  `last_activity` is one clock shared by the segment stream, the direct-mode stream and the command
  loop.  Uploads travel through `upload_tx` to the upload actor and do NOT touch it, so a tunnel
  that only uploads is closed under its user after `STREAM_IDLE_TIMEOUT_SECS`.

  1. **The clock (`Clocked`)** — in every reachable state, of either mode, `last_activity` is the
     time of the latest download frame or command, or of the opening of the tunnel if there was
     none; and `idle_sleep` is never due before a whole timeout has passed since `run` began.

  2. **The exact condition (`idle_exit_iff`)** — at every expiry of `idle_sleep`: the tunnel is
     closed only when idle in BOTH directions, iff no upload of the last
     `STREAM_IDLE_TIMEOUT_SECS` seconds goes unaccompanied by a download frame or a command.
-/
import Httproxy.Server.TunnelReplies

namespace Httproxy.Tunnel

open Machine

/-! ## The activity clock -/

/-- Something in the log happened during the last `STREAM_IDLE_TIMEOUT_SECS` seconds. -/
def Recent (t : TunnelState) (log : List Nat) : Prop :=
  ∃ x ∈ log, t.clock < x + STREAM_IDLE_TIMEOUT_SECS

/-- What refreshes `last_activity`. -/
def noted (t : TunnelState) : List Nat := t.downloads ++ t.commands

structure Clocked (u : Setup) (t : TunnelState) : Prop where
  latest : ∀ x ∈ noted t, x ≤ t.lastActivity
  last : t.lastActivity = u.opened ∨ t.lastActivity ∈ noted t
  past : t.lastActivity ≤ t.clock
  due : u.began + STREAM_IDLE_TIMEOUT_SECS ≤ t.idleDeadline

/-- A turn that refreshes the clock. -/
theorem Clocked.touch {u : Setup} {t t' : TunnelState} (h : Clocked u t)
    (ha : t'.lastActivity = t.clock) (hc : t'.clock = t.clock)
    (hi : t'.idleDeadline = t.idleDeadline)
    (hn : ∀ x, x ∈ noted t' ↔ x ∈ noted t ∨ x = t.clock) : Clocked u t' := by
  refine ⟨?_, .inr ((hn _).mpr (.inr ha)), ?_, hi ▸ h.due⟩
  · intro x hx
    rw [ha]
    rcases (hn x).mp hx with hx | rfl
    · exact Nat.le_trans (h.latest x hx) h.past
    · exact Nat.le_refl _
  · exact Nat.le_of_eq (ha.trans hc.symm)

theorem clocked_noteDownload {u : Setup} {t : TunnelState} (h : Clocked u t) :
    Clocked u (noteDownload t) := by
  refine h.touch rfl rfl rfl ?_
  intro x
  simp only [noted, noteDownload, List.mem_append, List.mem_singleton]
  tauto

theorem clocked_noteCommand {u : Setup} {t : TunnelState} (h : Clocked u t) :
    Clocked u (noteCommand t) := by
  refine h.touch rfl rfl rfl ?_
  intro x
  simp only [noted, noteCommand, List.mem_append, List.mem_singleton]
  tauto

/-! ## What does not touch the clock -/

/-- The part of the state that the idle timeout reads. -/
def timing (t : TunnelState) : Nat × Nat × Nat × List Nat × List Nat :=
  (t.lastActivity, t.clock, t.idleDeadline, t.downloads, t.commands)

theorem Clocked.frame {u : Setup} {t t' : TunnelState} (h : Clocked u t)
    (ht : timing t' = timing t) : Clocked u t' := by
  simp only [timing, Prod.mk.injEq] at ht
  obtain ⟨ha, hc, hi, hd, hm⟩ := ht
  have hn : noted t' = noted t := by rw [noted, noted, hd, hm]
  exact ⟨by rw [ha, hn]; exact h.latest, by rw [ha, hn]; exact h.last,
    by rw [ha, hc]; exact h.past, by rw [hi]; exact h.due⟩

@[simp] theorem timing_notifyDone (t : TunnelState) : timing (notifyDone t) = timing t := by
  unfold notifyDone
  split <;> rfl

@[simp] theorem timing_sendSegment (r : Reply) (g : Segment) (t : TunnelState) :
    timing (sendSegment r g t) = timing t := by
  unfold sendSegment
  cases r.receiver <;> simp <;> rfl

theorem timing_takeSegment {t t' : TunnelState} {g : Segment}
    (h : takeSegment t = some (g, t')) : timing t' = timing t := by
  unfold takeSegment at h
  split at h
  · obtain ⟨shaper, -, heq⟩ := Option.map_eq_some_iff.mp h
    obtain ⟨-, rfl⟩ := Prod.mk.inj heq
    rfl
  · cases h

theorem timing_serveReply (alive : Bool) (r : Reply) (t : TunnelState) :
    timing (serveReply alive r t) = timing t := by
  unfold serveReply
  split
  · rfl
  split
  · rfl
  split
  · rename_i g t' h
    rw [timing_sendSegment]
    exact (show timing t' = timing t from timing_takeSegment h)
  · rfl

theorem timing_servePending (alive : Bool) (rs : List Reply) (t : TunnelState) :
    timing (servePendingContinue alive rs t) = timing t := by
  induction rs generalizing t with
  | nil => rfl
  | cons r rs ih => rw [servePendingContinue, ih, timing_serveReply]

theorem timing_segmentDone (t : TunnelState) : timing (segmentDone t) = timing t := by
  unfold segmentDone
  rw [timing_servePending]
  dsimp only
  split <;> rfl

theorem timing_dispatchContinue (r : Reply) (t : TunnelState) :
    timing (dispatchContinue r t) = timing t := by
  unfold dispatchContinue
  split
  · dsimp only
    split
    · rfl
    split
    · rename_i g t' h
      rw [timing_sendSegment, timing_takeSegment h]
      rfl
    · rfl
  split <;> rfl

@[simp] theorem timing_endTurn (t : TunnelState) : timing (endTurn t) = timing t := by
  unfold endTurn
  split <;> rfl

/-! ## Every reachable state -/

theorem clocked_turn {u : Setup} {t t' : TunnelState} {e : Event} (h : Clocked u t)
    (ht : Turn t e t') : Clocked u t' := by
  cases ht with
  | tick secs => exact ⟨h.latest, h.last, Nat.le_trans h.past (Nat.le_add_right ..), h.due⟩
  | segmentDone => exact h.frame (by rw [timing_endTurn, timing_segmentDone])
  | cont _ r =>
    exact (clocked_noteCommand h).frame (by rw [timing_endTurn, timing_dispatchContinue])
  | shutdown | cmdClosed => exact (clocked_noteCommand h).frame rfl
  | idleReset hl hd hi =>
    refine ⟨h.latest, h.last, h.past, ?_⟩
    have hdue := h.due
    show _ ≤ t.clock + _
    omega
  | pollFrame =>
    refine clocked_noteDownload ?_
    exact h.frame rfl
  | directFrame => exact clocked_noteDownload h
  | notify => exact h.frame (by rw [timing_notifyDone]; rfl)
  | rotationTimeout | shutdownSignal | idleExit | pollOther | release | directErr | upload =>
    exact h.frame rfl

theorem clocked_start (u : Setup) : Clocked u (start u) := by
  have hnew : Clocked u (new u) :=
    ⟨fun x hx => (nomatch hx), .inl rfl, u.opened_le, Nat.le_refl _⟩
  cases hm : u.maxDownloadBytes with
  | none =>
    have heq : start u = new u := by
      unfold start
      rw [hm]
    rw [heq]
    exact hnew
  | some m =>
    rw [start_segmented hm]
    exact hnew.frame rfl

theorem clocked_run {u : Setup} {es : List Event} {t : TunnelState}
    (hrun : run step (start u) es = some t) : Clocked u t :=
  run_invariant (P := Clocked u) (fun _ _ _ hP hstep => clocked_turn hP (step_turn hstep))
    es (start u) t (clocked_start u) hrun

/-- **When the idle timeout is right.**  In every run and at every expiry of `idle_sleep`: the
    tunnel is closed only if neither an upload frame was accepted nor a download frame emitted
    during the last `STREAM_IDLE_TIMEOUT_SECS` seconds, IFF a recent upload, if there is one, is
    accompanied by a recent download frame or command. -/
theorem idle_exit_iff {u : Setup} (es : List Event) {t t' : TunnelState}
    (hrun : run step (start u) es = some t) (hstep : step t .idleSleep = some t') :
    (t'.left = some .idle → ¬ Recent t t.uploads ∧ ¬ Recent t t.downloads) ↔
      (Recent t t.uploads → Recent t (t.downloads ++ t.commands)) := by
  have h := clocked_run hrun
  cases step_turn hstep with
  | idleExit hl hd hi =>
    -- the clock is old, so nothing that refreshes it is recent
    have hold : ¬ Recent t (noted t) := by
      rintro ⟨x, hx, hlt⟩
      have hx' := h.latest x hx
      have hpast := h.past
      omega
    have hdown : ¬ Recent t t.downloads :=
      fun ⟨x, hx, hlt⟩ => hold ⟨x, List.mem_append_left _ hx, hlt⟩
    constructor
    · intro hex hup
      exact absurd hup (hex rfl).1
    · intro hcond _
      exact ⟨fun hup => hold (hcond hup), hdown⟩
  | idleReset hl hd hi =>
    -- the clock is recent, and it is not the opening of the tunnel that made it so
    have hnew : Recent t (noted t) := by
      have hdue := h.due
      have hop := u.opened_le
      rcases h.last with hlast | hlast
      · omega
      · exact ⟨_, hlast, by omega⟩
    constructor
    · intro _ _
      exact hnew
    · intro _ hex
      have hleft : t.left = some Exit.idle := hex
      rw [hl] at hleft
      cases hleft

/-- An upload at second 100 and a download frame with it: the timeout at second 120 is deferred. -/
theorem idle_exit_iff_demo :
    ∃ t t', run step (start demoSetup) [.tick 100, .upload, .poll 0 true, .tick 20] = some t ∧
      step t .idleSleep = some t' ∧ t'.left = none ∧
      ((t'.left = some .idle → ¬ Recent t t.uploads ∧ ¬ Recent t t.downloads) ↔
        (Recent t t.uploads → Recent t (t.downloads ++ t.commands))) :=
  ⟨_, _, rfl, rfl, rfl, idle_exit_iff (u := demoSetup)
    [.tick 100, .upload, .poll 0 true, .tick 20] rfl rfl⟩

/-- **The defect.**  A tunnel that uploads at second 100 and downloads nothing is closed as idle at
    second 120. -/
theorem uploading_tunnel_closed_as_idle :
    ∃ t t', run step (start demoSetup) [.tick 100, .upload, .tick 20] = some t ∧
      step t .idleSleep = some t' ∧ t'.left = some .idle ∧ t.clock = 120 ∧ t.uploads = [100] ∧
      Recent t t.uploads :=
  ⟨_, _, rfl, rfl, rfl, rfl, rfl, 100, List.mem_cons_self, by decide⟩

end Httproxy.Tunnel
