/-
  What the shaper does when its reader fails (`poll_fill_and_seal` in `src/shaper/mod.rs`).

  At the END of the input what is left in `raw_buf` is sealed before `Ok(None)` is returned.  On an ERROR
  of the reader the call returns at once, with whatever is in `raw_buf` still unsealed.

  1. **Program** — the model is that of the shaper; `failedWith e raw` is the log entry of a call that
     returned the reader's error `e` and left `raw` in the buffer.

  2. **The crux (`turn_cases`)** — a turn goes on only when it has read something, and it returns the
     reader's error only when the reader has just failed, and then it leaves the shaper as it was.  So a
     call that returns the error ends with an empty buffer exactly when it began with one and the
     reader's FIRST answer in it is the error.

  The theorem is `read_error_sealed_iff`, for every call in every run.
-/
import Httproxy.Shaper.Traffic

namespace Httproxy.Shaper

open Crypto Machine

/-! ## One turn -/

/-- A call that returned the error of the reader, with `raw` left in the buffer. -/
def failedWith (e : IoError) (raw : Bytes) : Returned := ⟨.ready (.error e), some (.failed e), raw⟩

section Turn

variable {key : LessSafeKey} {base122 : Base122Fast}

/-- **The turns that matter here**: the ones the loop goes on after, and the ones the reader fails in. -/
theorem turn_cases (io : Io) (s : TrafficShaper) (out : Bytes) :
    ((turn key base122 io s out).outcome = .again →
      (∃ offered, io.read = .filled offered) ∧ (turn key base122 io s out).shaper.rawBuf ≠ []) ∧
    (∀ e, (turn key base122 io s out).read.map Prod.snd = some (.failed e) →
      io.read = .failed e ∧ (turn key base122 io s out).shaper.rawBuf = s.rawBuf) := by
  -- a turn that seals ends the call, and here it has not met an error of the reader
  have hseals : ∀ (r : Served) (s' : TrafficShaper) (read : Option (Nat × Served)),
      (∀ e, read.map Prod.snd ≠ some (.failed e)) →
      ((sealTurn key base122 io.draw s' out read).outcome = .again →
        (∃ offered, r = .filled offered) ∧
          (sealTurn key base122 io.draw s' out read).shaper.rawBuf ≠ []) ∧
      (∀ e, (sealTurn key base122 io.draw s' out read).read.map Prod.snd = some (.failed e) →
        r = .failed e ∧ (sealTurn key base122 io.draw s' out read).shaper.rawBuf = s.rawBuf) := by
    intro r s' read hread
    constructor
    · intro hagain
      exact absurd hagain (sealTurn_ends _ _ _ _ _ _)
    · intro e he
      rw [sealTurn_read] at he
      exact absurd he (hread e)
  unfold turn
  dsimp only
  by_cases hfull : s.rawBuf.length ≥ s.sealThreshold
  · rw [if_pos hfull]
    exact hseals io.read s none (by rintro e ⟨⟩)
  rw [if_neg hfull]
  cases io.read with
  | filled offered =>
    dsimp only
    generalize offered.take (READ_HIGH_WATER - s.rawBuf.length) = filled
    split
    · split
      · exact ⟨by rintro ⟨⟩, by rintro e ⟨⟩⟩
      · exact hseals _ s _ (by rintro e ⟨⟩)
    · rename_i hsome
      constructor
      · intro _
        refine ⟨⟨offered, rfl⟩, ?_⟩
        intro hnil
        obtain ⟨-, rfl⟩ := List.append_eq_nil_iff.mp hnil
        exact hsome rfl
      · rintro e ⟨⟩
  | pending =>
    dsimp only
    rw [if_neg hfull]
    split
    · exact ⟨by rintro ⟨⟩, by rintro e ⟨⟩⟩
    · split
      · exact hseals _ s.arm _ (by rintro e ⟨⟩)
      · exact ⟨by rintro ⟨⟩, by rintro e ⟨⟩⟩
  | failed err =>
    constructor
    · rintro ⟨⟩
    · rintro e ⟨⟩
      exact ⟨rfl, rfl⟩

end Turn

/-! ## One call -/

section Call

variable {key : LessSafeKey} {base122 : Base122Fast}

/-- The turns of a call, from the `i`-th on: it is by induction on them, since after a turn that goes on
    the buffer is not empty any more. -/
theorem failed_iff {e : IoError} {raw : Bytes} : ∀ (ios : List Io) (p p' : Polling),
    run (step key base122) p (ios.map .turn) = some p' →
    p'.results = p.results ++ [failedWith e raw] →
    (raw = p'.shaper.rawBuf) ∧ (raw = [] ↔ p.shaper.rawBuf = [] ∧ ∃ io ∈ ios.head?, io.read = .failed e) := by
  intro ios
  induction ios with
  | nil =>
    intro p p' hrun hres
    rw [List.map_nil, run_nil, Option.some.injEq] at hrun
    subst hrun
    exact absurd (congrArg List.length hres) (by simp)
  | cons io ios ih =>
    intro p p' hrun hres
    rw [List.map_cons, run_cons, Option.bind_eq_some_iff] at hrun
    obtain ⟨m, hm, hrun⟩ := hrun
    obtain ⟨out, hcall, rfl⟩ := Option.map_eq_some_iff.mp hm
    obtain ⟨hagain, hfailed⟩ := @turn_cases key base122 io p.shaper out
    generalize turn key base122 io p.shaper out = t at *
    dsimp only at hrun
    by_cases hgoes : t.outcome = .again
    · -- the call goes on, with something in the buffer
      obtain ⟨⟨offered, hoffered⟩, hne⟩ := hagain hgoes
      have hnone : t.results = [] := by rw [Turned.results, hgoes]
      rw [hnone, List.append_nil] at hrun
      obtain ⟨hraw, hiff⟩ := ih _ p' hrun hres
      refine ⟨hraw, ?_⟩
      constructor
      · intro hnil
        exact absurd (hiff.mp hnil).1 hne
      · rintro ⟨-, io', hio', hread⟩
        obtain rfl := Option.some.inj hio'
        exact absurd (hoffered.symm.trans hread) (by simp)
    · -- the call is over, so this was its last turn
      have hover : t.call out = none := by
        unfold Turned.call
        split
        · rename_i hgoes'
          exact absurd hgoes' hgoes
        · rfl
      have hone : t.results = [⟨t.outcome, t.read.map Prod.snd, t.shaper.rawBuf⟩] := by
        unfold Turned.results
        split
        · rename_i hgoes'
          exact absurd hgoes' hgoes
        · rfl
      cases ios with
      | cons io' ios' =>
        rw [List.map_cons, run_cons, Option.bind_eq_some_iff] at hrun
        obtain ⟨m', hm', -⟩ := hrun
        rw [step, hover] at hm'
        cases hm'
      | nil =>
        rw [List.map_nil, run_nil, Option.some.injEq] at hrun
        subst hrun
        have hlast : [(⟨t.outcome, t.read.map Prod.snd, t.shaper.rawBuf⟩ : Returned)] = [failedWith e raw] := by
          rw [← hone]
          exact List.append_cancel_left hres
        obtain ⟨-, hanswer, hraw⟩ := Returned.mk.inj (List.singleton_inj.mp hlast)
        obtain ⟨hread, hsame⟩ := hfailed e hanswer
        refine ⟨hraw.symm, ?_⟩
        rw [← hraw, hsame]
        constructor
        · intro hnil
          exact ⟨hnil, io, rfl, hread⟩
        · exact And.left

end Call

/-- **The reader's error is returned with everything sealed exactly when the call found nothing to seal
    and the error was the reader's first answer in it.**

    For every state the shaper can reach, every call from there and all that its turns are given: if the
    call returns the error of the reader, then the buffer is empty and every byte the reader has ever
    delivered is in a frame iff the buffer was empty when the call began and the reader failed before it
    delivered anything in this call. -/
theorem read_error_sealed_iff (key : LessSafeKey) (hkey : key.NeverFails) (base122 : Base122Fast)
    (config : ResolvedShaperConfig) (startSeq : UInt64) (random : Nat) (events : List Event)
    (p : Polling) (h : run (step key base122) (.new (.withSeq config startSeq random)) events = some p)
    (out : Bytes) (ios : List Io) (p' : Polling)
    (hcall : run (step key base122) p (.call out :: ios.map .turn) = some p') (e : IoError) (raw : Bytes)
    (hres : p'.results = p.results ++ [failedWith e raw]) :
    (p'.shaper.rawBuf = [] ∧ (p'.frames.map SealedFrame.data).flatten = bytesRead p'.reads) ↔
      p.shaper.rawBuf = [] ∧ ∃ io ∈ ios.head?, io.read = .failed e := by
  have hafter : run (step key base122) (.new (.withSeq config startSeq random))
      (events ++ .call out :: ios.map .turn) = some p' := by
    rw [run_append, h]
    exact hcall
  have hbytes := (conserved_run hkey hafter).bytes
  rw [run_cons, Option.bind_eq_some_iff] at hcall
  obtain ⟨m, hm, hturns⟩ := hcall
  simp only [step, Option.ite_none_right_eq_some, Option.some.injEq] at hm
  obtain ⟨-, rfl⟩ := hm
  obtain ⟨rfl, hiff⟩ := failed_iff ios _ p' hturns hres
  constructor
  · rintro ⟨hraw, -⟩
    exact hiff.mp hraw
  · intro hfirst
    have hraw := hiff.mpr hfirst
    rw [hraw, List.append_nil] at hbytes
    exact ⟨hraw, hbytes⟩

/-- `ConnectionReset` of the upstream. -/
def reset : IoError := ⟨.other, "connection reset by peer"⟩

/-- **An error swallows what has just been read.**  The reader delivers two bytes and then fails, in one
    call: the error is returned, no frame has been made, and both bytes are still in the buffer. -/
theorem read_error_swallows :
    ∃ p, run (step zeroKey publishedBase122) (.new (.withSeq demoConfig 7 0))
        [.call [], .turn ⟨.filled [1, 2], false, demoDraw⟩, .turn ⟨.failed reset, false, demoDraw⟩] = some p ∧
      p.results.map (fun r => (r.answer, r.rawBuf)) = [(some (.failed reset), [1, 2])] ∧
      p.shaper.rawBuf = [1, 2] ∧ p.frames.map SealedFrame.data = [] ∧ bytesRead p.reads = [1, 2] :=
  ⟨_, rfl, rfl, rfl, rfl, rfl⟩

/-- Two bytes, sealed when the delay is over; then the reader fails at once. -/
theorem read_error_sealed_demo :
    ∃ p p', run (step zeroKey publishedBase122) (.new (.withSeq demoConfig 7 0))
        [.call [], .turn ⟨.filled [1, 2, 3], false, demoDraw⟩, .turn ⟨.pending, true, demoDraw⟩] = some p ∧
      run (step zeroKey publishedBase122) p (.call [] :: [⟨.failed reset, false, demoDraw⟩].map .turn) =
        some p' ∧
      p'.shaper.rawBuf = [] ∧ (p'.frames.map SealedFrame.data).flatten = bytesRead p'.reads := by
  refine ⟨_, _, rfl, rfl, ?_⟩
  exact (read_error_sealed_iff zeroKey (by rintro nonce plain ⟨⟩) publishedBase122 demoConfig 7 0
    [.call [], .turn ⟨.filled [1, 2, 3], false, demoDraw⟩, .turn ⟨.pending, true, demoDraw⟩] _ rfl []
    [⟨.failed reset, false, demoDraw⟩] _ rfl reset [] rfl).mpr ⟨rfl, _, rfl, rfl⟩

end Httproxy.Shaper
