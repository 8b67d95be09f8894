/-
  Event-driven state machines: runs, invariants over runs, and guarded runs.

  An actor, a stream poller or a connection is modelled throughout as ONE partial function
  `step : σ → ε → Option σ` (`none` = the event cannot happen in this state).  A run is the
  iteration of `step` over a list of events.  This file names no program; it carries

  1. **Runs** — `run step s es`, with its `nil`/`cons`/`append`/snoc equations.
  2. **Invariants** — `run_invariant` (one-step preservation gives run preservation), `run_total` and
     `run_history`, the same rule for invariants that also speak of the events seen so far (the
     shape every "the output is a function of the input history" theorem needs).
  3. **Guarded runs** — `Meets step G s es` says that every step of the run starts in a state
     satisfying the guard `G`; `run_invariant_of_meets` is the invariant rule under a guard.

  Inductions are on the event list from the FRONT for `run_invariant` and on the list from the
  BACK (`List.reverseRecOn`) for histories, since a history grows at its end.
-/
import Mathlib

namespace Machine

variable {σ ε : Type}

/-! ## Runs -/

/-- Feed the events `es` to the machine from `s`; `none` as soon as one of them cannot happen. -/
def run (step : σ → ε → Option σ) : σ → List ε → Option σ
  | s, [] => some s
  | s, e :: es => (step s e).bind fun s' => run step s' es

@[simp] theorem run_nil (step : σ → ε → Option σ) (s : σ) : run step s [] = some s := rfl

@[simp] theorem run_cons (step : σ → ε → Option σ) (s : σ) (e : ε) (es : List ε) :
    run step s (e :: es) = (step s e).bind fun s' => run step s' es := rfl

theorem run_append (step : σ → ε → Option σ) (s : σ) (es fs : List ε) :
    run step s (es ++ fs) = (run step s es).bind fun s' => run step s' fs := by
  induction es generalizing s with
  | nil => rfl
  | cons e es ih =>
    rw [List.cons_append, run_cons, run_cons, Option.bind_assoc]
    exact congrArg _ (funext fun s' => ih s')

/-- A run that is one event longer: the inversion every history induction starts with. -/
theorem run_snoc_eq_some {step : σ → ε → Option σ} {s t : σ} {es : List ε} {e : ε} :
    run step s (es ++ [e]) = some t ↔ ∃ m, run step s es = some m ∧ step m e = some t := by
  rw [run_append, Option.bind_eq_some_iff]
  constructor
  · rintro ⟨m, hm, h⟩
    rw [run_cons, Option.bind_eq_some_iff] at h
    obtain ⟨t', ht', h⟩ := h
    exact ⟨m, hm, by rw [ht']; exact h⟩
  · rintro ⟨m, hm, h⟩
    exact ⟨m, hm, by rw [run_cons, h]; rfl⟩

/-! ## Invariants -/

/-- **The invariant rule.**  What one step preserves, a whole run preserves. -/
theorem run_invariant {step : σ → ε → Option σ} {P : σ → Prop}
    (hstep : ∀ s e t, P s → step s e = some t → P t) :
    ∀ (es : List ε) (s t : σ), P s → run step s es = some t → P t := by
  intro es
  induction es with
  | nil =>
    intro s t hs h
    rw [run_nil, Option.some.injEq] at h
    exact h ▸ hs
  | cons e es ih =>
    intro s t hs h
    rw [run_cons, Option.bind_eq_some_iff] at h
    obtain ⟨m, hm, h⟩ := h
    exact ih m t (hstep s e m hs hm) h

/-- What always has a next step and keeps it so has a whole run. -/
theorem run_total {step : σ → ε → Option σ} {P : σ → Prop}
    (hstep : ∀ s e, P s → ∃ t, step s e = some t ∧ P t) :
    ∀ (es : List ε) (s : σ), P s → ∃ t, run step s es = some t ∧ P t := by
  intro es
  induction es with
  | nil =>
    intro s hs
    exact ⟨s, rfl, hs⟩
  | cons e es ih =>
    intro s hs
    obtain ⟨m, hm, hPm⟩ := hstep s e hs
    obtain ⟨t, ht, hPt⟩ := ih m hPm
    exact ⟨t, by rw [run_cons, hm]; exact ht, hPt⟩

/-- **The history rule.**  An invariant relating the state to the list of events consumed so far
    holds after every run: it holds of the empty history, and one more event preserves it. -/
theorem run_history {step : σ → ε → Option σ} {P : List ε → σ → Prop} {s : σ} (h0 : P [] s)
    (hstep : ∀ es m e t, P es m → step m e = some t → P (es ++ [e]) t) :
    ∀ (es : List ε) (t : σ), run step s es = some t → P es t := by
  intro es
  induction es using List.reverseRecOn with
  | nil =>
    intro t h
    rw [run_nil, Option.some.injEq] at h
    exact h ▸ h0
  | append_singleton es e ih =>
    intro t h
    obtain ⟨m, hm, h⟩ := run_snoc_eq_some.mp h
    exact hstep es m e t (ih m hm) h

/-! ## Guarded runs -/

/-- Every step of the run of `es` from `s` is taken in a state and on an event satisfying `G`. -/
def Meets (step : σ → ε → Option σ) (G : σ → ε → Prop) : σ → List ε → Prop
  | _, [] => True
  | s, e :: es => G s e ∧ ∀ t, step s e = some t → Meets step G t es

/-- A guarded run can be checked by running it. -/
instance decidableMeets (step : σ → ε → Option σ) (G : σ → ε → Prop) [∀ s e, Decidable (G s e)] :
    ∀ (s : σ) (es : List ε), Decidable (Meets step G s es)
  | _, [] => isTrue trivial
  | s, e :: es =>
    match h : step s e with
    | none => decidable_of_iff (G s e)
        ⟨fun hG => ⟨hG, fun t ht => by rw [h] at ht; nomatch ht⟩, fun hM => hM.1⟩
    | some t =>
      have := decidableMeets step G t es
      decidable_of_iff (G s e ∧ Meets step G t es)
        ⟨fun hG => ⟨hG.1, fun t' ht => by
            rw [h] at ht
            obtain rfl := Option.some.inj ht
            exact hG.2⟩,
          fun hM => ⟨hM.1, hM.2 t h⟩⟩

/-- A run meets two guards when it meets each. -/
theorem Meets.and {step : σ → ε → Option σ} {G H : σ → ε → Prop} {s : σ} {es : List ε}
    (hG : Meets step G s es) (hH : Meets step H s es) :
    Meets step (fun s e => G s e ∧ H s e) s es := by
  induction es generalizing s with
  | nil => trivial
  | cons e es ih => exact ⟨⟨hG.1, hH.1⟩, fun t ht => ih (hG.2 t ht) (hH.2 t ht)⟩

/-- Some guarded run leads from `s` to `t`. -/
def Reaches (step : σ → ε → Option σ) (G : σ → ε → Prop) (s t : σ) : Prop :=
  ∃ es, run step s es = some t ∧ Meets step G s es

theorem Reaches.refl (step : σ → ε → Option σ) (G : σ → ε → Prop) (s : σ) : Reaches step G s s :=
  ⟨[], rfl, trivial⟩

theorem Reaches.head {step : σ → ε → Option σ} {G : σ → ε → Prop} {s m t : σ} {e : ε} (hG : G s e)
    (hstep : step s e = some m) (h : Reaches step G m t) : Reaches step G s t := by
  obtain ⟨es, hrun, hmeets⟩ := h
  refine ⟨e :: es, by rw [run_cons, hstep, Option.bind_some, hrun], hG, fun m' hm' => ?_⟩
  obtain rfl := Option.some.inj (hstep.symm.trans hm')
  exact hmeets

theorem Reaches.trans {step : σ → ε → Option σ} {G : σ → ε → Prop} {s m t : σ}
    (h : Reaches step G s m) (h' : Reaches step G m t) : Reaches step G s t := by
  obtain ⟨es, hrun, hmeets⟩ := h
  induction es generalizing s with
  | nil =>
    obtain rfl := Option.some.inj hrun
    exact h'
  | cons e es ih =>
    rw [run_cons, Option.bind_eq_some_iff] at hrun
    obtain ⟨s', hs', hrun⟩ := hrun
    exact .head hmeets.1 hs' (ih hrun (hmeets.2 s' hs'))

/-- A guard that an invariant implies is met by every run. -/
theorem meets_of_invariant {step : σ → ε → Option σ} {G : σ → ε → Prop} {P : σ → Prop}
    (hstep : ∀ s e t, P s → step s e = some t → P t) (hG : ∀ s e, P s → G s e) :
    ∀ (es : List ε) (s : σ), P s → Meets step G s es := by
  intro es
  induction es with
  | nil =>
    intro s _
    trivial
  | cons e es ih =>
    intro s hs
    exact ⟨hG s e hs, fun t ht => ih t (hstep s e t hs ht)⟩

/-- Two guards that agree under an invariant are met by the same runs. -/
theorem meets_iff_of_invariant {step : σ → ε → Option σ} {G H : σ → ε → Prop} {P : σ → Prop}
    (hstep : ∀ s e t, P s → step s e = some t → P t) (hGH : ∀ s e, P s → (G s e ↔ H s e)) :
    ∀ (es : List ε) (s : σ), P s → (Meets step G s es ↔ Meets step H s es) := by
  intro es
  induction es with
  | nil =>
    intro s _
    exact Iff.rfl
  | cons e es ih =>
    intro s hs
    constructor
    · intro h
      exact ⟨(hGH s e hs).mp h.1, fun t ht => (ih t (hstep s e t hs ht)).mp (h.2 t ht)⟩
    · intro h
      exact ⟨(hGH s e hs).mpr h.1, fun t ht => (ih t (hstep s e t hs ht)).mpr (h.2 t ht)⟩

/-- The invariant rule for guarded runs: a step taken under the guard preserves `P`. -/
theorem run_invariant_of_meets {step : σ → ε → Option σ} {G : σ → ε → Prop} {P : σ → Prop}
    (hstep : ∀ s e t, P s → G s e → step s e = some t → P t) :
    ∀ (es : List ε) (s t : σ), P s → Meets step G s es → run step s es = some t → P t := by
  intro es
  induction es with
  | nil =>
    intro s t hs _ h
    rw [run_nil, Option.some.injEq] at h
    exact h ▸ hs
  | cons e es ih =>
    intro s t hs hG h
    rw [run_cons, Option.bind_eq_some_iff] at h
    obtain ⟨m, hm, h⟩ := h
    exact ih m t (hstep s e m hs hG.1 hm) (hG.2 m hm) h

end Machine
