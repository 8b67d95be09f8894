/-
  Progress of event-driven state machines: what a guarded run can always be carried on to.

  Safety says of every run what it never does.  This file is about the other side: from every state of
  a kind SOME guarded run leads to a state wanted.

  1. **`Reaches` as a relation** — one step of it, what it preserves, and its image under an embedding of
     one machine into another.

  2. **Ranks** — `reaches_of_rank`: what can always go on with a smaller rank gets there.  The way to
     go on may be many steps, so that a rank for rounds can be built on ranks for what a round does.
-/
import Httproxy.Lib.Machine

namespace Machine

section Progress

variable {σ ε : Type} {step : σ → ε → Option σ} {G : σ → ε → Prop}

/-! ## Reaching -/

theorem Reaches.one {s t : σ} {e : ε} (hG : G s e) (h : step s e = some t) : Reaches step G s t :=
  .head hG h (.refl step G t)

/-- What the guarded steps preserve is kept on the way. -/
theorem Reaches.invariant {P : σ → Prop}
    (hstep : ∀ s e t, P s → G s e → step s e = some t → P t) {s t : σ} (h : Reaches step G s t)
    (hs : P s) : P t := by
  obtain ⟨es, hrun, hmeets⟩ := h
  exact run_invariant_of_meets hstep es s t hs hmeets hrun

/-- A machine that is part of another one: what it reaches alone, it reaches there. -/
theorem Reaches.lift {σ' ε' : Type} {step' : σ' → ε' → Option σ'} {G' : σ' → ε' → Prop}
    (f : σ → σ') (hstep : ∀ s e t, G s e → step s e = some t →
      ∃ e', G' (f s) e' ∧ step' (f s) e' = some (f t)) {s t : σ} (h : Reaches step G s t) :
    Reaches step' G' (f s) (f t) := by
  obtain ⟨es, hrun, hmeets⟩ := h
  induction es generalizing s with
  | nil =>
    obtain rfl := Option.some.inj hrun
    exact .refl step' G' (f s)
  | cons e es ih =>
    rw [run_cons, Option.bind_eq_some_iff] at hrun
    obtain ⟨m, hm, hrun⟩ := hrun
    obtain ⟨e', hG', hm'⟩ := hstep s e m hmeets.1 hm
    exact .head hG' hm' (ih hrun (hmeets.2 m hm))

/-! ## Ranks -/

/-- **The rank rule.**  Where `P` holds, either `Q` does or the machine can go on to a state with `P` and
    a smaller rank, or with `Q` at once; so it can get to `Q`. -/
theorem reaches_of_rank {P Q : σ → Prop} (rank : σ → Nat)
    (hdown : ∀ s, P s → Q s ∨ ∃ t, Reaches step G s t ∧ P t ∧ (Q t ∨ rank t < rank s)) (s : σ)
    (hs : P s) : ∃ t, Reaches step G s t ∧ P t ∧ Q t := by
  induction hn : rank s using Nat.strong_induction_on generalizing s with
  | _ n ih =>
    rcases hdown s hs with hQ | ⟨t, hst, ht, hQ | hlt⟩
    · exact ⟨s, .refl step G s, hs, hQ⟩
    · exact ⟨t, hst, ht, hQ⟩
    · obtain ⟨u, htu, hu, hQ⟩ := ih (rank t) (hn ▸ hlt) t ht rfl
      exact ⟨u, hst.trans htu, hu, hQ⟩

end Progress

end Machine
