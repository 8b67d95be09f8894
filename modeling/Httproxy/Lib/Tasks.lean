/-
  Tasks that share a state, one of them acting at a time.

  Each task `i` has a state of its own and runs the same program: `act g i t a` is what happens when it
  does `a` in its own state `t` and the shared state `g` (`none`: it cannot).  A step of the whole names
  the task and what it does, so a list of steps is an INTERLEAVING.  This file names no program; it
  carries

  1. **Steps** — `step act`, with what it does to the acting task and to the others.
  2. **The rule (`step_invariant`)** — an invariant of the shared state together with one for each task
     is preserved, if the acting task preserves its own and does not DISTURB that of another.

  3. **Locks (`Locks.step`)** — a task takes a free lock, or gives back its own; then a lock that is taken
     has exactly one holder.
-/
import Httproxy.Lib.Machine

namespace Tasks

variable {γ ι τ α : Type} [DecidableEq ι]

/-- The shared state, and the states of the tasks. -/
structure State (γ ι τ : Type) where
  shared : γ
  tasks : ι → τ

/-- Task `e.1` does `e.2`. -/
def step (act : γ → ι → τ → α → Option (γ × τ)) (s : State γ ι τ) (e : ι × α) :
    Option (State γ ι τ) :=
  (act s.shared e.1 (s.tasks e.1) e.2).map fun p => ⟨p.1, Function.update s.tasks e.1 p.2⟩

variable {act : γ → ι → τ → α → Option (γ × τ)} {s s' : State γ ι τ} {e : ι × α}

/-- What a step does: the acting task moves, and no other. -/
theorem step_eq_some (h : step act s e = some s') :
    act s.shared e.1 (s.tasks e.1) e.2 = some (s'.shared, s'.tasks e.1) ∧
      ∀ j, j ≠ e.1 → s'.tasks j = s.tasks j := by
  unfold step at h
  rw [Option.map_eq_some_iff] at h
  obtain ⟨p, hp, rfl⟩ := h
  refine ⟨?_, fun j hj => Function.update_of_ne hj _ _⟩
  show _ = some (p.1, Function.update s.tasks e.1 p.2 e.1)
  rw [hp, Function.update_self]

/-- What the task can do, the whole can do. -/
theorem step_of_act {g' : γ} {t' : τ}
    (h : act s.shared e.1 (s.tasks e.1) e.2 = some (g', t')) :
    ∃ s', step act s e = some s' ∧ s'.shared = g' ∧ s'.tasks e.1 = t' := by
  refine ⟨⟨g', Function.update s.tasks e.1 t'⟩, ?_, rfl, Function.update_self _ _ _⟩
  rw [step, h, Option.map_some]

/-- The shared state satisfies `G`, and each task `L`. -/
structure Inv (G : γ → Prop) (L : γ → ι → τ → Prop) (s : State γ ι τ) : Prop where
  shared : G s.shared
  tasks : ∀ i, L s.shared i (s.tasks i)

/-- **The rule.**  `hself`: what the acting task keeps up; `hother`: what it leaves to the others. -/
theorem step_invariant {G : γ → Prop} {L : γ → ι → τ → Prop}
    (hself : ∀ {g i t a g' t'}, G g → L g i t → act g i t a = some (g', t') → G g' ∧ L g' i t')
    (hother : ∀ {g i t a g' t' j u}, G g → L g i t → act g i t a = some (g', t') → j ≠ i →
      L g j u → L g' j u)
    (s : State γ ι τ) (e : ι × α) (s' : State γ ι τ) (hs : Inv G L s) (h : step act s e = some s') :
    Inv G L s' := by
  obtain ⟨hact, hsame⟩ := step_eq_some h
  obtain ⟨hG, hL⟩ := hself hs.shared (hs.tasks e.1) hact
  refine ⟨hG, fun j => ?_⟩
  by_cases hj : j = e.1
  · exact hj ▸ hL
  · rw [hsame j hj]
    exact hother hs.shared (hs.tasks e.1) hact hj (hs.tasks j)

/-! ## Locks -/

section Locks

variable {φ : Type} [DecidableEq φ] {taken : γ → φ → Bool} {held : τ → Option φ} {g g' : γ} {t t' : τ}

/-- A lock is taken exactly while a task holds it, and no two tasks hold the same. -/
structure Locks (taken : γ → φ → Bool) (held : τ → Option φ) (s : State γ ι τ) : Prop where
  holder : ∀ f, taken s.shared f = true ↔ ∃ i, held (s.tasks i) = some f
  alone : ∀ {i j f}, held (s.tasks i) = some f → held (s.tasks j) = some f → i = j

/-- What an action may do to the locks. -/
inductive LockMove (taken : γ → φ → Bool) (held : τ → Option φ) (g : γ) (t : τ) (g' : γ) (t' : τ) :
    Prop where
  | stay (htaken : taken g' = taken g) (hheld : held t' = held t)
  | take (f : φ) (hfree : taken g f = false) (hhands : held t = none)
      (htaken : taken g' = Function.update (taken g) f true) (hheld : held t' = some f)
  | give (f : φ) (hhad : held t = some f) (htaken : taken g' = Function.update (taken g) f false)
      (hheld : held t' = none)

/-- Where no task moves, and no lock. -/
theorem Locks.congr (hs : Locks taken held s) (htaken : taken g' = taken s.shared) :
    Locks taken held ⟨g', s.tasks⟩ :=
  ⟨fun f => by rw [htaken]; exact hs.holder f, hs.alone⟩

theorem Locks.step {i : ι} (hs : Locks taken held s)
    (hmove : LockMove taken held s.shared (s.tasks i) s'.shared (s'.tasks i))
    (hsame : ∀ j, j ≠ i → s'.tasks j = s.tasks j) : Locks taken held s' := by
  cases hmove with
  | stay htaken hheld =>
    -- nobody's hands have changed
    have hhands : ∀ j, held (s'.tasks j) = held (s.tasks j) := by
      intro j
      by_cases hj : j = i
      · rw [hj, hheld]
      · rw [hsame j hj]
    refine ⟨fun f => ?_, fun {j k f} hj hk => ?_⟩
    · rw [htaken, hs.holder]
      exact exists_congr fun j => by rw [hhands]
    · rw [hhands] at hj hk
      exact hs.alone hj hk
  | take f hfree hempty htaken hheld =>
    have hnobody : ∀ j, held (s.tasks j) ≠ some f := by
      intro j hj
      have := (hs.holder f).mpr ⟨j, hj⟩
      rw [hfree] at this
      cases this
    have hother : ∀ {j f'}, held (s'.tasks j) = some f' → j = i ∧ f' = f ∨
        j ≠ i ∧ f' ≠ f ∧ held (s.tasks j) = some f' := by
      intro j f' hj
      by_cases he : j = i
      · subst he
        rw [hheld] at hj
        exact .inl ⟨rfl, (Option.some.inj hj).symm⟩
      · rw [hsame j he] at hj
        exact .inr ⟨he, fun hf => hnobody j (hf ▸ hj), hj⟩
    refine ⟨fun f' => ?_, fun {j k f'} hj hk => ?_⟩
    · rw [htaken]
      by_cases hf : f' = f
      · subst hf
        rw [Function.update_self]
        exact iff_of_true rfl ⟨i, hheld⟩
      · rw [Function.update_of_ne hf, hs.holder]
        constructor
        · rintro ⟨j, hj⟩
          have hne : j ≠ i := by
            rintro rfl
            rw [hempty] at hj
            cases hj
          exact ⟨j, by rw [hsame j hne, hj]⟩
        · rintro ⟨j, hj⟩
          rcases hother hj with ⟨-, rfl⟩ | ⟨-, -, hj⟩
          · exact absurd rfl hf
          · exact ⟨j, hj⟩
    · rcases hother hj with ⟨rfl, rfl⟩ | ⟨-, hne, hj⟩
      · rcases hother hk with ⟨rfl, -⟩ | ⟨-, hne, -⟩
        · rfl
        · exact absurd rfl hne
      · rcases hother hk with ⟨-, rfl⟩ | ⟨-, -, hk⟩
        · exact absurd rfl hne
        · exact hs.alone hj hk
  | give f hhad htaken hheld =>
    have hother : ∀ {j f'}, held (s'.tasks j) = some f' → j ≠ i ∧ held (s.tasks j) = some f' := by
      intro j f' hj
      have hne : j ≠ i := by
        rintro rfl
        rw [hheld] at hj
        cases hj
      exact ⟨hne, by rw [← hsame j hne, hj]⟩
    refine ⟨fun f' => ?_, fun {j k f'} hj hk => hs.alone (hother hj).2 (hother hk).2⟩
    rw [htaken]
    by_cases hf : f' = f
    · subst hf
      rw [Function.update_self]
      refine iff_of_false Bool.false_ne_true ?_
      rintro ⟨j, hj⟩
      exact (hother hj).1 (hs.alone (hother hj).2 hhad)
    · rw [Function.update_of_ne hf, hs.holder]
      constructor
      · rintro ⟨j, hj⟩
        have hne : j ≠ i := by
          rintro rfl
          exact hf (Option.some.inj (hj.symm.trans hhad))
        exact ⟨j, by rw [hsame j hne, hj]⟩
      · rintro ⟨j, hj⟩
        exact ⟨j, (hother hj).2⟩

end Locks

end Tasks
