/-
  Logs, to which every step appends.

  1. **Justified logs** — `Justified J log`: each entry satisfies `J` together with what stands BEFORE it.  An
     entry is checked once, when it is appended (`Justified.snoc`).

  2. **The last entry of a kind** — `Last p log x`: `x` satisfies `p`, and nothing behind it does.

  This file names no program.
-/
import Mathlib

namespace Log

variable {α : Type}

/-! ## Justified logs -/

/-- Each entry is justified by what stands before it. -/
def Justified (J : List α → α → Prop) (log : List α) : Prop :=
  ∀ before x behind, log = before ++ x :: behind → J before x

theorem Justified.nil (J : List α → α → Prop) : Justified J [] := by
  intro before x behind h
  cases before <;> cases h

theorem Justified.snoc {J : List α → α → Prop} {log : List α} {x : α} (h : Justified J log)
    (hx : J log x) : Justified J (log ++ [x]) := by
  intro before y behind heq
  rcases List.eq_nil_or_concat behind with rfl | ⟨behind, z, rfl⟩
  · obtain ⟨hlog, hlast⟩ := List.append_inj' heq rfl
    obtain rfl := (List.cons.inj hlast).1
    exact hlog ▸ hx
  · rw [List.concat_eq_append, ← List.cons_append, ← List.append_assoc] at heq
    exact h before y behind (List.append_inj' heq rfl).1

theorem Justified.at_mem {J : List α → α → Prop} {log : List α} {x : α} (h : Justified J log)
    (hx : x ∈ log) : ∃ before, before ⊆ log ∧ J before x := by
  obtain ⟨before, behind, rfl⟩ := List.append_of_mem hx
  exact ⟨before, List.subset_append_left _ _, h before x behind rfl⟩

/-- The last entry of `log` that satisfies `p` is `x`. -/
def Last (p : α → Prop) (log : List α) (x : α) : Prop :=
  p x ∧ ∃ before behind, log = before ++ x :: behind ∧ ∀ y ∈ behind, ¬ p y

theorem Last.self {p : α → Prop} (log : List α) {x : α} (hx : p x) : Last p (log ++ [x]) x :=
  ⟨hx, log, [], rfl, fun _ hy => absurd hy List.not_mem_nil⟩

theorem Last.snoc {p : α → Prop} {log : List α} {x y : α} (h : Last p log x) (hy : ¬ p y) :
    Last p (log ++ [y]) x := by
  obtain ⟨hx, before, behind, rfl, hno⟩ := h
  refine ⟨hx, before, behind ++ [y], by simp, fun z hz => ?_⟩
  rcases List.mem_append.mp hz with hz | hz
  · exact hno z hz
  · exact List.mem_singleton.mp hz ▸ hy

end Log
