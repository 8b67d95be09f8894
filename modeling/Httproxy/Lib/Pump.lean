/-
  Pumps: loops that take from one side and give to the other, in parts of any size.

  1. **What is held** — `Carries taken given held`: all that was taken has been given, in its order, but for
     what is still held.

  2. **Moves** — a pump takes more (`fetch`), gives a part of what it holds (`give`), and has given everything
     when it holds nothing (`all`).  One pump behind another is a pump (`trans`).

  This file names no program.
-/
import Mathlib.Data.List.Basic

namespace Pump

variable {α : Type} {taken given held : List α}

/-- What was taken is what has been given, and then what is held. -/
def Carries (taken given held : List α) : Prop := given ++ held = taken

theorem Carries.start (l : List α) : Carries l [] l := rfl

theorem Carries.fetch (h : Carries taken given held) (more : List α) :
    Carries (taken ++ more) given (held ++ more) := by
  show given ++ (held ++ more) = taken ++ more
  rw [← List.append_assoc, show given ++ held = taken from h]

theorem Carries.give (h : Carries taken given held) (n : Nat) :
    Carries taken (given ++ held.take n) (held.drop n) := by
  show given ++ held.take n ++ held.drop n = taken
  rw [List.append_assoc, List.take_append_drop]
  exact h

/-- `give`, for what is held of `data` from `off` on. -/
theorem Carries.advance {data : List α} {off : Nat} (h : Carries taken given (data.drop off)) (n : Nat) :
    Carries taken (given ++ (data.drop off).take n) (data.drop (off + n)) := by
  rw [← List.drop_drop]
  exact h.give n

theorem Carries.front (h : Carries taken given held) : given <+: taken := ⟨held, h⟩

theorem Carries.all (h : Carries taken given []) : given = taken := by
  rw [← show given ++ [] = taken from h, List.append_nil]

/-- What the second pump takes is what the first one gives. -/
theorem Carries.trans {given' held' : List α} (h : Carries taken given held)
    (h' : Carries given given' held') : Carries taken given' (held' ++ held) := by
  show given' ++ (held' ++ held) = taken
  rw [← List.append_assoc, show given' ++ held' = given from h']
  exact h

end Pump
