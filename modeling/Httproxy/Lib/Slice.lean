/-
  Slices with checked indices: reading and overwriting parts of a buffer.

  Indexing a slice out of its range PANICS.  Here each operation has a result only where its indices
  are in range, so that a program written with these operations and proved to have a result does not
  panic.  This file names no program; it carries

  1. **Reading** — `range b start stop` is `&b[start..stop]`, and what it returns lies inside `b`.
  2. **Overwriting** — `copyFrom`, `copyWithin` and `put`: `copy_from_slice` into a part,
     `copy_within`, and the assignment of one element.
  3. **Programs that return `Option`** — they stop for two reasons, which `Stop` keeps apart: they return
     `None`, or they panic.  `NoPanic.bind` is the rule for one step after another.

  A buffer that is written from its front on is `done ++ old`; `copyFrom_done` and `put_done` advance
  the border between the two.
-/
import Mathlib

namespace Slice

variable {α : Type}

/-! ## Reading -/

/-- `&b[start..stop]`. -/
def range (b : List α) (start stop : Nat) : Option (List α) :=
  if start ≤ stop ∧ stop ≤ b.length then some ((b.take stop).drop start) else none

theorem range_of_le {b : List α} {start stop : Nat} (h : start ≤ stop) (hb : stop ≤ b.length) :
    range b start stop = some ((b.take stop).drop start) := if_pos ⟨h, hb⟩

/-- `&b[start..]`. -/
theorem range_length {b : List α} {start : Nat} (h : start ≤ b.length) :
    range b start b.length = some (b.drop start) := by
  rw [range_of_le h (Nat.le_refl _), List.take_length]

/-- `&b[..stop]`. -/
theorem range_zero {b : List α} {stop : Nat} (h : stop ≤ b.length) :
    range b 0 stop = some (b.take stop) := by
  rw [range_of_le (Nat.zero_le _) h, List.drop_zero]

/-- A slice lies inside its buffer. -/
theorem range_infix {b s : List α} {start stop : Nat} (h : range b start stop = some s) :
    s <:+: b := by
  unfold range at h
  split at h
  · obtain rfl := Option.some.inj h
    exact (List.drop_suffix start _).isInfix.trans (List.take_prefix stop b).isInfix
  · cases h

/-- A slice, and the one behind it up to the end. -/
theorem range_range {b s t : List α} {start stop : Nat} (hs : range b start stop = some s)
    (ht : range b stop b.length = some t) : b = b.take start ++ (s ++ t) := by
  unfold range at hs ht
  split at hs
  · rename_i hle
    split at ht
    · obtain rfl := Option.some.inj hs
      obtain rfl := Option.some.inj ht
      have hfront : b.take start = (b.take stop).take start := by
        rw [List.take_take, Nat.min_eq_left hle.1]
      rw [List.take_length, ← List.append_assoc, hfront, List.take_append_drop,
        List.take_append_drop]
    · cases ht
  · cases hs

/-! ## Overwriting -/

/-- `b[start..start + src.len()].copy_from_slice(src)`. -/
def copyFrom (b : List α) (start : Nat) (src : List α) : Option (List α) :=
  if start + src.length ≤ b.length then
    some (b.take start ++ src ++ b.drop (start + src.length))
  else none

/-- `b.copy_within(start..stop, dest)`. -/
def copyWithin (b : List α) (start stop dest : Nat) : Option (List α) :=
  (range b start stop).bind (copyFrom b dest)

/-- `b[i] = x`. -/
def put (b : List α) (i : Nat) (x : α) : Option (List α) := copyFrom b i [x]

theorem copyFrom_done {done old src : List α} (h : src.length ≤ old.length) :
    copyFrom (done ++ old) done.length src = some (done ++ src ++ old.drop src.length) := by
  rw [copyFrom, if_pos (by rw [List.length_append]; omega), List.take_left,
    ← List.drop_drop, List.drop_left]

theorem put_done {done old : List α} (x : α) (h : 0 < old.length) :
    put (done ++ old) done.length x = some (done ++ [x] ++ old.drop 1) := copyFrom_done h

theorem copyFrom_zero {old src : List α} (h : src.length ≤ old.length) :
    copyFrom old 0 src = some (src ++ old.drop src.length) := @copyFrom_done _ [] old src h

/-- A tail moves to the left, over what is between; behind it its own end is left. -/
theorem copyWithin_left {b : List α} {start dest : Nat} (h : dest ≤ start)
    (hstart : start ≤ b.length) :
    copyWithin b start b.length dest =
      some (b.take dest ++ b.drop start ++ b.drop (dest + (b.length - start))) := by
  rw [copyWithin, range_length hstart, Option.bind_some, copyFrom, List.length_drop,
    if_pos (by omega)]

/-! ## Programs that return `Option` -/

/-- Why a program has no result. -/
inductive Stop where
  /-- It returned `None`. -/
  | nothing
  /-- An index was out of range, or an operation on `usize` overflowed. -/
  | panic
  deriving DecidableEq, Repr

/-- The operator `?`. -/
def question (o : Option α) : Except Stop α := o.elim (.error .nothing) .ok

/-- An operation that panics where it has no result. -/
def orPanic (o : Option α) : Except Stop α := o.elim (.error .panic) .ok

/-- `a + b` on a `usize` of 64 bits; also `checked_add`. -/
def addUsize (a b : Nat) : Option Nat := if a + b < 2 ^ 64 then some (a + b) else none

/-- `a - b` on a `usize`. -/
def subUsize (a b : Nat) : Option Nat := if b ≤ a then some (a - b) else none

@[simp] theorem question_some (a : α) : question (some a) = .ok a := rfl

@[simp] theorem orPanic_some (a : α) : orPanic (some a) = .ok a := rfl

theorem question_eq_ok {o : Option α} {a : α} : question o = .ok a ↔ o = some a := by
  cases o with
  | none => exact ⟨by rintro ⟨⟩, by rintro ⟨⟩⟩
  | some b => exact ⟨fun h => congrArg some (Except.ok.inj h), fun h => congrArg Except.ok (Option.some.inj h)⟩

theorem orPanic_eq_ok {o : Option α} {a : α} : orPanic o = .ok a ↔ o = some a := by
  cases o with
  | none => exact ⟨by rintro ⟨⟩, by rintro ⟨⟩⟩
  | some b => exact ⟨fun h => congrArg some (Except.ok.inj h), fun h => congrArg Except.ok (Option.some.inj h)⟩

theorem addUsize_of_lt {a b : Nat} (h : a + b < 2 ^ 64) : addUsize a b = some (a + b) := if_pos h

theorem subUsize_of_le {a b : Nat} (h : b ≤ a) : subUsize a b = some (a - b) := if_pos h

variable {β : Type}

theorem bind_eq_ok {ε : Type} {x : Except ε α} {f : α → Except ε β} {b : β} :
    (x >>= f) = .ok b ↔ ∃ a, x = .ok a ∧ f a = .ok b := by
  cases x with
  | error e => exact ⟨by rintro ⟨⟩, by rintro ⟨a, ⟨⟩, -⟩⟩
  | ok a =>
    constructor
    · intro h
      exact ⟨a, rfl, h⟩
    · rintro ⟨a', ⟨⟩, h⟩
      exact h

theorem bind_ok {ε : Type} (a : α) (f : α → Except ε β) : (Except.ok a >>= f) = f a := rfl

theorem bind_error {ε : Type} (e : ε) (f : α → Except ε β) : (Except.error e >>= f) = .error e := rfl

/-- The program returns a value or `None`. -/
def NoPanic (x : Except Stop α) : Prop := x ≠ .error .panic

theorem NoPanic.ok (a : α) : NoPanic (.ok a) := by rintro ⟨⟩

theorem NoPanic.nothing : NoPanic (.error .nothing : Except Stop α) := by rintro ⟨⟩

theorem NoPanic.question (o : Option α) : NoPanic (question o) := by
  cases o with
  | none => exact .nothing
  | some a => exact .ok a

/-- **One step after another**: the second may rely on what the first returned. -/
theorem NoPanic.bind {x : Except Stop α} {f : α → Except Stop β} (hx : NoPanic x)
    (hf : ∀ a, x = .ok a → NoPanic (f a)) : NoPanic (x >>= f) := by
  cases x with
  | error e =>
    intro h
    exact hx (congrArg Except.error (Except.error.inj h))
  | ok a => exact hf a rfl

end Slice
