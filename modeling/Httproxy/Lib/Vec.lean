/-
  Growable vectors as lists: the `swap_remove` operation, and sorting by a key.

  `swapRemove l i` deletes the element at `i` by moving the LAST element into its place, so the
  remaining order is scrambled but the multiset is exact: `swapRemove_perm` says that what is left
  together with what was taken out is what was there, `take_swapRemove` that a scan which deletes
  at its own position never disturbs the part it has passed.

  `SortedBy key l` is what an UNSTABLE sort may leave of `l`: the same elements with their keys in order,
  and equal keys in any order.  The first element that reaches a bound is the least one that does
  (`SortedBy.find?_least`).  This file names no program.
-/
import Mathlib

namespace Vec

variable {α : Type}

/-- Overwrite position `i` with the last element, then drop the last slot.  For `i` the last
    position this is a plain pop. -/
def swapRemove (l : List α) (i : Nat) : List α :=
  match l.getLast? with
  | none => []
  | some z => (l.set i z).dropLast

theorem swapRemove_concat (l : List α) (z : α) (i : Nat) :
    swapRemove (l ++ [z]) i = if i < l.length then l.set i z else l := by
  unfold swapRemove
  rw [List.getLast?_append, List.getLast?_singleton]
  show ((l ++ [z]).set i z).dropLast = _
  by_cases hi : i < l.length
  · rw [if_pos hi, List.set_append_left _ _ hi, List.dropLast_concat]
  · rw [if_neg hi, List.set_append_right _ _ (by omega)]
    rcases Nat.eq_zero_or_pos (i - l.length) with h0 | hpos
    · rw [h0, List.set_cons_zero, List.dropLast_concat]
    · rw [List.set_eq_of_length_le (by simp; omega), List.dropLast_concat]

/-- **`swapRemove` loses nothing but the removed element.** -/
theorem swapRemove_perm {l : List α} {i : Nat} (hi : i < l.length) :
    List.Perm (l[i] :: swapRemove l i) l := by
  induction l using List.reverseRecOn with
  | nil => exact absurd hi (Nat.not_lt_zero i)
  | append_singleton l z _ =>
    rw [swapRemove_concat]
    by_cases h : i < l.length
    · rw [if_pos h, List.getElem_append_left h]
      -- both sides are `l[i]` and `z` around the untouched rest of `l`
      have hl : l = l.take i ++ l[i] :: l.drop (i + 1) := by
        rw [List.getElem_cons_drop, List.take_append_drop]
      have hs : l.set i z = l.take i ++ z :: l.drop (i + 1) := by
        rw [List.set_eq_take_append_cons_drop, if_pos h]
      rw [hs]
      refine List.Perm.trans ?_ (List.Perm.append_right [z] (List.Perm.of_eq hl.symm))
      simp only [List.append_assoc, List.cons_append]
      refine List.perm_middle.symm.trans (List.Perm.append_left _ (List.Perm.cons _ ?_))
      exact (List.perm_append_singleton z _).symm
    · have hz : i = l.length := by
        rw [List.length_append, List.length_singleton] at hi; omega
      rw [if_neg h]
      subst hz
      rw [List.getElem_append_right (Nat.le_refl _)]
      simp only [Nat.sub_self, List.getElem_cons_zero]
      exact (List.perm_append_singleton z l).symm

theorem length_swapRemove {l : List α} {i : Nat} (hi : i < l.length) :
    (swapRemove l i).length + 1 = l.length :=
  (swapRemove_perm hi).length_eq

/-- The elements before the removed one stay where they were. -/
theorem take_swapRemove {l : List α} {i : Nat} (hi : i < l.length) :
    (swapRemove l i).take i = l.take i := by
  induction l using List.reverseRecOn with
  | nil => exact absurd hi (Nat.not_lt_zero i)
  | append_singleton l z _ =>
    rw [List.length_append, List.length_singleton] at hi
    rw [swapRemove_concat, List.take_append_of_le_length (by omega)]
    split
    · exact List.take_set_of_le (Nat.le_refl i)
    · rfl

/-! ## Sorting by a key -/

/-- What `sort_unstable_by_key` may leave of `l`. -/
structure SortedBy (key : α → Nat) (l : List α) where
  list : List α
  perm : List.Perm list l
  sorted : list.Pairwise fun a b => key a ≤ key b

section SortedBy
variable {key : α → Nat} {l : List α} {n : Nat}

/-- The first element from `n` on has the least key from `n` on. -/
theorem SortedBy.find?_least {s : SortedBy key l} {a : α}
    (h : s.list.find? (fun x => decide (n ≤ key x)) = some a) :
    a ∈ l ∧ n ≤ key a ∧ ∀ b ∈ l, n ≤ key b → key a ≤ key b := by
  obtain ⟨hreach, before, after, hlist, hbefore⟩ := List.find?_eq_some_iff_append.1 h
  have hsorted := s.sorted
  rw [hlist, List.pairwise_append, List.pairwise_cons] at hsorted
  refine ⟨s.perm.subset (List.mem_of_find?_eq_some h), of_decide_eq_true hreach, fun b hb hnb => ?_⟩
  have hmem := s.perm.symm.subset hb
  rw [hlist, List.mem_append, List.mem_cons] at hmem
  obtain hfront | rfl | hback := hmem
  · -- the elements before `a` do not reach `n`
    have hshort := hbefore b hfront
    rw [decide_eq_true hnb] at hshort
    cases hshort
  · exact Nat.le_refl _
  · exact hsorted.2.1.1 b hback

theorem SortedBy.find?_none {s : SortedBy key l}
    (h : s.list.find? (fun x => decide (n ≤ key x)) = none) : ∀ b ∈ l, key b < n := by
  intro b hb
  have hshort := List.find?_eq_none.1 h b (s.perm.symm.subset hb)
  rw [decide_eq_true_eq] at hshort
  omega

end SortedBy

end Vec
