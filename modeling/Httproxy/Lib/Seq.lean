/-
  64-bit sequence numbers that wrap.

  `seqAt s i` is the `i`-th number of the sequence starting at `s`: `s, s+1, s+2, …` in `u64`
  arithmetic.  As long as `s + i` stays below `2^64` this is ordinary counting (`seqAt_toNat`), and
  every number from `s` upwards is reached that way (`seqAt_sub`); past `2^64` the sequence starts
  over at `0`.  This file names no program.
-/
import Mathlib

namespace Seq

/-- The `i`-th sequence number from `s`, in wrapping arithmetic. -/
def seqAt (s : UInt64) (i : Nat) : UInt64 := s + UInt64.ofNat i

@[simp] theorem seqAt_zero (s : UInt64) : seqAt s 0 = s := UInt64.add_zero s

theorem seqAt_succ (s : UInt64) (i : Nat) : seqAt s (i + 1) = seqAt s i + 1 := by
  unfold seqAt
  rw [UInt64.ofNat_add, ← UInt64.add_assoc]
  rfl

theorem seqAt_add (s : UInt64) (i j : Nat) : seqAt (seqAt s i) j = seqAt s (i + j) := by
  rw [seqAt, seqAt, seqAt, UInt64.ofNat_add, UInt64.add_assoc]

theorem seqAt_succ_left (s : UInt64) (i : Nat) : seqAt (s + 1) i = seqAt s (i + 1) := by
  have hone : s + 1 = seqAt s 1 := rfl
  rw [hone, seqAt_add, Nat.add_comm]

/-- Below the wrap-around `seqAt` counts. -/
theorem seqAt_toNat {s : UInt64} {i : Nat} (h : s.toNat + i < 2 ^ 64) :
    (seqAt s i).toNat = s.toNat + i := by
  unfold seqAt
  rw [UInt64.toNat_add, UInt64.toNat_ofNat']
  omega

/-- Every number from `s` on is at its own distance from `s`. -/
theorem seqAt_sub {s q : UInt64} (h : s ≤ q) : seqAt s (q.toNat - s.toNat) = q := by
  rw [UInt64.le_iff_toNat_le] at h
  have hq := q.toNat_lt
  apply UInt64.toNat_inj.mp
  rw [seqAt_toNat (by omega)]
  omega

/-- Every number is at its own place in the sequence from 0. -/
theorem seqAt_zero_toNat (q : UInt64) : seqAt 0 q.toNat = q := by
  have hat := seqAt_sub (UInt64.zero_le (a := q))
  rwa [UInt64.toNat_zero, Nat.sub_zero] at hat

/-! ## Lists numbered in sequence -/

/-- Fewer than `2^64` numbers of the sequence are distinct. -/
theorem seqAt_inj {s : UInt64} {i j : Nat} (hi : i < 2 ^ 64) (hj : j < 2 ^ 64)
    (h : seqAt s i = seqAt s j) : i = j := by
  have hofNat : UInt64.ofNat i = UInt64.ofNat j := UInt64.add_right_inj s |>.mp h
  have htoNat := congrArg UInt64.toNat hofNat
  rwa [UInt64.toNat_ofNat', UInt64.toNat_ofNat', Nat.mod_eq_of_lt hi, Nat.mod_eq_of_lt hj] at htoNat

/-- What goes on where a sequence from `s` stops is numbered from `s` with it. -/
theorem numbered_append {α : Type} {number : α → UInt64} {s : UInt64} {xs ys : List α}
    (hxs : xs.map number = (List.range xs.length).map (seqAt s))
    (hys : ys.map number = (List.range ys.length).map (seqAt (seqAt s xs.length))) :
    (xs ++ ys).map number = (List.range (xs ++ ys).length).map (seqAt s) := by
  have hshift : (List.range ys.length).map (seqAt (seqAt s xs.length)) =
      (List.range ys.length).map (seqAt s ∘ (xs.length + ·)) :=
    List.map_congr_left fun i _ => seqAt_add s xs.length i
  rw [List.map_append, List.length_append, List.range_add, List.map_append, List.map_map, ← hshift,
    ← hxs, ← hys]

/-- **Values picked by number are picked in order.**  `ys` is numbered from `s` on, without a gap and
    below the wrap-around; the `i`-th of `ds` stands in `ys` under the `i`-th number.  Then `ds` are the
    first values of `ys`. -/
theorem numbered_prefix {β : Type} {s : UInt64} {ds : List β} {ys : List (UInt64 × β)}
    (hys : ys.map Prod.fst = (List.range ys.length).map (seqAt s)) (hlt : ys.length < 2 ^ 64)
    (hds : ∀ i d, ds[i]? = some d → i < 2 ^ 64 → (seqAt s i, d) ∈ ys) :
    ds <+: ys.map Prod.snd := by
  -- the place of a value is its number
  have hplace : ∀ i (hi : i < ds.length), i < 2 ^ 64 →
      ∃ hy : i < ys.length, ys[i] = (seqAt s i, ds[i]) := by
    intro i hi hbound
    obtain ⟨j, hj, hat⟩ := List.mem_iff_getElem.mp (hds i ds[i] (List.getElem?_eq_getElem hi) hbound)
    have hnumber : ys[j].1 = seqAt s j := by
      have hnth := congrArg (fun l => l[j]?) hys
      simpa [hj] using hnth
    have hij : j = i := seqAt_inj (by omega) hbound (hnumber.symm.trans (congrArg Prod.fst hat))
    subst hij
    exact ⟨hj, hat⟩
  have hle : ds.length ≤ ys.length := by
    by_contra hmore
    obtain ⟨hself, -⟩ := hplace ys.length (by omega) hlt
    exact Nat.lt_irrefl _ hself
  rw [List.prefix_iff_eq_take]
  apply List.ext_getElem
  · rw [List.length_take, List.length_map]
    omega
  · intro i hi _
    obtain ⟨hy, hat⟩ := hplace i hi (by omega)
    rw [List.getElem_take, List.getElem_map, hat]

/-- The same for values that bring their numbers along. -/
theorem prefix_of_numbered {β : Type} {s : UInt64} {xs ys : List (UInt64 × β)}
    (hxs : xs.map Prod.fst = (List.range xs.length).map (seqAt s))
    (hys : ys.map Prod.fst = (List.range ys.length).map (seqAt s)) (hlt : ys.length < 2 ^ 64)
    (hmem : ∀ x ∈ xs, x ∈ ys) : xs <+: ys := by
  have hnumber : ∀ {zs : List (UInt64 × β)}, zs.map Prod.fst = (List.range zs.length).map (seqAt s) →
      ∀ i (h : i < zs.length), zs[i].1 = seqAt s i := by
    intro zs hzs i h
    have hnth := congrArg (fun l => l[i]?) hzs
    simpa [h] using hnth
  have hvalues : xs.map Prod.snd <+: ys.map Prod.snd := by
    refine numbered_prefix hys hlt fun i d hi _ => ?_
    obtain ⟨hlen, rfl⟩ := List.getElem?_eq_some_iff.mp hi
    rw [List.length_map] at hlen
    rw [List.getElem_map, ← hnumber hxs i hlen]
    exact hmem _ (List.getElem_mem hlen)
  have hle : xs.length ≤ ys.length := by
    simpa using hvalues.length_le
  rw [List.prefix_iff_eq_take]
  apply List.ext_getElem
  · rw [List.length_take, Nat.min_eq_left hle]
  · intro i hi hi'
    have hy : i < ys.length := Nat.lt_of_lt_of_le hi hle
    rw [List.getElem_take]
    refine Prod.ext ((hnumber hxs i hi).trans (hnumber hys i hy).symm) ?_
    have hsnd := hvalues.getElem (by rwa [List.length_map])
    rwa [List.getElem_map, List.getElem_map] at hsnd

end Seq
