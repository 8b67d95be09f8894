/-
  Byte strings: how many bytes a list of them has when a `u64` counts, numbers written big-endian
  into them, slices, and the first place where a pattern occurs.
-/
import Mathlib

/-- A byte string. -/
abbrev Bytes := List UInt8

namespace Bytes

instance instLawfulBEqBytes : LawfulBEq Bytes := inferInstance

/-! ## Counting in 64 bits -/

/-- The total length of the pieces, as a 64-bit counter that WRAPS holds it. -/
def count (pieces : List Bytes) : UInt64 := UInt64.ofNat pieces.flatten.length

@[simp] theorem count_nil : count [] = 0 := rfl

theorem count_append (ps qs : List Bytes) : count (ps ++ qs) = count ps + count qs := by
  unfold count
  rw [List.flatten_append, List.length_append, UInt64.ofNat_add]

@[simp] theorem count_singleton (b : Bytes) : count [b] = UInt64.ofNat b.length := by
  simp [count]

theorem count_eq_of_flatten {ps qs : List Bytes} (h : ps.flatten = qs.flatten) :
    count ps = count qs := by
  rw [count, count, h]

theorem toNat_count {ps : List Bytes} (h : ps.flatten.length < 2 ^ 64) :
    (count ps).toNat = ps.flatten.length := by
  rw [count, UInt64.toNat_ofNat']
  exact Nat.mod_eq_of_lt h

/-! ## Big-endian numbers -/

/-- The `k` low bytes of `v`, most significant first. -/
def putBe : Nat → Nat → Bytes
  | 0, _ => []
  | k + 1, v => putBe k (v / 256) ++ [UInt8.ofNat v]

/-- The number whose big-endian bytes are `b`. -/
def readBe (b : Bytes) : Nat := b.foldl (fun acc x => acc * 256 + x.toNat) 0

@[simp] theorem length_putBe (k v : Nat) : (putBe k v).length = k := by
  induction k generalizing v with
  | zero => rfl
  | succ k ih => rw [putBe, List.length_append, ih]; rfl

theorem readBe_putBe (k v : Nat) : readBe (putBe k v) = v % 256 ^ k := by
  induction k generalizing v with
  | zero => rw [Nat.pow_zero, Nat.mod_one]; rfl
  | succ k ih =>
    have hlast : readBe (putBe (k + 1) v) = readBe (putBe k (v / 256)) * 256 + v % 256 := by
      simp [readBe, putBe]
    have hsplit := Nat.mod_mul (x := v) (a := 256) (b := 256 ^ k)
    rw [hlast, ih, Nat.pow_succ']
    omega

theorem readBe_concat (b : Bytes) (x : UInt8) : readBe (b ++ [x]) = readBe b * 256 + x.toNat := by
  simp [readBe]

theorem readBe_cons (x : UInt8) (b : Bytes) :
    readBe (x :: b) = x.toNat * 256 ^ b.length + readBe b := by
  induction b using List.reverseRecOn with
  | nil => simp [readBe]
  | append_singleton b y ih =>
    rw [← List.cons_append, readBe_concat, ih, readBe_concat, List.length_append,
      List.length_singleton, Nat.pow_succ]
    ring

/-- **Reading and writing back**: a byte string is the number it stands for. -/
theorem putBe_readBe (b : Bytes) : putBe b.length (readBe b) = b := by
  induction b using List.reverseRecOn with
  | nil => rfl
  | append_singleton b x ih =>
    have hx := x.toNat_lt
    have hdiv : (readBe b * 256 + x.toNat) / 256 = readBe b := by omega
    have hlow : UInt8.ofNat (readBe b * 256 + x.toNat) = x := by
      apply UInt8.toNat_inj.mp
      rw [UInt8.toNat_ofNat']
      omega
    rw [readBe_concat, List.length_append, List.length_singleton, putBe, hdiv, ih, hlow]

theorem readBe_lt (b : Bytes) : readBe b < 256 ^ b.length := by
  induction b using List.reverseRecOn with
  | nil => exact Nat.one_pos
  | append_singleton b x ih =>
    have hx := x.toNat_lt
    rw [readBe_concat, List.length_append, List.length_singleton, Nat.pow_succ]
    omega

/-! ## Slices -/

/-- `b[start..stop]`. -/
def slice (b : Bytes) (start stop : Nat) : Bytes := (b.take stop).drop start

/-- The middle of three pieces is a slice of the whole. -/
theorem slice_append (a m z : Bytes) : slice (a ++ m ++ z) a.length (a.length + m.length) = m := by
  rw [slice, List.take_left' List.length_append, List.drop_left]

/-! ## Searching -/

/-- Where `needle` occurs first in a byte string. -/
def find (needle : Bytes) : Bytes → Option Nat
  | [] => if needle = [] then some 0 else none
  | b :: bs => if needle.isPrefixOf (b :: bs) then some 0 else (find needle bs).map (· + 1)

/-- A line ends at the first delimiter. -/
theorem idxOf?_line {line : Bytes} {x : UInt8} (h : x ∉ line) (rest : Bytes) :
    (line ++ x :: rest).idxOf? x = some line.length := by
  rw [List.idxOf?_eq_some_iff]
  refine ⟨by simp, by simp, ?_⟩
  intro j hj heq
  rw [List.getElem_append_left hj] at heq
  exact h (heq ▸ List.getElem_mem hj)

/-- `strip_prefix` of a byte slice. -/
def dropStart (start b : Bytes) : Option Bytes :=
  if start.isPrefixOf b then some (b.drop start.length) else none

/-- `strip_suffix` of a byte slice. -/
def dropEnd (tail b : Bytes) : Option Bytes :=
  if tail.isSuffixOf b then some (b.take (b.length - tail.length)) else none

@[simp] theorem dropStart_append (start b : Bytes) : dropStart start (start ++ b) = some b := by
  have h : start.isPrefixOf (start ++ b) = true := by
    rw [List.isPrefixOf_iff_prefix]
    exact List.prefix_append start b
  rw [dropStart, if_pos h, List.drop_left]

@[simp] theorem dropEnd_append (b tail : Bytes) : dropEnd tail (b ++ tail) = some b := by
  have h : tail.isSuffixOf (b ++ tail) = true := by
    rw [List.isSuffixOf_iff_suffix]
    exact List.suffix_append b tail
  rw [dropEnd, if_pos h, List.length_append, Nat.add_sub_cancel, List.take_left]

end Bytes
