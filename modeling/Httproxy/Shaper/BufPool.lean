/-
  The pool of frame buffers (`take` and `put` in `src/shaper/bufpool.rs`).

  A thread keeps the buffers of the frames that were sent and hands them out again.  How many bytes it
  keeps is COUNTED, in a number beside the vector of the buffers.

  1. **Program** — `take` and `put` on `Free`, with every index, sum and difference checked: a call has no
     result where the code would panic.  What the allocator answers is an argument of the call.

  2. **Specification** — `Accounted`: the number is the sum of the capacities, and the three bounds hold.
     `Taken`: a taken buffer is the pooled one of least sufficient capacity, or a fresh one.

  3. **Best fit (`scan_spec`)** — the scan remembers an INDEX into the vector it walks over.  Its invariant
     `Best` speaks of the buffers it has passed: the index is the best of them.

  The theorem is `pool_accounting`.
-/
import Httproxy.Lib.Bytes
import Httproxy.Lib.Machine
import Httproxy.Lib.Slice
import Httproxy.Lib.Vec

namespace Httproxy.BufPool

open Machine

/-! ## Program -/

def MAX_FREE : Nat := 64
def MAX_BUFFER : Nat := 4 * 1024 * 1024
def MAX_BYTES : Nat := 16 * 1024 * 1024

/-- A `Vec<u8>`: where it lies, what it holds, and how much it can hold. -/
structure Buffer where
  ptr : Nat
  data : Bytes
  capacity : Nat
  fits : data.length ≤ capacity

/-- `Vec::clear`. -/
def Buffer.clear (buf : Buffer) : Buffer := { buf with data := [], fits := Nat.zero_le _ }

/-- What `Vec::with_capacity` may answer. -/
def Allocated (minCapacity : Nat) : Type :=
  { buf : Buffer // buf.data = [] ∧ minCapacity ≤ buf.capacity }

structure Free where
  bufs : List Buffer
  bytes : Nat

/-- The loop of `take`, before `bufs[i]`: `rest` is what it has not seen yet. -/
def scan (bufs : List Buffer) (minCapacity : Nat) :
    List Buffer → Nat → Option Nat → Option (Option Nat)
  | [], _, best => some best
  | buf :: rest, i, best =>
    if buf.capacity < minCapacity then scan bufs minCapacity rest (i + 1) best
    else match best with
      | none => scan bufs minCapacity rest (i + 1) (some i)
      | some b => do
        let other ← bufs[b]?
        if buf.capacity < other.capacity then scan bufs minCapacity rest (i + 1) (some i)
        else scan bufs minCapacity rest (i + 1) (some b)

def take (free : Free) (minCapacity : Nat) (allocated : Allocated minCapacity) :
    Option (Free × Buffer) := do
  match ← scan free.bufs minCapacity free.bufs 0 none with
  | none => some (free, allocated.val)
  | some idx =>
    let buf ← free.bufs[idx]?
    let bytes ← Slice.subUsize free.bytes buf.capacity
    some ({ bufs := Vec.swapRemove free.bufs idx, bytes }, buf.clear)

/-- `put`, on a thread that still has its pool. -/
def put (free : Free) (buf : Buffer) : Option Free :=
  let cap := buf.capacity
  if ¬ (1024 ≤ cap ∧ cap ≤ MAX_BUFFER) then some free
  else if free.bufs.length ≥ MAX_FREE then some free
  else do
    let sum ← Slice.addUsize free.bytes cap
    if sum > MAX_BYTES then some free
    else some { bufs := free.bufs ++ [buf.clear], bytes := sum }

/-- A call on the thread. -/
inductive Call where
  | take (minCapacity : Nat) (allocated : Allocated minCapacity)
  | put (buf : Buffer)

def step (free : Free) : Call → Option Free
  | .take minCapacity allocated => (take free minCapacity allocated).map Prod.fst
  | .put buf => put free buf

/-! ## Specification -/

structure Accounted (free : Free) : Prop where
  sum : free.bytes = (free.bufs.map Buffer.capacity).sum
  total : free.bytes ≤ MAX_BYTES
  few : free.bufs.length ≤ MAX_FREE
  sizes : ∀ buf ∈ free.bufs, 1024 ≤ buf.capacity ∧ buf.capacity ≤ MAX_BUFFER

/-- What `take` makes of a pool. -/
inductive Taken (minCapacity : Nat) (allocated : Allocated minCapacity) (free : Free) :
    Free → Buffer → Prop where
  /-- The smallest pooled buffer that is large enough, and the others stay. -/
  | reused {free' : Free} {buf : Buffer} (hperm : List.Perm (buf :: free'.bufs) free.bufs)
      (hfits : minCapacity ≤ buf.capacity)
      (hleast : ∀ other ∈ free.bufs, minCapacity ≤ other.capacity → buf.capacity ≤ other.capacity) :
      Taken minCapacity allocated free free' buf.clear
  | fresh (hnone : ∀ other ∈ free.bufs, other.capacity < minCapacity) :
      Taken minCapacity allocated free free allocated.val

/-! ## Best fit -/

/-- Among the buffers seen so far, `best` is the index of the smallest that is large enough. -/
def Best (bufs : List Buffer) (minCapacity : Nat) (seen : List Buffer) : Option Nat → Prop
  | none => ∀ other ∈ seen, other.capacity < minCapacity
  | some b => ∃ buf, bufs[b]? = some buf ∧ minCapacity ≤ buf.capacity ∧
      ∀ other ∈ seen, minCapacity ≤ other.capacity → buf.capacity ≤ other.capacity

section Scan
variable {bufs seen rest : List Buffer} {buf : Buffer} {minCapacity : Nat}

/-- A buffer that is too small changes nothing. -/
theorem Best.skip {best : Option Nat} (h : Best bufs minCapacity seen best)
    (hsmall : buf.capacity < minCapacity) : Best bufs minCapacity (seen ++ [buf]) best := by
  cases best with
  | none =>
    intro other hother
    obtain hseen | rfl := List.mem_append.1 hother |>.imp_right List.mem_singleton.1
    · exact h other hseen
    · exact hsmall
  | some b =>
    obtain ⟨found, hb, hfits, hleast⟩ := h
    refine ⟨found, hb, hfits, fun other hother hfit => ?_⟩
    obtain hseen | rfl := List.mem_append.1 hother |>.imp_right List.mem_singleton.1
    · exact hleast other hseen hfit
    · omega

/-- A buffer that is no larger than the large enough ones before it is the best now. -/
theorem Best.replace (hi : bufs[seen.length]? = some buf) (hfits : minCapacity ≤ buf.capacity)
    (hleast : ∀ other ∈ seen, minCapacity ≤ other.capacity → buf.capacity ≤ other.capacity) :
    Best bufs minCapacity (seen ++ [buf]) (some seen.length) := by
  refine ⟨buf, hi, hfits, fun other hother hfit => ?_⟩
  obtain hseen | rfl := List.mem_append.1 hother |>.imp_right List.mem_singleton.1
  · exact hleast other hseen hfit
  · exact Nat.le_refl _

theorem Best.keep {b : Nat} {found : Buffer} (h : Best bufs minCapacity seen (some b))
    (hb : bufs[b]? = some found) (hle : found.capacity ≤ buf.capacity) :
    Best bufs minCapacity (seen ++ [buf]) (some b) := by
  obtain ⟨found', hb', hfits, hleast⟩ := h
  obtain rfl := Option.some.inj (hb.symm.trans hb')
  refine ⟨found, hb, hfits, fun other hother hfit => ?_⟩
  obtain hseen | rfl := List.mem_append.1 hother |>.imp_right List.mem_singleton.1
  · exact hleast other hseen hfit
  · exact hle

/-- **The scan finds the best buffer**, and never looks outside the vector. -/
theorem scan_spec {best : Option Nat} (hsplit : bufs = seen ++ rest)
    (h : Best bufs minCapacity seen best) :
    ∃ best', scan bufs minCapacity rest seen.length best = some best' ∧
      Best bufs minCapacity bufs best' := by
  induction rest generalizing seen best with
  | nil =>
    rw [List.append_nil] at hsplit
    exact ⟨best, rfl, hsplit ▸ h⟩
  | cons buf rest ih =>
    have hi : bufs[seen.length]? = some buf := by
      rw [hsplit, List.getElem?_append_right (Nat.le_refl _), Nat.sub_self]
      rfl
    have hnext : bufs = (seen ++ [buf]) ++ rest := by
      rw [hsplit, List.append_assoc]
      rfl
    have hlen : seen.length + 1 = (seen ++ [buf]).length := by
      rw [List.length_append, List.length_singleton]
    unfold scan
    rw [hlen]
    split
    · rename_i hsmall
      exact ih hnext (h.skip hsmall)
    · rename_i hlarge
      have hfits : minCapacity ≤ buf.capacity := Nat.le_of_not_lt hlarge
      cases best with
      | none =>
        refine ih hnext (Best.replace hi hfits fun other hother hfit => ?_)
        exact absurd hfit (Nat.not_le.2 (h other hother))
      | some b =>
        obtain ⟨found, hb, -, hleast⟩ := id h
        dsimp only
        rw [hb, Option.bind_eq_bind, Option.bind_some]
        split
        · rename_i hless
          refine ih hnext (Best.replace hi hfits fun other hother hfit => ?_)
          exact Nat.le_trans (Nat.le_of_lt hless) (hleast other hother hfit)
        · rename_i hmore
          exact ih hnext (h.keep hb (Nat.le_of_not_lt hmore))

end Scan

/-! ## The calls -/

/-- **`take` has a result**, and it is the one that was asked for. -/
theorem take_spec {free : Free} (h : Accounted free) (minCapacity : Nat)
    (allocated : Allocated minCapacity) :
    ∃ free' buf, take free minCapacity allocated = some (free', buf) ∧ Accounted free' ∧
      Taken minCapacity allocated free free' buf := by
  have hnothing : Best free.bufs minCapacity [] none := fun _ hnil => nomatch hnil
  obtain ⟨best, hscan, hbest⟩ := scan_spec (List.nil_append free.bufs).symm hnothing
  rw [List.length_nil] at hscan
  unfold take
  rw [hscan]
  cases best with
  | none => exact ⟨free, allocated.val, rfl, h, .fresh hbest⟩
  | some idx =>
    obtain ⟨buf, hget, hfits, hleast⟩ := hbest
    obtain ⟨hidx, hbuf⟩ := List.getElem?_eq_some_iff.1 hget
    have hperm := Vec.swapRemove_perm hidx
    rw [hbuf] at hperm
    have hsum : (free.bufs.map Buffer.capacity).sum =
        buf.capacity + ((Vec.swapRemove free.bufs idx).map Buffer.capacity).sum := by
      rw [← (hperm.map Buffer.capacity).sum_eq, List.map_cons, List.sum_cons]
    have hle : buf.capacity ≤ free.bytes := by
      rw [h.sum, hsum]
      exact Nat.le_add_right _ _
    refine ⟨⟨Vec.swapRemove free.bufs idx, free.bytes - buf.capacity⟩, buf.clear, ?_, ?_, ?_⟩
    · show ((free.bufs[idx]?).bind fun buf => (Slice.subUsize free.bytes buf.capacity).bind _) = _
      rw [hget, Option.bind_some, Slice.subUsize_of_le hle]
      rfl
    · refine ⟨?_, ?_, ?_, fun other hother => ?_⟩
      · show free.bytes - buf.capacity = _
        rw [h.sum, hsum, Nat.add_sub_cancel_left]
      · exact Nat.le_trans (Nat.sub_le _ _) h.total
      · have hlen := Vec.length_swapRemove hidx
        have hfew := h.few
        show (Vec.swapRemove free.bufs idx).length ≤ MAX_FREE
        omega
      · exact h.sizes other (hperm.subset (List.mem_cons_of_mem _ hother))
    · exact .reused hperm hfits hleast

/-- `put` has a result, and the pool stays accounted for. -/
theorem put_spec {free : Free} (h : Accounted free) (buf : Buffer) :
    ∃ free', put free buf = some free' ∧ Accounted free' := by
  unfold put
  dsimp only
  split
  · exact ⟨free, rfl, h⟩
  split
  · exact ⟨free, rfl, h⟩
  rename_i hrange hroom
  rw [not_not] at hrange
  have htotal := h.total
  have hword : free.bytes + buf.capacity < 2 ^ 64 := by
    unfold MAX_BYTES at htotal
    unfold MAX_BUFFER at hrange
    omega
  rw [Slice.addUsize_of_lt hword, Option.bind_eq_bind, Option.bind_some]
  split
  · exact ⟨free, rfl, h⟩
  · rename_i hmax
    refine ⟨_, rfl, ?_, Nat.le_of_not_lt hmax, ?_, fun other hother => ?_⟩
    · show free.bytes + buf.capacity = _
      rw [List.map_append, List.sum_append, ← h.sum]
      rfl
    · show (free.bufs ++ [buf.clear]).length ≤ MAX_FREE
      rw [List.length_append]
      exact Nat.lt_of_not_le hroom
    · obtain hold | rfl := List.mem_append.1 hother |>.imp_right List.mem_singleton.1
      · exact h.sizes other hold
      · exact hrange

theorem step_accounted (free : Free) (call : Call) (h : Accounted free) :
    ∃ free', step free call = some free' ∧ Accounted free' := by
  cases call with
  | take minCapacity allocated =>
    obtain ⟨free', buf, htake, hfree', -⟩ := take_spec h minCapacity allocated
    exact ⟨free', by rw [step, htake]; rfl, hfree'⟩
  | put buf => exact put_spec h buf

theorem Taken.large {minCapacity : Nat} {allocated : Allocated minCapacity} {free free' : Free}
    {buf : Buffer} (h : Taken minCapacity allocated free free' buf) :
    buf.data = [] ∧ minCapacity ≤ buf.capacity := by
  cases h with
  | reused _ hfits _ => exact ⟨rfl, hfits⟩
  | fresh _ => exact allocated.property

/-- **Main result.**  Whatever the calls before: none of them panics, the pool is accounted for, and the
next `take` hands out the smallest pooled buffer that is large enough, or a fresh one. -/
theorem pool_accounting (calls : List Call) :
    ∃ free, run step ⟨[], 0⟩ calls = some free ∧ Accounted free ∧
      ∀ (minCapacity : Nat) (allocated : Allocated minCapacity), ∃ free' buf,
        take free minCapacity allocated = some (free', buf) ∧ buf.data = [] ∧
          minCapacity ≤ buf.capacity ∧ Taken minCapacity allocated free free' buf := by
  have hempty : Accounted ⟨[], 0⟩ :=
    ⟨rfl, Nat.zero_le _, Nat.zero_le _, fun _ hnil => nomatch hnil⟩
  obtain ⟨free, hrun, hfree⟩ := run_total step_accounted calls ⟨[], 0⟩ hempty
  refine ⟨free, hrun, hfree, fun minCapacity allocated => ?_⟩
  obtain ⟨free', buf, htake, -, htaken⟩ := take_spec hfree minCapacity allocated
  exact ⟨free', buf, htake, htaken.large.1, htaken.large.2, htaken⟩

end Httproxy.BufPool
