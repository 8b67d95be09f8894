/-
  Single flight: of the calls for one key that come while one of them is at work, no other works, and all
  of them get what it returns.

  A call JOINS the flight of its key, or opens one.  Any call of a flight may LEAD it while nobody does; it
  works, and either FINISHES with a value, which ends the flight, or goes away (`abandon`), and then
  another call of the flight may lead.  This file names no program; it carries

  1. **Flights** — `Group`, with the five operations.

  2. **One leader** — `Leads g k n i`: call `i` is at work for key `k`, in flight `n`.  Two calls that lead for
     one key are the same (`Leads.unique`).

  3. **One value** — `Joined Good g k n`: the flight goes on, or what it ended with is `Good` for the key.
     Every operation of another call leaves it so; so a value is never handed to a call for another key.
-/
import Mathlib

namespace SingleFlight

variable {κ ι ν : Type}

/-! ## Flights -/

/-- The flights by number: the one of each key that goes on, their leaders, and what they ended with. -/
structure Group (κ ι ν : Type) where
  current : κ → Option Nat
  leader : Nat → Option ι
  result : Nat → Option ν
  opened : Nat

/-- No flight yet. -/
def Group.new : Group κ ι ν := ⟨fun _ => none, fun _ => none, fun _ => none, 0⟩

/-- Call `i` begins to work for flight `n`. -/
def Group.lead (g : Group κ ι ν) (n : Nat) (i : ι) : Option (Group κ ι ν) :=
  if (g.leader n).isNone ∧ (g.result n).isNone then
    some { g with leader := Function.update g.leader n (some i) }
  else none

/-- The leader has gone away without a value. -/
def Group.abandon (g : Group κ ι ν) (n : Nat) : Group κ ι ν :=
  { g with leader := Function.update g.leader n none }

/-- Flights are numbered in turn; one that goes on is that of one key, and has no result. -/
structure Group.Lawful (g : Group κ ι ν) : Prop where
  going : ∀ {k n}, g.current k = some n → n < g.opened ∧ g.result n = none
  key : ∀ {k k' n}, g.current k = some n → g.current k' = some n → k = k'
  fresh : ∀ {n}, g.opened ≤ n → g.result n = none

/-- Call `i` is at work for `k`, in flight `n`. -/
structure Group.Leads (g : Group κ ι ν) (k : κ) (n : Nat) (i : ι) : Prop where
  leader : g.leader n = some i
  current : g.current k = some n

/-- A call for `k` is in flight `n`: the flight goes on, or it has ended with a value that is good. -/
structure Group.Joined (Good : κ → ν → Prop) (g : Group κ ι ν) (k : κ) (n : Nat) : Prop where
  opened : n < g.opened
  current : g.result n = none → g.current k = some n
  good : ∀ {v}, g.result n = some v → Good k v

variable {g g' : Group κ ι ν} {k k' : κ} {n m : Nat} {i j : ι} {v : ν} {Good Good' : κ → ν → Prop}

theorem Group.lawful_new : (Group.new : Group κ ι ν).Lawful where
  going := by rintro _ _ ⟨⟩
  key := by rintro _ _ _ ⟨⟩
  fresh := fun _ => rfl

/-- **One leader**: at most one call is at work for a key. -/
theorem Group.Leads.unique (h : g.Leads k n i) (h' : g.Leads k m j) : i = j := by
  obtain rfl : n = m := Option.some.inj (h.current.symm.trans h'.current)
  exact Option.some.inj (h.leader.symm.trans h'.leader)

theorem Group.Joined.mono (h : g.Joined Good k n) (hle : ∀ v, Good k v → Good' k v) :
    g.Joined Good' k n where
  opened := h.opened
  current := h.current
  good := fun hv => hle _ (h.good hv)

/-! ## Leading -/

theorem Group.lead_eq_some (h : g.lead n i = some g') :
    g.leader n = none ∧ g.result n = none ∧
      g' = { g with leader := Function.update g.leader n (some i) } := by
  unfold Group.lead at h
  split at h
  · rename_i hfree
    exact ⟨Option.isNone_iff_eq_none.mp hfree.1, Option.isNone_iff_eq_none.mp hfree.2,
      (Option.some.inj h).symm⟩
  · cases h

theorem Group.Lawful.lead (hg : g.Lawful) (h : g.lead n i = some g') : g'.Lawful := by
  obtain ⟨-, -, rfl⟩ := lead_eq_some h
  exact ⟨hg.going, hg.key, hg.fresh⟩

/-- The call that begins to work leads. -/
theorem Group.Joined.leads (h : g.Joined Good k n) (hlead : g.lead n i = some g') :
    g'.Leads k n i := by
  obtain ⟨-, hresult, rfl⟩ := lead_eq_some hlead
  exact ⟨Function.update_self _ _ _, h.current hresult⟩

theorem Group.Joined.lead (h : g.Joined Good k n) (hlead : g.lead m i = some g') :
    g'.Joined Good k n := by
  obtain ⟨-, -, rfl⟩ := lead_eq_some hlead
  exact ⟨h.opened, h.current, h.good⟩

/-- Nobody who leads is replaced. -/
theorem Group.Leads.lead (h : g.Leads k n j) (hlead : g.lead m i = some g') : g'.Leads k n j := by
  obtain ⟨hnone, -, rfl⟩ := lead_eq_some hlead
  refine ⟨?_, h.current⟩
  show Function.update g.leader m (some i) n = some j
  rw [Function.update_of_ne]
  · exact h.leader
  · rintro rfl
    cases hnone.symm.trans h.leader

/-! ## Going away -/

/-- Two leaders have different flights. -/
theorem Group.Leads.flight_ne (h : g.Leads k n i) (h' : g.Leads k' m j) (hne : i ≠ j) : n ≠ m := by
  rintro rfl
  exact hne (Option.some.inj (h.leader.symm.trans h'.leader))

theorem Group.Lawful.abandon (hg : g.Lawful) (n : Nat) : (g.abandon n).Lawful :=
  ⟨hg.going, hg.key, hg.fresh⟩

theorem Group.Joined.abandon (h : g.Joined Good k n) (m : Nat) : (g.abandon m).Joined Good k n :=
  ⟨h.opened, h.current, h.good⟩

theorem Group.Leads.abandon (h : g.Leads k n j) (hlead : g.Leads k' m i) (hne : j ≠ i) :
    (g.abandon m).Leads k n j where
  leader := by
    show Function.update g.leader m none n = some j
    rw [Function.update_of_ne (h.flight_ne hlead hne)]
    exact h.leader
  current := h.current

/-! ## Joining -/

variable [DecidableEq κ]

/-- The flight that a call for `k` joins. -/
def Group.join (g : Group κ ι ν) (k : κ) : Nat × Group κ ι ν :=
  match g.current k with
  | some n => (n, g)
  | none => (g.opened,
      { g with current := Function.update g.current k (some g.opened), opened := g.opened + 1 })

theorem Group.join_cases (g : Group κ ι ν) (k : κ) :
    (∃ n, g.current k = some n ∧ g.join k = (n, g)) ∨
    g.current k = none ∧ g.join k = (g.opened,
      { g with current := Function.update g.current k (some g.opened), opened := g.opened + 1 }) := by
  unfold Group.join
  cases h : g.current k with
  | none => exact .inr ⟨rfl, rfl⟩
  | some n => exact .inl ⟨n, rfl, rfl⟩

@[simp] theorem Group.leader_join (g : Group κ ι ν) (k : κ) : (g.join k).2.leader = g.leader := by
  rcases g.join_cases k with ⟨m, -, heq⟩ | ⟨-, heq⟩
  · rw [heq]
  · rw [heq]

theorem Group.Lawful.join (hg : g.Lawful) (k : κ) : (g.join k).2.Lawful := by
  rcases g.join_cases k with ⟨m, -, heq⟩ | ⟨-, heq⟩
  · rw [heq]
    exact hg
  · rw [heq]
    -- what goes on already has a smaller number than what is opened
    have hne {k' : κ} : g.current k' ≠ some g.opened := fun h =>
      absurd (hg.going h).1 (Nat.lt_irrefl _)
    refine ⟨fun {k₁ m} h => ?_, fun {k₁ k₂ m} h₁ h₂ => ?_, fun hm => hg.fresh (Nat.le_of_succ_le hm)⟩
    · change Function.update g.current k (some g.opened) k₁ = some m at h
      rw [Function.update_apply] at h
      split at h
      · obtain rfl := Option.some.inj h
        exact ⟨Nat.lt_succ_self _, hg.fresh (Nat.le_refl _)⟩
      · exact ⟨Nat.lt_succ_of_lt (hg.going h).1, (hg.going h).2⟩
    · change Function.update g.current k (some g.opened) k₁ = some m at h₁
      change Function.update g.current k (some g.opened) k₂ = some m at h₂
      rw [Function.update_apply] at h₁ h₂
      split at h₁ <;> split at h₂
      · rename_i e₁ e₂
        exact e₁.trans e₂.symm
      · exact absurd (h₂.trans h₁.symm) hne
      · exact absurd (h₁.trans h₂.symm) hne
      · exact hg.key h₁ h₂

/-- The call that joins is in the flight. -/
theorem Group.Lawful.joined_join (hg : g.Lawful) (k : κ) :
    (g.join k).2.Joined Good k (g.join k).1 := by
  rcases g.join_cases k with ⟨m, hcur, heq⟩ | ⟨-, heq⟩
  · rw [heq]
    exact ⟨(hg.going hcur).1, fun _ => hcur, fun hv => by
      rw [(hg.going hcur).2] at hv
      cases hv⟩
  · rw [heq]
    exact ⟨Nat.lt_succ_self _, fun _ => Function.update_self _ _ _, fun hv => by
      rw [hg.fresh (Nat.le_refl _)] at hv
      cases hv⟩

/-- The others notice nothing. -/
theorem Group.Joined.join (h : g.Joined Good k n) (k' : κ) : (g.join k').2.Joined Good k n := by
  rcases g.join_cases k' with ⟨m, -, heq⟩ | ⟨hnone, heq⟩
  · rw [heq]
    exact h
  · rw [heq]
    refine ⟨Nat.lt_succ_of_lt h.opened, fun hr => ?_, h.good⟩
    have hcur := h.current hr
    show Function.update g.current k' (some g.opened) k = some n
    rwa [Function.update_of_ne]
    rintro rfl
    rw [hnone] at hcur
    cases hcur

theorem Group.Leads.join (h : g.Leads k n i) (k' : κ) : (g.join k').2.Leads k n i := by
  rcases g.join_cases k' with ⟨m, -, heq⟩ | ⟨hnone, heq⟩
  · rw [heq]
    exact h
  · rw [heq]
    refine ⟨h.leader, ?_⟩
    show Function.update g.current k' (some g.opened) k = some n
    rw [Function.update_of_ne]
    · exact h.current
    · rintro rfl
      cases hnone.symm.trans h.current

/-! ## Returning -/

/-- The leader has returned `v`. -/
def Group.finish (g : Group κ ι ν) (k : κ) (n : Nat) (v : ν) : Group κ ι ν :=
  { g with
    current := Function.update g.current k none
    leader := Function.update g.leader n none
    result := Function.update g.result n (some v) }

theorem Group.Lawful.finish (hg : g.Lawful) (h : g.Leads k n i) (v : ν) :
    (g.finish k n v).Lawful where
  going := by
    intro k₁ m hm
    change Function.update g.current k none k₁ = some m at hm
    rw [Function.update_apply] at hm
    split at hm
    · cases hm
    · rename_i hne
      refine ⟨(hg.going hm).1, ?_⟩
      show Function.update g.result n (some v) m = none
      rw [Function.update_of_ne]
      · exact (hg.going hm).2
      · rintro rfl
        exact hne (hg.key hm h.current)
  key := by
    intro k₁ k₂ m h₁ h₂
    change Function.update g.current k none k₁ = some m at h₁
    change Function.update g.current k none k₂ = some m at h₂
    rw [Function.update_apply] at h₁ h₂
    split at h₁
    · cases h₁
    · split at h₂
      · cases h₂
      · exact hg.key h₁ h₂
  fresh := by
    intro m hm
    show Function.update g.result n (some v) m = none
    rw [Function.update_of_ne]
    · exact hg.fresh hm
    · rintro rfl
      exact absurd (hg.going h.current).1 (Nat.not_lt_of_le hm)

/-- **One value**: what the leader returns is handed to calls for its own key. -/
theorem Group.Joined.finish (hg : g.Lawful) (h : g.Joined Good k n) (hlead : g.Leads k' m i)
    (hv : Good k' v) : (g.finish k' m v).Joined Good k n := by
  have hgoing := hg.going hlead.current
  by_cases hn : n = m
  · subst hn
    -- the call is in the flight that ends, and so for the same key
    have hkey : k = k' := hg.key (h.current hgoing.2) hlead.current
    refine ⟨h.opened, fun hr => ?_, fun {w} hw => ?_⟩
    · change Function.update g.result n (some v) n = none at hr
      rw [Function.update_self] at hr
      cases hr
    · change Function.update g.result n (some v) n = some w at hw
      rw [Function.update_self] at hw
      exact Option.some.inj hw ▸ hkey ▸ hv
  · refine ⟨h.opened, fun hr => ?_, fun {w} hw => ?_⟩
    · change Function.update g.result m (some v) n = none at hr
      rw [Function.update_of_ne hn] at hr
      show Function.update g.current k' none k = some n
      rw [Function.update_of_ne]
      · exact h.current hr
      · rintro rfl
        exact hn (Option.some.inj ((h.current hr).symm.trans hlead.current))
    · change Function.update g.result m (some v) n = some w at hw
      rw [Function.update_of_ne hn] at hw
      exact h.good hw

/-- The leader itself is in the flight still, and finds its own value there. -/
theorem Group.Leads.joined_finish (hg : g.Lawful) (h : g.Leads k n i) (hv : Good k v) :
    (g.finish k n v).Joined Good k n where
  opened := (hg.going h.current).1
  current := fun hr => by
    change Function.update g.result n (some v) n = none at hr
    rw [Function.update_self] at hr
    cases hr
  good := fun {w} hw => by
    change Function.update g.result n (some v) n = some w at hw
    rw [Function.update_self] at hw
    exact Option.some.inj hw ▸ hv

theorem Group.Leads.finish (h : g.Leads k n j) (hlead : g.Leads k' m i) (hne : j ≠ i) :
    (g.finish k' m v).Leads k n j where
  leader := by
    show Function.update g.leader m none n = some j
    rw [Function.update_of_ne (h.flight_ne hlead hne)]
    exact h.leader
  current := by
    show Function.update g.current k' none k = some n
    rw [Function.update_of_ne]
    · exact h.current
    · rintro rfl
      exact hne (h.unique hlead)

end SingleFlight
