/-
  Happy Eyeballs: which addresses are tried, and when the client gives up (`interleave_ips` and
  `happy_eyeballs_connect` in `src/dns/client.rs`).

  1. **Addresses** — the two lists are taken in turns, beginning with the preferred family
     (`interleaveIps`).  The specification is `Alternates`.

  2. **Attempts** — the loop selects between the next attempt that ended, the delay, and an `else` for
     when both are off.  The first is off while the set is empty, the second once `all_started` is set.
     `step` has an event for each of the three turns, for the end of an attempt and for the end of the
     delay, in ANY order.

  3. **The invariant (`Inv`)** — the attempts and the addresses that are left are the list; as long as the
     loop runs, what it has joined has failed.  So `Err` means that everything was tried.

  4. **No waiting for nothing** — without a turn to take, the loop waits for an attempt that has not ended
     or for the delay (`turn_or_wait`), and every turn makes `budget` smaller.
-/
import Httproxy.Lib.IpAddr
import Httproxy.Lib.Machine

namespace Httproxy.HappyEyeballs

open Machine IpAddr

/-! ## Addresses -/

section Addresses

variable {α : Type}

/-- The loop of `interleave_ips`; where one iterator has ended, the other one is emptied. -/
def interleaveLoop : (pi si r : List α) → List α
  | a :: pi, b :: si, r => interleaveLoop pi si (r ++ [a] ++ [b])
  | a :: pi, [], r => r ++ [a] ++ pi
  | [], a :: si, r => r ++ [a] ++ si
  | [], [], r => r

/-- `interleave_ips`. -/
def interleaveIps (preferIpv6 : Bool) (v4 v6 : List α) : List α :=
  let (p, s) := if preferIpv6 then (v6, v4) else (v4, v6)
  interleaveLoop p s []

/-- `r` takes `p` and `s` in turns until one of them is exhausted. -/
structure Alternates (p s r : List α) : Prop where
  /-- Every element as often as in both. -/
  perm : r.Perm (p ++ s)
  left : p.Sublist r
  right : s.Sublist r
  turns : ∀ i, i < min p.length s.length → r[2 * i]? = p[i]? ∧ r[2 * i + 1]? = s[i]?
  rest : r.drop (2 * min p.length s.length) =
    p.drop (min p.length s.length) ++ s.drop (min p.length s.length)

theorem Alternates.left_only (p : List α) : Alternates p [] p where
  perm := by rw [List.append_nil]
  left := List.Sublist.refl p
  right := List.nil_sublist p
  turns := fun i hi => by simp at hi
  rest := by simp

theorem Alternates.right_only (s : List α) : Alternates [] s s where
  perm := List.Perm.refl s
  left := List.nil_sublist s
  right := List.Sublist.refl s
  turns := fun i hi => by simp at hi
  rest := by simp

theorem Alternates.cons {p s r : List α} (h : Alternates p s r) (a b : α) :
    Alternates (a :: p) (b :: s) (a :: b :: r) where
  perm := by
    rw [List.cons_append]
    exact ((h.perm.cons b).trans List.perm_middle.symm).cons a
  left := (h.left.cons b).cons_cons a
  right := (h.right.cons_cons b).cons a
  turns := fun i hi => by
    cases i with
    | zero => exact ⟨rfl, rfl⟩
    | succ i =>
      rw [List.length_cons, List.length_cons] at hi
      exact h.turns i (by omega)
  rest := by
    have hmin : min (a :: p).length (b :: s).length = min p.length s.length + 1 := by
      rw [List.length_cons, List.length_cons]
      omega
    rw [hmin]
    exact h.rest

theorem interleaveLoop_alternates (p s r : List α) :
    ∃ out, interleaveLoop p s r = r ++ out ∧ Alternates p s out := by
  fun_induction interleaveLoop p s r with
  | case1 a p b s r ih =>
    obtain ⟨out, hout, halt⟩ := ih
    exact ⟨a :: b :: out, by rw [hout]; simp, halt.cons a b⟩
  | case2 a p r => exact ⟨a :: p, by simp, .left_only _⟩
  | case3 a s r => exact ⟨a :: s, by simp, .right_only _⟩
  | case4 r => exact ⟨[], by simp, .left_only []⟩

theorem interleaveIps_alternates (preferIpv6 : Bool) (v4 v6 : List α) :
    Alternates (if preferIpv6 then v6 else v4) (if preferIpv6 then v4 else v6)
      (interleaveIps preferIpv6 v4 v6) := by
  have hloop : ∀ p s : List α, Alternates p s (interleaveLoop p s []) := by
    intro p s
    obtain ⟨out, hout, halt⟩ := interleaveLoop_alternates p s []
    rw [hout]
    exact halt
  cases preferIpv6 with
  | false => exact hloop v4 v6
  | true => exact hloop v6 v4

end Addresses

/-! ## Program -/

inductive ConnectError where
  /-- "no IPs to connect" -/
  | noIps
  /-- "all connection attempts failed (via proxy: {:?})" -/
  | allFailed (proxy : Option Bytes)
  deriving DecidableEq, Repr

/-- How the task of an attempt ended. -/
inductive Outcome (Stream : Type) where
  | connected (stream : Stream)
  | failed
  | panicked
  deriving DecidableEq, Repr

/-- A task of `connect_single`. -/
structure Attempt (Stream : Type) where
  ip : Addr
  outcome : Option (Outcome Stream)
  /-- Its result has been taken out of the `JoinSet`. -/
  joined : Bool
  deriving DecidableEq, Repr

structure Eyeballs (Stream : Type) where
  /-- Every attempt spawned so far, in order; those not joined are the `JoinSet`. -/
  attempts : List (Attempt Stream)
  iter : List Addr
  /-- The deadline of `sleep` has passed. -/
  elapsed : Bool
  allStarted : Bool
  returned : Option (Except ConnectError Stream)

inductive Event (Stream : Type) where
  /-- The task of attempt `n` ends. -/
  | ends (n : Nat) (outcome : Outcome Stream)
  /-- The delay is over. -/
  | expires
  /-- `join_next` gives the result of attempt `n`. -/
  | join (n : Nat)
  /-- The branch of `sleep`. -/
  | timer
  /-- The `else` branch. -/
  | otherwise
  deriving DecidableEq, Repr

section Program

variable {Stream : Type}

def Event.isTurn : Event Stream → Bool
  | .join _ | .timer | .otherwise => true
  | .ends .. | .expires => false

/-- `set.is_empty()`. -/
def Eyeballs.setIsEmpty (s : Eyeballs Stream) : Bool := s.attempts.all (·.joined)

/-- The beginning of `happy_eyeballs_connect`, up to the loop. -/
def start : List Addr → Eyeballs Stream
  | [] =>
    { attempts := [], iter := [], elapsed := false, allStarted := false
      returned := some (.error .noIps) }
  | ip :: iter =>
    { attempts := [⟨ip, none, false⟩], iter, elapsed := false, allStarted := false
      returned := none }

/-- Behind `join_next`: `match result`, and the check for the end. -/
def Eyeballs.handle (proxy : Option Bytes) (s : Eyeballs Stream) : Outcome Stream → Eyeballs Stream
  | .connected stream => { s with returned := some (.ok stream) }
  | .failed | .panicked =>
    if s.allStarted && s.setIsEmpty then { s with returned := some (.error (.allFailed proxy)) }
    else s

/-- An event, as long as the function has not returned; with it the set is dropped. -/
def step (proxy : Option Bytes) (s : Eyeballs Stream) (e : Event Stream) :
    Option (Eyeballs Stream) :=
  if s.returned.isSome then none
  else
    match e with
    | .ends n o =>
      match s.attempts[n]? with
      | some ⟨ip, none, joined⟩ => some { s with attempts := s.attempts.set n ⟨ip, some o, joined⟩ }
      | _ => none
    | .expires => if s.elapsed then none else some { s with elapsed := true }
    | .join n =>
      match s.attempts[n]? with
      | some ⟨ip, some o, false⟩ =>
        some (Eyeballs.handle proxy { s with attempts := s.attempts.set n ⟨ip, some o, true⟩ } o)
      | _ => none
    | .timer =>
      if !s.allStarted && s.elapsed then
        match s.iter with
        | ip :: iter =>
          some { s with attempts := s.attempts ++ [⟨ip, none, false⟩], iter, elapsed := false }
        | [] => some { s with allStarted := true }
      else none
    | .otherwise =>
      if s.setIsEmpty && s.allStarted then
        some { s with returned := some (.error (.allFailed proxy)) }
      else none

/-! ## What a step does -/

/-- The cases of `step`. -/
inductive Steps (proxy : Option Bytes) (s : Eyeballs Stream) : Event Stream → Eyeballs Stream → Prop
  | ends {n : Nat} {ip : Addr} {joined : Bool} (o : Outcome Stream)
      (hn : s.attempts[n]? = some ⟨ip, none, joined⟩) :
      Steps proxy s (.ends n o) { s with attempts := s.attempts.set n ⟨ip, some o, joined⟩ }
  | expires : Steps proxy s .expires { s with elapsed := true }
  | join {n : Nat} {ip : Addr} {o : Outcome Stream} (hn : s.attempts[n]? = some ⟨ip, some o, false⟩) :
      Steps proxy s (.join n)
        (Eyeballs.handle proxy { s with attempts := s.attempts.set n ⟨ip, some o, true⟩ } o)
  | spawn {ip : Addr} {iter : List Addr} (hstarted : s.allStarted = false) (hiter : s.iter = ip :: iter) :
      Steps proxy s .timer
        { s with attempts := s.attempts ++ [⟨ip, none, false⟩], iter, elapsed := false }
  | last (hstarted : s.allStarted = false) (hiter : s.iter = []) :
      Steps proxy s .timer { s with allStarted := true }
  | otherwise (hempty : s.setIsEmpty = true) (hstarted : s.allStarted = true) :
      Steps proxy s .otherwise { s with returned := some (.error (.allFailed proxy)) }

variable {proxy : Option Bytes} {s t : Eyeballs Stream} {e : Event Stream}

theorem step_cases (h : step proxy s e = some t) : s.returned = none ∧ Steps proxy s e t := by
  unfold step at h
  split at h
  · cases h
  · rename_i hgoing
    refine ⟨by simpa using hgoing, ?_⟩
    cases e with
    | ends n o =>
      dsimp only at h
      split at h
      · rename_i hn
        cases h
        exact .ends o hn
      · cases h
    | expires =>
      dsimp only at h
      split at h
      · cases h
      · cases h
        exact .expires
    | join n =>
      dsimp only at h
      split at h
      · rename_i hn
        cases h
        exact .join hn
      · cases h
    | timer =>
      dsimp only at h
      split at h
      · rename_i hready
        have hstarted : s.allStarted = false := by
          have hboth := Bool.and_eq_true_iff.mp hready
          simpa using hboth.1
        split at h
        · rename_i hiter
          cases h
          exact .spawn hstarted hiter
        · rename_i hiter
          cases h
          exact .last hstarted hiter
      · cases h
    | otherwise =>
      dsimp only at h
      split at h
      · rename_i hready
        cases h
        exact .otherwise (Bool.and_eq_true_iff.mp hready).1 (Bool.and_eq_true_iff.mp hready).2
      · cases h

/-- A result either leaves the loop running or makes it return. -/
theorem handle_cases (s : Eyeballs Stream) (o : Outcome Stream) :
    s.handle proxy o = s ∨ ∃ r, s.handle proxy o = { s with returned := some r } := by
  have hif : ∀ r, (if s.allStarted && s.setIsEmpty then { s with returned := some r } else s) = s ∨
      ∃ r', (if s.allStarted && s.setIsEmpty then { s with returned := some r } else s) =
        { s with returned := some r' } := by
    intro r
    split
    · exact .inr ⟨r, rfl⟩
    · exact .inl rfl
  cases o with
  | connected stream => exact .inr ⟨.ok stream, rfl⟩
  | failed => exact hif _
  | panicked => exact hif _

/-! ## The invariant -/

/-- The attempt has ended without a connection. -/
def Lost (a : Attempt Stream) : Prop := a.outcome = some .failed ∨ a.outcome = some .panicked

structure Inv (proxy : Option Bytes) (ips : List Addr) (s : Eyeballs Stream) : Prop where
  order : s.attempts.map (·.ip) ++ s.iter = ips
  started : s.allStarted = true → s.iter = []
  going : s.returned = none → ∀ a ∈ s.attempts, a.joined = true → Lost a
  ok : ∀ stream, s.returned = some (.ok stream) →
    ∃ a ∈ s.attempts, a.outcome = some (.connected stream)
  err : ∀ e, s.returned = some (.error e) →
    e = .allFailed proxy ∧ s.iter = [] ∧ ∀ a ∈ s.attempts, Lost a

theorem inv_start {ips : List Addr} (h : ips ≠ []) : Inv proxy ips (start ips : Eyeballs Stream) := by
  obtain ⟨ip, iter, rfl⟩ := List.exists_cons_of_ne_nil h
  refine ⟨rfl, fun hs => ?_, fun _ a ha hj => ?_, fun stream hr => ?_, fun e hr => ?_⟩
  · cases hs
  · obtain rfl := List.mem_singleton.mp ha
    cases hj
  · cases hr
  · cases hr

/-- A running loop in which only the attempts, the list or the timer changed. -/
theorem Inv.of_going {ips : List Addr} (hgoing : t.returned = none)
    (order : t.attempts.map (·.ip) ++ t.iter = ips) (started : t.allStarted = true → t.iter = [])
    (lost : ∀ a ∈ t.attempts, a.joined = true → Lost a) : Inv proxy ips t where
  order := order
  started := started
  going := fun _ => lost
  ok := fun stream hr => by rw [hgoing] at hr; cases hr
  err := fun e hr => by rw [hgoing] at hr; cases hr

/-- The loop ends with `Err` when all addresses were taken and the set is empty. -/
theorem Inv.give_up {ips : List Addr} (h : Inv proxy ips s) (hgoing : s.returned = none)
    (hstarted : s.allStarted = true) (hempty : s.setIsEmpty = true) :
    Inv proxy ips { s with returned := some (.error (.allFailed proxy)) } where
  order := h.order
  started := h.started
  going := fun hr => by cases hr
  ok := fun stream hr => by cases hr
  err := fun e hr => by
    cases hr
    refine ⟨rfl, h.started hstarted, fun a ha => ?_⟩
    exact h.going hgoing a ha (List.all_eq_true.mp hempty a ha)

/-- The address of an attempt does not change. -/
theorem Inv.order_set {ips : List Addr} {n : Nat} {a b : Attempt Stream} (h : Inv proxy ips s)
    (hn : s.attempts[n]? = some a) (hip : b.ip = a.ip) :
    (s.attempts.set n b).map (·.ip) ++ s.iter = ips := by
  obtain ⟨hlt, hget⟩ := List.getElem?_eq_some_iff.mp hn
  have hlt' : n < (s.attempts.map (·.ip)).length := by rwa [List.length_map]
  have hsame : b.ip = (s.attempts.map (·.ip))[n] := by rw [List.getElem_map, hget, hip]
  rw [List.map_set, hsame, List.set_getElem_self hlt']
  exact h.order

/-- The result of a lost attempt is taken out of the set. -/
theorem Inv.join_lost {ips : List Addr} {n : Nat} {ip : Addr} {o : Outcome Stream}
    (h : Inv proxy ips s) (hgoing : s.returned = none)
    (hn : s.attempts[n]? = some ⟨ip, some o, false⟩) (hlost : o = .failed ∨ o = .panicked) :
    Inv proxy ips { s with attempts := s.attempts.set n ⟨ip, some o, true⟩ } := by
  refine .of_going hgoing (h.order_set hn rfl) h.started ?_
  intro a ha hj
  rcases List.mem_or_eq_of_mem_set ha with hold | rfl
  · exact h.going hgoing a hold hj
  · rcases hlost with rfl | rfl
    · exact .inl rfl
    · exact .inr rfl

theorem Inv.handle {ips : List Addr} {o : Outcome Stream} (h : Inv proxy ips s)
    (hgoing : s.returned = none) (hlost : o = .failed ∨ o = .panicked) :
    Inv proxy ips (Eyeballs.handle proxy s o) := by
  have hif : Inv proxy ips
      (if s.allStarted && s.setIsEmpty then
        { s with returned := some (.error (.allFailed proxy)) } else s) := by
    split
    · rename_i hend
      obtain ⟨hstarted, hempty⟩ := Bool.and_eq_true_iff.mp hend
      exact h.give_up hgoing hstarted hempty
    · exact h
  rcases hlost with rfl | rfl
  · exact hif
  · exact hif

theorem inv_step {ips : List Addr} (h : Inv proxy ips s) (hstep : step proxy s e = some t) :
    Inv proxy ips t := by
  obtain ⟨hgoing, hcase⟩ := step_cases hstep
  cases hcase with
  | @ends n ip joined o hn =>
    refine .of_going hgoing (h.order_set hn rfl) h.started ?_
    intro a ha hj
    rcases List.mem_or_eq_of_mem_set ha with hold | rfl
    · exact h.going hgoing a hold hj
    · -- an attempt that was joined has ended before
      rcases h.going hgoing _ (List.mem_of_getElem? hn) hj with hout | hout <;> cases hout
  | expires => exact .of_going hgoing h.order h.started (h.going hgoing)
  | @join n ip o hn =>
    cases o with
    | failed => exact (h.join_lost hgoing hn (.inl rfl)).handle hgoing (.inl rfl)
    | panicked => exact (h.join_lost hgoing hn (.inr rfl)).handle hgoing (.inr rfl)
    | connected stream =>
      refine ⟨h.order_set hn rfl, h.started, fun hr => ?_, fun stream' hr => ?_, fun e hr => ?_⟩
      · cases hr
      · cases hr
        obtain ⟨hlt, -⟩ := List.getElem?_eq_some_iff.mp hn
        exact ⟨_, List.mem_set hlt _, rfl⟩
      · cases hr
  | @spawn ip iter hstarted hiter =>
    refine .of_going hgoing ?_ (fun hs => ?_) ?_
    -- the address moves from the iterator to its attempt
    · show (s.attempts ++ [_]).map _ ++ iter = ips
      rw [← h.order, hiter]
      simp
    · exact absurd (hstarted.symm.trans hs) (by simp)
    · intro a ha hj
      rcases List.mem_append.mp ha with hold | hnew
      · exact h.going hgoing a hold hj
      · obtain rfl := List.mem_singleton.mp hnew
        cases hj
  | last hstarted hiter => exact .of_going hgoing h.order (fun _ => hiter) (h.going hgoing)
  | otherwise hempty hstarted => exact h.give_up hgoing hstarted hempty

/-! ## Turns -/

/-- How many attempts are in the `JoinSet`. -/
def inSet (as : List (Attempt Stream)) : Nat := as.countP fun a => !a.joined

theorem inSet_ends {as : List (Attempt Stream)} {n : Nat} {a b : Attempt Stream}
    (hn : as[n]? = some a) (hsame : b.joined = a.joined) : inSet (as.set n b) = inSet as := by
  obtain ⟨hlt, hget⟩ := List.getElem?_eq_some_iff.mp hn
  have hpos : a.joined = false → 0 < inSet as := by
    intro ha
    exact List.countP_pos_iff.mpr ⟨a, List.mem_of_getElem? hn, by rw [ha]; rfl⟩
  -- only `joined` is counted, and it does not change
  rw [inSet, List.countP_set hlt, hget, hsame]
  show inSet as - _ + _ = inSet as
  cases hj : a.joined with
  | false =>
    have := hpos hj
    show inSet as - 1 + 1 = inSet as
    omega
  | true => rfl

theorem inSet_join {as : List (Attempt Stream)} {n : Nat} {ip : Addr} {o : Outcome Stream}
    (hn : as[n]? = some ⟨ip, some o, false⟩) :
    inSet (as.set n ⟨ip, some o, true⟩) + 1 = inSet as := by
  obtain ⟨hlt, hget⟩ := List.getElem?_eq_some_iff.mp hn
  have hpos : 0 < inSet as := List.countP_pos_iff.mpr ⟨_, List.mem_of_getElem? hn, rfl⟩
  rw [inSet, List.countP_set hlt, hget]
  show inSet as - 1 + 0 + 1 = inSet as
  omega

/-- How many turns can still be taken: two for every address that is left (its start, and its result),
    one for every attempt in the set, one to find the list at its end and one to return. -/
def budget (s : Eyeballs Stream) : Nat :=
  2 * s.iter.length + inSet s.attempts + (if s.allStarted then 0 else 1) +
    (if s.returned.isSome then 0 else 1)

theorem budget_return (s : Eyeballs Stream) (r : Except ConnectError Stream) :
    budget { s with returned := some r } + (if s.returned.isSome then 0 else 1) = budget s := rfl

theorem budget_handle (s : Eyeballs Stream) (o : Outcome Stream) :
    budget (s.handle proxy o) ≤ budget s := by
  rcases handle_cases s o with hsame | ⟨r, hreturn⟩
  · rw [hsame]
  · rw [hreturn]
    exact Nat.le.intro (budget_return s r)

theorem budget_step (h : step proxy s e = some t) :
    budget t + (if e.isTurn then 1 else 0) ≤ budget s := by
  obtain ⟨hgoing, hcase⟩ := step_cases h
  cases hcase with
  | @ends n ip joined o hn =>
    have hset := @inSet_ends _ _ _ _ ⟨ip, some o, joined⟩ hn rfl
    show budget { s with attempts := _ } + 0 ≤ _
    unfold budget
    dsimp only
    omega
  | expires => exact Nat.le_refl _
  | @join n ip o hn =>
    have hset := inSet_join hn
    have hhandle := @budget_handle _ proxy
      { s with attempts := s.attempts.set n ⟨ip, some o, true⟩ } o
    -- the attempt leaves the set; `handle` adds nothing to the budget
    have hone : budget { s with attempts := s.attempts.set n ⟨ip, some o, true⟩ } + 1 = budget s := by
      unfold budget
      dsimp only
      omega
    show budget _ + 1 ≤ _
    omega
  | @spawn ip iter hstarted hiter =>
    -- of the two turns of the address one is spent, the other is that of its attempt
    have hset : inSet (s.attempts ++ [⟨ip, none, false⟩]) = inSet s.attempts + 1 := by
      rw [inSet, List.countP_append]
      rfl
    show budget { s with attempts := _, iter := iter, elapsed := _ } + 1 ≤ _
    unfold budget
    dsimp only
    rw [hset, hiter, List.length_cons]
    omega
  | last hstarted hiter =>
    show budget { s with allStarted := true } + 1 ≤ _
    unfold budget
    dsimp only
    rw [hstarted, if_pos rfl, if_neg Bool.false_ne_true]
    omega
  | otherwise hempty hstarted =>
    have hreturn := budget_return s (.error (.allFailed proxy))
    rw [hgoing] at hreturn
    exact Nat.le_of_eq hreturn

/-! ## Waiting -/

/-- The loop can go on: a turn can be taken. -/
def CanTurn (proxy : Option Bytes) (s : Eyeballs Stream) : Prop :=
  ∃ e t, e.isTurn = true ∧ step proxy s e = some t

theorem join_of_ended {n : Nat} {a : Attempt Stream} {o : Outcome Stream} (hgoing : s.returned = none)
    (hn : s.attempts[n]? = some a) (ho : a.outcome = some o) (hj : a.joined = false) :
    step proxy s (.join n) =
      some (Eyeballs.handle proxy { s with attempts := s.attempts.set n ⟨a.ip, some o, true⟩ } o) := by
  obtain ⟨ip, outcome, joined⟩ := a
  dsimp only at ho hj
  subst ho hj
  unfold step
  rw [hgoing, if_neg (by simp)]
  dsimp only
  rw [hn]

theorem timer_of_elapsed (hgoing : s.returned = none) (hstarted : s.allStarted = false)
    (helapsed : s.elapsed = true) : ∃ t, step proxy s .timer = some t := by
  unfold step
  rw [hgoing, if_neg (by simp)]
  dsimp only
  rw [hstarted, helapsed, if_pos (by rfl)]
  cases s.iter with
  | nil => exact ⟨_, rfl⟩
  | cons ip iter => exact ⟨_, rfl⟩

/-- **The loop waits for something that can still happen**: an attempt that has not ended, or the
    delay. -/
theorem turn_or_wait (hgoing : s.returned = none) :
    CanTurn proxy s ∨ (∃ a ∈ s.attempts, a.outcome = none) ∨
      (s.allStarted = false ∧ s.elapsed = false) := by
  by_cases hopen : ∃ a ∈ s.attempts, a.joined = false
  · obtain ⟨a, ha, hj⟩ := hopen
    cases ho : a.outcome with
    | none => exact .inr (.inl ⟨a, ha, ho⟩)
    | some o =>
      obtain ⟨n, hn⟩ := List.getElem?_of_mem ha
      exact .inl ⟨.join n, _, rfl, join_of_ended hgoing hn ho hj⟩
  · -- the set is empty
    have hempty : s.setIsEmpty = true := by
      rw [Eyeballs.setIsEmpty, List.all_eq_true]
      intro a ha
      by_contra hj
      exact hopen ⟨a, ha, by simpa using hj⟩
    cases hstarted : s.allStarted with
    | true =>
      refine .inl ⟨.otherwise, { s with returned := some (.error (.allFailed proxy)) }, rfl, ?_⟩
      unfold step
      rw [hgoing, if_neg (by simp)]
      dsimp only
      rw [hempty, hstarted]
      rfl
    | false =>
      cases helapsed : s.elapsed with
      | false => exact .inr (.inr ⟨rfl, rfl⟩)
      | true =>
        obtain ⟨t, ht⟩ := @timer_of_elapsed _ proxy s hgoing hstarted helapsed
        exact .inl ⟨.timer, t, rfl, ht⟩

/-! ## How attempts end -/

/-- Attempt `n` has ended with `o`. -/
def EndedWith (s : Eyeballs Stream) (n : Nat) (o : Outcome Stream) : Prop :=
  ∃ a, s.attempts[n]? = some a ∧ a.outcome = some o

theorem handle_attempts (s : Eyeballs Stream) (o : Outcome Stream) :
    (s.handle proxy o).attempts = s.attempts := by
  rcases handle_cases s o with hsame | ⟨r, hreturn⟩
  · rw [hsame]
  · rw [hreturn]

/-- An attempt that has ended stays as it ended. -/
theorem EndedWith.step {n : Nat} {o : Outcome Stream} (ho : EndedWith s n o)
    (h : step proxy s e = some t) : EndedWith t n o := by
  obtain ⟨a, hn, ho⟩ := ho
  obtain ⟨hlt, -⟩ := List.getElem?_eq_some_iff.mp hn
  obtain ⟨-, hcase⟩ := step_cases h
  cases hcase with
  | @ends m ip joined o' hm =>
    -- an attempt ends once
    rcases eq_or_ne m n with rfl | hne
    · obtain rfl := Option.some.inj (hm.symm.trans hn)
      cases ho
    · exact ⟨a, (List.getElem?_set_ne hne).trans hn, ho⟩
  | expires => exact ⟨a, hn, ho⟩
  | @join m ip o' hm =>
    unfold EndedWith
    rw [handle_attempts]
    rcases eq_or_ne m n with rfl | hne
    · obtain rfl := Option.some.inj (hm.symm.trans hn)
      exact ⟨_, List.getElem?_set_self hlt, ho⟩
    · exact ⟨a, (List.getElem?_set_ne hne).trans hn, ho⟩
  | spawn => exact ⟨a, (List.getElem?_append_left hlt).trans hn, ho⟩
  | last => exact ⟨a, hn, ho⟩
  | otherwise => exact ⟨a, hn, ho⟩

/-! ## Runs -/

/-- What the caller may rely on after the events `es`. -/
structure TriesAll (proxy : Option Bytes) (ips : List Addr) (es : List (Event Stream))
    (s : Eyeballs Stream) : Prop where
  /-- The attempts are started in the order of the list. -/
  order : s.attempts.map (·.ip) ++ s.iter = ips
  /-- A result that is a connection is returned. -/
  joined : ∀ n stream t, EndedWith s n (.connected stream) → step proxy s (.join n) = some t →
    t.returned = some (.ok stream)
  /-- With a connection in the set, the loop does not wait, and it will not return `Err`. -/
  soon : s.returned = none → ∀ n stream, EndedWith s n (.connected stream) →
    CanTurn proxy s ∧ ∀ more t, run (step proxy) s more = some t → ∀ e, t.returned ≠ some (.error e)
  ok : ∀ stream, s.returned = some (.ok stream) → ∃ n, EndedWith s n (.connected stream)
  /-- `Err` is returned after every address was attempted, and every attempt failed. -/
  err : ∀ e, s.returned = some (.error e) → e = .allFailed proxy ∧ s.attempts.map (·.ip) = ips ∧
    ∀ n, n < ips.length → EndedWith s n .failed ∨ EndedWith s n .panicked
  waits : s.returned = none → CanTurn proxy s ∨ (∃ a ∈ s.attempts, a.outcome = none) ∨
    (s.allStarted = false ∧ s.elapsed = false)
  turns : es.countP Event.isTurn ≤ 2 * ips.length + 1

theorem join_connected {n : Nat} {stream : Stream} (hn : EndedWith s n (.connected stream))
    (h : step proxy s (.join n) = some t) : t.returned = some (.ok stream) := by
  obtain ⟨a, hn, ho⟩ := hn
  obtain ⟨-, hcase⟩ := step_cases h
  cases hcase with
  | join hm =>
    obtain rfl := Option.some.inj (hn.symm.trans hm)
    obtain rfl := Option.some.inj ho
    rfl

variable {ips : List Addr} {es : List (Event Stream)}

theorem Inv.run (h : Inv proxy ips s) (hrun : run (step proxy) s es = some t) : Inv proxy ips t :=
  run_invariant (fun _ _ _ h hstep => inv_step h hstep) es s t h hrun

theorem EndedWith.run {n : Nat} {o : Outcome Stream} (h : EndedWith s n o)
    (hrun : run (HappyEyeballs.step proxy) s es = some t) : EndedWith t n o :=
  run_invariant (fun _ _ _ h hstep => EndedWith.step h hstep) es s t h hrun

theorem Inv.err_ended (h : Inv proxy ips s) {e : ConnectError} (hr : s.returned = some (.error e)) :
    e = .allFailed proxy ∧ s.attempts.map (·.ip) = ips ∧
      ∀ n, n < ips.length → EndedWith s n .failed ∨ EndedWith s n .panicked := by
  obtain ⟨he, hiter, hlost⟩ := h.err e hr
  have hall : s.attempts.map (·.ip) = ips := by
    have horder := h.order
    rwa [hiter, List.append_nil] at horder
  refine ⟨he, hall, fun n hn => ?_⟩
  have hlt : n < s.attempts.length := by
    rwa [← hall, List.length_map] at hn
  have hget := List.getElem?_eq_getElem hlt
  rcases hlost _ (List.getElem_mem hlt) with hfailed | hpanicked
  · exact .inl ⟨_, hget, hfailed⟩
  · exact .inr ⟨_, hget, hpanicked⟩

theorem Inv.not_err (h : Inv proxy ips s) {n : Nat} {stream : Stream}
    (hn : EndedWith s n (.connected stream)) (e : ConnectError) : s.returned ≠ some (.error e) := by
  intro hr
  obtain ⟨a, hget, ho⟩ := hn
  rcases (h.err e hr).2.2 a (List.mem_of_getElem? hget) with hlost | hlost
  · cases ho.symm.trans hlost
  · cases ho.symm.trans hlost

/-- An attempt that connected is still in the set of a running loop, and can be joined. -/
theorem Inv.canTurn (h : Inv proxy ips s) (hgoing : s.returned = none) {n : Nat} {stream : Stream}
    (hn : EndedWith s n (.connected stream)) : CanTurn proxy s := by
  obtain ⟨a, hget, ho⟩ := hn
  -- a connection that was joined would have been returned
  have hj : a.joined = false := by
    by_contra hjoined
    rcases h.going hgoing a (List.mem_of_getElem? hget) (by simpa using hjoined) with hlost | hlost
    · cases ho.symm.trans hlost
    · cases ho.symm.trans hlost
  exact ⟨.join n, _, rfl, join_of_ended hgoing hget ho hj⟩

theorem turns_le (hips : ips ≠ []) (hrun : run (step proxy) (start ips) es = some s) :
    es.countP Event.isTurn ≤ 2 * ips.length + 1 := by
  have hbudget : budget (start ips : Eyeballs Stream) = 2 * ips.length + 1 := by
    obtain ⟨ip, iter, rfl⟩ := List.exists_cons_of_ne_nil hips
    show 2 * iter.length + 1 + 1 + 1 = 2 * (ip :: iter).length + 1
    rw [List.length_cons]
    omega
  have hspent := run_history
    (P := fun es t => budget t + es.countP Event.isTurn ≤ budget (start ips : Eyeballs Stream))
    (Nat.le_refl _) (fun es m e t hm hstep => ?_) es s hrun
  · omega
  · have hone := budget_step hstep
    rw [List.countP_append, List.countP_singleton]
    omega

/-- **Happy Eyeballs gives up only after trying everything.**  The two lists are taken in turns; and in
    every run from a list that is not empty, in whatever order the attempts end and the delays expire,
    `TriesAll` holds. -/
theorem tries_everything (Stream : Type) (proxy : Option Bytes) :
    (∀ (preferIpv6 : Bool) (v4 v6 : List Addr),
      Alternates (if preferIpv6 then v6 else v4) (if preferIpv6 then v4 else v6)
        (interleaveIps preferIpv6 v4 v6)) ∧
    ∀ ips : List Addr, ips ≠ [] → ∀ (es : List (Event Stream)) (s : Eyeballs Stream),
      run (step proxy) (start ips) es = some s → TriesAll proxy ips es s := by
  refine ⟨interleaveIps_alternates, fun ips hips es s hrun => ?_⟩
  have hinv : Inv proxy ips s := (inv_start hips).run hrun
  exact {
    order := hinv.order
    joined := fun n stream t hn hstep => join_connected hn hstep
    soon := fun hgoing n stream hn =>
      ⟨hinv.canTurn hgoing hn, fun more t hmore => (hinv.run hmore).not_err (hn.run hmore)⟩
    ok := fun stream hr => by
      obtain ⟨a, ha, ho⟩ := hinv.ok stream hr
      obtain ⟨n, hn⟩ := List.getElem?_of_mem ha
      exact ⟨n, a, hn, ho⟩
    err := fun e hr => hinv.err_ended hr
    waits := turn_or_wait
    turns := turns_le hips hrun }

end Program

/-! ## Two addresses -/

/-- The first attempt fails after the second has been started; the second connects. -/
def demoEvents : List (Event Nat) :=
  [.expires, .timer, .ends 0 .failed, .join 0, .expires, .ends 1 (.connected 7), .timer, .join 1]

def demoIps : List Addr := [.v4 [192, 0, 2, 1], .v6 [0x2001, 0xdb8, 0, 0, 0, 0, 0, 1]]

def demoEnd : Eyeballs Nat where
  attempts :=
    [⟨.v4 [192, 0, 2, 1], some .failed, true⟩,
      ⟨.v6 [0x2001, 0xdb8, 0, 0, 0, 0, 0, 1], some (.connected 7), true⟩]
  iter := []
  elapsed := true
  allStarted := true
  returned := some (.ok 7)

theorem tries_everything_demo :
    run (step none) (start demoIps) demoEvents = some demoEnd ∧
      TriesAll none demoIps demoEvents demoEnd := by
  have hrun : run (step none) (start demoIps) demoEvents = some demoEnd := rfl
  exact ⟨hrun, (tries_everything Nat none).2 demoIps (by decide) demoEvents demoEnd hrun⟩

end Httproxy.HappyEyeballs
