/-
  The tasks of the upload loop: what the `JoinSet` and the semaphores of
  `src/client/actor/upload_loop.rs` come to.

  1. **Joins** — every result the loop takes out of the `JoinSet` is a success, or the loop returns an
     error.  `Draining` counts the tasks that are left, so `Ok` is returned when there are none.

  2. **Moves** — what a step can do to the POSTs: nothing, or one of four things.  It is the only place
     where `step` is unfolded for them.

  3. **Permits** — there are never more POSTs in flight than `request_sem` has permits.
-/
import Httproxy.Client.UploadLoop

namespace Httproxy.UploadLoop

open Crypto Machine Shaper

/-! ## The loop returns when every POST has succeeded -/

/-- An element that passes the filter is changed to one that does not. -/
theorem length_filter_modify {α : Type} {q : α → Bool} {f : α → α} {l : List α} {i : Nat} {a : α}
    (ha : l[i]? = some a) (hq : q a = true) (hf : q (f a) = false) :
    ((l.modify i f).filter q).length + 1 = (l.filter q).length := by
  induction l generalizing i with
  | nil => simp at ha
  | cons b l ih =>
    cases i with
    | zero =>
      obtain rfl : b = a := by simpa using ha
      simp [hq, hf]
    | succ i =>
      have := ih (by simpa using ha)
      rw [List.modify_succ_cons, List.filter_cons, List.filter_cons]
      split
      · rw [List.length_cons, List.length_cons, this]
      · exact this

/-- The members of a list with one of them changed. -/
theorem mem_modify {α : Type} {f : α → α} {l : List α} {i : Nat} {a b : α} (ha : l[i]? = some a)
    (hb : b ∈ l.modify i f) : b ∈ l ∨ b = f a := by
  obtain ⟨j, hj, rfl⟩ := List.getElem_of_mem hb
  rw [List.getElem_modify]
  rw [List.length_modify] at hj
  split
  · rename_i hij
    subst hij
    obtain ⟨_, rfl⟩ := List.getElem?_eq_some_iff.mp ha
    exact .inr rfl
  · exact .inl (List.getElem_mem hj)

theorem tasks_markEnded (posts : List Post) (i : Nat) (outcome : Outcome) :
    (tasks (markEnded posts i outcome)).length = (tasks posts).length := by
  have hmap := map_modify_of_eq (f := fun p : Post => { p with outcome := some outcome })
    (g := Post.joined) (fun _ => rfl) posts i
  rw [tasks, tasks, markEnded, ← List.countP_eq_length_filter, ← List.countP_eq_length_filter]
  have hcount := congrArg (List.countP (fun b => !b)) hmap
  simpa [List.countP_map, Function.comp_def] using hcount

structure Joins (u : UploadLoopActor) : Prop where
  succeeded : u.point ≠ .returned false → ∀ p ∈ u.posts, p.joined = true → p.outcome = some .success
  draining : ∀ inflight, u.point = .draining inflight → inflight = (tasks u.posts).length
  returned : u.point = .returned true → tasks u.posts = []

/-- A new point: `Draining` counts the tasks, and `Ok` is returned when there are none. -/
theorem Joins.at_point {u : UploadLoopActor} {shaped : Polling} {cursor socket : Bytes} {point : Point}
    (h : Joins u) (hp : u.point ≠ .returned false)
    (hdraining : ∀ inflight, point = .draining inflight → inflight = (tasks u.posts).length)
    (hreturned : point = .returned true → tasks u.posts = []) :
    Joins { u with shaped, cursor, socket, point } where
  succeeded _ := h.succeeded hp
  draining := hdraining
  returned := hreturned

theorem joins_afterFill {u : UploadLoopActor} (h : Joins u) (hp : u.point ≠ .returned false)
    (batchBuf : Bytes) (streamEnded : Bool) : Joins (afterFill u batchBuf streamEnded) := by
  rw [afterFill]
  split
  · split
    · exact h.at_point hp (fun _ heq => (Point.draining.inj heq).symm) (by simp)
    · exact h.at_point hp (by simp) (by simp)
  · exact h.at_point hp (by simp) (by simp)

theorem joins_fill {u : UploadLoopActor} (h : Joins u) (hp : u.point ≠ .returned false)
    (batchBuf : Bytes) : Joins (fill u batchBuf) := by
  rw [fill]
  split
  · exact h.at_point hp (by simp) (by simp)
  · exact joins_afterFill h hp batchBuf false

section JoinRun

variable {key : LessSafeKey} {base122 : Base122Fast} {u u' : UploadLoopActor}

theorem joins_turn {io : Io} (h : Joins u) (hstep : step key base122 u (.turn io) = some u') :
    Joins u' := by
  rw [step] at hstep
  cases hp : u.point with
  | sealing buf =>
    have hne : u.point ≠ .returned false := by simp [hp]
    have hpoll : Joins (pollSeal key base122 u io buf).2 := ⟨h.succeeded, h.draining, h.returned⟩
    simp only [hp] at hstep
    split at hstep <;> obtain rfl := Option.some.inj hstep
    · exact hpoll.at_point hne (by simp) (by simp)
    · exact hpoll.at_point hne (by simp) (by simp)
    · exact joins_fill hpoll hne _
    · exact joins_afterFill hpoll hne _ true
    · exact hpoll.at_point hne (by simp) (by simp)
  | filling buf =>
    have hne : u.point ≠ .returned false := by simp [hp]
    have hpoll : Joins (pollSeal key base122 u io buf).2 := ⟨h.succeeded, h.draining, h.returned⟩
    simp only [hp] at hstep
    split at hstep <;> obtain rfl := Option.some.inj hstep
    · exact hpoll.at_point hne (by simp) (by simp)
    · exact joins_afterFill hpoll hne _ false
    · exact joins_fill hpoll hne _
    · exact joins_afterFill hpoll hne _ true
    · exact hpoll.at_point hne (by simp) (by simp)
  | requesting buf ended => simp [hp] at hstep
  | reserving buf ended => simp [hp] at hstep
  | reaping ended => simp [hp] at hstep
  | draining inflight => simp [hp] at hstep
  | returned ok => simp [hp] at hstep

/-- A joined task that succeeded leaves one task less; any other ends the loop. -/
theorem joins_join {i : Nat} (h : Joins u) (hstep : step key base122 u (.join i) = some u') :
    Joins u' := by
  rw [step] at hstep
  split at hstep
  · rename_i body permits outcome hpost
    rw [Option.ite_none_right_eq_some] at hstep
    obtain ⟨hjoins, hstep⟩ := hstep
    obtain rfl := Option.some.inj hstep
    cases outcome with
    | error => exact ⟨fun hne => absurd rfl hne, by rintro _ ⟨⟩, by rintro ⟨⟩⟩
    | panicked => exact ⟨fun hne => absurd rfl hne, by rintro _ ⟨⟩, by rintro ⟨⟩⟩
    | success =>
      have hfewer : (tasks (markJoined u.posts i)).length + 1 = (tasks u.posts).length :=
        length_filter_modify hpost rfl rfl
      have hsucceeded (hne : u.point ≠ .returned false) :
          ∀ p ∈ markJoined u.posts i, p.joined = true → p.outcome = some .success := by
        intro p hmem hj
        rcases mem_modify hpost hmem with hmem | rfl
        · exact h.succeeded hne p hmem hj
        · rfl
      cases hp : u.point with
      | sealing buf =>
        have hbase : Joins { u with posts := markJoined u.posts i } := by
          refine ⟨hsucceeded, ?_, ?_⟩ <;> simp [hp]
        simpa only [joined, hp] using joins_fill hbase (by simp [hp]) buf
      | reaping ended =>
        refine ⟨fun _ => ?_, ?_, ?_⟩
        · simpa only [joined, hp] using hsucceeded (by simp [hp])
        · simp [joined]
        · simp [joined]
      | draining inflight =>
        have hcount := h.draining inflight hp
        refine ⟨fun _ => ?_, ?_, ?_⟩
        · simpa only [joined, hp] using hsucceeded (by simp [hp])
        · simp only [joined, Point.draining.injEq]
          omega
        · simp [joined]
      | filling buf => simp [hp, Point.joins] at hjoins
      | requesting buf ended => simp [hp, Point.joins] at hjoins
      | reserving buf ended => simp [hp, Point.joins] at hjoins
      | returned ok => simp [hp, Point.joins] at hjoins
  · cases hstep

theorem joins_step {e : Event} (h : Joins u) (hstep : step key base122 u e = some u') : Joins u' := by
  cases e with
  | turn io => exact joins_turn h hstep
  | join i => exact joins_join h hstep
  | joinNone =>
    rw [step] at hstep
    split at hstep
    · rename_i streamEnded hp
      have hne : u.point ≠ .returned false := by simp [hp]
      split at hstep <;> obtain rfl := Option.some.inj hstep
      · exact h.at_point hne (fun _ heq => (Point.draining.inj heq).symm) (by simp)
      · exact h.at_point hne (by simp) (by simp)
    · rename_i inflight hp
      rw [Option.ite_none_right_eq_some] at hstep
      obtain ⟨hnone, hstep⟩ := hstep
      obtain rfl := Option.some.inj hstep
      refine h.at_point (by simp [hp]) (by simp) (fun _ => ?_)
      rcases hnone with hzero | hnone
      · exact List.length_eq_zero_iff.mp ((h.draining inflight hp).symm.trans hzero)
      · exact hnone
    · cases hstep
  | acquire =>
    rw [step] at hstep
    split at hstep
    · rename_i buf streamEnded hp
      rw [Option.ite_none_right_eq_some] at hstep
      obtain rfl := Option.some.inj hstep.2
      exact h.at_point (by simp [hp]) (by simp) (by simp)
    · rename_i buf streamEnded hp
      rw [Option.ite_none_right_eq_some] at hstep
      obtain rfl := Option.some.inj hstep.2
      refine ⟨fun _ p hmem hj => ?_, by rintro _ ⟨⟩, by rintro ⟨⟩⟩
      rcases List.mem_append.mp hmem with hmem | hmem
      · exact h.succeeded (by simp [hp]) p hmem hj
      · obtain rfl := List.mem_singleton.mp hmem
        cases hj
    · cases hstep
  | ended i outcome =>
    rw [step] at hstep
    split at hstep
    · rename_i body permits wasJoined hpost
      obtain rfl := Option.some.inj hstep
      refine ⟨fun hne p hmem hj => ?_, fun inflight hp => ?_, fun hp => ?_⟩
      · rcases mem_modify hpost hmem with hmem | rfl
        · exact h.succeeded hne p hmem hj
        · have hbefore := h.succeeded hne _ (List.mem_of_getElem? hpost) hj
          cases hbefore
      · exact (h.draining inflight hp).trans (tasks_markEnded u.posts i outcome).symm
      · apply List.length_eq_zero_iff.mp
        rw [tasks_markEnded, h.returned hp, List.length_nil]
    · cases hstep

/-- **`run` returns `Ok` only when every POST it spawned has succeeded.** -/
theorem Joins.all_succeeded (h : Joins u) (hp : u.point = .returned true) :
    ∀ p ∈ u.posts, p.outcome = some .success := by
  intro p hmem
  refine h.succeeded (by simp [hp]) p hmem ?_
  have hnone := List.filter_eq_nil_iff.mp (h.returned hp) p hmem
  simpa using hnone

end JoinRun

theorem joins_new (config : ResolvedShaperConfig) (uploadConcurrency maxInFlightBytes : Nat)
    (payload : Bytes) (startSeq : UInt64) (random : Nat) :
    Joins (.new config uploadConcurrency maxInFlightBytes payload startSeq random) :=
  ⟨fun _ _ hmem => absurd hmem List.not_mem_nil, by rintro _ ⟨⟩, by rintro ⟨⟩⟩

/-! ## What a step does to the POSTs -/

/-- The loop holds a permit of `request_sem` for a POST it has not spawned yet. -/
def Point.reserves : Point → Bool
  | .reserving _ _ => true
  | _ => false

inductive Moves (u : UploadLoopActor) : Event → UploadLoopActor → Prop where
  /-- The POSTs stay as they are. -/
  | stays {e u'} (hposts : u'.posts = u.posts) (hlimits : u'.limits = u.limits)
      (hpoint : u'.point.reserves = false) : Moves u e u'
  /-- A result is taken out of the `JoinSet`. -/
  | joins {i u'} (hposts : u'.posts = markJoined u.posts i) (hlimits : u'.limits = u.limits)
      (hpoint : u'.point.reserves = false) : Moves u (.join i) u'
  /-- A permit of `request_sem` is taken. -/
  | reserves {batchBuf streamEnded} (hfree : (inFlight u.posts).length < u.limits.uploadConcurrency) :
      Moves u .acquire { u with point := .reserving batchBuf streamEnded }
  | spawns {batchBuf streamEnded} (hp : u.point = .reserving batchBuf streamEnded) :
      Moves u .acquire (spawn u batchBuf streamEnded)
  | ends {i outcome post} (hpost : u.posts[i]? = some post) (hrunning : post.outcome = none) :
      Moves u (.ended i outcome) { u with posts := markEnded u.posts i outcome }

section Moves

variable {key : LessSafeKey} {base122 : Base122Fast} {u u' : UploadLoopActor}

theorem afterFill_same (u : UploadLoopActor) (batchBuf : Bytes) (streamEnded : Bool) :
    (afterFill u batchBuf streamEnded).posts = u.posts ∧
      (afterFill u batchBuf streamEnded).limits = u.limits ∧
      (afterFill u batchBuf streamEnded).point.reserves = false := by
  rw [afterFill]
  split
  · split <;> exact ⟨rfl, rfl, rfl⟩
  · exact ⟨rfl, rfl, rfl⟩

theorem fill_same (u : UploadLoopActor) (batchBuf : Bytes) :
    (fill u batchBuf).posts = u.posts ∧ (fill u batchBuf).limits = u.limits ∧
      (fill u batchBuf).point.reserves = false := by
  rw [fill]
  split
  · exact ⟨rfl, rfl, rfl⟩
  · exact afterFill_same u batchBuf false

theorem joined_same (hp : u.point.joins = true) (outcome : Outcome) :
    (joined u outcome).posts = u.posts ∧ (joined u outcome).limits = u.limits ∧
      (joined u outcome).point.reserves = false := by
  cases outcome with
  | error => exact ⟨rfl, rfl, rfl⟩
  | panicked => exact ⟨rfl, rfl, rfl⟩
  | success =>
    cases hpoint : u.point with
    | sealing batchBuf => simpa only [joined, hpoint] using fill_same u batchBuf
    | draining inflight =>
      simp only [joined, hpoint]
      exact ⟨trivial, trivial, rfl⟩
    | reaping streamEnded =>
      simp only [joined, hpoint]
      exact ⟨trivial, trivial, rfl⟩
    | filling batchBuf => simp [hpoint, Point.joins] at hp
    | requesting batchBuf streamEnded => simp [hpoint, Point.joins] at hp
    | reserving batchBuf streamEnded => simp [hpoint, Point.joins] at hp
    | returned ok => simp [hpoint, Point.joins] at hp

/-- **Inversion of `step`**, as far as the POSTs go. -/
theorem step_moves {e : Event} (hstep : step key base122 u e = some u') : Moves u e u' := by
  cases e with
  | turn io =>
    rw [step] at hstep
    split at hstep
    · dsimp only at hstep
      split at hstep <;> obtain rfl := Option.some.inj hstep
      · exact .stays rfl rfl rfl
      · exact .stays rfl rfl rfl
      · obtain ⟨hposts, hlimits, hpoint⟩ := fill_same (pollSeal key base122 u io _).2 _
        exact .stays hposts hlimits hpoint
      · obtain ⟨hposts, hlimits, hpoint⟩ := afterFill_same (pollSeal key base122 u io _).2 _ true
        exact .stays hposts hlimits hpoint
      · exact .stays rfl rfl rfl
    · dsimp only at hstep
      split at hstep <;> obtain rfl := Option.some.inj hstep
      · exact .stays rfl rfl rfl
      · obtain ⟨hposts, hlimits, hpoint⟩ := afterFill_same (pollSeal key base122 u io _).2 _ false
        exact .stays hposts hlimits hpoint
      · obtain ⟨hposts, hlimits, hpoint⟩ := fill_same (pollSeal key base122 u io _).2 _
        exact .stays hposts hlimits hpoint
      · obtain ⟨hposts, hlimits, hpoint⟩ := afterFill_same (pollSeal key base122 u io _).2 _ true
        exact .stays hposts hlimits hpoint
      · exact .stays rfl rfl rfl
    · cases hstep
  | join i =>
    rw [step] at hstep
    split at hstep
    · rename_i outcome _
      rw [Option.ite_none_right_eq_some] at hstep
      obtain ⟨hjoins, hstep⟩ := hstep
      obtain rfl := Option.some.inj hstep
      obtain ⟨hposts, hlimits, hpoint⟩ :=
        joined_same (u := { u with posts := markJoined u.posts i }) hjoins outcome
      exact .joins hposts hlimits hpoint
    · cases hstep
  | joinNone =>
    rw [step] at hstep
    split at hstep
    · split at hstep <;> obtain rfl := Option.some.inj hstep <;> exact .stays rfl rfl rfl
    · rw [Option.ite_none_right_eq_some] at hstep
      obtain rfl := Option.some.inj hstep.2
      exact .stays rfl rfl rfl
    · cases hstep
  | acquire =>
    rw [step] at hstep
    split at hstep
    · rw [Option.ite_none_right_eq_some] at hstep
      obtain ⟨hfree, hstep⟩ := hstep
      obtain rfl := Option.some.inj hstep
      exact .reserves hfree
    · rename_i hp
      rw [Option.ite_none_right_eq_some] at hstep
      obtain rfl := Option.some.inj hstep.2
      exact .spawns hp
    · cases hstep
  | ended i outcome =>
    rw [step] at hstep
    split at hstep
    · rename_i hpost
      obtain rfl := Option.some.inj hstep
      exact .ends hpost rfl
    · cases hstep

/-- A POST that has ended had ended before, or the step is its end. -/
theorem ended_of_moves {e : Event} (hm : Moves u e u') {i : Nat} {p : Post}
    (hp : u'.posts[i]? = some p) (hended : p.outcome ≠ none) :
    (∃ q, u.posts[i]? = some q ∧ q.outcome ≠ none) ∨ ∃ outcome, e = .ended i outcome := by
  cases hm with
  | stays hposts hlimits hpoint => exact .inl ⟨p, hposts ▸ hp, hended⟩
  | @joins k _ hposts hlimits hpoint =>
    rw [hposts, markJoined, List.getElem?_modify] at hp
    obtain ⟨q, hq, rfl⟩ := Option.map_eq_some_iff.mp hp
    refine .inl ⟨q, hq, ?_⟩
    split at hended
    · exact hended
    · exact hended
  | reserves hfree => exact .inl ⟨p, hp, hended⟩
  | spawns hpoint =>
    rw [spawn, List.getElem?_append] at hp
    split at hp
    · exact .inl ⟨p, hp, hended⟩
    · obtain rfl := List.mem_singleton.mp (List.mem_of_getElem? hp)
      exact absurd rfl hended
  | @ends k outcome post hpost hrunning =>
    rw [markEnded, List.getElem?_modify] at hp
    obtain ⟨q, hq, rfl⟩ := Option.map_eq_some_iff.mp hp
    by_cases hki : k = i
    · exact .inr ⟨outcome, by rw [hki]⟩
    · rw [if_neg hki] at hended
      exact .inl ⟨q, hq, hended⟩

end Moves

/-! ## The permits of `request_sem` -/

theorem inFlight_markJoined (posts : List Post) (i : Nat) :
    (inFlight (markJoined posts i)).length = (inFlight posts).length := by
  have hmap := map_modify_of_eq (f := fun p : Post => { p with joined := true })
    (g := Post.outcome) (fun _ => rfl) posts i
  rw [inFlight, inFlight, markJoined, ← List.countP_eq_length_filter, ← List.countP_eq_length_filter]
  have hcount := congrArg (List.countP Option.isNone) hmap
  simpa [List.countP_map, Function.comp_def] using hcount

theorem inFlight_markEnded {posts : List Post} {i : Nat} {post : Post} (hpost : posts[i]? = some post)
    (hrunning : post.outcome = none) (outcome : Outcome) :
    (inFlight (markEnded posts i outcome)).length + 1 = (inFlight posts).length :=
  length_filter_modify hpost (by rw [hrunning]; rfl) rfl

theorem inFlight_spawn (u : UploadLoopActor) (batchBuf : Bytes) (streamEnded : Bool) :
    (inFlight (spawn u batchBuf streamEnded).posts).length = (inFlight u.posts).length + 1 := by
  simp [spawn, inFlight]

/-- There are never more POSTs than permits, and one permit is left for the POST that is about to
    be spawned. -/
structure Permits (u : UploadLoopActor) : Prop where
  within : (inFlight u.posts).length ≤ u.limits.uploadConcurrency
  reserved : u.point.reserves = true → (inFlight u.posts).length < u.limits.uploadConcurrency

theorem limits_moves {u u' : UploadLoopActor} {e : Event} (hm : Moves u e u') : u'.limits = u.limits := by
  cases hm with
  | stays hposts hlimits hpoint => exact hlimits
  | joins hposts hlimits hpoint => exact hlimits
  | reserves hfree => rfl
  | spawns hp => rfl
  | ends hpost hrunning => rfl

theorem permits_moves {u u' : UploadLoopActor} {e : Event} (hm : Moves u e u') (h : Permits u) :
    Permits u' := by
  cases hm with
  | stays hposts hlimits hpoint =>
    refine ⟨?_, fun hr => ?_⟩
    · rw [hposts, hlimits]
      exact h.within
    · rw [hpoint] at hr
      cases hr
  | joins hposts hlimits hpoint =>
    refine ⟨?_, fun hr => ?_⟩
    · rw [hposts, hlimits, inFlight_markJoined]
      exact h.within
    · rw [hpoint] at hr
      cases hr
  | reserves hfree => exact ⟨h.within, fun _ => hfree⟩
  | @spawns batchBuf streamEnded hp =>
    refine ⟨?_, by rintro ⟨⟩⟩
    rw [inFlight_spawn]
    exact h.reserved (by rw [hp]; rfl)
  | ends hpost hrunning =>
    have hfewer := inFlight_markEnded hpost hrunning
    refine ⟨?_, fun hr => ?_⟩
    · have := h.within
      have := hfewer ‹Outcome›
      dsimp only
      omega
    · have := h.reserved hr
      have := hfewer ‹Outcome›
      dsimp only
      omega

end Httproxy.UploadLoop
