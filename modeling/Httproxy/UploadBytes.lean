/-
  How many bytes the client has in flight (`src/client/actor/upload_loop.rs`).

  The loop tests the length of a batch BEFORE it appends a frame, so a batch may overshoot
  `max_batch_bytes` by one frame.  `new` leaves that much room: `max_batch_bytes` is at most
  `max_in_flight_bytes` less the longest frame.

  1. **Specification** — `Small` bounds the batch at every point of the loop, `Held` the bodies of the
     POSTs: each was spawned with the permits that belong to its body, and the POSTs in flight hold no
     more than `bytes_sem` has.

  2. **The crux (`permitBytes_eq`)** — `build_state` refuses a `max_in_flight_bytes` below 20480, and the
     longest frame has 18781 bytes, so the subtraction leaves something and a batch never reaches
     `max_in_flight_bytes`.  `MAX_BATCH_BYTES` keeps it far below `2^32`.  So neither the `min`, nor the
     `max`, nor the cast changes the length.

  The theorem is `in_flight_bounded`, over every run of the loop.
-/
import Httproxy.Shaper.Sizes
import Httproxy.UploadWaiters

namespace Httproxy.UploadLoop

open Crypto Machine Shaper

/-! ## Specification -/

/-- The batch: while it is filled it is below the limit, and it ends at most one frame above it. -/
structure Small (frameLen : Nat) (u : UploadLoopActor) : Prop where
  room : u.point.batchBuf.length < u.limits.maxBatchBytes + frameLen
  sealing : ∀ b, u.point = .sealing b → b = []
  filling : ∀ b, u.point = .filling b → b.length < u.limits.maxBatchBytes

/-- The permits that the POSTs in flight hold. -/
def heldBytes (posts : List Post) : Nat := ((inFlight posts).map Post.permitBytes).sum

/-- The POSTs: their bodies, and their permits. -/
structure Held (frameLen : Nat) (u : UploadLoopActor) : Prop where
  bodies : ∀ p ∈ u.posts, p.body ≠ [] ∧ p.body.length < u.limits.maxBatchBytes + frameLen ∧
    p.permitBytes = permitBytes u.limits p.body
  within : heldBytes u.posts ≤ u.limits.maxInFlightBytes

/-! ## The batch -/

section Batch

variable {key : LessSafeKey} {base122 : Base122Fast} {u : UploadLoopActor} {frameLen : Nat}

/-- A point that has no batch, or an empty one. -/
theorem small_empty {point : Point} (hpos : 0 < u.limits.maxBatchBytes)
    (hbuf : point.batchBuf = []) : Small frameLen { u with point } where
  room := by
    show point.batchBuf.length < _
    rw [hbuf]
    exact Nat.add_pos_left hpos frameLen
  sealing := by
    rintro b rfl
    exact hbuf
  filling := by
    rintro b rfl
    have hb : b = [] := hbuf
    rw [hb]
    exact hpos

theorem small_afterFill {batchBuf : Bytes} (hpos : 0 < u.limits.maxBatchBytes)
    (h : batchBuf.length < u.limits.maxBatchBytes + frameLen) (streamEnded : Bool) :
    Small frameLen (afterFill u batchBuf streamEnded) := by
  rw [afterFill]
  split
  · split
    · exact small_empty hpos rfl
    · exact small_empty hpos rfl
  · refine ⟨h, ?_, ?_⟩
    · rintro b ⟨⟩
    · rintro b ⟨⟩

theorem small_fill {batchBuf : Bytes} (hpos : 0 < u.limits.maxBatchBytes)
    (h : batchBuf.length < u.limits.maxBatchBytes + frameLen) : Small frameLen (fill u batchBuf) := by
  rw [fill]
  split
  · rename_i hlt
    refine ⟨h, ?_, ?_⟩
    · rintro b ⟨⟩
    · rintro b ⟨⟩
      exact hlt
  · exact small_afterFill hpos h false

/-- A turn appends a frame, or nothing. -/
theorem turns_length_le (hkey : key.Lawful) (hb : base122.Short) {s : TrafficShaper} {out : Bytes}
    {t : Turned} (ht : Turns key base122 s out t) :
    t.out.length ≤ out.length + maxEncodedFrameLen s.encoding := by
  by_cases hsealed : ∃ seq, t.outcome = .ready (.ok (some seq))
  · obtain ⟨seq, hout⟩ := hsealed
    obtain ⟨-, -, -, f, padding, hf, hcarries⟩ := ht.sealed seq hout
    rw [hf, List.length_append]
    exact Nat.add_le_add_left (hcarries.fits hkey hb).buffer _
  · obtain ⟨-, -, hsame⟩ := ht.unsealed fun seq hout => hsealed ⟨seq, hout⟩
    rw [hsame]
    exact Nat.le_add_right _ _

/-- **A turn at either of the points that poll the shaper.** -/
theorem small_turn (hkey : key.NeverFails) (hlaw : key.Lawful) (hb : base122.Short)
    {encoding : EncodingType} {startSeq : UInt64} {payload : Bytes} {u' : UploadLoopActor} {io : Io}
    (hflow : Flow key base122 encoding startSeq payload u) (hpos : 0 < u.limits.maxBatchBytes)
    (h : Small (maxEncodedFrameLen encoding) u) (hstep : step key base122 u (.turn io) = some u') :
    Small (maxEncodedFrameLen encoding) u' := by
  rw [step] at hstep
  cases hp : u.point with
  | sealing buf =>
    obtain rfl := h.sealing buf hp
    obtain ⟨ht, -⟩ := hflow.poll hkey io []
    have hlen := turns_length_le hlaw hb ht
    have hroom : (pollSeal key base122 u io []).1.out.length <
        u.limits.maxBatchBytes + maxEncodedFrameLen encoding := by
      rw [hflow.conserved.encoding_eq, List.length_nil] at hlen
      omega
    simp only [hp] at hstep
    split at hstep <;> obtain rfl := Option.some.inj hstep
    · rename_i hout
      exact small_empty hpos (ht.unsealed (by simp [hout])).2.2
    · rename_i hout
      exact small_empty hpos (ht.unsealed (by simp [hout])).2.2
    · exact small_fill hpos hroom
    · exact small_afterFill (u := (pollSeal key base122 u io []).2) hpos hroom true
    · exact small_empty hpos rfl
  | filling buf =>
    have hbuf := h.filling buf hp
    obtain ⟨ht, -⟩ := hflow.poll hkey io buf
    have hlen := turns_length_le hlaw hb ht
    have hroom : (pollSeal key base122 u io buf).1.out.length <
        u.limits.maxBatchBytes + maxEncodedFrameLen encoding := by
      rw [hflow.conserved.encoding_eq] at hlen
      omega
    simp only [hp] at hstep
    split at hstep <;> obtain rfl := Option.some.inj hstep
    · -- the call goes on, with the buffer as it was
      rename_i hout
      have hsame : (pollSeal key base122 u io buf).1.out = buf := (ht.unsealed (by simp [hout])).2.2
      refine ⟨hroom, ?_, ?_⟩
      · rintro b ⟨⟩
      · rintro b ⟨⟩
        rw [hsame]
        exact hbuf
    · exact small_afterFill (u := (pollSeal key base122 u io buf).2) hpos hroom false
    · exact small_fill hpos hroom
    · exact small_afterFill (u := (pollSeal key base122 u io buf).2) hpos hroom true
    · exact small_empty hpos rfl
  | requesting buf ended => simp [hp] at hstep
  | reserving buf ended => simp [hp] at hstep
  | reaping ended => simp [hp] at hstep
  | draining inflight => simp [hp] at hstep
  | returned ok => simp [hp] at hstep

/-- The batch does not depend on the POSTs. -/
theorem Small.posts (h : Small frameLen u) (posts : List Post) : Small frameLen { u with posts } :=
  ⟨h.room, h.sealing, h.filling⟩

theorem small_joined (hpos : 0 < u.limits.maxBatchBytes) (h : Small frameLen u) (outcome : Outcome) :
    Small frameLen (joined u outcome) := by
  cases outcome with
  | error => exact small_empty hpos rfl
  | panicked => exact small_empty hpos rfl
  | success =>
    rw [joined]
    split
    · rename_i batchBuf hp
      obtain rfl := h.sealing batchBuf hp
      exact small_fill hpos (Nat.add_pos_left hpos frameLen)
    · exact small_empty hpos rfl
    · exact h

theorem small_step (hkey : key.NeverFails) (hlaw : key.Lawful) (hb : base122.Short)
    {encoding : EncodingType} {startSeq : UInt64} {payload : Bytes} {u' : UploadLoopActor} {e : Event}
    (hflow : Flow key base122 encoding startSeq payload u) (hpos : 0 < u.limits.maxBatchBytes)
    (h : Small (maxEncodedFrameLen encoding) u) (hstep : step key base122 u e = some u') :
    Small (maxEncodedFrameLen encoding) u' := by
  cases e with
  | turn io => exact small_turn hkey hlaw hb hflow hpos h hstep
  | join i =>
    rw [step] at hstep
    split at hstep
    · rw [Option.ite_none_right_eq_some] at hstep
      obtain rfl := Option.some.inj hstep.2
      exact small_joined (u := { u with posts := markJoined u.posts i }) hpos (h.posts _) _
    · cases hstep
  | joinNone =>
    rw [step] at hstep
    split at hstep
    · split at hstep <;> obtain rfl := Option.some.inj hstep <;> exact small_empty hpos rfl
    · rw [Option.ite_none_right_eq_some] at hstep
      obtain rfl := Option.some.inj hstep.2
      exact small_empty hpos rfl
    · cases hstep
  | acquire =>
    rw [step] at hstep
    split at hstep
    · rename_i batchBuf streamEnded hp
      rw [Option.ite_none_right_eq_some] at hstep
      obtain rfl := Option.some.inj hstep.2
      have hroom := h.room
      rw [hp] at hroom
      refine ⟨hroom, ?_, ?_⟩
      · rintro b ⟨⟩
      · rintro b ⟨⟩
    · rw [Option.ite_none_right_eq_some] at hstep
      obtain rfl := Option.some.inj hstep.2
      refine ⟨Nat.add_pos_left hpos _, ?_, ?_⟩
      · rintro b ⟨⟩
      · rintro b ⟨⟩
    · cases hstep
  | ended i outcome =>
    rw [step] at hstep
    split at hstep
    · obtain rfl := Option.some.inj hstep
      exact h.posts _
    · cases hstep

end Batch

/-! ## The permits of `bytes_sem` -/

/-- Changing one POST holds no more permits, unless the change makes it run again. -/
theorem heldBytes_modify_le {f : Post → Post}
    (hf : ∀ p, (f p).outcome = none → p.outcome = none ∧ (f p).permitBytes = p.permitBytes)
    (posts : List Post) (i : Nat) : heldBytes (posts.modify i f) ≤ heldBytes posts := by
  have hcons : ∀ p ps, heldBytes (p :: ps) = (if p.outcome = none then p.permitBytes else 0) + heldBytes ps := by
    intro p ps
    rw [heldBytes, inFlight, List.filter_cons]
    split
    · rename_i hrunning
      rw [if_pos (Option.isNone_iff_eq_none.mp hrunning), List.map_cons, List.sum_cons]
      rfl
    · rename_i hended
      rw [if_neg (fun hnone => hended (Option.isNone_iff_eq_none.mpr hnone)), Nat.zero_add]
      rfl
  induction posts generalizing i with
  | nil =>
    rw [List.modify_nil]
  | cons p ps ih =>
    cases i with
    | zero =>
      rw [List.modify_zero_cons, hcons, hcons]
      apply Nat.add_le_add_right
      by_cases hrunning : (f p).outcome = none
      · obtain ⟨hold, hsame⟩ := hf p hrunning
        rw [if_pos hrunning, if_pos hold, hsame]
      · rw [if_neg hrunning]
        exact Nat.zero_le _
    | succ i =>
      rw [List.modify_succ_cons, hcons, hcons]
      exact Nat.add_le_add_left (ih i) _

theorem heldBytes_snoc (posts : List Post) {post : Post} (hrunning : post.outcome = none) :
    heldBytes (posts ++ [post]) = heldBytes posts + post.permitBytes := by
  have hlast : inFlight [post] = [post] := by
    rw [inFlight, List.filter_cons_of_pos (by rw [hrunning]; rfl), List.filter_nil]
  rw [heldBytes, inFlight, List.filter_append, List.map_append, List.sum_append]
  show heldBytes posts + ((inFlight [post]).map Post.permitBytes).sum = _
  rw [hlast, List.map_singleton, List.sum_singleton]

/-- A POST keeps its body and its permits. -/
theorem mem_modify_same {f : Post → Post}
    (hf : ∀ p, ((f p).body, (f p).permitBytes) = (p.body, p.permitBytes)) {posts : List Post} {i : Nat}
    {p : Post} (hp : p ∈ posts.modify i f) :
    ∃ q ∈ posts, q.body = p.body ∧ q.permitBytes = p.permitBytes := by
  have hmap := @map_modify_of_eq Post (Bytes × Nat) f (fun p => (p.body, p.permitBytes)) hf posts i
  have hin : (p.body, p.permitBytes) ∈ (posts.modify i f).map fun p => (p.body, p.permitBytes) :=
    List.mem_map_of_mem hp
  rw [hmap] at hin
  obtain ⟨q, hq, heq⟩ := List.mem_map.mp hin
  exact ⟨q, hq, (Prod.mk.inj heq).1, (Prod.mk.inj heq).2⟩

section Permits

variable {key : LessSafeKey} {base122 : Base122Fast} {u u' : UploadLoopActor} {frameLen : Nat}

/-- Only what `bytes_sem` has left is taken. -/
theorem spawn_room {batchBuf : Bytes} {streamEnded : Bool}
    (hp : u.point = .reserving batchBuf streamEnded) (hstep : step key base122 u .acquire = some u') :
    heldBytes u.posts + permitBytes u.limits batchBuf ≤ u.limits.maxInFlightBytes := by
  rw [step] at hstep
  simp only [hp] at hstep
  rw [Option.ite_none_right_eq_some] at hstep
  exact hstep.1

theorem Held.modify {f : Post → Post} (h : Held frameLen u)
    (hf : ∀ p, ((f p).body, (f p).permitBytes) = (p.body, p.permitBytes))
    (houtcome : ∀ p, (f p).outcome = none → p.outcome = none) {i : Nat}
    (hposts : u'.posts = u.posts.modify i f) (hlimits : u'.limits = u.limits) : Held frameLen u' := by
  constructor
  · intro p hp
    rw [hposts] at hp
    obtain ⟨q, hq, hbody, hpermits⟩ := mem_modify_same hf hp
    rw [hlimits, ← hbody, ← hpermits]
    exact h.bodies q hq
  · rw [hposts, hlimits]
    refine Nat.le_trans (heldBytes_modify_le ?_ u.posts i) h.within
    intro p hrunning
    exact ⟨houtcome p hrunning, (Prod.mk.inj (hf p)).2⟩

/-- **Every step keeps the bound**, a spawn because the batch was small and the permits were there. -/
theorem held_step {e : Event} (hsmall : Small frameLen u)
    (hsends : u.point.sends = true → u.point.batchBuf ≠ []) (h : Held frameLen u)
    (hstep : step key base122 u e = some u') : Held frameLen u' := by
  cases step_moves hstep with
  | stays hposts hlimits hpoint =>
    constructor
    · rw [hposts, hlimits]
      exact h.bodies
    · rw [hposts, hlimits]
      exact h.within
  | joins hposts hlimits hpoint =>
    exact @Held.modify u u' frameLen (fun p => { p with joined := true }) h (fun _ => rfl)
      (fun _ hnone => hnone) _ hposts hlimits
  | reserves hfree => exact ⟨h.bodies, h.within⟩
  | @spawns batchBuf streamEnded hp =>
    have hroom := spawn_room hp hstep
    have hlen := hsmall.room
    have hne := hsends (by rw [hp]; rfl)
    rw [hp] at hlen hne
    constructor
    · intro p hmem
      rcases List.mem_append.mp hmem with hold | hnew
      · exact h.bodies p hold
      · obtain rfl := List.mem_singleton.mp hnew
        exact ⟨hne, hlen, rfl⟩
    · show heldBytes (u.posts ++ [⟨batchBuf, permitBytes u.limits batchBuf, none, false⟩]) ≤ _
      rw [heldBytes_snoc _ rfl]
      exact hroom
  | @ends i outcome post hpost hrunning =>
    have hended : ∀ p : Post, some outcome = none → p.outcome = none := by
      rintro p ⟨⟩
    exact @Held.modify u _ frameLen (fun p => { p with outcome := some outcome }) h (fun _ => rfl) hended
      i rfl rfl

end Permits

/-! ## Every run -/

/-- What `new` makes of the configuration. -/
def limitsOf (config : ResolvedShaperConfig) (uploadConcurrency maxInFlightBytes : Nat) : Limits where
  uploadConcurrency := uploadConcurrency
  maxInFlightBytes := maxInFlightBytes
  maxBatchBytes := max (min MAX_BATCH_BYTES (maxInFlightBytes - maxEncodedFrameLen config.encoding)) 1

/-- What holds of a loop with these limits. -/
structure Bounded (key : LessSafeKey) (base122 : Base122Fast) (config : ResolvedShaperConfig)
    (startSeq : UInt64) (payload : Bytes) (limits : Limits) (u : UploadLoopActor) : Prop where
  inv : Inv key base122 config.encoding startSeq payload u
  limits_eq : u.limits = limits
  small : Small (maxEncodedFrameLen config.encoding) u
  held : Held (maxEncodedFrameLen config.encoding) u
  permits : Permits u

section Run

variable {key : LessSafeKey} {base122 : Base122Fast} {config : ResolvedShaperConfig}
  {startSeq : UInt64} {payload : Bytes} {u u' : UploadLoopActor}

theorem bounded_step (hkey : key.NeverFails) (hlaw : key.Lawful) (hb : base122.Short)
    {limits : Limits} (hpos : 0 < limits.maxBatchBytes) {e : Event}
    (h : Bounded key base122 config startSeq payload limits u)
    (hstep : step key base122 u e = some u') :
    Bounded key base122 config startSeq payload limits u' := by
  obtain ⟨hinv, rfl, hsmall, hheld, hpermits⟩ := h
  have hmoves := step_moves hstep
  constructor
  · exact inv_step hkey hinv hstep
  · exact limits_moves hmoves
  · exact small_step hkey hlaw hb hinv.toFlow hpos hsmall hstep
  · exact held_step hsmall hinv.sends hheld hstep
  · exact permits_moves hmoves hpermits

theorem bounded_new (uploadConcurrency maxInFlightBytes random : Nat) :
    Bounded key base122 config startSeq payload (limitsOf config uploadConcurrency maxInFlightBytes)
      (.new config uploadConcurrency maxInFlightBytes payload startSeq random) where
  inv := inv_new key base122 config uploadConcurrency maxInFlightBytes payload startSeq random
  limits_eq := rfl
  small := small_empty (u := .new config uploadConcurrency maxInFlightBytes payload startSeq random)
    (Nat.lt_of_lt_of_le Nat.zero_lt_one (Nat.le_max_right _ _)) rfl
  held := ⟨fun p hp => absurd hp List.not_mem_nil, Nat.zero_le _⟩
  permits := ⟨Nat.zero_le _, by rintro ⟨⟩⟩

theorem bounded_run (hkey : key.NeverFails) (hlaw : key.Lawful) (hb : base122.Short)
    {uploadConcurrency maxInFlightBytes random : Nat} {es : List Event}
    (h : run (step key base122)
      (.new config uploadConcurrency maxInFlightBytes payload startSeq random) es = some u) :
    Bounded key base122 config startSeq payload
      (limitsOf config uploadConcurrency maxInFlightBytes) u := by
  have hpos : 0 < (limitsOf config uploadConcurrency maxInFlightBytes).maxBatchBytes :=
    Nat.lt_of_lt_of_le Nat.zero_lt_one (Nat.le_max_right _ _)
  exact run_invariant (fun _ _ _ hu hstep => bounded_step hkey hlaw hb hpos hu hstep) es _ _
    (bounded_new uploadConcurrency maxInFlightBytes random) h

end Run

/-- **The permits are the length**: a batch is not empty, shorter than `max_in_flight_bytes`, and far
    shorter than `2^32`. -/
theorem permitBytes_eq {config : ResolvedShaperConfig} {uploadConcurrency maxInFlightBytes : Nat}
    (hmin : MIN_IN_FLIGHT_BYTES ≤ maxInFlightBytes) {batchBuf : Bytes} (hne : batchBuf ≠ [])
    (hlen : batchBuf.length < (limitsOf config uploadConcurrency maxInFlightBytes).maxBatchBytes +
      maxEncodedFrameLen config.encoding) :
    batchBuf.length ≤ maxInFlightBytes ∧ batchBuf.length < 2 ^ 32 ∧
      permitBytes (limitsOf config uploadConcurrency maxInFlightBytes) batchBuf = batchBuf.length := by
  have hpos := List.length_pos_iff.mpr hne
  have hframe : maxEncodedFrameLen config.encoding ≤ 18781 := by cases config.encoding <;> decide
  have hmin' : 20480 ≤ maxInFlightBytes := hmin
  have hmax : MAX_BATCH_BYTES = 1048576 := rfl
  simp only [limitsOf] at hlen
  have hshort : batchBuf.length ≤ maxInFlightBytes := by omega
  have hsmall : batchBuf.length < 2 ^ 32 := by omega
  refine ⟨hshort, hsmall, ?_⟩
  show max (min batchBuf.length maxInFlightBytes) 1 % 2 ^ 32 = batchBuf.length
  rw [Nat.min_eq_left hshort, Nat.max_eq_left hpos, Nat.mod_eq_of_lt hsmall]

/-- The bodies of the POSTs in flight are what their permits say. -/
theorem heldBytes_eq {posts : List Post} (h : ∀ p ∈ posts, p.permitBytes = p.body.length) :
    ((inFlight posts).map fun p => p.body.length).sum = heldBytes posts := by
  rw [heldBytes]
  congr 1
  apply List.map_congr_left
  intro p hp
  exact (h p (List.mem_of_mem_filter hp)).symm

theorem buildState_ok {maxInFlight concurrency : Option Nat} {maxInFlightBytes uploadConcurrency : Nat}
    (h : UploadPath.buildState maxInFlight concurrency = .ok (maxInFlightBytes, uploadConcurrency)) :
    MIN_IN_FLIGHT_BYTES ≤ maxInFlightBytes ∧ 0 < uploadConcurrency := by
  rw [UploadPath.buildState] at h
  split at h
  · cases h
  · rename_i hmin
    split at h
    · cases h
    · rename_i hpos
      obtain ⟨rfl, rfl⟩ := Prod.mk.inj (Except.ok.inj h)
      exact ⟨Nat.le_of_not_lt hmin, Nat.pos_of_ne_zero hpos⟩

section Bodies

variable {key : LessSafeKey} {base122 : Base122Fast} {config : ResolvedShaperConfig}
  {startSeq : UInt64} {payload : Bytes} {uploadConcurrency maxInFlightBytes : Nat} {u : UploadLoopActor}

theorem Bounded.bodies (hmin : MIN_IN_FLIGHT_BYTES ≤ maxInFlightBytes)
    (h : Bounded key base122 config startSeq payload
      (limitsOf config uploadConcurrency maxInFlightBytes) u) :
    ∀ p ∈ u.posts, p.body ≠ [] ∧ p.body.length ≤ maxInFlightBytes ∧ p.body.length < 2 ^ 32 ∧
      p.permitBytes = p.body.length := by
  obtain ⟨-, hlimits, -, hheld, -⟩ := h
  intro p hp
  obtain ⟨hne, hlen, hpermit⟩ := hheld.bodies p hp
  rw [hlimits] at hlen hpermit
  obtain ⟨hshort, hsmall, heq⟩ := permitBytes_eq hmin hne hlen
  exact ⟨hne, hshort, hsmall, hpermit.trans heq⟩

theorem Bounded.in_flight_le (hmin : MIN_IN_FLIGHT_BYTES ≤ maxInFlightBytes)
    (h : Bounded key base122 config startSeq payload
      (limitsOf config uploadConcurrency maxInFlightBytes) u) :
    ((inFlight u.posts).map fun p => p.body.length).sum ≤ maxInFlightBytes := by
  rw [heldBytes_eq fun p hp => (h.bodies hmin p hp).2.2.2]
  have hwithin := h.held.within
  rwa [h.limits_eq] at hwithin

end Bodies

/-- **The bound on what is in flight is real.**

    For every configuration that `build_state` accepts, both encodings and every run of the loop: each
    body is not empty and at most `max_in_flight_bytes` long, its permits are its length, which neither
    the `min` nor the `max` nor the cast has changed, and at every moment the bodies of the POSTs that
    have not ended sum to at most `max_in_flight_bytes` and are at most `upload_concurrency` many. -/
theorem in_flight_bounded (key : LessSafeKey) (hkey : key.NeverFails) (hlaw : key.Lawful)
    (base122 : Base122Fast) (hb : base122.Short) (maxInFlight concurrency : Option Nat)
    (maxInFlightBytes uploadConcurrency : Nat)
    (hbuild : UploadPath.buildState maxInFlight concurrency = .ok (maxInFlightBytes, uploadConcurrency))
    (config : ResolvedShaperConfig) (payload : Bytes) (startSeq : UInt64) (random : Nat)
    (es : List Event) (u : UploadLoopActor)
    (h : run (step key base122)
      (.new config uploadConcurrency maxInFlightBytes payload startSeq random) es = some u) :
    (∀ p ∈ u.posts, p.body ≠ [] ∧ p.body.length ≤ maxInFlightBytes ∧
      min p.body.length maxInFlightBytes = p.body.length ∧ max p.body.length 1 = p.body.length ∧
      p.body.length % 2 ^ 32 = p.body.length ∧ p.permitBytes = p.body.length) ∧
    ((inFlight u.posts).map fun p => p.body.length).sum ≤ maxInFlightBytes ∧
    (inFlight u.posts).length ≤ uploadConcurrency := by
  obtain ⟨hmin, -⟩ := buildState_ok hbuild
  have hbounded := bounded_run hkey hlaw hb h
  refine ⟨?_, hbounded.in_flight_le hmin, ?_⟩
  · intro p hp
    obtain ⟨hne, hshort, hsmall, hpermit⟩ := hbounded.bodies hmin p hp
    have hpos := List.length_pos_iff.mpr hne
    exact ⟨hne, hshort, Nat.min_eq_left hshort, Nat.max_eq_left hpos, Nat.mod_eq_of_lt hsmall, hpermit⟩
  · have hwithin := hbounded.permits.within
    rwa [hbounded.limits_eq] at hwithin

/-- Two POSTs, with the smallest `max_in_flight_bytes` that is accepted; the first one ends. -/
def boundedEvents : List Event :=
  [.turn ⟨.filled [1], false, demoDraw⟩, .turn ⟨.pending, true, demoDraw⟩,
   .turn ⟨.pending, false, demoDraw⟩, .acquire, .acquire, .joinNone,
   .turn ⟨.filled [2], false, demoDraw⟩, .turn ⟨.pending, true, demoDraw⟩,
   .turn ⟨.pending, false, demoDraw⟩, .acquire, .acquire, .ended 0 .success]

theorem in_flight_bounded_demo :
    ∃ u, run (step UploadPath.uploadKey publishedBase122) (.new demoConfig 128 20480 [] 0 0)
        boundedEvents = some u ∧
      u.posts.map (fun p => (p.body.length, p.outcome)) = [(41, some .success), (41, none)] ∧
      ((inFlight u.posts).map fun p => p.body.length).sum ≤ 20480 ∧ (inFlight u.posts).length ≤ 128 := by
  have heval : (run (step UploadPath.uploadKey publishedBase122) (.new demoConfig 128 20480 [] 0 0)
      boundedEvents).map
      (fun u => u.posts.map fun p => (p.body.length, p.outcome)) =
        some [(41, some .success), (41, none)] := by decide +kernel
  obtain ⟨u, hrun, hposts⟩ := Option.map_eq_some_iff.mp heval
  refine ⟨u, hrun, hposts, ?_⟩
  exact (in_flight_bounded UploadPath.uploadKey (streamKey_neverFails _) (streamKey_lawful (by decide))
    publishedBase122 publishedBase122_short (some 20480) none 20480 128 rfl demoConfig [] 0 0
    boundedEvents u hrun).2

end Httproxy.UploadLoop
