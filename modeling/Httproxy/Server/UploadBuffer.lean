/-
  The reorder buffer of the upload actor (`UploadActor::handle_frame` in `src/server/actor/upload.rs`).

  `pending_bytes` is kept beside the map and adjusted in three places: it grows when a frame is kept, and
  it shrinks at the two places of the drain where a frame is taken out.

  1. **Program** — `handleFrameChecked` is `handleFrame` with each `*pending_bytes -= len` CHECKED: it has
     no result where the subtraction would go below zero.

  2. **Specification** — `Buffered r`: every key is above `next_seq`, the counter is the sum of the
     lengths, and both limits hold.

  3. **The crux (`Pops.counted`)** — inside the drain the keys are only `≥ next_seq` (`Counted`), and a
     removed entry takes exactly its own length off the sum.  So a chain of pops keeps the counter right,
     every subtraction is of a summand, and the chain that ends with no entry at `next_seq` leaves the
     keys above it.  At the wrap-around there is no key above `2^64 - 1`, so the map is empty there.

  The theorem is `reorder_buffer`, over every run of the actor.
-/
import Httproxy.Server.UploadOrder

namespace Httproxy.Upload

open Machine

/-! ## Program, with checked subtractions -/

/-- `removeNext`, with `*pending_bytes -= next_data.len()` checked. -/
def Reorder.removeNextChecked (r : Reorder) : Option (Option (Bytes × Reorder)) :=
  match r.pending.lookup r.nextSeq with
  | none => some none
  | some d => if d.length ≤ r.pendingBytes then some r.removeNext else none

/-- `fillRun`, checked. -/
def fillRunChecked (r : Reorder) (buf : List Bytes) : Option (Reorder × List Bytes) :=
  if buf.length < MAX_WRITE_IOV then
    match r.removeNextChecked with
    | none => none
    | some none => some (r, buf)
    | some (some (d, r')) => fillRunChecked r'.bump (buf ++ [d])
  else some (r, buf)
termination_by MAX_WRITE_IOV - buf.length
decreasing_by
  rw [List.length_append, List.length_singleton]; omega

theorem removeNextChecked_eq {r : Reorder} {x : Option (Bytes × Reorder)}
    (h : r.removeNextChecked = some x) : r.removeNext = x := by
  unfold Reorder.removeNextChecked at h
  split at h
  · rename_i hnone
    rw [Reorder.removeNext, hnone]
    exact Option.some.inj h
  · split at h
    · exact Option.some.inj h
    · cases h

theorem fillRunChecked_eq {r : Reorder} {buf : List Bytes} {x : Reorder × List Bytes}
    (h : fillRunChecked r buf = some x) : fillRun r buf = x := by
  fun_induction fillRunChecked r buf with
  | case1 => cases h
  | case2 r buf hlt hr =>
    rw [fillRun, if_pos hlt, removeNextChecked_eq hr]
    exact Option.some.inj h
  | case3 r buf hlt d r' hr ih =>
    rw [fillRun, if_pos hlt, removeNextChecked_eq hr]
    exact ih h
  | case4 r buf hge =>
    rw [fillRun, if_neg hge]
    exact Option.some.inj h

/-- `drainLoop`, checked. -/
def drainLoopChecked (writeOk : Nat → Bool) (a : UploadActor) (r : Reorder) (head : Bytes) :
    Option (Bool × Reorder × UploadActor) :=
  match _hfill : fillRunChecked r.bump [head] with
  | none => none
  | some (r₁, buf) =>
    match writeRun writeOk { a with runBuf := buf } with
    | (false, a') => some (false, r₁, a')
    | (true, a') =>
      match _hnext : r₁.removeNextChecked with
      | none => none
      | some none => some (true, r₁, a')
      | some (some (d, r')) => drainLoopChecked writeOk a' r' d
termination_by r.pending.entries.length
decreasing_by
  have hfill := fillRun_length r.bump [head]
  rw [fillRunChecked_eq _hfill] at hfill
  exact Nat.lt_of_lt_of_le (removeNext_length (removeNextChecked_eq _hnext)) hfill

/-- `handleFrame`, checked: only the way through the drain loop subtracts. -/
def handleFrameChecked (writeOk : Nat → Bool) (a : UploadActor) (seq : UInt64) (data : Bytes) :
    Option (Bool × UploadActor) :=
  match a.phase with
  | .reordering r =>
    if seq = r.nextSeq then
      match drainLoopChecked writeOk a r data with
      | none => none
      | some (false, r', a') => some (true, shutdownAndDrain { a' with phase := .reordering r' })
      | some (true, r', a') =>
        let rel := releaseWaiters r'.nextSeq r'.eosWaiters 0 a'.acks
        let r'' := { r' with eosWaiters := rel.1 }
        some (false, { a' with phase := .reordering r'', acks := rel.2 })
    else some (handleFrame writeOk a seq data)
  | .draining _ => some (handleFrame writeOk a seq data)
  | .closed => some (handleFrame writeOk a seq data)

/-! ## Specification -/

/-- The lengths of the pending payloads, summed. -/
def total (p : Pending) : Nat := (p.entries.map fun e => e.2.length).sum

/-- The counter is right, the limits hold, and no key is below `next_seq`: the buffer as the drain
    finds it after each `+= 1`. -/
structure Counted (r : Reorder) : Prop where
  from_next : ∀ q ∈ r.pending, r.nextSeq ≤ q
  bytes : r.pendingBytes = total r.pending
  frames_le : r.pending.entries.length ≤ MAX_PENDING_FRAMES
  bytes_le : r.pendingBytes ≤ MAX_PENDING_BYTES

/-- The buffer between two commands. -/
structure Buffered (r : Reorder) : Prop extends Counted r where
  above : ∀ q ∈ r.pending, r.nextSeq < q

/-! ## The map and its sum -/

theorem total_erase {p : Pending} {q : UInt64} {d : Bytes} (h : p.lookup q = some d) :
    d.length + total (p.erase q) = total p := by
  have hmem : q ∈ p.entries.keys := AList.lookup_isSome.mp (by rw [h]; rfl)
  obtain ⟨b, before, after, hbefore, hentries, herase⟩ := List.exists_of_kerase hmem
  have hb : b = d := by
    have hin : Sigma.mk q b ∈ p.entries := by
      rw [hentries]
      exact List.mem_append_right _ List.mem_cons_self
    have hlookup : p.lookup q = some b := AList.mem_lookup_iff.mpr hin
    exact Option.some.inj (hlookup.symm.trans h)
  subst hb
  have hleft : total (p.erase q) = ((before ++ after).map fun e => e.2.length).sum := by
    rw [total, ← herase]
    rfl
  have hright : total p = ((before ++ ⟨q, b⟩ :: after).map fun e => e.2.length).sum := by
    rw [total, ← hentries]
  rw [hleft, hright, List.map_append, List.map_append, List.map_cons, List.sum_append,
    List.sum_append, List.sum_cons]
  show b.length + _ = _ + (b.length + _)
  omega

theorem total_insert {p : Pending} {q : UInt64} (d : Bytes) (h : p.lookup q = none) :
    total (p.insert q d) = d.length + total p ∧
      (p.insert q d).entries.length = p.entries.length + 1 := by
  have hentries : (p.insert q d).entries = ⟨q, d⟩ :: p.entries :=
    AList.entries_insert_of_notMem (AList.lookup_eq_none.mp h)
  constructor
  · rw [total, hentries, List.map_cons, List.sum_cons]
    rfl
  · rw [hentries, List.length_cons]

/-! ## What the drain does to the buffer -/

/-- Above `2^64 - 1` there is nothing, so the wrap-around needs no case of its own. -/
theorem succ_le_of_lt {n q : UInt64} (h : n < q) : n + 1 ≤ q := by
  rw [UInt64.lt_iff_toNat_lt] at h
  rw [UInt64.le_iff_toNat_le, UInt64.toNat_add]
  have hq := q.toNat_lt
  have hone : (1 : UInt64).toNat = 1 := rfl
  omega

/-- **The subtraction is of a summand**, so it does not go below zero. -/
theorem Counted.removeNextChecked {r : Reorder} (h : Counted r) :
    r.removeNextChecked = some r.removeNext := by
  cases hlookup : r.pending.lookup r.nextSeq with
  | none =>
    unfold Reorder.removeNextChecked Reorder.removeNext
    rw [hlookup]
  | some d =>
    have hsum := total_erase hlookup
    have hle : d.length ≤ r.pendingBytes := by
      rw [h.bytes]
      omega
    unfold Reorder.removeNextChecked
    rw [hlookup]
    exact if_pos hle

/-- Taking the entry at `next_seq` out, and counting on. -/
theorem Counted.removeNext {r r' : Reorder} {d : Bytes} (h : Counted r)
    (hr : r.removeNext = some (d, r')) : Counted r'.bump := by
  have hfewer := removeNext_length hr
  unfold Reorder.removeNext at hr
  split at hr
  · cases hr
  · rename_i d' hlookup
    rw [Option.some.injEq, Prod.mk.injEq] at hr
    obtain ⟨rfl, rfl⟩ := hr
    have hsum := total_erase hlookup
    refine ⟨?_, ?_, ?_, ?_⟩
    · intro q hq
      obtain ⟨hne, hin⟩ := AList.mem_erase.mp hq
      exact succ_le_of_lt (UInt64.lt_of_le_of_ne (h.from_next q hin) (Ne.symm hne))
    · show r.pendingBytes - d'.length = total (r.pending.erase r.nextSeq)
      rw [h.bytes]
      omega
    · exact Nat.le_trans (Nat.le_of_lt hfewer) h.frames_le
    · exact Nat.le_trans (Nat.sub_le _ _) h.bytes_le

theorem Buffered.bump {r : Reorder} (h : Buffered r) : Counted r.bump :=
  ⟨fun q hq => succ_le_of_lt (h.above q hq), h.bytes, h.frames_le, h.bytes_le⟩

/-- **A chain of pops keeps the buffer counted.** -/
theorem Pops.counted {r t : Reorder} {ds : List Bytes} (h : Pops r ds t) : Counted r → Counted t := by
  induction h with
  | nil => exact id
  | cons hr _ ih =>
    intro hc
    exact ih (hc.removeNext hr)

/-- With no entry at `next_seq` every key is above it. -/
theorem Counted.buffered {r : Reorder} (h : Counted r) (hnone : r.removeNext = none) : Buffered r := by
  refine ⟨h, ?_⟩
  intro q hq
  apply UInt64.lt_of_le_of_ne (h.from_next q hq)
  rintro rfl
  unfold Reorder.removeNext at hnone
  split at hnone
  · rename_i hlookup
    exact AList.lookup_eq_none.mp hlookup hq
  · cases hnone

/-- A frame above `next_seq` is kept when there is room for it. -/
theorem Buffered.store {r : Reorder} {seq : UInt64} {data : Bytes} (h : Buffered r)
    (habove : r.nextSeq < seq) (hnew : r.pending.lookup seq = none)
    (hroom : r.pending.entries.length < MAX_PENDING_FRAMES ∧
      r.pendingBytes + data.length ≤ MAX_PENDING_BYTES) :
    Buffered { r with pending := r.pending.insert seq data
                      pendingBytes := r.pendingBytes + data.length } := by
  obtain ⟨hsum, hcount⟩ := total_insert data hnew
  have hkeys : ∀ q ∈ r.pending.insert seq data, r.nextSeq < q := by
    intro q hq
    rcases (AList.mem_insert _).mp hq with rfl | hin
    · exact habove
    · exact h.above q hin
  refine ⟨⟨fun q hq => UInt64.le_of_lt (hkeys q hq), ?_, ?_, hroom.2⟩, hkeys⟩
  · show r.pendingBytes + data.length = total (r.pending.insert seq data)
    rw [h.bytes, hsum]
    omega
  · show (r.pending.insert seq data).entries.length ≤ MAX_PENDING_FRAMES
    omega

/-- The waiters have no part in it. -/
theorem Buffered.waiters {r : Reorder} (h : Buffered r) (ws : List (UInt64 × Ack)) :
    Buffered { r with eosWaiters := ws } :=
  ⟨⟨h.from_next, h.bytes, h.frames_le, h.bytes_le⟩, h.above⟩

/-! ## The checked program does the same -/

theorem fillRunChecked_counted {r : Reorder} {buf : List Bytes} (h : Counted r) :
    fillRunChecked r buf = some (fillRun r buf) := by
  fun_induction fillRun r buf with
  | case1 r buf hlt hr => rw [fillRunChecked, if_pos hlt, h.removeNextChecked, hr]
  | case2 r buf hlt d r' hr ih =>
    rw [fillRunChecked, if_pos hlt, h.removeNextChecked, hr]
    exact ih (h.removeNext hr)
  | case3 r buf hge => rw [fillRunChecked, if_neg hge]

theorem drainLoopChecked_counted {writeOk : Nat → Bool} {a : UploadActor} {r : Reorder} {head : Bytes}
    (h : Counted r.bump) :
    drainLoopChecked writeOk a r head = some (drainLoop writeOk a r head) := by
  fun_induction drainLoop writeOk a r head with
  | case1 a r head a' hw =>
    rw [drainLoopChecked, fillRunChecked_counted h]
    dsimp only
    rw [hw]
  | case2 a r head a' hw hnone =>
    obtain ⟨ds, hpops, -, -⟩ := fillRun_head r head
    rw [drainLoopChecked, fillRunChecked_counted h]
    dsimp only
    rw [hw]
    dsimp only
    rw [(hpops.counted h).removeNextChecked, hnone]
  | case3 a r head a' hw d r' hnext ih =>
    obtain ⟨ds, hpops, -, -⟩ := fillRun_head r head
    have hcounted := hpops.counted h
    rw [drainLoopChecked, fillRunChecked_counted h]
    dsimp only
    rw [hw]
    dsimp only
    rw [hcounted.removeNextChecked, hnext]
    exact ih (hcounted.removeNext hnext)

theorem handleFrameChecked_buffered {writeOk : Nat → Bool} {a : UploadActor}
    (h : ∀ r, a.phase = .reordering r → Buffered r) (seq : UInt64) (data : Bytes) :
    handleFrameChecked writeOk a seq data = some (handleFrame writeOk a seq data) := by
  unfold handleFrameChecked
  split
  · rename_i r hp
    split
    · rename_i heq
      subst heq
      rw [drainLoopChecked_counted (h r hp).bump, handleFrame, hp]
      dsimp only
      rw [if_neg (UInt64.lt_irrefl _), if_pos rfl]
      rcases drainLoop writeOk a r data with ⟨ok, r', a'⟩
      cases ok <;> rfl
    · rfl
  · rfl
  · rfl

/-! ## What a turn leaves in the buffer, and whom it answers -/

/-- A chain of pops puts nothing into the map, and leaves the waiters alone. -/
theorem Pops.fewer {r t : Reorder} {ds : List Bytes} (h : Pops r ds t) :
    t.eosWaiters = r.eosWaiters ∧
      ∀ q d, t.pending.lookup q = some d → r.pending.lookup q = some d := by
  induction h with
  | nil r => exact ⟨rfl, fun q d hlook => hlook⟩
  | @cons r r' t d ds hr _ ih =>
    obtain ⟨hwaiters, hkept⟩ := ih
    unfold Reorder.removeNext at hr
    split at hr
    · cases hr
    · rw [Option.some.injEq, Prod.mk.injEq] at hr
      obtain ⟨-, rfl⟩ := hr
      refine ⟨hwaiters, fun q d hlook => ?_⟩
      have herased : (r.pending.erase r.nextSeq).lookup q = some d := hkept q d hlook
      by_cases hq : q = r.nextSeq
      · rw [hq, AList.lookup_erase] at herased
        cases herased
      · rwa [AList.lookup_erase_ne hq] at herased

section Turns

variable {writeOk : Nat → Bool} {a b : UploadActor} {r r' : Reorder} {e : Event}

/-- What is in the map after a turn was there before, or is the frame that came. -/
theorem pending_turn (ht : Turn writeOk a r e b) (hp : a.phase = .reordering r)
    (hp' : b.phase = .reordering r') {q : UInt64} {d : Bytes} (hlook : r'.pending.lookup q = some d) :
    r.pending.lookup q = some d ∨ r.nextSeq < q ∧ ∃ now, e = .recv now (.frame q d) := by
  cases ht with
  | discard =>
    obtain rfl := UploadPhase.reordering.inj (hp.symm.trans hp')
    exact .inl hlook
  | @drained now data r₁ a₁ hdr =>
    obtain ⟨ds, runs, hpops, -⟩ := drainLoop_spec writeOk { a with lastActivity := now } r data
    rw [hdr] at hpops
    obtain rfl := UploadPhase.reordering.inj hp'
    exact .inl (hpops.fewer.2 q d hlook)
  | @stored now seq data habove hnew hroom =>
    obtain rfl := UploadPhase.reordering.inj hp'
    by_cases hq : q = seq
    · subst hq
      have hdata : data = d := Option.some.inj ((AList.lookup_insert r.pending).symm.trans hlook)
      exact .inr ⟨habove, now, by rw [hdata]⟩
    · exact .inl ((AList.lookup_insert_ne hq).symm.trans hlook)
  | eosOk =>
    obtain rfl := UploadPhase.reordering.inj (hp.symm.trans hp')
    exact .inl hlook
  | eosStored =>
    obtain rfl := UploadPhase.reordering.inj hp'
    exact .inl hlook
  | failed => cases hp'
  | overflow => cases hp'
  | eosOverflow => cases hp'
  | leave => cases hp'

/-- A turn answers `Ok` to waiters and to the EOS that came, and only to what `next_seq` has passed. -/
theorem oks_turn (ht : Turn writeOk a r e b) (hp : a.phase = .reordering r)
    (hp' : b.phase = .reordering r') {ack : Ack} (hack : (ack, .ok) ∈ b.acks) :
    (ack, .ok) ∈ a.acks ∨
      ∃ m < r'.nextSeq, (m, ack) ∈ r.eosWaiters ∨ ∃ now, e = .recv now (.eos m ack) := by
  cases ht with
  | discard => exact .inl hack
  | @drained now data r₁ a₁ hdr =>
    obtain ⟨ds, runs, hpops, -, -, -, hsame, -⟩ :=
      drainLoop_spec writeOk { a with lastActivity := now } r data
    rw [hdr] at hpops hsame
    obtain rfl := UploadPhase.reordering.inj hp'
    obtain ⟨-, rel, hacks, hpassed, hperm⟩ :=
      releaseWaiters_spec r₁.nextSeq r₁.eosWaiters 0 a₁.acks (fun w hw => absurd hw List.not_mem_nil)
    have hmem : (ack, Answer.ok) ∈ (releaseWaiters r₁.nextSeq r₁.eosWaiters 0 a₁.acks).2 := hack
    have hbefore : a₁.acks = a.acks := hsame.2.2.1
    rw [hacks, hbefore] at hmem
    rcases List.mem_append.mp hmem with hold | hnew
    · exact .inl hold
    · obtain ⟨⟨m, ack'⟩, hw, heq⟩ := List.mem_map.mp hnew
      obtain rfl : ack' = ack := (Prod.mk.inj heq).1
      refine .inr ⟨m, hpassed _ hw, .inl ?_⟩
      have hwaits : (m, ack') ∈ r₁.eosWaiters := hperm.mem_iff.mp (List.mem_append_left _ hw)
      rwa [hpops.fewer.1] at hwaits
  | stored => exact .inl hack
  | @eosOk now m ack' hlt =>
    obtain rfl := UploadPhase.reordering.inj (hp.symm.trans hp')
    rcases List.mem_append.mp hack with hold | hnew
    · exact .inl hold
    · obtain rfl : ack = ack' := (Prod.mk.inj (List.mem_singleton.mp hnew)).1
      exact .inr ⟨m, hlt, .inr ⟨now, rfl⟩⟩
  | eosStored => exact .inl hack
  | failed => cases hp'
  | overflow => cases hp'
  | eosOverflow => cases hp'
  | leave => cases hp'

end Turns

/-! ## Every run -/

/-- Between two commands the buffer of an actor that still reorders is in order. -/
def InBounds (a : UploadActor) : Prop := ∀ r, a.phase = .reordering r → Buffered r

theorem inBounds_finish (a : UploadActor) : InBounds (finish a) := by
  rintro r ⟨⟩

theorem inBounds_turn {writeOk : Nat → Bool} {a b : UploadActor} {r : Reorder} {e : Event}
    (h : Buffered r) (hp : a.phase = .reordering r) (ht : Turn writeOk a r e b) : InBounds b := by
  cases ht with
  | discard => exact fun r' hp' => UploadPhase.reordering.inj (hp.symm.trans hp') ▸ h
  | @drained now data r₁ a₁ hdr =>
    -- the drain is a chain of pops that ends with nothing at `next_seq`
    obtain ⟨ds, runs, hpops, -, -, -, -, hok, -⟩ :=
      drainLoop_spec writeOk { a with lastActivity := now } r data
    rw [hdr] at hpops hok
    rintro r' ⟨⟩
    exact ((hpops.counted h.bump).buffered (hok rfl).2).waiters _
  | failed => exact inBounds_finish _
  | overflow => exact inBounds_finish _
  | stored habove hnew hroom =>
    rintro r' ⟨⟩
    exact h.store habove hnew hroom
  | eosOk => exact fun r' hp' => UploadPhase.reordering.inj (hp.symm.trans hp') ▸ h
  | eosOverflow => exact inBounds_finish _
  | eosStored =>
    rintro r' ⟨⟩
    exact h.waiters _
  | leave => exact inBounds_finish _

theorem buffered_new (s₀ : UInt64) : Buffered ⟨s₀, ∅, 0, []⟩ where
  from_next q hq := absurd hq (AList.notMem_empty q)
  bytes := rfl
  frames_le := Nat.zero_le _
  bytes_le := Nat.zero_le _
  above q hq := absurd hq (AList.notMem_empty q)

theorem inBounds_new (s₀ : UInt64) (now : Nat) : InBounds (new s₀ now) := by
  rintro r ⟨⟩
  exact buffered_new s₀

/-- **The run lemma**: the buffer is in order after every run of a fresh actor. -/
theorem inBounds_run {writeOk : Nat → Bool} {s₀ : UInt64} {now : Nat} {es : List Event}
    {a : UploadActor} (h : run (step writeOk) (new s₀ now) es = some a) : InBounds a := by
  suffices hboth : Inv s₀ es a ∧ InBounds a from hboth.2
  refine run_history (P := fun es a => Inv s₀ es a ∧ InBounds a)
    ⟨inv_new s₀ now, inBounds_new s₀ now⟩ ?_ es a h
  rintro es m e t ⟨hinv, hm⟩ ht
  -- an actor that takes a command still reorders
  have hd := not_done_of_step ht
  obtain ⟨r, hl⟩ := hinv.live hd
  have hturn := step_turn hl.phase ht
  constructor
  · exact inv_turn hinv hd hl hturn
  · exact inBounds_turn (hm r hl.phase) hl.phase hturn

/-- **The reorder buffer is in order between any two commands, and its counter never underflows.**

    For every starting number, every pattern of write results and every sequence of commands, as long as
    the actor reorders: each key of the map is above `next_seq`, `pending_bytes` is the sum of the lengths
    in the map, both limits hold, and whatever frame comes next, no subtraction goes below zero. -/
theorem reorder_buffer (writeOk : Nat → Bool) (s₀ : UInt64) (start : Nat) (es : List Event)
    (a : UploadActor) (h : run (step writeOk) (new s₀ start) es = some a) :
    (∀ r, a.phase = .reordering r →
      (∀ q ∈ r.pending, r.nextSeq < q) ∧ r.pendingBytes = total r.pending ∧
      r.pending.entries.length ≤ MAX_PENDING_FRAMES ∧ r.pendingBytes ≤ MAX_PENDING_BYTES) ∧
    (∀ now seq data, handleFrameChecked writeOk { a with lastActivity := now } seq data =
      some (handleFrame writeOk { a with lastActivity := now } seq data)) := by
  have hin := inBounds_run h
  constructor
  · intro r hp
    have hr := hin r hp
    exact ⟨hr.above, hr.bytes, hr.frames_le, hr.bytes_le⟩
  · intro now seq data
    exact @handleFrameChecked_buffered writeOk { a with lastActivity := now } hin seq data

/-- With frame 1 kept, the missing frame 0 drains it: two bytes are taken off a counter of two. -/
theorem reorder_buffer_demo :
    ∃ a, run (step fun _ => true) (new 0 0) [.recv 5 (.frame 1 [7, 8])] = some a ∧
      handleFrameChecked (fun _ => true) { a with lastActivity := 6 } 0 [9] =
        some (handleFrame (fun _ => true) { a with lastActivity := 6 } 0 [9]) :=
  ⟨_, rfl, (reorder_buffer (fun _ => true) 0 0 [.recv 5 (.frame 1 [7, 8])] _ rfl).2 6 0 [9]⟩

end Httproxy.Upload
