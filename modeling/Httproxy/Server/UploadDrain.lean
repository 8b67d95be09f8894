/-
  The upload actor, read back: what the drain loop and the waiter loop do, and what ONE turn of the
  actor's loop can do.

  Specification.  Let `F` be the `Frame` commands received so far, in arrival order, and `F.lookup q`
  the payload of the FIRST one with sequence number `q`.  The `i`-th payload ever written must be
  `F.lookup (s₀ + i)`, and the actor must stop exactly at the first number nobody has sent.

  1. **`InOrder s₀ F ws`** — every written payload is the first one received for its number.
  2. **`Held s₀ F ws r`** — the phase fields agree with the history: `next_seq` is `s₀` plus the
     number of payloads written, and from there on the reorder map holds exactly the first payloads.
  3. **The crux (`Pops`)** — the nested drain loop is, run boundaries aside, a chain of "remove the
     entry at `next_seq`, then bump".  `drainLoop_spec` reads `drainLoop` back as such a chain cut
     into runs of at most `MAX_WRITE_IOV`; `Pops.keeps` says a chain preserves 1 and 2.
  4. **`Turn`** — one constructor per way through `select!`, `dispatch` and the handlers.
     `step_turn` is the only place where `step` is unfolded: every invariant is a case analysis
     over `Turn`.

  Everything is stated so that it survives the wrap-around of `u64`: past `2^64` only the numbers
  `s₀, …, 2^64 - 1`, all written by then, are spoken of.
-/
import Httproxy.Lib.Seq
import Httproxy.Server.Upload

namespace Httproxy.Upload

open Machine Vec Seq

/-! ## The specification -/

/-- Each written payload is the first one received for its sequence number. -/
def InOrder (s₀ : UInt64) (F : List (UInt64 × Bytes)) (ws : List Bytes) : Prop :=
  ∀ i d, ws[i]? = some d → s₀.toNat + i < 2 ^ 64 → F.lookup (seqAt s₀ i) = some d

/-- `next_seq` counts the written payloads and the map holds the first payloads above it. -/
structure HeldAbove (s₀ : UInt64) (F : List (UInt64 × Bytes)) (ws : List Bytes) (r : Reorder) :
    Prop where
  next : r.nextSeq = seqAt s₀ ws.length
  above : s₀.toNat + ws.length < 2 ^ 64 →
    ∀ q, r.nextSeq < q → r.pending.lookup q = F.lookup q

/-- `HeldAbove`, and the map agrees with the history at `next_seq` too. -/
structure Held (s₀ : UInt64) (F : List (UInt64 × Bytes)) (ws : List Bytes) (r : Reorder) :
    Prop extends HeldAbove s₀ F ws r where
  here : s₀.toNat + ws.length < 2 ^ 64 → r.pending.lookup r.nextSeq = F.lookup r.nextSeq

/-! ## Lookup in a growing history -/

theorem lookup_append_of_some {F : List (UInt64 × Bytes)} {q : UInt64} {d : Bytes}
    (G : List (UInt64 × Bytes)) (h : F.lookup q = some d) : (F ++ G).lookup q = some d := by
  rw [List.lookup_append, h]; rfl

theorem lookup_snoc_ne {F : List (UInt64 × Bytes)} {q : UInt64} {p : UInt64 × Bytes}
    (h : q ≠ p.1) : (F ++ [p]).lookup q = F.lookup q := by
  rw [List.lookup_append]
  simp [List.lookup, beq_false_of_ne h]

theorem lookup_snoc_self {F : List (UInt64 × Bytes)} {p : UInt64 × Bytes}
    (h : F.lookup p.1 = none) : (F ++ [p]).lookup p.1 = some p.2 := by
  rw [List.lookup_append, h]
  simp [List.lookup]

theorem InOrder.append {s₀ : UInt64} {F : List (UInt64 × Bytes)} {ws : List Bytes}
    (h : InOrder s₀ F ws) (G : List (UInt64 × Bytes)) : InOrder s₀ (F ++ G) ws :=
  fun i d hi hb => lookup_append_of_some G (h i d hi hb)

theorem InOrder.of_prefix {s₀ : UInt64} {F : List (UInt64 × Bytes)} {ws vs : List Bytes}
    (h : InOrder s₀ F ws) (hp : vs <+: ws) : InOrder s₀ F vs := by
  intro i d hi hb
  obtain ⟨us, rfl⟩ := hp
  refine h i d ?_ hb
  obtain ⟨hlt, -⟩ := List.getElem?_eq_some_iff.mp hi
  rw [List.getElem?_append_left hlt]; exact hi

/-! ## One emission, and chains of them -/

/-- Writing the payload at `next_seq` and bumping keeps everything. -/
theorem HeldAbove.emit {s₀ : UInt64} {F : List (UInt64 × Bytes)} {ws : List Bytes} {r : Reorder}
    {d : Bytes} (h : HeldAbove s₀ F ws r) (ho : InOrder s₀ F ws)
    (hd : s₀.toNat + ws.length < 2 ^ 64 → F.lookup r.nextSeq = some d) :
    Held s₀ F (ws ++ [d]) r.bump ∧ InOrder s₀ F (ws ++ [d]) := by
  have hlen : (ws ++ [d]).length = ws.length + 1 := by simp
  -- while there is no wrap-around, `bump` moves to the next number of `above`
  have habove : s₀.toNat + (ws.length + 1) < 2 ^ 64 →
      ∀ q, r.nextSeq + 1 ≤ q → r.pending.lookup q = F.lookup q := by
    intro hb q hq
    have hn : r.nextSeq.toNat = s₀.toNat + ws.length := by
      rw [h.next, seqAt_toNat (by omega)]
    refine h.above (by omega) q ?_
    rw [UInt64.le_iff_toNat_le, UInt64.toNat_add] at hq
    rw [UInt64.lt_iff_toNat_lt]
    have h1 : (1 : UInt64).toNat = 1 := rfl
    omega
  refine ⟨⟨⟨?_, ?_⟩, ?_⟩, ?_⟩
  · rw [bump_nextSeq, h.next, hlen, seqAt_succ]
  · intro hb q hq
    rw [hlen] at hb
    exact habove hb q (UInt64.le_of_lt hq)
  · intro hb
    rw [hlen] at hb
    exact habove hb _ (UInt64.le_refl _)
  · intro i e hi hb
    rcases Nat.lt_trichotomy i ws.length with hlt | heq | hgt
    · rw [List.getElem?_append_left hlt] at hi
      exact ho i e hi hb
    · subst heq
      rw [List.getElem?_concat_length, Option.some.injEq] at hi
      rw [← hi, ← h.next]
      exact hd hb
    · rw [List.getElem?_eq_none (by omega)] at hi
      cases hi

/-- Taking the entry at `next_seq` out of the map: the payload is the history's. -/
theorem Held.removeNext {s₀ : UInt64} {F : List (UInt64 × Bytes)} {ws : List Bytes}
    {r r' : Reorder} {d : Bytes} (h : Held s₀ F ws r) (hr : r.removeNext = some (d, r')) :
    HeldAbove s₀ F ws r' ∧ (s₀.toNat + ws.length < 2 ^ 64 → F.lookup r'.nextSeq = some d) ∧
      r'.eosWaiters = r.eosWaiters := by
  unfold Reorder.removeNext at hr
  split at hr
  · cases hr
  · rename_i d' hd
    rw [Option.some.injEq, Prod.mk.injEq] at hr
    obtain ⟨rfl, rfl⟩ := hr
    refine ⟨⟨h.next, ?_⟩, ?_, rfl⟩
    · intro hb q hq
      rw [← h.above hb q hq]
      exact AList.lookup_erase_ne (UInt64.ne_of_lt hq).symm
    · intro hb
      rw [← hd]
      exact (h.here hb).symm

/-- A chain of `remove(next_seq)` and `+= 1`, collecting the removed payloads. -/
inductive Pops : Reorder → List Bytes → Reorder → Prop where
  | nil (r : Reorder) : Pops r [] r
  | cons {r r' t : Reorder} {d : Bytes} {ds : List Bytes} :
      r.removeNext = some (d, r') → Pops r'.bump ds t → Pops r (d :: ds) t

theorem Pops.append {r m t : Reorder} {ds es : List Bytes} (h : Pops r ds m) (h' : Pops m es t) :
    Pops r (ds ++ es) t := by
  induction h with
  | nil => exact h'
  | cons hr _ ih => exact Pops.cons hr (ih h')

/-- **A chain keeps the specification**, with the removed payloads counted as written. -/
theorem Pops.keeps {s₀ : UInt64} {F : List (UInt64 × Bytes)} {r t : Reorder} {ds : List Bytes}
    (h : Pops r ds t) : ∀ ws, Held s₀ F ws r → InOrder s₀ F ws →
      Held s₀ F (ws ++ ds) t ∧ InOrder s₀ F (ws ++ ds) ∧ t.eosWaiters = r.eosWaiters := by
  induction h with
  | nil r =>
    intro ws hw ho
    rw [List.append_nil]
    exact ⟨hw, ho, rfl⟩
  | @cons r r' t d ds hr _ ih =>
    intro ws hw ho
    obtain ⟨ha, hd, he⟩ := hw.removeNext hr
    obtain ⟨hw', ho'⟩ := ha.emit ho hd
    obtain ⟨hw'', ho'', he'⟩ := ih (ws ++ [d]) hw' ho'
    rw [List.append_assoc, List.singleton_append] at hw'' ho''
    exact ⟨hw'', ho'', by rw [he', bump_eosWaiters, he]⟩

/-! ## Reading the drain loop back -/

theorem fillRun_pops (r : Reorder) (buf : List Bytes) :
    ∃ ds, Pops r ds (fillRun r buf).1 ∧ (fillRun r buf).2 = buf ++ ds ∧
      (buf.length ≤ MAX_WRITE_IOV → (fillRun r buf).2.length ≤ MAX_WRITE_IOV) := by
  fun_induction fillRun r buf with
  | case1 r buf hlt hr => exact ⟨[], Pops.nil r, (List.append_nil buf).symm, fun h => h⟩
  | case2 r buf hlt d r' hr ih =>
    obtain ⟨ds, hp, hb, hl⟩ := ih
    refine ⟨d :: ds, Pops.cons hr hp, by rw [hb]; simp, fun _ => hl ?_⟩
    rw [List.length_append, List.length_singleton]; omega
  | case3 r buf hge => exact ⟨[], Pops.nil r, (List.append_nil buf).symm, fun h => h⟩

/-- A run starts with the frame in hand and goes on with popped ones. -/
theorem fillRun_head (r : Reorder) (head : Bytes) :
    ∃ ds, Pops r.bump ds (fillRun r.bump [head]).1 ∧ (fillRun r.bump [head]).2 = head :: ds ∧
      (fillRun r.bump [head]).2.length ≤ MAX_WRITE_IOV := by
  obtain ⟨ds, hp, hb, hl⟩ := fillRun_pops r.bump [head]
  exact ⟨ds, hp, hb, hl (by rw [List.length_singleton]; decide)⟩

/-- The part of the actor the drain loop leaves alone. -/
def SameButWrites (a a' : UploadActor) : Prop :=
  a'.phase = a.phase ∧ a'.upstream = a.upstream ∧ a'.acks = a.acks ∧ a'.done = a.done ∧
    a'.lastActivity = a.lastActivity

theorem SameButWrites.trans {a b c : UploadActor} (h : SameButWrites a b) (h' : SameButWrites b c) :
    SameButWrites a c :=
  ⟨h'.1.trans h.1, h'.2.1.trans h.2.1, h'.2.2.1.trans h.2.2.1, h'.2.2.2.1.trans h.2.2.2.1,
    h'.2.2.2.2.trans h.2.2.2.2⟩

theorem writeRun_spec {writeOk : Nat → Bool} {a a' : UploadActor} {ok : Bool}
    (h : writeRun writeOk a = (ok, a')) :
    a'.writes = a.writes ++ [(a.runBuf, ok)] ∧ SameButWrites a a' := by
  unfold writeRun at h
  rw [Prod.mk.injEq] at h
  obtain ⟨hok, rfl⟩ := h
  exact ⟨by rw [← hok], rfl, rfl, rfl, rfl, rfl⟩

/-- **The drain loop, read back.**  The runs it writes are, concatenated, the head followed by a
    chain of popped payloads; each run fits the iovec limit; all of them succeed when the loop
    ends normally, and then no pending frame is left at `next_seq`; otherwise the successful ones
    are a prefix. -/
theorem drainLoop_spec (writeOk : Nat → Bool) (a : UploadActor) (r : Reorder) (head : Bytes) :
    ∃ ds runs, Pops r.bump ds (drainLoop writeOk a r head).2.1 ∧
      (drainLoop writeOk a r head).2.2.writes = a.writes ++ runs ∧
      runs.flatMap Prod.fst = head :: ds ∧
      (∀ w ∈ runs, w.1.length ≤ MAX_WRITE_IOV) ∧
      SameButWrites a (drainLoop writeOk a r head).2.2 ∧
      ((drainLoop writeOk a r head).1 = true →
        (∀ w ∈ runs, w.2 = true) ∧ (drainLoop writeOk a r head).2.1.removeNext = none) ∧
      (runs.filter Prod.snd).flatMap Prod.fst <+: head :: ds := by
  fun_induction drainLoop writeOk a r head with
  | case1 a r head a' hw =>
    -- the write failed: this run is logged as unsuccessful and nothing follows
    obtain ⟨hwr, hsame⟩ := writeRun_spec hw
    obtain ⟨ds, hp, hb, hl⟩ := fillRun_head r head
    refine ⟨ds, [((fillRun r.bump [head]).2, false)], hp, hwr, by simp [hb], ?_, hsame,
      fun h => absurd h Bool.false_ne_true, by simp⟩
    intro w hw'
    rw [List.mem_singleton] at hw'
    rw [hw']
    exact hl
  | case2 a r head a' hw hnone =>
    obtain ⟨hwr, hsame⟩ := writeRun_spec hw
    obtain ⟨ds, hp, hb, hl⟩ := fillRun_head r head
    refine ⟨ds, [((fillRun r.bump [head]).2, true)], hp, hwr, by simp [hb], ?_, hsame,
      fun _ => ⟨by simp, hnone⟩, by simp [hb]⟩
    intro w hw'
    rw [List.mem_singleton] at hw'
    rw [hw']
    exact hl
  | case3 a r head a' hw d r' hnext ih =>
    -- the run was written and a further pending frame becomes the next head
    obtain ⟨hwr, hsame⟩ := writeRun_spec hw
    obtain ⟨ds, hp, hb, hl⟩ := fillRun_head r head
    obtain ⟨es, runs, hp', hwr', hf', hl', hsame', hok', hpre'⟩ := ih
    refine ⟨ds ++ d :: es, ((fillRun r.bump [head]).2, true) :: runs,
      hp.append (Pops.cons hnext hp'), ?_, ?_, ?_, hsame.trans hsame', ?_, ?_⟩
    · rw [hwr', hwr, List.append_assoc, List.singleton_append]
    · rw [List.flatMap_cons, hf', hb]; simp
    · intro w hw'
      rcases List.mem_cons.mp hw' with rfl | hw'
      · exact hl
      · exact hl' w hw'
    · intro hok
      obtain ⟨hall, hnone⟩ := hok' hok
      refine ⟨?_, hnone⟩
      intro w hw'
      rcases List.mem_cons.mp hw' with rfl | hw'
      · rfl
      · exact hall w hw'
    · rw [List.filter_cons_of_pos rfl, List.flatMap_cons, hb]
      simpa using hpre'

/-- When the loop reports failure, the failed call is in the log. -/
theorem drainLoop_failed {writeOk : Nat → Bool} {a a' : UploadActor} {r r' : Reorder} {head : Bytes}
    (h : drainLoop writeOk a r head = (false, r', a')) : ∃ w ∈ a'.writes, w.2 = false := by
  fun_induction drainLoop writeOk a r head with
  | case1 a r head a₁ hw =>
    rw [Prod.mk.injEq, Prod.mk.injEq] at h
    obtain ⟨-, -, rfl⟩ := h
    exact ⟨_, by rw [(writeRun_spec hw).1]; exact List.mem_append_right _ (List.mem_singleton.mpr rfl), rfl⟩
  | case2 => cases h
  | case3 a r head a₁ hw d r₁ hnext ih => exact ih h

/-! ## Releasing waiters -/

/-- **The waiter loop, read back**: it answers `Ok` to waiters below `next`, keeps only waiters at
    or above it, and loses none.  The invariant of the scan is that everything before position `i`
    stays. -/
theorem releaseWaiters_spec (next : UInt64) (ws : List (UInt64 × Ack)) (i : Nat)
    (acks : List (Ack × Answer)) : (∀ w ∈ ws.take i, next ≤ w.1) →
    (∀ w ∈ (releaseWaiters next ws i acks).1, next ≤ w.1) ∧
    ∃ rel : List (UInt64 × Ack),
      (releaseWaiters next ws i acks).2 = acks ++ rel.map (fun w => (w.2, Answer.ok)) ∧
      (∀ w ∈ rel, w.1 < next) ∧ (rel ++ (releaseWaiters next ws i acks).1).Perm ws := by
  fun_induction releaseWaiters next ws i acks with
  | case1 ws i acks hi hlt ih =>
    intro hpre
    obtain ⟨hkeep, rel, hacks, hrel, hperm⟩ := ih (by rw [take_swapRemove hi]; exact hpre)
    refine ⟨hkeep, ws[i] :: rel, by rw [hacks]; simp, ?_, ?_⟩
    · intro w hw
      rcases List.mem_cons.mp hw with rfl | hw
      · exact hlt
      · exact hrel w hw
    · exact (hperm.cons ws[i]).trans (swapRemove_perm hi)
  | case2 ws i acks hi hge ih =>
    intro hpre
    refine ih ?_
    intro w hw
    rw [List.take_succ_eq_append_getElem hi, List.mem_append, List.mem_singleton] at hw
    rcases hw with hw | rfl
    · exact hpre w hw
    · exact UInt64.not_lt.mp hge
  | case3 ws i acks hi =>
    intro hpre
    rw [List.take_of_length_le (by omega)] at hpre
    exact ⟨hpre, [], by simp, by simp, List.Perm.refl ws⟩

/-! ## What one turn of the loop can do -/

/-- The turns of a live actor, one constructor per way through `select!`, `dispatch` and the
    handlers. -/
inductive Turn (writeOk : Nat → Bool) (a : UploadActor) (r : Reorder) : Event → UploadActor → Prop
    where
  /-- A stale or duplicate frame is dropped. -/
  | discard {now seq data}
      (h : seq < r.nextSeq ∨ r.nextSeq < seq ∧ (r.pending.lookup seq).isSome = true) :
      Turn writeOk a r (.recv now (.frame seq data)) { a with lastActivity := now }
  /-- The frame at `next_seq`: everything consecutive is written and waiters are released. -/
  | drained {now data r' a'}
      (h : drainLoop writeOk { a with lastActivity := now } r data = (true, r', a')) :
      Turn writeOk a r (.recv now (.frame r.nextSeq data))
        { a' with
          phase := .reordering
            { r' with eosWaiters := (releaseWaiters r'.nextSeq r'.eosWaiters 0 a'.acks).1 }
          acks := (releaseWaiters r'.nextSeq r'.eosWaiters 0 a'.acks).2 }
  /-- The frame at `next_seq`, but a write fails. -/
  | failed {now data r' a'}
      (h : drainLoop writeOk { a with lastActivity := now } r data = (false, r', a')) :
      Turn writeOk a r (.recv now (.frame r.nextSeq data))
        (finish (shutdownAndDrain { a' with phase := .reordering r' }))
  /-- A frame ahead of `next_seq` that does not fit the reorder buffer. -/
  | overflow {now seq data} (h : r.nextSeq < seq)
      (ho : r.pending.entries.length ≥ MAX_PENDING_FRAMES ∨
        r.pendingBytes + data.length > MAX_PENDING_BYTES) :
      Turn writeOk a r (.recv now (.frame seq data))
        (finish (shutdownAndDrain { a with lastActivity := now }))
  /-- A frame ahead of `next_seq` is kept. -/
  | stored {now seq data} (h : r.nextSeq < seq) (hn : r.pending.lookup seq = none)
      (ho : r.pending.entries.length < MAX_PENDING_FRAMES ∧
        r.pendingBytes + data.length ≤ MAX_PENDING_BYTES) :
      Turn writeOk a r (.recv now (.frame seq data))
        { a with
          lastActivity := now
          phase := .reordering
            { r with pending := r.pending.insert seq data
                     pendingBytes := r.pendingBytes + data.length } }
  /-- An EOS for numbers already written. -/
  | eosOk {now m ack} (h : m < r.nextSeq) :
      Turn writeOk a r (.recv now (.eos m ack))
        { a with lastActivity := now, acks := a.acks ++ [(ack, .ok)] }
  /-- An EOS that finds the waiter list full. -/
  | eosOverflow {now m ack} (h : r.nextSeq ≤ m) (ho : r.eosWaiters.length ≥ MAX_EOS_WAITERS) :
      Turn writeOk a r (.recv now (.eos m ack))
        (finish { a with
          lastActivity := now
          acks := a.acks ++ [(ack, .err (.badGateway "upload EOS waiters overflow"))] })
  /-- An EOS that has to wait. -/
  | eosStored {now m ack} (h : r.nextSeq ≤ m) :
      Turn writeOk a r (.recv now (.eos m ack))
        { a with
          lastActivity := now
          phase := .reordering { r with eosWaiters := r.eosWaiters ++ [(m, ack)] } }
  /-- `Shutdown`, channel closed, or reorder timeout. -/
  | leave {e now} (hf : framesOf [e] = []) (he : eosOf [e] = []) :
      Turn writeOk a r e (finish (shutdownAndDrain { a with lastActivity := now }))

theorem handleFrame_turn {writeOk : Nat → Bool} {a b : UploadActor} {r : Reorder} {now : Nat}
    {seq : UInt64} {data : Bytes} (hp : a.phase = .reordering r)
    (h : step writeOk a (.recv now (.frame seq data)) = some b) :
    Turn writeOk a r (.recv now (.frame seq data)) b := by
  obtain ⟨_, up, la, buf, wr, ak, dn⟩ := a
  obtain rfl : _ = UploadPhase.reordering r := hp
  unfold step at h
  dsimp only at h
  split at h
  · cases h
  · simp only [dispatch, handleFrame] at h
    by_cases hst : seq < r.nextSeq
    · rw [if_pos hst] at h
      exact Option.some.inj h ▸ Turn.discard (Or.inl hst)
    · rw [if_neg hst] at h
      by_cases heq : seq = r.nextSeq
      · subst heq
        rw [if_pos rfl] at h
        rcases hdr : drainLoop writeOk ⟨.reordering r, up, now, buf, wr, ak, dn⟩ r data with
          ⟨ok, r', a'⟩
        rw [hdr] at h
        cases ok with
        | false => exact Option.some.inj h ▸ Turn.failed hdr
        | true => exact Option.some.inj h ▸ Turn.drained hdr
      · have hgt : r.nextSeq < seq :=
          UInt64.lt_of_le_of_ne (UInt64.not_lt.mp hst) (fun hc => heq hc.symm)
        rw [if_neg heq] at h
        by_cases hdup : (r.pending.lookup seq).isSome = true
        · rw [if_pos hdup] at h
          exact Option.some.inj h ▸ Turn.discard (Or.inr ⟨hgt, hdup⟩)
        · rw [if_neg hdup] at h
          by_cases hov : r.pending.entries.length ≥ MAX_PENDING_FRAMES ∨
              r.pendingBytes + data.length > MAX_PENDING_BYTES
          · rw [if_pos hov] at h
            exact Option.some.inj h ▸ Turn.overflow hgt hov
          · rw [if_neg hov] at h
            refine Option.some.inj h ▸ Turn.stored hgt (by simpa using hdup) ?_
            omega

theorem handleEos_turn {writeOk : Nat → Bool} {a b : UploadActor} {r : Reorder} {now : Nat}
    {m : UInt64} {ack : Ack} (hp : a.phase = .reordering r)
    (h : step writeOk a (.recv now (.eos m ack)) = some b) :
    Turn writeOk a r (.recv now (.eos m ack)) b := by
  obtain ⟨_, up, la, buf, wr, ak, dn⟩ := a
  obtain rfl : _ = UploadPhase.reordering r := hp
  unfold step at h
  dsimp only at h
  split at h
  · cases h
  · simp only [dispatch, handleEos] at h
    by_cases hlt : r.nextSeq > m
    · rw [if_pos hlt] at h
      exact Option.some.inj h ▸ Turn.eosOk hlt
    · rw [if_neg hlt] at h
      by_cases hov : r.eosWaiters.length ≥ MAX_EOS_WAITERS
      · rw [if_pos hov] at h
        exact Option.some.inj h ▸ Turn.eosOverflow (UInt64.not_lt.mp hlt) hov
      · rw [if_neg hov] at h
        exact Option.some.inj h ▸ Turn.eosStored (UInt64.not_lt.mp hlt)

/-- **Inversion of `step`** for an actor in the `Reordering` phase. -/
theorem step_turn {writeOk : Nat → Bool} {a b : UploadActor} {r : Reorder} {e : Event}
    (hp : a.phase = .reordering r) (h : step writeOk a e = some b) : Turn writeOk a r e b := by
  cases e with
  | recv now cmd =>
    cases cmd with
    | frame seq data => exact handleFrame_turn hp h
    | eos m ack => exact handleEos_turn hp h
    | shutdown =>
      unfold step at h
      dsimp only at h
      split at h
      · cases h
      · exact Option.some.inj h ▸ Turn.leave rfl rfl
  | closed =>
    unfold step at h
    dsimp only at h
    split at h
    · cases h
    · have hleave : Turn writeOk a r .closed
          (finish (shutdownAndDrain { a with lastActivity := a.lastActivity })) := .leave rfl rfl
      exact Option.some.inj h ▸ hleave
  | timeout now =>
    unfold step at h
    dsimp only at h
    split at h
    · cases h
    · have hleave : Turn writeOk a r (.timeout now)
          (finish (shutdownAndDrain { a with lastActivity := a.lastActivity })) := .leave rfl rfl
      exact Option.some.inj h ▸ hleave

end Httproxy.Upload
