/-
  The upload actor delivers in order and answers every EOS: the invariants over whole runs.

  `Core s₀ es a` relates the actor after the events `es` to those events: written payloads are in
  order, runs are short, `Ok` answers are truthful, and every EOS dispatched is answered or stored,
  never both and never twice (`ledger`).  `Live` adds what holds while `run()` is still waiting for
  commands: the map agrees with the history, the frame at `next_seq` is missing, and no stored
  waiter is already satisfied.  `inv_turn` carries both over one turn of the loop, `inv_run` over
  a run; the two headline theorems read the answers off them.
-/
import Httproxy.Server.UploadDrain

namespace Httproxy.Upload

open Machine Vec Seq

/-! ## The invariant -/

/-- Everything from `s₀` to `m` has been written: the payload at its position is the first one
    received for its number. -/
def Reached (s₀ : UInt64) (F : List (UInt64 × Bytes)) (ws : List Bytes) (m : UInt64) : Prop :=
  ∀ q, s₀ ≤ q → q ≤ m → ∃ d, F.lookup q = some d ∧ ws[q.toNat - s₀.toNat]? = some d

/-- What always holds, also after `run()` has returned. -/
structure Core (s₀ : UInt64) (es : List Event) (a : UploadActor) : Prop where
  order : InOrder s₀ (framesOf es) (written a)
  iov : ∀ w ∈ a.writes, w.1.length ≤ MAX_WRITE_IOV
  oks : ∀ ack, (ack, Answer.ok) ∈ a.acks →
    ∃ m, (m, ack) ∈ eosOf es ∧ Reached s₀ (framesOf es) (written a) m
  ledger : (a.acks.map Prod.fst ++ a.phase.stored).Perm ((eosOf es).map Prod.snd)

/-- What holds while the actor waits for its next command. -/
structure Live (s₀ : UInt64) (es : List Event) (a : UploadActor) (r : Reorder) : Prop where
  phase : a.phase = .reordering r
  held : Held s₀ (framesOf es) (written a) r
  gap : r.pending.lookup r.nextSeq = none
  waiting : ∀ w ∈ r.eosWaiters, r.nextSeq ≤ w.1
  known : ∀ w ∈ r.eosWaiters, w ∈ eosOf es
  allOk : ∀ w ∈ a.writes, w.2 = true

structure Inv (s₀ : UInt64) (es : List Event) (a : UploadActor) : Prop where
  core : Core s₀ es a
  live : a.done = false → ∃ r, Live s₀ es a r
  closed : a.done = true → a.phase = .closed

theorem Inv.of_live {s₀ : UInt64} {es : List Event} {a : UploadActor} {r : Reorder}
    (hd : a.done = false) (hc : Core s₀ es a) (hl : Live s₀ es a r) : Inv s₀ es a :=
  ⟨hc, fun _ => ⟨r, hl⟩, fun ht => absurd (hd.symm.trans ht) Bool.false_ne_true⟩

theorem framesOf_append (es fs : List Event) : framesOf (es ++ fs) = framesOf es ++ framesOf fs :=
  List.filterMap_append

theorem eosOf_append (es fs : List Event) : eosOf (es ++ fs) = eosOf es ++ eosOf fs :=
  List.filterMap_append

/-- Being written is final: neither more frames nor more writes undo it. -/
theorem Reached.mono {s₀ m : UInt64} {F : List (UInt64 × Bytes)} {ws : List Bytes}
    (h : Reached s₀ F ws m) (G : List (UInt64 × Bytes)) (vs : List Bytes) :
    Reached s₀ (F ++ G) (ws ++ vs) m := by
  intro q hq hm
  obtain ⟨d, hd, hw⟩ := h q hq hm
  refine ⟨d, lookup_append_of_some G hd, ?_⟩
  obtain ⟨hlt, -⟩ := List.getElem?_eq_some_iff.mp hw
  rw [List.getElem?_append_left hlt]; exact hw

/-- **Below `next_seq` everything is written.**  Before the wrap-around `next_seq` is `s₀` plus the
    number of written payloads; after it, all numbers from `s₀` on have been written. -/
theorem reached_of_lt {s₀ m : UInt64} {F : List (UInt64 × Bytes)} {ws : List Bytes} {r : Reorder}
    (h : HeldAbove s₀ F ws r) (ho : InOrder s₀ F ws) (hm : m < r.nextSeq) : Reached s₀ F ws m := by
  intro q hq hqm
  have hql := q.toNat_lt
  rw [UInt64.le_iff_toNat_le] at hqm
  rw [UInt64.lt_iff_toNat_lt] at hm
  have hsq := UInt64.le_iff_toNat_le.mp hq
  have hlen : q.toNat - s₀.toNat < ws.length := by
    rcases Nat.lt_or_ge (s₀.toNat + ws.length) (2 ^ 64) with hb | hb
    · rw [h.next, seqAt_toNat hb] at hm; omega
    · omega
  refine ⟨ws[q.toNat - s₀.toNat], ?_, List.getElem?_eq_getElem hlen⟩
  have := ho _ _ (List.getElem?_eq_getElem hlen) (by omega)
  rwa [seqAt_sub hq] at this

/-! ## Histories that grow without writing -/

/-- `Core` survives any turn that writes nothing, answers nothing and stores nothing. -/
theorem Core.mono {s₀ : UInt64} {es : List Event} {a b : UploadActor} {e : Event}
    (h : Core s₀ es a) (he : eosOf [e] = []) (hw : b.writes = a.writes) (hk : b.acks = a.acks)
    (hs : b.phase.stored = a.phase.stored) : Core s₀ (es ++ [e]) b := by
  have hwr : written b = written a := by unfold written; rw [hw]
  refine ⟨?_, ?_, ?_, ?_⟩
  · rw [framesOf_append, hwr]; exact h.order.append _
  · rw [hw]; exact h.iov
  · intro ack hack
    rw [hk] at hack
    obtain ⟨m, hm, hr⟩ := h.oks ack hack
    refine ⟨m, by rw [eosOf_append]; exact List.mem_append_left _ hm, ?_⟩
    have := hr.mono (framesOf [e]) []
    rwa [List.append_nil, ← framesOf_append, ← hwr] at this
  · rw [hk, hs, eosOf_append, he, List.append_nil]; exact h.ledger

/-- Draining only relabels the waiters. -/
theorem stored_shutdownAndDrain (a : UploadActor) :
    (shutdownAndDrain a).phase.stored = a.phase.stored := by
  obtain ⟨ph, up, la, buf, wr, ak, dn⟩ := a
  cases ph <;> rfl

theorem Core.shutdownAndDrain {s₀ : UInt64} {es : List Event} {a : UploadActor}
    (h : Core s₀ es a) : Core s₀ es (shutdownAndDrain a) :=
  ⟨h.order, h.iov, h.oks, by rw [stored_shutdownAndDrain]; exact h.ledger⟩

/-- **Leaving the loop**: the stored waiters move into the answers, all of them with an error. -/
theorem Core.finish {s₀ : UInt64} {es : List Event} {a : UploadActor} (h : Core s₀ es a) :
    Inv s₀ es (finish a) := by
  refine ⟨⟨h.order, h.iov, ?_, ?_⟩, fun hd => (nomatch hd), fun _ => rfl⟩
  · intro ack hack
    have hack' : (ack, Answer.ok) ∈ a.acks ++ a.phase.stored.map fun ack =>
        (ack, Answer.err (.gatewayTimeout "upload drain timeout")) := hack
    rcases List.mem_append.mp hack' with hk | hk
    · exact h.oks ack hk
    · simp at hk
  · show ((a.acks ++ a.phase.stored.map fun ack =>
        (ack, Answer.err (.gatewayTimeout "upload drain timeout"))).map Prod.fst ++ []).Perm _
    rw [List.append_nil, List.map_append, List.map_map]
    have hid : a.phase.stored.map (Prod.fst ∘ fun ack =>
        (ack, Answer.err (.gatewayTimeout "upload drain timeout"))) = a.phase.stored := by
      simp [Function.comp_def]
    rw [hid]
    exact h.ledger

/-! ## One turn of the loop -/

/-- The frame at `next_seq` joins the history and the loop drains: the pops keep `Held`. -/
theorem Live.drain {writeOk : Nat → Bool} {s₀ : UInt64} {es : List Event} {a a' : UploadActor}
    {r r' : Reorder} {now : Nat} {data : Bytes} {ok : Bool} (h : Inv s₀ es a) (hl : Live s₀ es a r)
    (hdr : drainLoop writeOk { a with lastActivity := now } r data = (ok, r', a')) :
    ∃ ds, Core s₀ (es ++ [.recv now (.frame r.nextSeq data)]) a' ∧
      Held s₀ (framesOf (es ++ [.recv now (.frame r.nextSeq data)]))
        (written a ++ data :: ds) r' ∧
      InOrder s₀ (framesOf (es ++ [.recv now (.frame r.nextSeq data)])) (written a ++ data :: ds) ∧
      r'.eosWaiters = r.eosWaiters ∧ a'.acks = a.acks ∧ a'.phase = a.phase ∧
      (ok = true → written a' = written a ++ data :: ds ∧ r'.pending.lookup r'.nextSeq = none ∧
        ∀ w ∈ a'.writes, w.2 = true) ∧ a'.done = a.done := by
  obtain ⟨ds, runs, hp, hwr, hfl, hiov, hsame, hok, hpre⟩ :=
    drainLoop_spec writeOk { a with lastActivity := now } r data
  rw [hdr] at hp hwr hsame hok
  obtain ⟨hph, hup, hak, hdn, -⟩ := hsame
  have hF : framesOf (es ++ [.recv now (.frame r.nextSeq data)])
      = framesOf es ++ [(r.nextSeq, data)] := framesOf_append _ _
  -- the new frame is the first one with its number
  have hnew : s₀.toNat + (written a).length < 2 ^ 64 →
      (framesOf es ++ [(r.nextSeq, data)]).lookup r.nextSeq = some data := by
    intro hb
    refine lookup_snoc_self (p := (r.nextSeq, data)) ?_
    rw [← hl.held.here hb]; exact hl.gap
  have habove : HeldAbove s₀ (framesOf es ++ [(r.nextSeq, data)]) (written a) r := by
    refine ⟨hl.held.next, ?_⟩
    intro hb q hq
    rw [lookup_snoc_ne (p := (r.nextSeq, data)) (UInt64.ne_of_lt hq).symm]
    exact hl.held.above hb q hq
  obtain ⟨hheld, hord⟩ := habove.emit (h.core.order.append _) hnew
  obtain ⟨hheld', hord', hew⟩ := hp.keeps _ hheld hord
  rw [List.append_assoc, List.singleton_append] at hheld' hord'
  have hwritten : written a' = written a ++ (runs.filter Prod.snd).flatMap Prod.fst := by
    unfold written
    rw [hwr, List.filter_append, List.flatMap_append]
  refine ⟨ds, ⟨?_, ?_, ?_, ?_⟩, hF ▸ hheld', hF ▸ hord', hew, hak, hph, ?_, hdn⟩
  · rw [hF, hwritten]
    exact hord'.of_prefix ((List.prefix_append_right_inj _).mpr hpre)
  · intro w hw
    rw [hwr] at hw
    rcases List.mem_append.mp hw with hw | hw
    · exact h.core.iov w hw
    · exact hiov w hw
  · intro ack hack
    rw [hak] at hack
    obtain ⟨m, hm, hr⟩ := h.core.oks ack hack
    refine ⟨m, by rw [eosOf_append]; exact List.mem_append_left _ hm, ?_⟩
    rw [hF, hwritten]
    exact hr.mono _ _
  · rw [hak, hph, eosOf_append]
    show (a.acks.map Prod.fst ++ a.phase.stored).Perm ((eosOf es ++ []).map Prod.snd)
    rw [List.append_nil]
    exact h.core.ledger
  · intro ht
    obtain ⟨hall, hnone⟩ := hok ht
    have hfil : runs.filter Prod.snd = runs := List.filter_eq_self.mpr hall
    refine ⟨by rw [hwritten, hfil, hfl], ?_, ?_⟩
    · unfold Reorder.removeNext at hnone
      split at hnone
      · rename_i hn; exact hn
      · cases hnone
    · intro w hw
      rw [hwr] at hw
      rcases List.mem_append.mp hw with hw | hw
      · exact hl.allOk w hw
      · exact hall w hw

/-- A stale or duplicate frame changes no first payload the map has to agree with. -/
theorem Held.discard {s₀ : UInt64} {F : List (UInt64 × Bytes)} {ws : List Bytes} {r : Reorder}
    {seq : UInt64} {data : Bytes} (h : Held s₀ F ws r)
    (hd : seq < r.nextSeq ∨ r.nextSeq < seq ∧ (r.pending.lookup seq).isSome = true) :
    Held s₀ (F ++ [(seq, data)]) ws r := by
  refine ⟨⟨h.next, ?_⟩, ?_⟩
  · intro hb q hq
    by_cases hqs : q = seq
    · subst hqs
      rcases hd with hd | ⟨-, hsome⟩
      · exact absurd hd (UInt64.lt_asymm hq)
      · obtain ⟨d, hd⟩ := Option.isSome_iff_exists.mp hsome
        rw [hd]
        exact (lookup_append_of_some _ ((h.above hb q hq) ▸ hd)).symm
    · rw [lookup_snoc_ne (p := (seq, data)) hqs]
      exact h.above hb q hq
  · intro hb
    have hne : r.nextSeq ≠ seq := by
      rcases hd with hd | ⟨hd, -⟩
      · exact (UInt64.ne_of_lt hd).symm
      · exact UInt64.ne_of_lt hd
    rw [lookup_snoc_ne (p := (seq, data)) hne]
    exact h.here hb

/-- A frame ahead of `next_seq` goes into the map exactly when it is the first with its number. -/
theorem Held.store {s₀ : UInt64} {F : List (UInt64 × Bytes)} {ws : List Bytes} {r : Reorder}
    {seq : UInt64} {data : Bytes} {n : Nat} (h : Held s₀ F ws r) (hgt : r.nextSeq < seq)
    (hn : r.pending.lookup seq = none) :
    Held s₀ (F ++ [(seq, data)]) ws
      { r with pending := r.pending.insert seq data, pendingBytes := n } := by
  refine ⟨⟨h.next, ?_⟩, ?_⟩
  · intro hb q hq
    by_cases hqs : q = seq
    · subst hqs
      have hF : F.lookup q = none := (h.above hb q hq) ▸ hn
      rw [lookup_snoc_self (p := (q, data)) hF]
      exact AList.lookup_insert r.pending
    · rw [lookup_snoc_ne (p := (seq, data)) hqs, ← h.above hb q hq]
      exact AList.lookup_insert_ne hqs
  · intro hb
    rw [lookup_snoc_ne (p := (seq, data)) (UInt64.ne_of_lt hgt), ← h.here hb]
    exact AList.lookup_insert_ne (UInt64.ne_of_lt hgt)

theorem framesOf_eos (es : List Event) (now : Nat) (m : UInt64) (ack : Ack) :
    framesOf (es ++ [.recv now (.eos m ack)]) = framesOf es := by
  rw [framesOf_append]
  exact List.append_nil _

theorem eosOf_eos (es : List Event) (now : Nat) (m : UInt64) (ack : Ack) :
    eosOf (es ++ [.recv now (.eos m ack)]) = eosOf es ++ [(m, ack)] :=
  eosOf_append _ _

/-- An EOS joins the ledger together with the answer it is given at once. -/
theorem Core.answer {s₀ m : UInt64} {es : List Event} {a b : UploadActor} {now : Nat} {ack : Ack}
    {ans : Answer} (h : Core s₀ es a) (hw : b.writes = a.writes)
    (hk : b.acks = a.acks ++ [(ack, ans)]) (hs : b.phase.stored = a.phase.stored)
    (hans : ans = .ok → Reached s₀ (framesOf es) (written a) m) :
    Core s₀ (es ++ [.recv now (.eos m ack)]) b := by
  have hwr : written b = written a := by unfold written; rw [hw]
  have hF := framesOf_eos es now m ack
  have hE := eosOf_eos es now m ack
  refine ⟨by rw [hF, hwr]; exact h.order, by rw [hw]; exact h.iov, ?_, ?_⟩
  · intro k hk'
    rw [hk] at hk'
    rw [hF, hwr, hE]
    rcases List.mem_append.mp hk' with hin | hin
    · obtain ⟨m', hm', hr⟩ := h.oks k hin
      exact ⟨m', List.mem_append_left _ hm', hr⟩
    · rw [List.mem_singleton, Prod.mk.injEq] at hin
      obtain ⟨rfl, hin⟩ := hin
      exact ⟨m, List.mem_append_right _ (List.mem_singleton.mpr rfl), hans hin.symm⟩
  · rw [hk, hs, hE, List.map_append, List.map_append]
    show (a.acks.map Prod.fst ++ [ack] ++ a.phase.stored).Perm _
    rw [List.append_assoc]
    refine (List.Perm.append_left _ List.perm_append_comm).trans ?_
    rw [← List.append_assoc]
    exact h.ledger.append_right [ack]

theorem Live.stored_eq {s₀ : UInt64} {es : List Event} {a : UploadActor} {r : Reorder}
    (hl : Live s₀ es a r) : a.phase.stored = r.eosWaiters.map Prod.snd := by
  rw [hl.phase]
  rfl

/-- The waiters stay known to the history. -/
theorem Live.known_append {s₀ : UInt64} {es : List Event} {a : UploadActor} {r : Reorder}
    (hl : Live s₀ es a r) (e : Event) : ∀ w ∈ r.eosWaiters, w ∈ eosOf (es ++ [e]) := by
  intro w hw
  rw [eosOf_append]
  exact List.mem_append_left _ (hl.known w hw)

/-- The frame at `next_seq` and every write succeeded: the waiters that are released have all their
    frames written, the others stay in the ledger. -/
theorem inv_drained {writeOk : Nat → Bool} {s₀ : UInt64} {es : List Event} {a a' : UploadActor}
    {r r' : Reorder} {now : Nat} {data : Bytes} (h : Inv s₀ es a) (hd : a.done = false)
    (hl : Live s₀ es a r)
    (hdr : drainLoop writeOk { a with lastActivity := now } r data = (true, r', a')) :
    Inv s₀ (es ++ [.recv now (.frame r.nextSeq data)])
      { a' with
        phase := .reordering
          { r' with eosWaiters := (releaseWaiters r'.nextSeq r'.eosWaiters 0 a'.acks).1 }
        acks := (releaseWaiters r'.nextSeq r'.eosWaiters 0 a'.acks).2 } := by
  obtain ⟨ds, hcore, hheld, hord, hew, hak, hph, hok, hdn⟩ := hl.drain h hdr
  obtain ⟨hwr, hgap, hall⟩ := hok rfl
  obtain ⟨hkeep, rel, hacks, hrel, hperm⟩ :=
    releaseWaiters_spec r'.nextSeq r'.eosWaiters 0 a'.acks (by simp)
  -- every waiter of the loop was one of ours, so it is known to the history
  have hknown : ∀ w ∈ rel ++ (releaseWaiters r'.nextSeq r'.eosWaiters 0 a'.acks).1,
      w ∈ eosOf (es ++ [.recv now (.frame r.nextSeq data)]) := by
    intro w hw
    exact hl.known_append _ w (hew ▸ hperm.mem_iff.mp hw)
  have hst : a'.phase.stored = r'.eosWaiters.map Prod.snd := by rw [hph, hl.stored_eq, hew]
  refine Inv.of_live (hdn.trans hd) ⟨hcore.order, hcore.iov, ?_, ?_⟩ ⟨rfl, ?_, hgap, hkeep, ?_, hall⟩
  · intro ack hack
    have hack' : (ack, Answer.ok) ∈ (releaseWaiters r'.nextSeq r'.eosWaiters 0 a'.acks).2 := hack
    rw [hacks] at hack'
    rcases List.mem_append.mp hack' with hin | hin
    · exact hcore.oks ack hin
    · obtain ⟨w, hw, hwa⟩ := List.mem_map.mp hin
      rw [Prod.mk.injEq] at hwa
      obtain ⟨rfl, -⟩ := hwa
      refine ⟨w.1, hknown w (List.mem_append_left _ hw), ?_⟩
      show Reached s₀ _ (written a') w.1
      rw [hwr]
      exact reached_of_lt hheld.toHeldAbove hord (hrel w hw)
  · show ((releaseWaiters r'.nextSeq r'.eosWaiters 0 a'.acks).2.map Prod.fst ++
      (releaseWaiters r'.nextSeq r'.eosWaiters 0 a'.acks).1.map Prod.snd).Perm _
    have hfst : (rel.map fun w => (w.2, Answer.ok)).map Prod.fst = rel.map Prod.snd := by
      rw [List.map_map]; rfl
    rw [hacks, List.map_append, hfst, List.append_assoc, ← List.map_append]
    refine List.Perm.trans (List.Perm.append_left _ (hperm.map Prod.snd)) ?_
    rw [← hst]
    exact hcore.ledger
  · show Held s₀ _ (written a') _
    rw [hwr]
    exact ⟨⟨hheld.next, hheld.above⟩, hheld.here⟩
  · intro w hw
    exact hknown w (List.mem_append_right _ hw)

/-- An EOS that has to wait joins the ledger as a waiter. -/
theorem inv_eosStored {s₀ m : UInt64} {es : List Event} {a : UploadActor} {r : Reorder} {now : Nat}
    {ack : Ack} (h : Inv s₀ es a) (hd : a.done = false) (hl : Live s₀ es a r)
    (hge : r.nextSeq ≤ m) :
    Inv s₀ (es ++ [.recv now (.eos m ack)])
      { a with
        lastActivity := now
        phase := .reordering { r with eosWaiters := r.eosWaiters ++ [(m, ack)] } } := by
  have hheld : Held s₀ (framesOf es) (written a)
      { r with eosWaiters := r.eosWaiters ++ [(m, ack)] } :=
    ⟨⟨hl.held.next, hl.held.above⟩, hl.held.here⟩
  refine Inv.of_live hd ⟨?_, h.core.iov, ?_, ?_⟩ ⟨rfl, ?_, hl.gap, ?_, ?_, hl.allOk⟩
  · rw [framesOf_eos]
    exact h.core.order
  · intro k hk
    obtain ⟨m', hm', hr⟩ := h.core.oks k hk
    rw [framesOf_eos, eosOf_eos]
    exact ⟨m', List.mem_append_left _ hm', hr⟩
  · show (a.acks.map Prod.fst ++ (r.eosWaiters ++ [(m, ack)]).map Prod.snd).Perm _
    rw [eosOf_eos, List.map_append, List.map_append, ← List.append_assoc, ← hl.stored_eq]
    exact h.core.ledger.append_right _
  · rw [framesOf_eos]
    exact hheld
  · intro w hw
    rcases List.mem_append.mp hw with hw | hw
    · exact hl.waiting w hw
    · rw [List.mem_singleton.mp hw]
      exact hge
  · intro w hw
    rw [eosOf_eos]
    rcases List.mem_append.mp hw with hw | hw
    · exact List.mem_append_left _ (hl.known w hw)
    · exact List.mem_append_right _ hw

/-- **One turn of the loop preserves the invariant.** -/
theorem inv_turn {writeOk : Nat → Bool} {s₀ : UInt64} {es : List Event} {a b : UploadActor}
    {r : Reorder} {e : Event} (h : Inv s₀ es a) (hd : a.done = false) (hl : Live s₀ es a r)
    (ht : Turn writeOk a r e b) : Inv s₀ (es ++ [e]) b := by
  cases ht with
  | @discard now seq data hdis =>
    refine Inv.of_live hd (h.core.mono rfl rfl rfl rfl)
      ⟨hl.phase, ?_, hl.gap, hl.waiting, hl.known_append _, hl.allOk⟩
    rw [framesOf_append]
    exact hl.held.discard hdis
  | @stored now seq data hgt hn ho =>
    refine Inv.of_live hd (h.core.mono rfl rfl rfl hl.stored_eq.symm)
      ⟨rfl, ?_, ?_, hl.waiting, hl.known_append _, hl.allOk⟩
    · rw [framesOf_append]
      exact hl.held.store hgt hn
    · exact (AList.lookup_insert_ne (UInt64.ne_of_lt hgt)).trans hl.gap
  | drained hdr => exact inv_drained h hd hl hdr
  | @failed now data r' a' hdr =>
    obtain ⟨ds, hcore, -, -, hew, hak, hph, -, -⟩ := hl.drain h hdr
    refine Core.finish (Core.shutdownAndDrain ⟨hcore.order, hcore.iov, hcore.oks, ?_⟩)
    show (a'.acks.map Prod.fst ++ r'.eosWaiters.map Prod.snd).Perm _
    rw [hew, ← hl.stored_eq, ← hph]
    exact hcore.ledger
  | @overflow now seq data hgt ho =>
    have hcore : Core s₀ (es ++ [.recv now (.frame seq data)]) { a with lastActivity := now } :=
      h.core.mono rfl rfl rfl rfl
    exact hcore.shutdownAndDrain.finish
  | @eosOk now m ack hlt =>
    have hr := reached_of_lt hl.held.toHeldAbove h.core.order hlt
    refine Inv.of_live hd (h.core.answer rfl rfl rfl (fun _ => hr))
      ⟨hl.phase, ?_, hl.gap, hl.waiting, hl.known_append _, hl.allOk⟩
    rw [framesOf_eos]
    exact hl.held
  | eosOverflow hge => exact Core.finish (h.core.answer rfl rfl rfl (fun hc => nomatch hc))
  | eosStored hge => exact inv_eosStored h hd hl hge
  | @leave e now hf he =>
    have hcore : Core s₀ (es ++ [e]) { a with lastActivity := now } := h.core.mono he rfl rfl rfl
    exact hcore.shutdownAndDrain.finish

/-! ## Whole runs -/

theorem inv_new (s₀ : UInt64) (now : Nat) : Inv s₀ [] (new s₀ now) := by
  have hheld : Held s₀ [] [] ⟨s₀, ∅, 0, []⟩ :=
    ⟨⟨(seqAt_zero s₀).symm, fun _ q _ => rfl⟩, fun _ => rfl⟩
  refine Inv.of_live rfl ⟨?_, by simp [new], by simp [new], List.Perm.refl _⟩
    ⟨rfl, hheld, rfl, by simp, by simp, by simp [new]⟩
  intro i d hi
  simp [written, new] at hi

theorem not_done_of_step {writeOk : Nat → Bool} {a b : UploadActor} {e : Event}
    (h : step writeOk a e = some b) : a.done = false := by
  cases hd : a.done with
  | false => rfl
  | true => cases e <;> simp [step, hd] at h

/-- **The run lemma**: the invariant holds after every run of a fresh actor. -/
theorem inv_run {writeOk : Nat → Bool} {s₀ : UInt64} {now : Nat} {es : List Event}
    {a : UploadActor} (h : run (step writeOk) (new s₀ now) es = some a) : Inv s₀ es a := by
  refine run_history (P := fun es a => Inv s₀ es a) (inv_new s₀ now) ?_ es a h
  intro es m e t hm ht
  have hd := not_done_of_step ht
  obtain ⟨r, hl⟩ := hm.live hd
  exact inv_turn hm hd hl (step_turn hl.phase ht)

/-! ## Headline: the upload stream is the frames in sequence -/

/-- `n` is the least number from `s₀` on for which no frame has been received. -/
def FirstGap (s₀ : UInt64) (F : List (UInt64 × Bytes)) (n : UInt64) : Prop :=
  s₀ ≤ n ∧ F.lookup n = none ∧ ∀ q, s₀ ≤ q → q < n → F.lookup q ≠ none

/-- No two frames with one number and different payloads. -/
def ConflictFree (F : List (UInt64 × Bytes)) : Prop :=
  ∀ q d d', (q, d) ∈ F → (q, d') ∈ F → d = d'

theorem FirstGap.unique {s₀ n n' : UInt64} {F : List (UInt64 × Bytes)} (h : FirstGap s₀ F n)
    (h' : FirstGap s₀ F n') : n = n' := by
  rcases Nat.lt_trichotomy n.toNat n'.toNat with hlt | heq | hlt
  · exact absurd h.2.1 (h'.2.2 n h.1 (UInt64.lt_iff_toNat_lt.mpr hlt))
  · exact UInt64.toNat_inj.mp heq
  · exact absurd h'.2.1 (h.2.2 n' h'.1 (UInt64.lt_iff_toNat_lt.mpr hlt))

/-- In a conflict-free history the first payload is the only one, so it depends on the SET of
    frames alone. -/
theorem lookup_eq_of_same_frames {F G : List (UInt64 × Bytes)} (hc : ConflictFree F)
    (hmem : ∀ p, p ∈ F ↔ p ∈ G) (q : UInt64) : F.lookup q = G.lookup q := by
  have hin : ∀ (H : List (UInt64 × Bytes)) d, H.lookup q = some d → (q, d) ∈ H := by
    intro H d h
    obtain ⟨l₁, l₂, rfl, -⟩ := List.lookup_eq_some_iff.mp h
    simp
  have hout : ∀ (H : List (UInt64 × Bytes)) d, H.lookup q = none → (q, d) ∉ H := by
    intro H d h hm
    have := List.lookup_eq_none_iff.mp h (q, d) hm
    simp at this
  cases hF : F.lookup q with
  | none =>
    cases hG : G.lookup q with
    | none => rfl
    | some d => exact absurd ((hmem _).mpr (hin G d hG)) (hout F d hF)
  | some d =>
    cases hG : G.lookup q with
    | none => exact absurd ((hmem _).mp (hin F d hF)) (hout G d hG)
    | some d' => rw [hc q d d' (hin F d hF) ((hmem _).mpr (hin G d' hG))]

/-- A live actor whose history leaves some number unsent: its writes are the first payloads from
    `s₀` up to the first gap, which is `next_seq`. -/
theorem live_writes {writeOk : Nat → Bool} {s₀ : UInt64} {now : Nat} {es : List Event}
    {a : UploadActor} (h : run (step writeOk) (new s₀ now) es = some a) (hd : a.done = false)
    (hfree : ∃ q, s₀ ≤ q ∧ (framesOf es).lookup q = none) :
    ∃ r, a.phase = .reordering r ∧ FirstGap s₀ (framesOf es) r.nextSeq ∧
      (a.writes.flatMap Prod.fst).map some =
        (List.range (r.nextSeq.toNat - s₀.toNat)).map fun i => (framesOf es).lookup (seqAt s₀ i) := by
  have hinv := inv_run h
  obtain ⟨r, hl⟩ := hinv.live hd
  have hwr : a.writes.flatMap Prod.fst = written a := by
    unfold written; rw [List.filter_eq_self.mpr hl.allOk]
  -- the unsent number keeps the actor below the wrap-around
  have hb : s₀.toNat + (written a).length < 2 ^ 64 := by
    obtain ⟨q, hq, hn⟩ := hfree
    have hsq := UInt64.le_iff_toNat_le.mp hq
    have hql := q.toNat_lt
    by_contra hge
    have hi : q.toNat - s₀.toNat < (written a).length := by omega
    have := hinv.core.order _ _ (List.getElem?_eq_getElem hi) (by omega)
    rw [seqAt_sub hq, hn] at this
    cases this
  have hnext : r.nextSeq.toNat = s₀.toNat + (written a).length := by
    rw [hl.held.next, seqAt_toNat hb]
  refine ⟨r, hl.phase, ⟨?_, ?_, ?_⟩, ?_⟩
  · rw [UInt64.le_iff_toNat_le]; omega
  · rw [← hl.held.here hb]; exact hl.gap
  · intro q hq hlt
    obtain ⟨d, hd', -⟩ := reached_of_lt hl.held.toHeldAbove hinv.core.order hlt q hq (UInt64.le_refl q)
    rw [hd']; exact Option.some_ne_none d
  · rw [hwr]
    refine List.ext_getElem (by simp; omega) ?_
    intro i hi hi'
    simp only [List.length_map] at hi
    rw [List.getElem_map, List.getElem_map, List.getElem_range]
    exact (hinv.core.order i _ (List.getElem?_eq_getElem hi) (by omega)).symm

/-- A frame ends the run only through a failed write or an overflow of the reorder buffer: for
    runs of frames, `done = false` means that neither has happened. -/
theorem frame_ends_run_only_by {writeOk : Nat → Bool} {s₀ : UInt64} {now t : Nat} {es : List Event}
    {a b : UploadActor} {seq : UInt64} {data : Bytes}
    (h : run (step writeOk) (new s₀ now) es = some a)
    (hs : step writeOk a (.recv t (.frame seq data)) = some b) (hb : b.done = true) :
    (∃ w ∈ b.writes, w.2 = false) ∨ ∃ r, a.phase = .reordering r ∧ r.nextSeq < seq ∧
      (r.pending.entries.length ≥ MAX_PENDING_FRAMES ∨
        r.pendingBytes + data.length > MAX_PENDING_BYTES) := by
  have hd := not_done_of_step hs
  obtain ⟨r, hl⟩ := (inv_run h).live hd
  cases step_turn hl.phase hs with
  | discard => exact absurd hb (by rw [show a.done = false from hd]; exact Bool.false_ne_true)
  | stored => exact absurd hb (by rw [show a.done = false from hd]; exact Bool.false_ne_true)
  | @drained _ _ r' a' hdr =>
    obtain ⟨-, -, -, -, -, -, -, -, hdn⟩ := hl.drain (inv_run h) hdr
    exact absurd hb (by rw [show a'.done = false from hdn.trans hd]; exact Bool.false_ne_true)
  | @failed _ _ r' a' hdr =>
    obtain ⟨w, hw, hf⟩ := drainLoop_failed hdr
    exact Or.inl ⟨w, hw, hf⟩
  | overflow hgt ho => exact Or.inr ⟨r, hl.phase, hgt, ho⟩
  | leave hf => cases hf

/-- **Headline.**  For every sequence of frames (any order, duplicates, stale repeats, conflicting
    payloads) that leaves the actor running, i.e. without a failed write and without an overflow
    abort: the payloads handed to `write_run` are the first payloads of `s₀, s₀+1, …, n-1` where
    `n = next_seq` is the first number not received, in runs of at most `MAX_WRITE_IOV`; hence two
    delivery orders of one conflict-free set of frames write the same bytes.  (There is such an `n`
    unless every number from `s₀` to `2^64 - 1` has been received.) -/
theorem frames_written_in_sequence :
    (∀ (writeOk : Nat → Bool) (s₀ : UInt64) (now : Nat) (es : List Event) (a : UploadActor),
      run (step writeOk) (new s₀ now) es = some a → a.done = false →
      (∃ q, s₀ ≤ q ∧ (framesOf es).lookup q = none) →
      (∀ w ∈ a.writes, w.1.length ≤ MAX_WRITE_IOV) ∧
      ∃ r, a.phase = .reordering r ∧ FirstGap s₀ (framesOf es) r.nextSeq ∧
        (a.writes.flatMap Prod.fst).map some =
          (List.range (r.nextSeq.toNat - s₀.toNat)).map
            fun i => (framesOf es).lookup (seqAt s₀ i)) ∧
    (∀ (writeOk writeOk' : Nat → Bool) (s₀ : UInt64) (now now' : Nat) (es fs : List Event)
      (a b : UploadActor),
      run (step writeOk) (new s₀ now) es = some a → a.done = false →
      run (step writeOk') (new s₀ now') fs = some b → b.done = false →
      (∃ q, s₀ ≤ q ∧ (framesOf es).lookup q = none) → ConflictFree (framesOf es) →
      (∀ p, p ∈ framesOf es ↔ p ∈ framesOf fs) →
      (a.writes.flatMap Prod.fst).flatten = (b.writes.flatMap Prod.fst).flatten) := by
  refine ⟨fun writeOk s₀ now es a h hd hfree =>
    ⟨(inv_run h).core.iov, live_writes h hd hfree⟩, ?_⟩
  intro writeOk writeOk' s₀ now now' es fs a b ha hda hb hdb hfree hc hmem
  have hlook := lookup_eq_of_same_frames hc hmem
  obtain ⟨r, -, hgap, hw⟩ := live_writes ha hda hfree
  obtain ⟨r', -, hgap', hw'⟩ := live_writes hb hdb (by
    obtain ⟨q, hq, hn⟩ := hfree
    exact ⟨q, hq, by rw [← hlook]; exact hn⟩)
  have hsame : r'.nextSeq = r.nextSeq := by
    refine FirstGap.unique (F := framesOf es) ⟨hgap'.1, ?_, ?_⟩ hgap
    · rw [hlook]; exact hgap'.2.1
    · intro q hq hlt
      rw [hlook]; exact hgap'.2.2 q hq hlt
  have heq : (a.writes.flatMap Prod.fst).map some = (b.writes.flatMap Prod.fst).map some := by
    rw [hw, hw', hsame]
    exact List.map_congr_left fun i _ => hlook _
  rw [List.map_injective_iff.mpr (fun _ _ => Option.some.inj) heq]

/-- Frames `2, 0, 1`: the bytes `a b c` reach the upstream, as they do in order with a repeat. -/
theorem frames_written_in_sequence_demo :
    ∃ a b, run (step fun _ => true) (new 0 0)
        [.recv 1 (.frame 2 [99]), .recv 2 (.frame 0 [97]), .recv 3 (.frame 1 [98])] = some a ∧
      run (step fun _ => true) (new 0 0)
        [.recv 1 (.frame 0 [97]), .recv 1 (.frame 0 [97]), .recv 2 (.frame 1 [98]),
         .recv 3 (.frame 2 [99])] = some b ∧
      a.done = false ∧ b.done = false ∧ a.writes.flatMap Prod.fst = [[97], [98], [99]] ∧
      (∃ r, a.phase = .reordering r ∧ FirstGap 0 [(2, [99]), (0, [97]), (1, [98])] r.nextSeq) ∧
      (a.writes.flatMap Prod.fst).flatten = (b.writes.flatMap Prod.fst).flatten := by
  obtain ⟨a, ha⟩ := Option.isSome_iff_exists.mp (by decide +kernel :
    (run (step fun _ => true) (new 0 0)
      [.recv 1 (.frame 2 [99]), .recv 2 (.frame 0 [97]), .recv 3 (.frame 1 [98])]).isSome = true)
  obtain ⟨b, hb⟩ := Option.isSome_iff_exists.mp (by decide +kernel :
    (run (step fun _ => true) (new 0 0)
      [.recv 1 (.frame 0 [97]), .recv 1 (.frame 0 [97]), .recv 2 (.frame 1 [98]),
       .recv 3 (.frame 2 [99])]).isSome = true)
  have hda : ((run (step fun _ => true) (new 0 0)
      [.recv 1 (.frame 2 [99]), .recv 2 (.frame 0 [97]), .recv 3 (.frame 1 [98])]).map
        fun a => (a.done, a.writes.flatMap Prod.fst)) = some (false, [[97], [98], [99]]) := by
    decide +kernel
  have hdb : ((run (step fun _ => true) (new 0 0)
      [.recv 1 (.frame 0 [97]), .recv 1 (.frame 0 [97]), .recv 2 (.frame 1 [98]),
       .recv 3 (.frame 2 [99])]).map UploadActor.done) = some false := by
    decide +kernel
  rw [ha, Option.map_some, Option.some.injEq, Prod.mk.injEq] at hda
  rw [hb, Option.map_some, Option.some.injEq] at hdb
  have hfree : ∃ q, (0 : UInt64) ≤ q ∧
      (framesOf [.recv 1 (.frame 2 [99]), .recv 2 (.frame 0 [97]), .recv 3 (.frame 1 [98])]).lookup q
        = none := ⟨3, by decide, by decide⟩
  obtain ⟨-, r, hr, hgap, -⟩ := frames_written_in_sequence.1 _ 0 0 _ a ha hda.1 hfree
  refine ⟨a, b, ha, hb, hda.1, hdb, hda.2, ⟨r, hr, hgap⟩, ?_⟩
  refine frames_written_in_sequence.2 _ _ 0 0 0 _ _ a b ha hda.1 hb hdb hfree ?_ ?_
  · intro q d d' h h'
    simp [framesOf] at h h'
    grind
  · intro p
    simp [framesOf]
    grind

/-! ## Headline: every EOS is answered once, and truthfully -/

/-- The turn that ends the run answers every waiter that was stored before it with an error. -/
theorem stored_answered_with_error {writeOk : Nat → Bool} {s₀ : UInt64} {es : List Event}
    {a b : UploadActor} {r : Reorder} {e : Event} (h : Inv s₀ es a) (hl : Live s₀ es a r)
    (ha : a.done = false) (ht : Turn writeOk a r e b) (hb : b.done = true) :
    ∀ ack ∈ a.phase.stored, ∃ err, (ack, Answer.err err) ∈ b.acks := by
  -- `finish x` answers whatever `x` still stores
  have hfin : ∀ x : UploadActor, x.phase.stored = a.phase.stored →
      ∀ ack ∈ a.phase.stored, ∃ err, (ack, Answer.err err) ∈ (finish x).acks := by
    intro x hx ack hack
    exact ⟨_, List.mem_append_right _ (List.mem_map.mpr ⟨ack, hx ▸ hack, rfl⟩)⟩
  have hlive : ∀ x : UploadActor, x.done = a.done → x.done = true → False := by
    intro x hx hd
    rw [hx, ha] at hd
    exact Bool.false_ne_true hd
  cases ht with
  | discard => exact (hlive _ rfl hb).elim
  | stored => exact (hlive _ rfl hb).elim
  | eosOk => exact (hlive _ rfl hb).elim
  | eosStored => exact (hlive _ rfl hb).elim
  | @drained now data r' a' hdr =>
    obtain ⟨-, -, -, -, -, -, -, -, hdn⟩ := hl.drain h hdr
    exact (hlive _ hdn hb).elim
  | @failed now data r' a' hdr =>
    obtain ⟨-, -, -, -, hew, -⟩ := hl.drain h hdr
    refine hfin _ ?_
    rw [stored_shutdownAndDrain, hl.phase]
    show r'.eosWaiters.map Prod.snd = _
    rw [hew]; rfl
  | overflow => exact hfin _ (stored_shutdownAndDrain _)
  | eosOverflow => exact hfin _ rfl
  | leave => exact hfin _ (stored_shutdownAndDrain _)

/-- **Headline.**  For every run (frames, EOS, shutdown, channel close, reorder timeout, any pattern
    of write results), the EOS channels being distinct as `oneshot::Sender`s are:
    (a) `Ok` on an EOS means every number from the initial one to its `max_seq` has been handed to a
        `write_run` that returned `true`;
    (b) while the actor waits, no stored waiter is already satisfied;
    (c) every EOS dispatched is answered once or stored once, never both, and once `run()` has
        returned all are answered; whatever was stored before the last turn got an error. -/
theorem eos_answered_once_and_truthfully (writeOk : Nat → Bool) (s₀ : UInt64) (now : Nat)
    (es : List Event) (a : UploadActor) (h : run (step writeOk) (new s₀ now) es = some a)
    (hack : ((eosOf es).map Prod.snd).Nodup) :
    (∀ m ack, (m, ack) ∈ eosOf es → (ack, Answer.ok) ∈ a.acks →
      Reached s₀ (framesOf es) (written a) m) ∧
    (a.done = false → ∃ r, a.phase = .reordering r ∧ ∀ w ∈ r.eosWaiters, r.nextSeq ≤ w.1) ∧
    (∀ m ack, (m, ack) ∈ eosOf es →
      (a.acks.map Prod.fst).count ack + a.phase.stored.count ack = 1) ∧
    (a.done = true → ∀ m ack, (m, ack) ∈ eosOf es → (a.acks.map Prod.fst).count ack = 1) ∧
    (∀ e b, step writeOk a e = some b → b.done = true →
      ∀ ack ∈ a.phase.stored, ∃ err, (ack, Answer.err err) ∈ b.acks) := by
  have hinv := inv_run h
  have hone : ∀ m ack, (m, ack) ∈ eosOf es →
      (a.acks.map Prod.fst).count ack + a.phase.stored.count ack = 1 := by
    intro m ack hm
    rw [← List.count_append, hinv.core.ledger.count_eq]
    exact List.count_eq_one_of_mem hack (List.mem_map.mpr ⟨_, hm, rfl⟩)
  refine ⟨?_, ?_, hone, ?_, ?_⟩
  · intro m ack hm hok
    obtain ⟨m', hm', hr⟩ := hinv.core.oks ack hok
    have hmm : (m', ack) = (m, ack) := List.inj_on_of_nodup_map hack hm' hm rfl
    rw [Prod.mk.injEq] at hmm
    exact hmm.1 ▸ hr
  · intro hd
    obtain ⟨r, hl⟩ := hinv.live hd
    exact ⟨r, hl.phase, hl.waiting⟩
  · intro hd m ack hm
    have := hone m ack hm
    rw [hinv.closed hd] at this
    simpa [UploadPhase.stored] using this
  · intro e b hs hb
    have hd := not_done_of_step hs
    obtain ⟨r, hl⟩ := hinv.live hd
    exact stored_answered_with_error hinv hl hd (step_turn hl.phase hs) hb

/-- An EOS released by the frame it waited for, and one cut off by the closing channel. -/
theorem eos_answered_once_and_truthfully_demo :
    ∃ a, run (step fun _ => true) (new 0 0)
        [.recv 1 (.eos 1 7), .recv 2 (.frame 1 [98]), .recv 3 (.frame 0 [97]), .recv 4 (.eos 5 8),
         .closed] = some a ∧
      a.done = true ∧ (7, Answer.ok) ∈ a.acks ∧
      Reached 0 [(1, [98]), (0, [97])] (written a) 1 ∧ (a.acks.map Prod.fst).count 8 = 1 := by
  obtain ⟨a, ha⟩ := Option.isSome_iff_exists.mp (by decide +kernel :
    (run (step fun _ => true) (new 0 0)
      [.recv 1 (.eos 1 7), .recv 2 (.frame 1 [98]), .recv 3 (.frame 0 [97]), .recv 4 (.eos 5 8),
       .closed]).isSome = true)
  have hev : ((run (step fun _ => true) (new 0 0)
      [.recv 1 (.eos 1 7), .recv 2 (.frame 1 [98]), .recv 3 (.frame 0 [97]), .recv 4 (.eos 5 8),
       .closed]).map fun a => (a.done, decide ((7, Answer.ok) ∈ a.acks))) = some (true, true) := by
    decide +kernel
  rw [ha, Option.map_some, Option.some.injEq, Prod.mk.injEq, decide_eq_true_eq] at hev
  obtain ⟨hok, -, -, hcount, -⟩ :=
    eos_answered_once_and_truthfully _ 0 0 _ a ha (by decide)
  exact ⟨a, ha, hev.1, hev.2, hok 1 7 (by decide) hev.2, hcount hev.1 5 8 (by decide)⟩

end Httproxy.Upload
