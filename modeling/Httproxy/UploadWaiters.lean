/-
  The EOS waiters of the upload actor against the POSTs of one client.

  The actor keeps at most `MAX_EOS_WAITERS` EOS commands waiting and refuses one more, which ends the
  upload.  How many can wait is decided on the other side: `build_state` in `src/client/mod.rs` asks for
  at least one concurrent POST and puts NO upper limit on their number.

  1. **Who waits** — a waiter belongs to a handler, the handler to a POST, and that POST is still in
     flight at the client (`Waits`).  The frame the actor is waiting for is in yet another POST, which has
     not been read to its end.

  2. **Counting (`waiters_room`)** — so an EOS that has to wait finds at most `n - 2` others, when `n`
     POSTs are in flight.

  3. **Steps (`waits_path`)** — every step keeps this, so with 257 permits or less no EOS is refused.
     That the bound is met is the matter of `UploadBacklog`.

  A failed POST ends the client's loop, and a POST that reaches the server twice is not the client's
  doing: neither is spoken of here (`orderly`).
-/
import Httproxy.UploadPath

namespace Httproxy.UploadPath

open Crypto Machine Seq Shaper Decoder UploadLoop

/-! ## The limits of the client -/

/-- The part of `build_state` that settles how much is uploaded at once: `max_in_flight_bytes` and
    `upload_concurrency`. -/
def buildState (maxInFlightBytes uploadConcurrency : Option Nat) : Except String (Nat × Nat) :=
  let maxInFlightBytes := maxInFlightBytes.getD MAX_IN_FLIGHT_BYTES
  let uploadConcurrency := uploadConcurrency.getD UPLOAD_CONCURRENCY
  if maxInFlightBytes < MIN_IN_FLIGHT_BYTES then
    .error s!"max_in_flight_bytes ({maxInFlightBytes}) must be at least {MIN_IN_FLIGHT_BYTES} (one maximum-size encoded frame)"
  else if uploadConcurrency = 0 then .error "upload_concurrency must be at least 1"
  else .ok (maxInFlightBytes, uploadConcurrency)

/-! ## Refused -/

/-- The answer of an actor that has no room for one more waiter. -/
def refusal : Upload.Answer := .err (.badGateway "upload EOS waiters overflow")

def NoneRefused (actor : Upload.UploadActor) : Prop := ∀ ack, (ack, refusal) ∉ actor.acks

/-- Leaving the loop answers with another error. -/
theorem NoneRefused.finish {actor : Upload.UploadActor} (h : NoneRefused actor) :
    NoneRefused (Upload.finish actor) := by
  intro ack hmem
  rcases List.mem_append.mp hmem with hmem | hmem
  · exact h ack hmem
  · obtain ⟨a, _, heq⟩ := List.mem_map.mp hmem
    exact absurd (Prod.mk.inj heq).2 (by decide)

theorem NoneRefused.of_acks {a b : Upload.UploadActor} (h : NoneRefused a) (hacks : b.acks = a.acks) :
    NoneRefused b := by
  rw [NoneRefused, hacks]
  exact h

theorem drainLoop_acks {writeOk : Nat → Bool} {a a' : Upload.UploadActor} {r r' : Upload.Reorder}
    {head : Bytes} {ok : Bool} (h : Upload.drainLoop writeOk a r head = (ok, r', a')) :
    a'.acks = a.acks := by
  obtain ⟨_, _, _, _, _, _, hsame, _⟩ := Upload.drainLoop_spec writeOk a r head
  rw [h] at hsame
  exact hsame.2.2.1

/-- Released waiters are answered `Ok`, behind the answers there were. -/
theorem releaseWaiters_acks (next : UInt64) (ws : List (UInt64 × Upload.Ack))
    (acks : List (Upload.Ack × Upload.Answer)) :
    ∃ oks : List Upload.Ack,
      (Upload.releaseWaiters next ws 0 acks).2 = acks ++ oks.map fun ack => (ack, .ok) := by
  obtain ⟨_, rel, hacks, _⟩ := Upload.releaseWaiters_spec next ws 0 acks
    (fun w hw => absurd hw List.not_mem_nil)
  exact ⟨rel.map Prod.snd, by rw [hacks, List.map_map]; rfl⟩

/-- **One turn of the actor** refuses nothing, unless an EOS finds the list full. -/
theorem noneRefused_turn {writeOk : Nat → Bool} {a b : Upload.UploadActor} {r : Upload.Reorder}
    {e : Upload.Event} (ht : Upload.Turn writeOk a r e b) (h : NoneRefused a)
    (hroom : ∀ now m ack, e = .recv now (.eos m ack) → r.nextSeq ≤ m →
      r.eosWaiters.length < Upload.MAX_EOS_WAITERS) : NoneRefused b := by
  cases ht with
  | discard => exact h
  | stored => exact h
  | @drained now data r' a' hdr =>
    obtain ⟨oks, hacks⟩ := releaseWaiters_acks r'.nextSeq r'.eosWaiters a'.acks
    intro ack hmem
    rw [hacks, drainLoop_acks hdr] at hmem
    rcases List.mem_append.mp hmem with hmem | hmem
    · exact h ack hmem
    · obtain ⟨ok, _, heq⟩ := List.mem_map.mp hmem
      exact absurd (Prod.mk.inj heq).2 (by decide)
  | @failed now data r' a' hdr =>
    have hsame := drainLoop_acks hdr
    exact NoneRefused.finish (h.of_acks hsame)
  | overflow => exact NoneRefused.finish h
  | eosOk =>
    intro ack hmem
    rcases List.mem_append.mp hmem with hmem | hmem
    · exact h ack hmem
    · exact absurd (Prod.mk.inj (List.mem_singleton.mp hmem)).2 (by decide)
  | @eosOverflow now m ack hm hfull => exact absurd hfull (Nat.not_le.mpr (hroom now m ack rfl hm))
  | eosStored => exact h
  | leave => exact NoneRefused.finish h

/-- Answers are only added. -/
theorem acks_turn {writeOk : Nat → Bool} {a b : Upload.UploadActor} {r : Upload.Reorder}
    {e : Upload.Event} (ht : Upload.Turn writeOk a r e b) : a.acks <+: b.acks := by
  cases ht with
  | discard => exact List.prefix_rfl
  | stored => exact List.prefix_rfl
  | @drained now data r' a' hdr =>
    obtain ⟨oks, hacks⟩ := releaseWaiters_acks r'.nextSeq r'.eosWaiters a'.acks
    rw [hacks, drainLoop_acks hdr]
    exact List.prefix_append ..
  | @failed now data r' a' hdr =>
    have hsame := drainLoop_acks hdr
    exact hsame ▸ List.prefix_append ..
  | overflow => exact List.prefix_append ..
  | eosOk => exact List.prefix_append ..
  | eosOverflow => exact (List.prefix_append _ _).trans (List.prefix_append _ _)
  | eosStored => exact List.prefix_rfl
  | leave => exact List.prefix_append ..

/-! ## Who waits -/

/-- No POST fails, and none reaches the server twice. -/
def orderly (s : Path) : Event → Bool
  | .failure _ _ => false
  | .arrive i _ => !(s.handlers.map PostHandler.post).contains i
  | _ => true

/-- When a POST is spawned, no more than 256 others are in flight. -/
def calm (s : Path) : Event → Bool
  | .client .acquire =>
    !s.client.point.reserves || (inFlight s.client.posts).length ≤ Upload.MAX_EOS_WAITERS
  | _ => true

section Waits

variable (key : LessSafeKey) (base122 : Base122Fast) (encoding : EncodingType)

/-- The highest number of a handler is one of its body's. -/
def Highest (s : Path) (h : PostHandler) : Prop :=
  ∃ items, Body key base122 encoding s h.post items ∧ (h.frameCount = 0 → h.maxSeq = 0) ∧
    (h.frameCount ≠ 0 → ∃ d, (h.maxSeq, d) ∈ items) ∧ (h.stage = .closing → h.frameCount ≠ 0)

/-- How it stands with a handler that has sent its `Eos`. -/
def Outstanding (s : Path) (j : Nat) (h : PostHandler) : Prop :=
  h.stage = .waiting ∨ h.stage = .responded false ∨
    h.stage = .responded true ∧ j ∈ s.actor.acks.map Prod.fst

/-- An EOS of the log: its handler, and the frames that have been received for it. -/
def Sent (s : Path) (m : UInt64) (j : Nat) : Prop :=
  ∃ h items, s.handlers[j]? = some h ∧ Body key base122 encoding s h.post items ∧
    Received s.log items ∧ (∃ d, (m, d) ∈ items) ∧ Outstanding s j h

structure Waits (s : Path) : Prop where
  opened : s.opened = false → s.client.posts = []
  distinct : (s.handlers.map PostHandler.post).Nodup
  highest : ∀ h ∈ s.handlers, Highest key base122 encoding s h
  sent : ∀ m j, (m, j) ∈ Upload.eosOf s.log → Sent key base122 encoding s m j
  once : ((Upload.eosOf s.log).map Prod.snd).Nodup
  finished : ∀ i p, s.client.posts[i]? = some p → p.outcome ≠ none →
    ∃ h ∈ s.handlers, h.post = i ∧ h.stage = .responded true
  room : (inFlight s.client.posts).length ≤ Upload.MAX_EOS_WAITERS + 1
  noneRefused : NoneRefused s.actor

end Waits

/-! ## Counting -/

/-- Different POSTs that have not ended are in flight. -/
theorem length_le_inFlight {posts : List Post} {numbers : List Nat} (hnodup : numbers.Nodup)
    (hrunning : ∀ i ∈ numbers, ∃ p, posts[i]? = some p ∧ p.outcome = none) :
    numbers.length ≤ (inFlight posts).length := by
  have hsub : numbers ⊆ (posts.zipIdx.filter fun pi => pi.1.outcome.isNone).map Prod.snd := by
    intro i hi
    obtain ⟨p, hp, hout⟩ := hrunning i hi
    refine List.mem_map.mpr ⟨(p, i), List.mem_filter.mpr ⟨?_, by simp [hout]⟩, rfl⟩
    exact List.mem_zipIdx_iff_getElem?.mpr hp
  have hlen := hnodup.length_le_of_subset hsub
  have hcount : (inFlight posts).length =
      (posts.zipIdx.filter fun pi => pi.1.outcome.isNone).length := by
    rw [inFlight]
    nth_rewrite 1 [← List.zipIdx_map_fst 0 posts]
    rw [List.filter_map, List.length_map]
    rfl
  rw [List.length_map] at hlen
  omega

section Counting

variable {key : LessSafeKey} {base122 : Base122Fast} {encoding : EncodingType} {writeOk : Nat → Bool}
  {early : List SealedFrame} {remaining : Bytes} {now : Nat} {s : Path}

/-- The number of each frame in a front of a numbered sequence. -/
theorem seq_getElem {fs gs : List SealedFrame}
    (hseqs : (fs ++ gs).map SealedFrame.seq = (List.range (fs ++ gs).length).map (seqAt 0)) {k : Nat}
    (hk : k < fs.length) : fs[k].seq = seqAt 0 k := by
  have hat := congrArg (·[k]?) hseqs
  have hlt : k < (fs ++ gs).length := by
    rw [List.length_append]
    omega
  rw [List.getElem?_map, List.getElem?_append_left hk, List.getElem?_eq_getElem hk,
    List.getElem?_map, List.getElem?_range hlt] at hat
  exact Option.some.inj hat

/-- The frame the actor waits for is in the body of some POST. -/
theorem Inv.missing (hkey : key.Lawful) (hb : base122.Lawful)
    (hearly : Carried key base122 encoding 0 early)
    (h : Inv key base122 encoding writeOk early remaining now s)
    (hfresh : (early ++ s.client.shaped.frames).length < 2 ^ 64) (hopened : s.opened = true)
    {n : UInt64} (hgap : (Upload.framesOf s.log).lookup n = none) {i : Nat}
    {items : List (UInt64 × Bytes)} (hbody : Body key base122 encoding s i items) {m : UInt64} {d : Bytes}
    (hm : (m, d) ∈ items) (hle : n ≤ m) :
    ∃ i₀ items₀ d₀, Body key base122 encoding s i₀ items₀ ∧ (n, d₀) ∈ items₀ := by
  obtain ⟨groups, cur, hframes, hlen, hbodies, _⟩ := h.groups hkey hb
  have hseqs := h.seqs hearly
  rw [← hframes, ← List.append_assoc] at hseqs hfresh
  have hzero : (0 : UInt64).toNat = 0 := rfl
  have hshort : (early ++ groups.flatten).length < 2 ^ 64 := by
    rw [List.length_append] at hfresh
    omega
  -- the frame `m` is in a POST, so the frame `n` before it is in one too, or was sent early
  obtain ⟨k, hk, rfl⟩ : ∃ k < (early ++ groups.flatten).length, m = seqAt 0 k := by
    obtain ⟨body, hget, hitems⟩ := id hbody
    obtain ⟨hi, _⟩ := List.getElem?_eq_some_iff.mp hget
    rw [List.length_map, ← hlen] at hi
    obtain rfl := hbody.unique (hbodies i groups[i] (List.getElem?_eq_getElem hi))
    obtain ⟨f, hf, heq⟩ := List.mem_map.mp hm
    have hmem : f ∈ early ++ groups.flatten :=
      List.mem_append_right _ (List.mem_flatten.mpr ⟨groups[i], List.getElem_mem hi, hf⟩)
    obtain ⟨k, hk, rfl⟩ := List.getElem_of_mem hmem
    exact ⟨k, hk, by rw [← seq_getElem hseqs hk, (Prod.mk.inj heq).1]⟩
  have hnk : n.toNat < (early ++ groups.flatten).length := by
    rw [UInt64.le_iff_toNat_le, seqAt_toNat (by omega)] at hle
    omega
  have hnseq := seq_getElem hseqs hnk
  rw [seqAt_zero_toNat] at hnseq
  rcases List.mem_append.mp (List.getElem_mem hnk) with hmem | hmem
  · have hreceived := h.opened hopened _ (List.mem_map.mpr ⟨_, hmem, rfl⟩)
    have := List.lookup_eq_none_iff.mp hgap _ hreceived
    simp [hnseq] at this
  · obtain ⟨g, hg, hf⟩ := List.mem_flatten.mp hmem
    obtain ⟨i₀, hi₀⟩ := List.getElem?_of_mem hg
    exact ⟨i₀, itemsOf g, _, hbodies i₀ g hi₀, List.mem_map.mpr ⟨_, hf, by rw [hnseq]⟩⟩

/-- The actor waits for a frame it has not received. -/
theorem Inv.gap (hearly : Carried key base122 encoding 0 early)
    (h : Inv key base122 encoding writeOk early remaining now s)
    (hfresh : (early ++ s.client.shaped.frames).length < 2 ^ 64) (halive : s.actor.done = false) :
    ∃ r, Upload.Live 0 s.log s.actor r ∧ (Upload.framesOf s.log).lookup r.nextSeq = none := by
  have hfree : (Upload.framesOf s.log).lookup
      (seqAt 0 (early ++ s.client.shaped.frames).length) = none := by
    rw [List.lookup_eq_none_iff]
    rintro ⟨q, d⟩ hp
    have hknown : (q, d) ∈ itemsOf (early ++ s.client.shaped.frames) := by
      rw [itemsOf, List.map_append]
      exact List.mem_append.mpr (h.known _ hp)
    refine bne_iff_ne.mpr fun heq => ?_
    obtain rfl : seqAt 0 (early ++ s.client.shaped.frames).length = q := heq
    obtain ⟨hlt, _⟩ := data_of_mem (h.seqs hearly) hfresh hfresh hknown
    exact absurd hlt (Nat.lt_irrefl _)
  obtain ⟨r, hr, hgap, _⟩ := Upload.live_writes h.actor halive ⟨_, UInt64.zero_le, hfree⟩
  obtain ⟨r', hlive⟩ := (Upload.inv_run h.actor).live halive
  obtain rfl := Upload.UploadPhase.reordering.inj (hr.symm.trans hlive.phase)
  exact ⟨r, hlive, hgap.2.1⟩

/-- A handler is known by its POST. -/
theorem Waits.same_handler (hw : Waits key base122 encoding s) {a b : Nat} {g h : PostHandler}
    (hg : s.handlers[a]? = some g) (hh : s.handlers[b]? = some h) (heq : g.post = h.post) : a = b := by
  have hlt : a < (s.handlers.map PostHandler.post).length := by
    rw [List.length_map]
    exact (List.getElem?_eq_some_iff.mp hg).1
  apply (List.getElem?_inj hlt hw.distinct).mp
  rw [List.getElem?_map, List.getElem?_map, hg, hh, Option.map_some, Option.map_some, heq]

/-- A POST none of whose handlers has responded is in flight. -/
theorem Waits.running (hw : Waits key base122 encoding s) {i : Nat} {items : List (UInt64 × Bytes)}
    (hbody : Body key base122 encoding s i items)
    (hopen : ∀ h ∈ s.handlers, h.post = i → h.stage ≠ .responded true) :
    ∃ p, s.client.posts[i]? = some p ∧ p.outcome = none := by
  obtain ⟨body, hget, _⟩ := hbody
  rw [List.getElem?_map, Option.map_eq_some_iff] at hget
  obtain ⟨p, hp, _⟩ := hget
  refine ⟨p, hp, ?_⟩
  by_contra hended
  obtain ⟨h, hmem, hpost, hstage⟩ := hw.finished i p hp hended
  exact hopen h hmem hpost hstage

/-- Everything a handler past its reading was sent has been received. -/
theorem Inv.handled (h : Inv key base122 encoding writeOk early remaining now s) {g : PostHandler}
    (hmem : g ∈ s.handlers) (hstage : g.stage = .closing ∨ g.stage = .responded true)
    {items : List (UInt64 × Bytes)} (hbody : Body key base122 encoding s g.post items) :
    Received s.log items := by
  obtain ⟨body, items', hget, hitems, hall⟩ := h.handlers g hmem
  obtain rfl := hbody.unique ⟨body, hget, hitems⟩
  rcases hstage with hstage | hstage <;> simpa only [hstage] using hall

/-- A handler that has read its body to the end and has not responded with a success. -/
def Open (key : LessSafeKey) (base122 : Base122Fast) (encoding : EncodingType) (s : Path) (a : Nat) : Prop :=
  ∃ h items, s.handlers[a]? = some h ∧ Body key base122 encoding s h.post items ∧
    Received s.log items ∧ h.stage ≠ .responded true

/-- Such handlers have a POST each in flight, and the POST with a frame that is missing is another. -/
theorem Waits.open_handlers (h : Inv key base122 encoding writeOk early remaining now s)
    (hw : Waits key base122 encoding s) {n : UInt64}
    (hgap : (Upload.framesOf s.log).lookup n = none) {i₀ : Nat} {items₀ : List (UInt64 × Bytes)}
    {d₀ : Bytes} (hbody₀ : Body key base122 encoding s i₀ items₀) (hmem₀ : (n, d₀) ∈ items₀)
    {as : List Nat} (hnodup : as.Nodup) (hopen : ∀ a ∈ as, Open key base122 encoding s a) :
    as.length + 1 ≤ (inFlight s.client.posts).length := by
  have hnone : ¬ Received s.log items₀ := by
    intro hall
    have := List.lookup_eq_none_iff.mp hgap _ (hall _ hmem₀)
    simp at this
  let postOf (a : Nat) : Nat := ((s.handlers[a]?).map PostHandler.post).getD 0
  have hpostOf : ∀ {a h}, s.handlers[a]? = some h → postOf a = h.post := by
    intro a h hget
    simp only [postOf, hget, Option.map_some, Option.getD_some]
  have hinj : (as.map postOf).Nodup := by
    refine List.Nodup.map_on (fun a ha b hb heq => ?_) hnodup
    obtain ⟨g, _, hg, _⟩ := hopen a ha
    obtain ⟨g', _, hg', _⟩ := hopen b hb
    rw [hpostOf hg, hpostOf hg'] at heq
    exact hw.same_handler hg hg' heq
  have hother : i₀ ∉ as.map postOf := by
    intro hmem
    obtain ⟨a, ha, rfl⟩ := List.mem_map.mp hmem
    obtain ⟨g, items, hg, hbody, hall, _⟩ := hopen a ha
    rw [hpostOf hg] at hbody₀
    exact hnone (hbody.unique hbody₀ ▸ hall)
  have hrunning : ∀ i ∈ i₀ :: as.map postOf, ∃ p, s.client.posts[i]? = some p ∧ p.outcome = none := by
    intro i hi
    rcases List.mem_cons.mp hi with rfl | hi
    · refine hw.running hbody₀ fun g hg hpost hstage => hnone ?_
      subst hpost
      exact h.handled hg (.inr hstage) hbody₀
    · obtain ⟨a, ha, rfl⟩ := List.mem_map.mp hi
      obtain ⟨g, items, hg, hbody, _, hstage⟩ := hopen a ha
      rw [hpostOf hg]
      refine hw.running hbody fun g' hg' hpost => ?_
      obtain ⟨b, hb⟩ := List.getElem?_of_mem hg'
      obtain rfl := hw.same_handler hb hg hpost
      obtain rfl := Option.some.inj (hb.symm.trans hg)
      exact hstage
  have hlen := length_le_inFlight (List.nodup_cons.mpr ⟨hother, hinj⟩) hrunning
  rwa [List.length_cons, List.length_map] at hlen

/-- **Counting.**  An EOS that has to wait finds the waiters of other POSTs only, all in flight, and the
    frame that is missing is in one more. -/
theorem waiters_room (hkey : key.Lawful) (hb : base122.Lawful)
    (hearly : Carried key base122 encoding 0 early)
    (h : Inv key base122 encoding writeOk early remaining now s)
    (hfresh : (early ++ s.client.shaped.frames).length < 2 ^ 64) (hw : Waits key base122 encoding s)
    {r : Upload.Reorder} (hlive : Upload.Live 0 s.log s.actor r)
    (hgap : (Upload.framesOf s.log).lookup r.nextSeq = none) {j : Nat} {hd : PostHandler}
    (hget : s.handlers[j]? = some hd) (hclosing : hd.stage = .closing) (hle : r.nextSeq ≤ hd.maxSeq) :
    r.eosWaiters.length + 2 ≤ (inFlight s.client.posts).length := by
  -- the handler's own body
  obtain ⟨items, hbody, _, hhighest, hcount⟩ := hw.highest hd (List.mem_of_getElem? hget)
  obtain ⟨d, hd_mem⟩ := hhighest (hcount hclosing)
  have hown : Received s.log items := h.handled (List.mem_of_getElem? hget) (.inl hclosing) hbody
  have hopened : s.opened = true := by
    by_contra hne
    obtain ⟨body, hat, _⟩ := hbody
    rw [hw.opened (by simpa using hne)] at hat
    cases hat
  obtain ⟨i₀, items₀, d₀, hbody₀, hmem₀⟩ := h.missing hkey hb hearly hfresh hopened hgap hbody hd_mem hle
  -- the handlers that wait
  have hledger := (Upload.inv_run h.actor).core.ledger.nodup_iff.mpr hw.once
  rw [hlive.phase, Upload.UploadPhase.stored] at hledger
  obtain ⟨_, hstored, hapart⟩ := List.nodup_append.mp hledger
  have hwaiting : ∀ a ∈ r.eosWaiters.map Prod.snd, Open key base122 encoding s a ∧ a ≠ j := by
    intro a ha
    obtain ⟨⟨m, a⟩, hmem, rfl⟩ := List.mem_map.mp ha
    obtain ⟨g, items', hg, hbody', hall, _, hout⟩ := hw.sent m a (hlive.known _ hmem)
    refine ⟨⟨g, items', hg, hbody', hall, fun hstage => ?_⟩, ?_⟩
    · rcases hout with hout | hout | ⟨_, hanswered⟩
      · exact absurd (hstage.symm.trans hout) (by simp)
      · exact absurd (hstage.symm.trans hout) (by simp)
      · exact hapart _ hanswered _ ha rfl
    · rintro rfl
      obtain rfl := Option.some.inj (hg.symm.trans hget)
      rcases hout with hout | hout | ⟨hout, _⟩ <;> exact absurd (hclosing.symm.trans hout) (by simp)
  have hnodup : (j :: r.eosWaiters.map Prod.snd).Nodup :=
    List.nodup_cons.mpr ⟨fun hmem => (hwaiting j hmem).2 rfl, hstored⟩
  have hlen := Waits.open_handlers h hw hgap hbody₀ hmem₀ hnodup ?_
  · rwa [List.length_cons, List.length_map] at hlen
  · intro a ha
    rcases List.mem_cons.mp ha with rfl | ha
    · exact ⟨hd, items, hget, hbody, hown, by rw [hclosing]; exact (by simp)⟩
    · exact (hwaiting a ha).1

end Counting

/-! ## Each step keeps it -/

section Keeps

variable {key : LessSafeKey} {base122 : Base122Fast} {encoding : EncodingType} {writeOk : Nat → Bool}
  {early : List SealedFrame} {remaining : Bytes} {now : Nat} {s s' : Path}

theorem Body.mono {i : Nat} {items : List (UInt64 × Bytes)} (h : Body key base122 encoding s i items)
    (hbodies : s.client.posts.map Post.body <+: s'.client.posts.map Post.body) :
    Body key base122 encoding s' i items := by
  obtain ⟨body, hget, hitems⟩ := h
  obtain ⟨new, hnew⟩ := hbodies
  obtain ⟨hlt, _⟩ := List.getElem?_eq_some_iff.mp hget
  exact ⟨body, by rw [← hnew, List.getElem?_append_left hlt, hget], hitems⟩

theorem Highest.mono {g : PostHandler} (h : Highest key base122 encoding s g)
    (hbodies : s.client.posts.map Post.body <+: s'.client.posts.map Post.body) :
    Highest key base122 encoding s' g := by
  obtain ⟨items, hbody, hg⟩ := h
  exact ⟨items, hbody.mono hbodies, hg⟩

/-- The actor receives something that is not an EOS. -/
theorem Waits.received {e : Upload.Event} {actor : Upload.UploadActor}
    (hactor : run (Upload.step writeOk) (Upload.new 0 now) s.log = some s.actor)
    (hw : Waits key base122 encoding s)
    (hstep : Upload.step writeOk s.actor e = some actor) (he : Upload.eosOf [e] = []) :
    Waits key base122 encoding { s with actor, log := s.log ++ [e] } := by
  have halive := Upload.not_done_of_step hstep
  obtain ⟨r, hlive⟩ := (Upload.inv_run hactor).live halive
  have hturn := Upload.step_turn hlive.phase hstep
  have hsame : Upload.eosOf (s.log ++ [e]) = Upload.eosOf s.log := by
    rw [Upload.eosOf_append, he, List.append_nil]
  refine { opened := hw.opened, distinct := hw.distinct, highest := hw.highest, sent := ?_, once := ?_,
           finished := hw.finished, room := hw.room, noneRefused := ?_ }
  · intro m j hmem
    rw [hsame] at hmem
    obtain ⟨g, items, hget, hbody, hall, hm, hout⟩ := hw.sent m j hmem
    refine ⟨g, items, hget, hbody, hall.append [e], hm, hout.imp_right (Or.imp_right ?_)⟩
    exact And.imp_right fun hj => ((acks_turn hturn).map _).subset hj
  · show ((Upload.eosOf (s.log ++ [e])).map Prod.snd).Nodup
    rw [hsame]
    exact hw.once
  · refine noneRefused_turn hturn hw.noneRefused fun now m ack heq => ?_
    rw [heq] at he
    cases he

/-- A handler stays with its POST. -/
theorem posts_setHandler {j : Nat} {g g' : PostHandler} (hget : s.handlers[j]? = some g)
    (hpost : g'.post = g.post) :
    (s.setHandler j g').handlers.map PostHandler.post = s.handlers.map PostHandler.post := by
  obtain ⟨hj, hgj⟩ := List.getElem?_eq_some_iff.mp hget
  show (s.handlers.set j g').map PostHandler.post = _
  rw [List.map_set, hpost, ← hgj, ← List.getElem_map PostHandler.post, List.set_getElem_self]
  rwa [List.length_map]

/-- A handler goes on. -/
theorem Waits.set_handler (hw : Waits key base122 encoding s) {j : Nat} {g g' : PostHandler}
    (hget : s.handlers[j]? = some g) (hpost : g'.post = g.post)
    (hhighest : Highest key base122 encoding s g')
    (hout : Outstanding s j g → Outstanding s j g')
    (hdone : g.stage = .responded true → g'.stage = .responded true) :
    Waits key base122 encoding (s.setHandler j g') := by
  obtain ⟨hj, -⟩ := List.getElem?_eq_some_iff.mp hget
  refine { opened := hw.opened, distinct := ?_, highest := ?_, sent := ?_, once := hw.once,
           finished := ?_, room := hw.room, noneRefused := hw.noneRefused }
  · rw [posts_setHandler hget hpost]
    exact hw.distinct
  · intro k hk
    rcases List.mem_or_eq_of_mem_set hk with hk | rfl
    · exact hw.highest k hk
    · exact hhighest
  · intro m a hmem
    obtain ⟨k, items, hk, hbody, hall, hm, hstage⟩ := hw.sent m a hmem
    by_cases ha : a = j
    · subst ha
      obtain rfl := Option.some.inj (hk.symm.trans hget)
      exact ⟨g', items, List.getElem?_set_self hj, hpost ▸ hbody, hall, hm, hout hstage⟩
    · exact ⟨k, items, by rw [← hk]; exact List.getElem?_set_ne (Ne.symm ha), hbody, hall, hm, hstage⟩
  · intro i p hp hended
    obtain ⟨k, hk, hki, hstage⟩ := hw.finished i p hp hended
    obtain ⟨a, ha⟩ := List.getElem?_of_mem hk
    by_cases haj : a = j
    · subst haj
      obtain rfl := Option.some.inj (ha.symm.trans hget)
      exact ⟨g', List.mem_of_getElem? (List.getElem?_set_self hj), hpost.trans hki, hdone hstage⟩
    · refine ⟨k, List.mem_of_getElem? (i := a) ?_, hki, hstage⟩
      rw [← ha]
      exact List.getElem?_set_ne (Ne.symm haj)

/-- The client's loop goes on. -/
theorem Waits.client {client : UploadLoopActor} (hw : Waits key base122 encoding s)
    (hopened : s.opened = true) (hbodies : s.client.posts.map Post.body <+: client.posts.map Post.body)
    (hfinished : ∀ i p, client.posts[i]? = some p → p.outcome ≠ none →
      ∃ h ∈ s.handlers, h.post = i ∧ h.stage = .responded true)
    (hroom : (inFlight client.posts).length ≤ Upload.MAX_EOS_WAITERS + 1) :
    Waits key base122 encoding { s with client } where
  opened hne := by
    have hno : s.opened = false := hne
    exact absurd (hno.symm.trans hopened) Bool.false_ne_true
  distinct := hw.distinct
  highest g hg := (hw.highest g hg).mono hbodies
  sent m j hmem := by
    obtain ⟨g, items, hget, hbody, hsent⟩ := hw.sent m j hmem
    exact ⟨g, items, hget, hbody.mono hbodies, hsent⟩
  once := hw.once
  finished := hfinished
  room := hroom
  noneRefused := hw.noneRefused

/-- The steps of the loop itself. -/
theorem Waits.own_step {e : UploadLoop.Event} {client : UploadLoopActor}
    (hw : Waits key base122 encoding s) (hopened : s.opened = true) (hown : ownEvent e = true)
    (hcalm : calm s (.client e) = true)
    (hstep : UploadLoop.step key base122 s.client e = some client) :
    Waits key base122 encoding { s with client } := by
  have hmoves := step_moves hstep
  refine hw.client hopened (grows_step hstep).bodies ?_ ?_
  · intro k p hk hended
    rcases ended_of_moves hmoves hk hended with ⟨q, hq, hbefore⟩ | ⟨outcome, rfl⟩
    · exact hw.finished k q hq hbefore
    · cases hown
  · have hroom := hw.room
    cases hmoves with
    | stays hposts hlimits hpoint => rwa [hposts]
    | joins hposts hlimits hpoint => rwa [hposts, inFlight_markJoined]
    | reserves hfree => exact hroom
    | @spawns batchBuf streamEnded hp =>
      rw [inFlight_spawn]
      rw [calm, hp, Point.reserves] at hcalm
      have hfew : (inFlight s.client.posts).length ≤ Upload.MAX_EOS_WAITERS := by simpa using hcalm
      omega
    | ends hpost hrunning => cases hown

/-- The client has the response of a handler. -/
theorem Waits.success {g : PostHandler} {client : UploadLoopActor} (hw : Waits key base122 encoding s)
    (hg : g ∈ s.handlers) (hstage : g.stage = .responded true)
    (hstep : UploadLoop.step key base122 s.client (.ended g.post .success) = some client) :
    Waits key base122 encoding { s with client } := by
  have hbodies := (grows_step hstep).bodies
  have hroom := hw.room
  have hopened : s.opened = true := by
    by_contra hne
    obtain ⟨items, ⟨body, hat, _⟩, _⟩ := hw.highest g hg
    rw [hw.opened (by simpa using hne)] at hat
    cases hat
  have hmoves := step_moves hstep
  refine hw.client hopened hbodies ?_ ?_
  · intro k p hk hended
    rcases ended_of_moves hmoves hk hended with ⟨q, hq, hbefore⟩ | ⟨outcome, heq⟩
    · exact hw.finished k q hq hbefore
    · exact ⟨g, hg, (UploadLoop.Event.ended.inj heq).1, hstage⟩
  · cases hmoves with
    | stays hposts hlimits hpoint => rwa [hposts]
    | ends hpost hrunning =>
      have hfewer := inFlight_markEnded hpost hrunning .success
      dsimp only
      omega

/-- A POST reaches the server for the first time. -/
theorem Waits.arrive {i : Nat} {inner : List Feed} {items : List (UInt64 × Bytes)}
    (hw : Waits key base122 encoding s) (hbody : Body key base122 encoding s i items)
    (hfirst : i ∉ s.handlers.map PostHandler.post) :
    Waits key base122 encoding { s with handlers := s.handlers ++ [.new i inner] } where
  opened := hw.opened
  distinct := by
    rw [List.map_append, List.map_singleton]
    refine List.nodup_append.mpr ⟨hw.distinct, List.nodup_singleton _, fun a ha b hb hab => hfirst ?_⟩
    obtain rfl : b = i := List.mem_singleton.mp hb
    exact hab ▸ ha
  highest g hg := by
    rcases List.mem_append.mp hg with hg | hg
    · exact hw.highest g hg
    · obtain rfl := List.mem_singleton.mp hg
      exact ⟨items, hbody, fun _ => rfl, fun hne => absurd rfl hne, by rintro ⟨⟩⟩
  sent m j hmem := by
    obtain ⟨g, items, hget, hsent⟩ := hw.sent m j hmem
    obtain ⟨hlt, _⟩ := List.getElem?_eq_some_iff.mp hget
    exact ⟨g, items, by rw [List.getElem?_append_left hlt, hget], hsent⟩
  once := hw.once
  finished k p hk hended := by
    obtain ⟨g, hg, hpost⟩ := hw.finished k p hk hended
    exact ⟨g, List.mem_append_left _ hg, hpost⟩
  room := hw.room
  noneRefused := hw.noneRefused

/-- **A handler sends its EOS**, and there is room for it. -/
theorem Waits.eos {j t : Nat} {g : PostHandler} {actor : Upload.UploadActor} {r : Upload.Reorder}
    (h : Inv key base122 encoding writeOk early remaining now s) (hw : Waits key base122 encoding s)
    (hlive : Upload.Live 0 s.log s.actor r) (hget : s.handlers[j]? = some g)
    (hclosing : g.stage = .closing)
    (hroom : r.nextSeq ≤ g.maxSeq → r.eosWaiters.length < Upload.MAX_EOS_WAITERS)
    (hstep : Upload.step writeOk s.actor (.recv t (.eos g.maxSeq j)) = some actor) :
    Waits key base122 encoding
      { s.setHandler j { g with stage := .waiting } with
        actor, log := s.log ++ [.recv t (.eos g.maxSeq j)] } := by
  have hmem := List.mem_of_getElem? hget
  obtain ⟨items, hbody, hzero, hsome, hcount⟩ := hw.highest g hmem
  have hturn := Upload.step_turn hlive.phase hstep
  have hsent := hw.set_handler hget (rfl : PostHandler.post { g with stage := .waiting } = g.post)
    ⟨items, hbody, hzero, hsome, (by simp)⟩ (fun _ => .inl rfl) (fun hstage => absurd (hclosing.symm.trans hstage) (by simp))
  refine { opened := hsent.opened, distinct := hsent.distinct, highest := hsent.highest, sent := ?_,
           once := ?_, finished := hsent.finished, room := hsent.room, noneRefused := ?_ }
  · intro m a hma
    rw [Upload.eosOf_eos] at hma
    rcases List.mem_append.mp hma with hma | hma
    · obtain ⟨k, items', hk, hbody', hall, hm, hout⟩ := hsent.sent m a hma
      refine ⟨k, items', hk, hbody', hall.append _, hm, hout.imp_right (Or.imp_right ?_)⟩
      exact And.imp_right fun ha => ((acks_turn hturn).map _).subset ha
    · obtain ⟨rfl, rfl⟩ := Prod.mk.inj (List.mem_singleton.mp hma)
      refine ⟨{ g with stage := .waiting }, items, ?_, hbody, ?_, hsome (hcount hclosing), .inl rfl⟩
      · exact List.getElem?_set_self (List.getElem?_eq_some_iff.mp hget).1
      · exact (h.handled hmem (.inl hclosing) hbody).append _
  · rw [Upload.eosOf_eos, List.map_append]
    refine List.nodup_append.mpr ⟨hw.once, List.nodup_singleton _, fun a ha b hb hab => ?_⟩
    obtain rfl : b = j := List.mem_singleton.mp hb
    subst hab
    obtain ⟨⟨m, a⟩, hma, rfl⟩ := List.mem_map.mp ha
    obtain ⟨k, _, hk, _, _, _, hout⟩ := hw.sent m a hma
    obtain rfl := Option.some.inj (hk.symm.trans hget)
    rcases hout with hout | hout | ⟨hout, _⟩ <;> exact absurd (hclosing.symm.trans hout) (by simp)
  · refine noneRefused_turn hturn hw.noneRefused fun now m ack heq hle => hroom ?_
    cases heq
    exact hle

/-- **Every step keeps who waits**, when it is orderly and calm. -/
theorem waits_path (hkey : key.Lawful) (hb : base122.Lawful)
    (hearly : Carried key base122 encoding 0 early) {e : Event}
    (h : Inv key base122 encoding writeOk early remaining now s)
    (hfresh : (early ++ s.client.shaped.frames).length < 2 ^ 64) (hw : Waits key base122 encoding s)
    (horderly : orderly s e = true) (hcalm : calm s e = true)
    (hstep : step key base122 encoding writeOk s e = some s') : Waits key base122 encoding s' := by
  -- a handler that reads has sent no EOS, and has not responded
  have hquiet {j : Nat} {g g' : PostHandler} (hreading : g.stage = .reading) :
      Outstanding s j g → Outstanding s j g' := by
    rintro (hout | hout | ⟨hout, _⟩) <;> exact absurd (hreading.symm.trans hout) (by simp)
  have hearlier {g g' : PostHandler} (hreading : g.stage = .reading) :
      g.stage = .responded true → g'.stage = .responded true :=
    fun hstage => absurd (hreading.symm.trans hstage) (by simp)
  cases step_motion hstep with
  | openingWaits => exact { hw with }
  | openingPasses hopen hpoll hact => exact { hw.received h.actor hact rfl with }
  | opens => exact { hw with opened := (by simp) }
  | loop hopened hown hclient => exact hw.own_step hopened hown hcalm hclient
  | @arrives i inner post hpost hcuts =>
    have hbody : (s.client.posts.map Post.body)[i]? = some post.body := by
      rw [List.getElem?_map, hpost, Option.map_some]
    obtain ⟨g, hg, _⟩ := frames_body hkey hb h.client (List.mem_of_getElem? hbody)
    refine hw.arrive ⟨post.body, hbody, hg⟩ ?_
    simpa [orderly] using horderly
  | @waits j t g decoder hget hreading hpoll =>
    exact hw.set_handler hget rfl (hw.highest g (List.mem_of_getElem? hget)) (hquiet hreading)
      (hearlier hreading)
  | @passes j t g seq data decoder actor hget hreading hpoll hact =>
    have hmem := List.mem_of_getElem? hget
    obtain ⟨body, items, hbody, hitems, hpass⟩ := h.handlers g hmem
    obtain ⟨items', hbody', hzero, hsome, hclosing⟩ := hw.highest g hmem
    obtain rfl := hbody'.unique ⟨body, hbody, hitems⟩
    simp only [hreading] at hpass
    obtain ⟨hitem, _⟩ := Passing.item hpass hpoll t
    have hmax : ∃ d, (max g.maxSeq seq, d) ∈ items' := by
      show ∃ d, ((if g.maxSeq ≤ seq then seq else g.maxSeq), d) ∈ items'
      split
      · exact ⟨data, hitem⟩
      · rename_i hle
        exact hsome fun hnone => hle (by rw [hzero hnone]; exact UInt64.zero_le)
    have hnext := hw.set_handler hget
      (rfl : PostHandler.post { g with decoder, maxSeq := max g.maxSeq seq,
                                       frameCount := g.frameCount + 1 } = g.post)
      ⟨items', hbody', (by simp), fun _ => hmax, fun _ => Nat.succ_ne_zero _⟩ (hquiet hreading)
      (hearlier hreading)
    exact hnext.received h.actor hact rfl
  | @fails j t g e decoder hget hreading hpoll =>
    obtain ⟨items, hbody, hzero, hsome, hclosing⟩ := hw.highest g (List.mem_of_getElem? hget)
    exact hw.set_handler hget rfl ⟨items, hbody, hzero, hsome, (by simp)⟩ (hquiet hreading)
      (hearlier hreading)
  | @finishes j t g decoder hget hreading hpoll =>
    obtain ⟨items, hbody, hzero, hsome, hclosing⟩ := hw.highest g (List.mem_of_getElem? hget)
    refine hw.set_handler hget rfl ⟨items, hbody, hzero, hsome, fun hstage => ?_⟩ (hquiet hreading)
      (hearlier hreading)
    intro hnone
    have hclosed : (if g.frameCount = 0 then Stage.responded true else .closing) = .closing := hstage
    rw [if_pos hnone] at hclosed
    cases hclosed
  | @sendsEos j t g actor hget hclosing hact =>
    obtain ⟨r, hlive, hgap⟩ := h.gap hearly hfresh (Upload.not_done_of_step hact)
    refine Waits.eos h hw hlive hget hclosing (fun hle => ?_) hact
    have hcount := waiters_room hkey hb hearly h hfresh hw hlive hgap hget hclosing hle
    have hroom := hw.room
    omega
  | @answers j g answer hget hwaiting hlookup =>
    obtain ⟨items, hbody, hzero, hsome, _⟩ := hw.highest g (List.mem_of_getElem? hget)
    refine hw.set_handler hget rfl ⟨items, hbody, hzero, hsome, (by simp)⟩ (fun _ => ?_)
      (fun hstage => absurd (hwaiting.symm.trans hstage) (by simp))
    obtain ⟨l₁, l₂, hacks, _⟩ := List.lookup_eq_some_iff.mp hlookup
    have hanswered : j ∈ s.actor.acks.map Prod.fst := by simp [hacks]
    cases decide (answer = .ok) with
    | true => exact .inr (.inr ⟨rfl, hanswered⟩)
    | false => exact .inr (.inl rfl)
  | @givesUp j g hget hnot =>
    obtain ⟨items, hbody, hzero, hsome, _⟩ := hw.highest g (List.mem_of_getElem? hget)
    exact hw.set_handler hget rfl ⟨items, hbody, hzero, hsome, (by simp)⟩ (fun _ => .inr (.inl rfl))
      (fun hstage => absurd hstage (hnot true))
  | succeeds hget hstage hclient => exact hw.success (List.mem_of_getElem? hget) hstage hclient
  | breaks => cases horderly
  | @apart e actor hback hact =>
    refine hw.received h.actor hact ?_
    cases e with
    | closed => rfl
    | timeout t => rfl
    | recv t cmd =>
      cases cmd with
      | frame seq data => rfl
      | eos maxSeq ack => cases hback
      | shutdown => rfl

end Keeps

/-! ## Never refused -/

section Client

variable {key : LessSafeKey} {base122 : Base122Fast} {encoding : EncodingType} {writeOk : Nat → Bool}
  {s s' : Path}

/-- What a step does to the client: nothing, or a step of its loop. -/
theorem client_of_step {e : Event} (hstep : step key base122 encoding writeOk s e = some s') :
    s'.client = s.client ∨ ∃ e', UploadLoop.step key base122 s.client e' = some s'.client := by
  cases step_motion hstep with
  | loop hopened hown hclient => exact .inr ⟨_, hclient⟩
  | succeeds hget hstage hclient => exact .inr ⟨_, hclient⟩
  | breaks houtcome hclient => exact .inr ⟨_, hclient⟩
  | _ => exact .inl rfl

/-- The frames of the client only grow in number. -/
theorem frames_of_step {e : Event} (hstep : step key base122 encoding writeOk s e = some s') :
    s.client.shaped.frames <+: s'.client.shaped.frames := by
  rcases client_of_step hstep with hsame | ⟨e', hclient⟩
  · rw [hsame]
  · exact (grows_step hclient).frames

/-- The permits of the configuration are kept to. -/
def Permitted (uploadConcurrency : Nat) (s : Path) : Prop :=
  Permits s.client ∧ s.client.limits.uploadConcurrency = uploadConcurrency

theorem permitted_step {uploadConcurrency : Nat} {e : Event} (h : Permitted uploadConcurrency s)
    (hstep : step key base122 encoding writeOk s e = some s') : Permitted uploadConcurrency s' := by
  rcases client_of_step hstep with hsame | ⟨e', hclient⟩
  · rwa [Permitted, hsame]
  · have hmoves := step_moves hclient
    exact ⟨permits_moves hmoves h.1, by rw [limits_moves hmoves]; exact h.2⟩

/-- With 257 permits or less, no POST is spawned that has more than 256 others beside it. -/
theorem Permitted.calm {uploadConcurrency : Nat} (h : Permitted uploadConcurrency s)
    (hfew : uploadConcurrency ≤ Upload.MAX_EOS_WAITERS + 1) (e : Event) : calm s e = true := by
  obtain ⟨hpermits, hlimit⟩ := h
  unfold UploadPath.calm
  split
  · cases hr : s.client.point.reserves with
    | false => rfl
    | true =>
      have hfree := hpermits.reserved hr
      simp only [Bool.not_true, Bool.false_or, decide_eq_true_eq]
      omega
  · rfl

end Client

theorem waits_start (key : LessSafeKey) (base122 : Base122Fast) (config : ResolvedShaperConfig)
    (opening : List Feed) (remaining : Bytes) (startSeq : UInt64)
    (uploadConcurrency maxInFlightBytes random now : Nat) :
    Waits key base122 config.encoding
      (.start (.new config uploadConcurrency maxInFlightBytes remaining startSeq random) opening now) where
  opened _ := rfl
  distinct := List.nodup_nil
  highest _ hmem := absurd hmem List.not_mem_nil
  sent _ _ hmem := absurd hmem List.not_mem_nil
  once := List.nodup_nil
  finished _ _ hp _ := nomatch hp
  room := Nat.zero_le _
  noneRefused _ hmem := absurd hmem List.not_mem_nil

/-- The bytes bound the number of frames. -/
theorem Inv.frames_le {key : LessSafeKey} {base122 : Base122Fast} {encoding : EncodingType}
    {writeOk : Nat → Bool} {early : List SealedFrame} {initial remaining : Bytes} {now : Nat} {s : Path}
    (hearly : Carried key base122 encoding 0 early)
    (hinitial : (early.map SealedFrame.data).flatten ++ remaining = initial)
    (h : Inv key base122 encoding writeOk early remaining now s) :
    (early ++ s.client.shaped.frames).length ≤ initial.length + s.client.socket.length := by
  have hbytes := congrArg List.length h.client.conserved.bytes
  have hreader := congrArg List.length h.client.reader
  have hle : (early ++ s.client.shaped.frames).length ≤ _ := length_le_data fun f hf => by
    rcases List.mem_append.mp hf with hf | hf
    · exact (hearly.carries f hf).1
    · exact (h.client.conserved.carried f hf).1
  rw [← hinitial]
  simp only [List.map_append, List.flatten_append, List.length_append] at hle hbytes hreader ⊢
  omega

/-- **No EOS is refused** in a run without failed or repeated POSTs, when every POST is spawned with at
    most 256 others in flight; so it is whenever `upload_concurrency` is at most 257. -/
theorem eos_never_refused (key : LessSafeKey) (base122 : Base122Fast) (hkey : key.Lawful)
    (hseal : key.NeverFails) (hb : base122.Lawful) (config : ResolvedShaperConfig)
    (draw : UInt64 → Draw) (initial : Bytes) (uploadConcurrency maxInFlightBytes random now : Nat)
    (writeOk : Nat → Bool) :
    ∃ body remaining framesSent,
      encodeInitialPayload key base122 config draw initial MAX_RAW_PAYLOAD =
        .ok (body, remaining, framesSent) ∧
      ∀ (opening : List Feed) (es : List Event) (s : Path), Cuts opening body →
        let path := Path.start
          (.new config uploadConcurrency maxInFlightBytes remaining framesSent random) opening now
        run (step key base122 config.encoding writeOk) path es = some s →
        Meets (step key base122 config.encoding writeOk) (fun s e => orderly s e = true) path es →
        (uploadConcurrency ≤ Upload.MAX_EOS_WAITERS + 1 ∨
          Meets (step key base122 config.encoding writeOk) (fun s e => calm s e = true) path es) →
        initial.length + s.client.socket.length < 2 ^ 64 → NoneRefused s.actor := by
  obtain ⟨early, remaining, hencoded, hinitial, hearly⟩ :=
    encodeInitialPayload_spec hseal initial MAX_RAW_PAYLOAD
  refine ⟨bytesOf early, remaining, seqAt 0 early.length, hencoded, ?_⟩
  intro opening es s hcuts path hrun horderly hcalm hsize
  have hstart := inv_start hkey hb hearly hcuts writeOk remaining uploadConcurrency maxInFlightBytes
    random now
  replace hcalm : Meets (step key base122 config.encoding writeOk) (fun s e => calm s e = true) path es := by
    rcases hcalm with hfew | hcalm
    · refine meets_of_invariant (fun _ _ _ h hstep => permitted_step h hstep)
        (fun s e h => Permitted.calm h hfew e) es path ⟨⟨?_, by rintro ⟨⟩⟩, rfl⟩
      exact Nat.zero_le _
    · exact hcalm
  -- the number of frames is bounded at the end of the run, hence in all states before
  let P (s : Path) : Prop := Inv key base122 config.encoding writeOk early remaining now s ∧
    ((early ++ s.client.shaped.frames).length < 2 ^ 64 → Waits key base122 config.encoding s)
  have hP : P s := by
    refine run_invariant_of_meets (P := P) (fun s e t hs hG hstep => ?_) es path s ⟨hstart, fun _ => ?_⟩
      (horderly.and hcalm) hrun
    · obtain ⟨hinv, hwaits⟩ := hs
      refine ⟨inv_path hkey hseal hb hinv hstep, fun hfresh => ?_⟩
      have hfewer := (frames_of_step hstep).length_le
      have hbefore : (early ++ s.client.shaped.frames).length < 2 ^ 64 := by
        rw [List.length_append] at hfresh ⊢
        omega
      exact waits_path hkey hb hearly hinv hbefore (hwaits hbefore) hG.1 hG.2 hstep
    · exact waits_start ..
  exact (hP.2 (Nat.lt_of_le_of_lt (hP.1.frames_le hearly hinitial) hsize)).noneRefused

/-- Two POSTs; the second is read first, so that its EOS waits for the first. -/
def waiterEvents : List Event :=
  [.opening 1,
   .client (.turn ⟨.filled [1], false, demoDraw⟩), .client (.turn ⟨.pending, true, demoDraw⟩),
   .client (.turn ⟨.pending, false, demoDraw⟩), .client .acquire, .client .acquire, .client .joinNone,
   .client (.turn ⟨.filled [2], false, demoDraw⟩), .client (.turn ⟨.pending, true, demoDraw⟩),
   .client (.turn ⟨.pending, false, demoDraw⟩), .client .acquire, .client .acquire, .client .joinNone,
   .arrive 1 [.chunk postBody], .poll 0 2, .poll 0 3, .eos 0 4,
   .arrive 0 [.chunk earlyBody], .poll 1 5, .poll 1 6, .eos 1 7]

theorem eos_never_refused_demo :
    ∃ s, run (step uploadKey publishedBase122 .binary fun _ => true)
        (.start (.new demoConfig 4 20480 [] 0 0) [] 0) waiterEvents = some s ∧
      s.actor.acks = [(0, .ok), (1, .ok)] ∧ NoneRefused s.actor := by
  have hkey : uploadKey.Lawful := streamKey_lawful (by decide)
  obtain ⟨body, remaining, framesSent, hencoded, hpath⟩ :=
    eos_never_refused uploadKey publishedBase122 hkey (streamKey_neverFails _) publishedBase122_lawful
      demoConfig (fun _ => demoDraw) [] 4 20480 0 0 (fun _ => true)
  have hearly : (encodeInitialPayload uploadKey publishedBase122 demoConfig (fun _ => demoDraw) []
      MAX_RAW_PAYLOAD).toOption = some ([], [], 0) := by decide +kernel
  rw [hencoded, Except.toOption, Option.some.injEq, Prod.mk.injEq, Prod.mk.injEq] at hearly
  obtain ⟨rfl, rfl, rfl⟩ := hearly
  have heval : (run (step uploadKey publishedBase122 .binary fun _ => true)
      (.start (.new demoConfig 4 20480 [] 0 0) [] 0) waiterEvents).map
        (fun s => (s.client.socket, s.actor.acks)) =
      some ([1, 2], [(0, .ok), (1, .ok)]) := by decide +kernel
  obtain ⟨s, hrun, hs⟩ := Option.map_eq_some_iff.mp heval
  obtain ⟨hsocket, hacks⟩ := Prod.mk.inj hs
  have horderly : Meets (step uploadKey publishedBase122 .binary fun _ => true)
      (fun s e => orderly s e = true) (.start (.new demoConfig 4 20480 [] 0 0) [] 0) waiterEvents := by
    decide +kernel
  refine ⟨s, hrun, hacks, ?_⟩
  exact hpath [] waiterEvents s ⟨fun e => List.not_mem_nil, rfl⟩ hrun horderly (.inl (by decide))
    (by rw [hsocket]; decide)

end Httproxy.UploadPath
