/-
  The reorder bytes of the server against the bytes that an honest client has in flight.

  The upload actor gives up when `pending_bytes + len` would exceed `MAX_PENDING_BYTES`
  (`UploadActor::handle_frame`).  The client spawns a POST only with a permit of `bytes_sem` for each byte
  of its body, and gives them back when the response is there (`do_batching`).

  1. **Owners (`Owned`)** — each frame in the reorder map was passed on by a handler whose EOS has NOT been
     answered `Ok`.  For such an answer `next_seq` has to be past the highest number of the handler, and
     the map holds only numbers above `next_seq`.

  2. **In flight (`Followed.running`)** — the client has the 204 of a POST only from a handler that got
     that answer.  So the POST of an owner is in flight, and so is the POST of a frame that arrives ahead
     of `next_seq`.  The early data is in sequence: nothing of it is ever kept (`Upfront`).

  3. **Counting (`sum_le_inFlight`)** — the frames in the map and the one that arrives are DIFFERENT frames
     of bodies in flight, and no frame is shorter than its data.

  A POST that reaches the server a second time, when the first time has been answered already, brings
  frames below `next_seq`, and these are dropped; only when the numbers have wrapped around they are not.
  So either the POSTs do not come twice, or there are fewer than `2^64` bytes.
-/
import Httproxy.Server.UploadBuffer
import Httproxy.UploadBytes

namespace Httproxy.UploadPath

open Crypto Machine Seq Shaper Decoder UploadLoop

/-! ## Specification -/

/-- No POST fails. -/
def unfailing : Event → Bool
  | .failure _ _ => false
  | _ => true

theorem unfailing_of_orderly {s : Path} {e : Event} (h : orderly s e = true) : unfailing e = true := by
  cases e with
  | failure i outcome => cases h
  | _ => rfl

/-- Every number up to `q` has been received. -/
def Delivered (log : List Upload.Event) (q : UInt64) : Prop :=
  ∀ q' ≤ q, ∃ d, (q', d) ∈ Upload.framesOf log

/-- The handler has sent its `Eos`, or will never send one. -/
def Stage.past : Stage → Bool
  | .reading | .closing => false
  | .waiting | .responded _ => true

section Specification

variable (key : LessSafeKey) (base122 : Base122Fast) (encoding : EncodingType)

/-- How far a handler is, by the numbers of the frames it has passed on. -/
def Progress (s : Path) (g : PostHandler) : Prop :=
  ∃ items, Body key base122 encoding s g.post items ∧
    match g.stage with
    | .reading =>
      (∀ p ∈ items, p ∈ (frames key base122 encoding g.decoder.due).1 ∨ p.1 ≤ g.maxSeq) ∧
        (g.frameCount = 0 → items = (frames key base122 encoding g.decoder.due).1)
    | .closing | .waiting => ∀ p ∈ items, p.1 ≤ g.maxSeq
    | .responded true => ∀ p ∈ items, Delivered s.log p.1
    | .responded false => True

/-- The `j`-th handler has passed the frame on, and its `Eos` has not been answered `Ok`. -/
def Owned (s : Path) (j : Nat) (q : UInt64) (d : Bytes) : Prop :=
  ∃ g items, s.handlers[j]? = some g ∧ Body key base122 encoding s g.post items ∧ (q, d) ∈ items ∧
    q ≤ g.maxSeq ∧ g.frameCount ≠ 0 ∧ g.stage ≠ .responded true ∧ (j, .ok) ∉ s.actor.acks

/-- As long as the first request goes on, there is nothing but the early data, and the actor waits for
    the very next frame of it. -/
structure Upfront (s : Path) : Prop where
  handlers : s.handlers = []
  posts : s.client.posts = []
  empty : ∀ r, s.actor.phase = .reordering r → ∀ q, r.pending.lookup q = none
  next : ∀ r, s.actor.phase = .reordering r →
    ∃ n, (frames key base122 encoding s.opening.due).1.map Prod.fst = (List.range n).map (seqAt r.nextSeq)

/-- Who has passed on what, and who has been answered. -/
structure Followed (s : Path) : Prop where
  opening : s.opened = false → Upfront key base122 encoding s
  handlers : ∀ g ∈ s.handlers, Progress key base122 encoding s g
  sent : ∀ m j, (m, j) ∈ Upload.eosOf s.log →
    ∃ g, s.handlers[j]? = some g ∧ g.maxSeq = m ∧ g.stage.past = true
  owned : ∀ r, s.actor.phase = .reordering r → ∀ q d, r.pending.lookup q = some d →
    ∃ j, Owned key base122 encoding s j q d
  finished : ∀ i p, s.client.posts[i]? = some p → p.outcome ≠ none →
    ∃ g ∈ s.handlers, g.post = i ∧ g.stage = .responded true

end Specification

/-! ## Growing -/

section Growing

variable {key : LessSafeKey} {base122 : Base122Fast} {encoding : EncodingType} {s s' : Path}

theorem Delivered.append {log : List Upload.Event} {q : UInt64} (h : Delivered log q)
    (more : List Upload.Event) : Delivered (log ++ more) q := by
  intro q' hle
  obtain ⟨d, hd⟩ := h q' hle
  rw [Upload.framesOf_append]
  exact ⟨d, List.mem_append_left _ hd⟩

/-- More bodies and more commands do not touch what a handler has done. -/
theorem Progress.mono {g : PostHandler} (h : Progress key base122 encoding s g)
    (hbodies : s.client.posts.map Post.body <+: s'.client.posts.map Post.body)
    (hlog : s.log <+: s'.log) : Progress key base122 encoding s' g := by
  obtain ⟨items, hbody, hstage⟩ := h
  obtain ⟨more, hmore⟩ := hlog
  refine ⟨items, hbody.mono hbodies, ?_⟩
  split at hstage
  · exact hstage
  · exact hstage
  · exact hstage
  · intro p hp
    rw [← hmore]
    exact (hstage p hp).append more
  · trivial

theorem Owned.mono {j : Nat} {q : UInt64} {d : Bytes} (h : Owned key base122 encoding s j q d)
    (hbodies : s.client.posts.map Post.body <+: s'.client.posts.map Post.body)
    (hhandlers : s'.handlers[j]? = s.handlers[j]?) (hacks : (j, .ok) ∈ s'.actor.acks → (j, .ok) ∈ s.actor.acks) :
    Owned key base122 encoding s' j q d := by
  obtain ⟨g, items, hget, hbody, hmem, hle, hcount, hstage, hnone⟩ := h
  exact ⟨g, items, hhandlers.trans hget, hbody.mono hbodies, hmem, hle, hcount, hstage,
    fun hack => hnone (hacks hack)⟩

end Growing

/-! ## Each step keeps it -/

section Keeps

variable {key : LessSafeKey} {base122 : Base122Fast} {encoding : EncodingType} {writeOk : Nat → Bool}
  {early : List SealedFrame} {remaining : Bytes} {now : Nat} {s s' : Path}

/-- **The actor receives something.**  A new `Ok` goes to a handler whose highest number is below
    `next_seq`, so to none that owns a frame in the map. -/
theorem Followed.received {e : Upload.Event} {actor : Upload.UploadActor}
    (hactor : run (Upload.step writeOk) (Upload.new 0 now) s.log = some s.actor)
    (hf : Followed key base122 encoding s) (hstep : Upload.step writeOk s.actor e = some actor)
    (hopening : s.opened = false →
      Upfront key base122 encoding { s with actor, log := s.log ++ [e] })
    (hsent : ∀ t m j, e = .recv t (.eos m j) →
      ∃ g, s.handlers[j]? = some g ∧ g.maxSeq = m ∧ g.stage.past = true)
    (hframe : ∀ r t q d, s.actor.phase = .reordering r → r.nextSeq < q → e = .recv t (.frame q d) →
      ∃ j, Owned key base122 encoding s j q d) :
    Followed key base122 encoding { s with actor, log := s.log ++ [e] } := by
  obtain ⟨r, hlive⟩ := (Upload.inv_run hactor).live (Upload.not_done_of_step hstep)
  have hturn := Upload.step_turn hlive.phase hstep
  have hall : ∀ m j, (m, j) ∈ Upload.eosOf (s.log ++ [e]) →
      ∃ g, s.handlers[j]? = some g ∧ g.maxSeq = m ∧ g.stage.past = true := by
    intro m j hmem
    rw [Upload.eosOf_append] at hmem
    rcases List.mem_append.mp hmem with hold | hnew
    · exact hf.sent m j hold
    · obtain ⟨e', he', heq⟩ := List.mem_filterMap.mp hnew
      obtain rfl := List.mem_singleton.mp he'
      split at heq
      · obtain ⟨rfl, rfl⟩ := Prod.mk.inj (Option.some.inj heq)
        exact hsent _ _ _ rfl
      · cases heq
  refine { opening := hopening, handlers := ?_, sent := hall, owned := ?_, finished := hf.finished }
  · intro g hg
    exact (hf.handlers g hg).mono List.prefix_rfl (List.prefix_append _ _)
  · intro r' hp' q d hlook
    have hrun : run (Upload.step writeOk) (Upload.new 0 now) (s.log ++ [e]) = some actor :=
      run_snoc_eq_some.mpr ⟨s.actor, hactor, hstep⟩
    have habove : r'.nextSeq < q := by
      refine (Upload.inBounds_run hrun r' hp').above q (AList.lookup_isSome.mp ?_)
      rw [hlook]
      rfl
    obtain ⟨j, howned⟩ : ∃ j, Owned key base122 encoding s j q d := by
      rcases Upload.pending_turn hturn hlive.phase hp' hlook with hold | ⟨hahead, t, he⟩
      · exact hf.owned r hlive.phase q d hold
      · exact hframe r t q d hlive.phase hahead he
    refine ⟨j, howned.mono List.prefix_rfl rfl fun hack => ?_⟩
    rcases Upload.oks_turn hturn hlive.phase hp' hack with hold | ⟨m, hpassed, heos⟩
    · exact hold
    · -- the owner's highest number would be below `next_seq`, and its frame above it
      exfalso
      have hmem : (m, j) ∈ Upload.eosOf (s.log ++ [e]) := by
        rcases heos with hwaits | ⟨t, rfl⟩
        · exact hlive.known_append e _ hwaits
        · rw [Upload.eosOf_eos]
          exact List.mem_append_right _ (List.mem_singleton_self _)
      obtain ⟨g, hget, rfl, -⟩ := hall m j hmem
      obtain ⟨g', items, hget', -, -, hle, -⟩ := howned
      obtain rfl := Option.some.inj (hget.symm.trans hget')
      have hlt : g.maxSeq < q := UInt64.lt_trans hpassed habove
      exact absurd (UInt64.lt_of_lt_of_le hlt hle) (UInt64.lt_irrefl _)

/-- A handler goes on. -/
theorem Followed.set_handler (hf : Followed key base122 encoding s) {j : Nat} {g g' : PostHandler}
    (hget : s.handlers[j]? = some g) (hopen : g.stage ≠ .responded true) (hpost : g'.post = g.post)
    (hmax : g.maxSeq ≤ g'.maxSeq) (hcount : g.frameCount ≠ 0 → g'.frameCount ≠ 0)
    (hprogress : Progress key base122 encoding s g')
    (hpast : g.stage.past = true → g'.maxSeq = g.maxSeq ∧ g'.stage.past = true)
    (hfree : g'.stage = .responded true → g.frameCount = 0 ∨ (j, .ok) ∈ s.actor.acks) :
    Followed key base122 encoding (s.setHandler j g') := by
  obtain ⟨hj, -⟩ := List.getElem?_eq_some_iff.mp hget
  have hself : (s.setHandler j g').handlers[j]? = some g' := List.getElem?_set_self hj
  have hother {k : Nat} (hk : k ≠ j) : (s.setHandler j g').handlers[k]? = s.handlers[k]? :=
    List.getElem?_set_ne (Ne.symm hk)
  refine { opening := ?_, handlers := ?_, sent := ?_, owned := ?_, finished := ?_ }
  · intro hclosed
    rw [(hf.opening hclosed).handlers] at hj
    exact absurd hj (Nat.not_lt_zero j)
  · intro k hk
    have hk' : Progress key base122 encoding s k := by
      rcases List.mem_or_eq_of_mem_set hk with hk | rfl
      · exact hf.handlers k hk
      · exact hprogress
    exact hk'.mono List.prefix_rfl List.prefix_rfl
  · intro m k hmem
    obtain ⟨h, hk, hm, hstage⟩ := hf.sent m k hmem
    by_cases hkj : k = j
    · subst hkj
      obtain rfl := Option.some.inj (hk.symm.trans hget)
      obtain ⟨hsame, hstage'⟩ := hpast hstage
      exact ⟨g', hself, hsame.trans hm, hstage'⟩
    · exact ⟨h, (hother hkj).trans hk, hm, hstage⟩
  · intro r hp q d hlook
    obtain ⟨k, howned⟩ := hf.owned r hp q d hlook
    refine ⟨k, ?_⟩
    by_cases hkj : k = j
    · subst hkj
      obtain ⟨h, items, hk, hbody, hmem, hle, hsome, -, hnone⟩ := howned
      obtain rfl := Option.some.inj (hk.symm.trans hget)
      refine ⟨g', items, hself, hpost ▸ hbody, hmem, UInt64.le_trans hle hmax, hcount hsome, ?_, hnone⟩
      intro hresponded
      rcases hfree hresponded with hzero | hack
      · exact hsome hzero
      · exact hnone hack
    · exact howned.mono List.prefix_rfl (hother hkj) id
  · intro i p hp hended
    obtain ⟨h, hmem, hpost', hstage⟩ := hf.finished i p hp hended
    obtain ⟨k, hk⟩ := List.getElem?_of_mem hmem
    have hkj : k ≠ j := by
      rintro rfl
      obtain rfl := Option.some.inj (hk.symm.trans hget)
      exact hopen hstage
    exact ⟨h, List.mem_of_getElem? ((hother hkj).trans hk), hpost', hstage⟩

/-- The client's loop goes on. -/
theorem Followed.client {client : UploadLoopActor} (hf : Followed key base122 encoding s)
    (hopened : s.opened = true) (hbodies : s.client.posts.map Post.body <+: client.posts.map Post.body)
    (hfinished : ∀ i p, client.posts[i]? = some p → p.outcome ≠ none →
      ∃ g ∈ s.handlers, g.post = i ∧ g.stage = .responded true) :
    Followed key base122 encoding { s with client } where
  opening hclosed := by
    have hclosed' : s.opened = false := hclosed
    exact absurd (hclosed'.symm.trans hopened) Bool.false_ne_true
  handlers g hg := (hf.handlers g hg).mono hbodies List.prefix_rfl
  sent := hf.sent
  owned r hp q d hlook := by
    obtain ⟨j, howned⟩ := hf.owned r hp q d hlook
    exact ⟨j, howned.mono hbodies rfl id⟩
  finished := hfinished

/-- A POST reaches the server. -/
theorem Followed.arrive {i : Nat} {inner : List Feed} {body : Bytes} {items : List (UInt64 × Bytes)}
    (hf : Followed key base122 encoding s)
    (hbody : (s.client.posts.map Post.body)[i]? = some body)
    (hitems : frames key base122 encoding body = (items, true)) (hcuts : Cuts inner body) :
    Followed key base122 encoding { s with handlers := s.handlers ++ [.new i inner] } := by
  have hold {j : Nat} {g : PostHandler} (hget : s.handlers[j]? = some g) :
      (s.handlers ++ [PostHandler.new i inner])[j]? = some g := by
    rw [List.getElem?_append_left (List.getElem?_eq_some_iff.mp hget).1, hget]
  refine { opening := ?_, handlers := ?_, sent := ?_, owned := ?_, finished := ?_ }
  · intro hclosed
    rw [(hf.opening hclosed).posts] at hbody
    cases hbody
  · intro g hg
    rcases List.mem_append.mp hg with hg | hg
    · exact (hf.handlers g hg).mono List.prefix_rfl List.prefix_rfl
    · obtain rfl := List.mem_singleton.mp hg
      have hdue : (PostHandler.new i inner).decoder.due = body := hcuts.2
      refine ⟨items, ⟨body, hbody, hitems⟩, ?_⟩
      show (∀ p ∈ items, p ∈ (frames key base122 encoding (PostHandler.new i inner).decoder.due).1 ∨ _) ∧
        (_ → items = (frames key base122 encoding (PostHandler.new i inner).decoder.due).1)
      rw [hdue, hitems]
      exact ⟨fun p hp => .inl hp, fun _ => rfl⟩
  · intro m j hmem
    obtain ⟨g, hget, hsent⟩ := hf.sent m j hmem
    exact ⟨g, hold hget, hsent⟩
  · intro r hp q d hlook
    obtain ⟨j, g, items, hget, howned⟩ := hf.owned r hp q d hlook
    exact ⟨j, g, items, hold hget, howned⟩
  · intro k p hp hended
    obtain ⟨g, hg, hdone⟩ := hf.finished k p hp hended
    exact ⟨g, List.mem_append_left _ hg, hdone⟩

/-- Where there is a handler, the first request has been answered. -/
theorem Followed.opened (hf : Followed key base122 encoding s) {j : Nat} {g : PostHandler}
    (hget : s.handlers[j]? = some g) : s.opened = true := by
  by_contra hne
  rw [(hf.opening (by simpa using hne)).handlers] at hget
  cases hget

/-- The next frame of a sequence, and the rest of it. -/
theorem next_item {d d' : FrameDecoder} {seq x : UInt64} {data : Bytes} {n : Nat}
    (hd : Decoder.Polling d)
    (hpoll : pollNext key base122 encoding MAX_FRAME_BUF_SIZE d = (.item seq data, d'))
    (hnext : (frames key base122 encoding d.due).1.map Prod.fst = (List.range n).map (seqAt x)) :
    seq = x ∧
      ∃ k, (frames key base122 encoding d'.due).1.map Prod.fst = (List.range k).map (seqAt (x + 1)) := by
  have hagree : Agrees key base122 encoding d.due _ := pollNext_agrees hd
  rw [hpoll] at hagree
  rw [hagree.2, List.map_cons] at hnext
  cases n with
  | zero => cases hnext
  | succ k =>
    rw [List.range_succ_eq_map, List.map_cons, List.map_map] at hnext
    obtain ⟨hseq, hrest⟩ := List.cons.inj hnext
    refine ⟨hseq.trans (seqAt_zero x), k, hrest.trans ?_⟩
    exact List.map_congr_left fun i _ => (seqAt_succ_left x i).symm

/-- The frame that the actor waits for, when the map is empty. -/
theorem turn_upfront {a b : Upload.UploadActor} {r r' : Upload.Reorder} {t : Nat} {data : Bytes}
    (ht : Upload.Turn writeOk a r (.recv t (.frame r.nextSeq data)) b)
    (hempty : ∀ q, r.pending.lookup q = none) (hp' : b.phase = .reordering r') :
    r'.nextSeq = r.nextSeq + 1 ∧ ∀ q, r'.pending.lookup q = none := by
  cases ht with
  | discard hdiscard =>
    rcases hdiscard with hlt | ⟨hlt, -⟩ <;> exact absurd hlt (UInt64.lt_irrefl _)
  | @drained _ _ r₁ a₁ hdr =>
    obtain ⟨ds, runs, hpops, -⟩ := Upload.drainLoop_spec writeOk { a with lastActivity := t } r data
    rw [hdr] at hpops
    obtain rfl := Upload.UploadPhase.reordering.inj hp'
    have hnone : r.bump.removeNext = none := by
      unfold Upload.Reorder.removeNext
      rw [Upload.bump_pending, hempty]
    cases hpops with
    | nil => exact ⟨rfl, hempty⟩
    | cons hr _ => cases hnone.symm.trans hr
  | stored habove => exact absurd habove (UInt64.lt_irrefl _)
  | failed => cases hp'
  | overflow => cases hp'
  | leave => cases hp'

/-- The events that no handler causes end the actor. -/
theorem phase_background {a b : Upload.UploadActor} {r : Upload.Reorder} {e : Upload.Event}
    (hback : background e = true) (ht : Upload.Turn writeOk a r e b) : b.phase = .closed := by
  cases ht with
  | leave => rfl
  | _ => cases hback

/-- The first request goes on. -/
theorem Upfront.waits {opening : FrameDecoder} (hu : Upfront key base122 encoding s)
    (hd : Decoder.Polling s.opening)
    (hpoll : pollNext key base122 encoding MAX_FRAME_BUF_SIZE s.opening = (.pending, opening)) :
    Upfront key base122 encoding { s with opening } where
  handlers := hu.handlers
  posts := hu.posts
  empty := hu.empty
  next r hp := by
    have hagree : Agrees key base122 encoding s.opening.due _ := pollNext_agrees hd
    rw [hpoll] at hagree
    show ∃ n, (frames key base122 encoding opening.due).1.map Prod.fst = _
    rw [hagree.2]
    exact hu.next r hp

theorem Upfront.passes {opening : FrameDecoder} {t : Nat} {seq : UInt64} {data : Bytes}
    {actor : Upload.UploadActor} (hu : Upfront key base122 encoding s) (hd : Decoder.Polling s.opening)
    (hpoll : pollNext key base122 encoding MAX_FRAME_BUF_SIZE s.opening = (.item seq data, opening))
    {r : Upload.Reorder} (hp : s.actor.phase = .reordering r)
    (hturn : Upload.Turn writeOk s.actor r (.recv t (.frame seq data)) actor) :
    Upfront key base122 encoding
      { s with opening, actor, log := s.log ++ [.recv t (.frame seq data)] } := by
  obtain ⟨n, hnext⟩ := hu.next r hp
  obtain ⟨rfl, k, hrest⟩ := next_item hd hpoll hnext
  refine ⟨hu.handlers, hu.posts, ?_, ?_⟩
  · intro r' hp'
    exact (turn_upfront hturn (hu.empty r hp) hp').2
  · intro r' hp'
    rw [(turn_upfront hturn (hu.empty r hp) hp').1]
    exact ⟨k, hrest⟩

/-- A handler that is not through is asked for the numbers of its frames. -/
theorem Followed.reading (h : Inv key base122 encoding writeOk early remaining now s)
    (hf : Followed key base122 encoding s) {j : Nat} {g : PostHandler}
    (hget : s.handlers[j]? = some g) (hreading : g.stage = .reading) :
    ∃ items, Body key base122 encoding s g.post items ∧ Passing key base122 encoding items s.log g.decoder ∧
      (∀ p ∈ items, p ∈ (frames key base122 encoding g.decoder.due).1 ∨ p.1 ≤ g.maxSeq) ∧
      (g.frameCount = 0 → items = (frames key base122 encoding g.decoder.due).1) := by
  obtain ⟨body, items, hbody, hitems, hpass⟩ := h.handlers g (List.mem_of_getElem? hget)
  obtain ⟨items', hbody', hnumbers⟩ := hf.handlers g (List.mem_of_getElem? hget)
  obtain rfl := hbody'.unique ⟨body, hbody, hitems⟩
  simp only [hreading] at hpass hnumbers
  exact ⟨items', hbody', hpass, hnumbers⟩

/-- A handler that reads has had no answer. -/
theorem Followed.unanswered (h : Inv key base122 encoding writeOk early remaining now s)
    (hf : Followed key base122 encoding s) {j : Nat} {g : PostHandler}
    (hget : s.handlers[j]? = some g) (hreading : g.stage = .reading) : (j, .ok) ∉ s.actor.acks := by
  intro hack
  obtain ⟨m, hmem, -⟩ := (Upload.inv_run h.actor).core.oks j hack
  obtain ⟨g', hget', -, hpast⟩ := hf.sent m j hmem
  obtain rfl := Option.some.inj (hget.symm.trans hget')
  rw [hreading] at hpast
  cases hpast

/-- **A handler passes a frame on**, and becomes its owner. -/
theorem Followed.passes (h : Inv key base122 encoding writeOk early remaining now s)
    (hf : Followed key base122 encoding s) {j t : Nat} {g : PostHandler} {seq : UInt64} {data : Bytes}
    {decoder : FrameDecoder} {actor : Upload.UploadActor} (hget : s.handlers[j]? = some g)
    (hreading : g.stage = .reading)
    (hpoll : pollNext key base122 encoding MAX_FRAME_BUF_SIZE g.decoder = (.item seq data, decoder))
    (hact : Upload.step writeOk s.actor (.recv t (.frame seq data)) = some actor) :
    Followed key base122 encoding
      { s.setHandler j { g with decoder, maxSeq := max g.maxSeq seq, frameCount := g.frameCount + 1 }
        with actor, log := s.log ++ [.recv t (.frame seq data)] } := by
  obtain ⟨items, hbody, hpass, hnumbers, -⟩ := hf.reading h hget hreading
  have hagree : Agrees key base122 encoding g.decoder.due _ := pollNext_agrees hpass.1
  rw [hpoll] at hagree
  have hmem : (seq, data) ∈ items := (hpass.item hpoll t).1
  have hmax : g.maxSeq ≤ max g.maxSeq seq ∧ seq ≤ max g.maxSeq seq := by
    show g.maxSeq ≤ (if g.maxSeq ≤ seq then seq else g.maxSeq) ∧
      seq ≤ (if g.maxSeq ≤ seq then seq else g.maxSeq)
    split
    · exact ⟨‹_›, UInt64.le_refl _⟩
    · rename_i hlt
      exact ⟨UInt64.le_refl _, UInt64.le_of_lt (UInt64.not_le.mp hlt)⟩
  have hset : Followed key base122 encoding
      (s.setHandler j { g with decoder, maxSeq := max g.maxSeq seq, frameCount := g.frameCount + 1 }) := by
    refine hf.set_handler hget (by simp [hreading]) rfl hmax.1 (fun _ => Nat.succ_ne_zero _) ?_
      (by simp [hreading, Stage.past]) (by simp [hreading])
    refine ⟨items, hbody, ?_⟩
    simp only [hreading]
    refine ⟨fun p hp => ?_, fun hzero => absurd hzero (Nat.succ_ne_zero _)⟩
    rcases hnumbers p hp with hdue | hle
    · rw [hagree.2] at hdue
      rcases List.mem_cons.mp hdue with rfl | hrest
      · exact .inr hmax.2
      · exact .inl hrest
    · exact .inr (UInt64.le_trans hle hmax.1)
  refine hset.received h.actor hact ?_ (fun t' m k heq => by cases heq) ?_
  · intro hclosed
    exact absurd (hclosed.symm.trans (hf.opened hget)) Bool.false_ne_true
  · intro r t' q d hphase hahead heq
    obtain ⟨rfl, rfl⟩ := Upload.UploadCmd.frame.inj (Upload.Event.recv.inj heq).2
    refine ⟨j, _, items, List.getElem?_set_self (List.getElem?_eq_some_iff.mp hget).1, hbody, hmem,
      hmax.2, Nat.succ_ne_zero _, ?_, hf.unanswered h hget hreading⟩
    simp [hreading]

/-- **Every step keeps it**, when no POST fails. -/
theorem followed_path (hkey : key.Lawful) (hb : base122.Lawful) {e : Event}
    (h : Inv key base122 encoding writeOk early remaining now s)
    (hf : Followed key base122 encoding s) (hunfailing : unfailing e = true)
    (hstep : step key base122 encoding writeOk s e = some s') : Followed key base122 encoding s' := by
  cases step_motion hstep with
  | openingWaits hopen hpoll =>
    exact { hf with opening := fun _ => (hf.opening hopen).waits (h.opening hopen).1 hpoll }
  | @openingPasses t seq data opening actor hopen hpoll hact =>
    obtain ⟨r, hlive⟩ := (Upload.inv_run h.actor).live (Upload.not_done_of_step hact)
    have hu := hf.opening hopen
    have hnext := hu.passes (h.opening hopen).1 hpoll hlive.phase (Upload.step_turn hlive.phase hact)
    refine { opening := fun _ => hnext, handlers := ?_, sent := ?_, owned := ?_, finished := ?_ }
    · intro g hg
      rw [hnext.handlers] at hg
      cases hg
    · intro m j hmem
      rw [Upload.eosOf_append] at hmem
      rcases List.mem_append.mp hmem with hold | hnew
      · exact hf.sent m j hold
      · cases hnew
    · intro r' hp' q d hlook
      cases (hnext.empty r' hp' q).symm.trans hlook
    · exact hf.finished
  | opens hopen hpoll =>
    refine { hf with opening := ?_ }
    intro hopened
    cases hopened
  | @loop e client hopened hown hclient =>
    refine hf.client hopened (grows_step hclient).bodies ?_
    intro i p hp hended
    rcases ended_of_moves (step_moves hclient) hp hended with ⟨q, hq, hbefore⟩ | ⟨outcome, rfl⟩
    · exact hf.finished i q hq hbefore
    · cases hown
  | @arrives i inner post hpost hcuts =>
    have hbody : (s.client.posts.map Post.body)[i]? = some post.body := by
      rw [List.getElem?_map, hpost, Option.map_some]
    obtain ⟨fs, hfs, -⟩ := frames_body hkey hb h.client (List.mem_of_getElem? hbody)
    exact hf.arrive hbody hfs hcuts
  | @waits j t g decoder hget hreading hpoll =>
    obtain ⟨items, hbody, hpass, hnumbers⟩ := hf.reading h hget hreading
    have hagree : Agrees key base122 encoding g.decoder.due _ := pollNext_agrees hpass.1
    rw [hpoll] at hagree
    refine hf.set_handler hget (by simp [hreading]) rfl (UInt64.le_refl _) id ⟨items, hbody, ?_⟩
      (by simp [hreading, Stage.past]) (by simp [hreading])
    simp only [hreading, hagree.2]
    exact hnumbers
  | passes hget hreading hpoll hact => exact hf.passes h hget hreading hpoll hact
  | @fails j t g e decoder hget hreading hpoll =>
    obtain ⟨items, hbody, -⟩ := hf.reading h hget hreading
    exact hf.set_handler hget (by simp [hreading]) rfl (UInt64.le_refl _) id ⟨items, hbody, trivial⟩
      (by simp [hreading, Stage.past]) (by simp)
  | @finishes j t g decoder hget hreading hpoll =>
    obtain ⟨items, hbody, hpass, hnumbers, hnone⟩ := hf.reading h hget hreading
    have hdue : frames key base122 encoding g.decoder.due = ([], true) := by
      have hagree : Agrees key base122 encoding g.decoder.due _ := pollNext_agrees hpass.1
      rw [hpoll] at hagree
      exact hagree
    rw [hdue] at hnumbers hnone
    by_cases hzero : g.frameCount = 0
    · refine hf.set_handler hget (by simp [hreading]) rfl (UInt64.le_refl _) id ⟨items, hbody, ?_⟩
        (by simp [hreading, Stage.past]) (fun _ => .inl hzero)
      simp only [hzero, if_true, hnone hzero]
      exact fun p hp => absurd hp List.not_mem_nil
    · refine hf.set_handler hget (by simp [hreading]) rfl (UInt64.le_refl _) id ⟨items, hbody, ?_⟩
        (by simp [hreading, Stage.past]) (by simp [hzero])
      simp only [hzero, if_false]
      exact fun p hp => (hnumbers p hp).resolve_left List.not_mem_nil
  | @sendsEos j t g actor hget hclosing hact =>
    obtain ⟨items, hbody, hnumbers⟩ := hf.handlers g (List.mem_of_getElem? hget)
    simp only [hclosing] at hnumbers
    have hset : Followed key base122 encoding (s.setHandler j { g with stage := .waiting }) :=
      hf.set_handler hget (by simp [hclosing]) rfl (UInt64.le_refl _) id ⟨items, hbody, hnumbers⟩
        (by simp [hclosing, Stage.past]) (by simp)
    refine hset.received h.actor hact ?_ ?_ (fun r t' q d hphase hahead heq => by cases heq)
    · intro hclosed
      exact absurd (hclosed.symm.trans (hf.opened hget)) Bool.false_ne_true
    · intro t' m k heq
      obtain ⟨rfl, rfl⟩ := Upload.UploadCmd.eos.inj (Upload.Event.recv.inj heq).2
      exact ⟨_, List.getElem?_set_self (List.getElem?_eq_some_iff.mp hget).1, rfl, rfl⟩
  | @answers j g answer hget hwaiting hlookup =>
    obtain ⟨items, hbody, hnumbers⟩ := hf.handlers g (List.mem_of_getElem? hget)
    simp only [hwaiting] at hnumbers
    obtain ⟨l₁, l₂, hacks, -⟩ := List.lookup_eq_some_iff.mp hlookup
    have hanswered : (j, answer) ∈ s.actor.acks := by
      rw [hacks]
      exact List.mem_append_right _ List.mem_cons_self
    refine hf.set_handler hget (by simp [hwaiting]) rfl (UInt64.le_refl _) id ⟨items, hbody, ?_⟩
      (fun _ => ⟨rfl, rfl⟩) ?_
    · by_cases hok : answer = .ok
      · -- all up to the handler's highest number has been written, hence received
        subst hok
        obtain ⟨m, hmem, hreached⟩ := (Upload.inv_run h.actor).core.oks j hanswered
        obtain ⟨g', hget', rfl, -⟩ := hf.sent m j hmem
        obtain rfl := Option.some.inj (hget.symm.trans hget')
        simp only [decide_true]
        intro p hp q' hle
        obtain ⟨d, hd, -⟩ := hreached q' UInt64.zero_le (UInt64.le_trans hle (hnumbers p hp))
        obtain ⟨l₁, l₂, hsplit, -⟩ := List.lookup_eq_some_iff.mp hd
        exact ⟨d, by rw [hsplit]; exact List.mem_append_right _ List.mem_cons_self⟩
      · simp only [hok, decide_false]
    · intro hresponded
      have hok : answer = .ok := by simpa using hresponded
      exact .inr (hok ▸ hanswered)
  | @givesUp j g hget hnot =>
    obtain ⟨items, hbody, -⟩ := hf.handlers g (List.mem_of_getElem? hget)
    exact hf.set_handler hget (hnot true) rfl (UInt64.le_refl _) id ⟨items, hbody, trivial⟩
      (fun _ => ⟨rfl, rfl⟩) (by simp)
  | @succeeds j g client hget hstage hclient =>
    refine hf.client (hf.opened hget) (grows_step hclient).bodies ?_
    intro i p hp hended
    rcases ended_of_moves (step_moves hclient) hp hended with ⟨q, hq, hbefore⟩ | ⟨outcome, heq⟩
    · exact hf.finished i q hq hbefore
    · exact ⟨g, List.mem_of_getElem? hget, (UploadLoop.Event.ended.inj heq).1, hstage⟩
  | breaks => cases hunfailing
  | @apart e actor hback hact =>
    obtain ⟨r, hlive⟩ := (Upload.inv_run h.actor).live (Upload.not_done_of_step hact)
    have hclosed := phase_background hback (Upload.step_turn hlive.phase hact)
    refine hf.received h.actor hact ?_ ?_ ?_
    · intro hopen
      have hu := hf.opening hopen
      refine ⟨hu.handlers, hu.posts, ?_, ?_⟩ <;> exact fun r' hp => by cases hclosed.symm.trans hp
    · rintro t m j rfl
      cases hback
    · rintro r' t q d hphase hahead rfl
      cases hback

end Keeps

/-! ## Whose frames are in the map -/

section Running

variable {key : LessSafeKey} {base122 : Base122Fast} {encoding : EncodingType} {writeOk : Nat → Bool}
  {early : List SealedFrame} {remaining : Bytes} {now : Nat} {s s' : Path}

/-- **A frame ahead of `next_seq` belongs to a POST in flight**, as long as its handler has not answered
    with a success: another handler of the POST that has would mean that the frame was received before. -/
theorem Followed.running (hearly : Carried key base122 encoding 0 early)
    (h : Inv key base122 encoding writeOk early remaining now s)
    (hf : Followed key base122 encoding s)
    (honce : (s.handlers.map PostHandler.post).Nodup ∨
      (early ++ s.client.shaped.frames).length < 2 ^ 64)
    {r : Upload.Reorder} (hphase : s.actor.phase = .reordering r) {g : PostHandler}
    (hg : g ∈ s.handlers) (hopen : g.stage ≠ .responded true) {items : List (UInt64 × Bytes)}
    (hbody : Body key base122 encoding s g.post items) {q : UInt64} {d : Bytes} (hmem : (q, d) ∈ items)
    (hahead : r.nextSeq < q) :
    ∃ p ∈ inFlight s.client.posts, (q, d) ∈ (frames key base122 encoding p.body).1 := by
  obtain ⟨body, hat, hitems⟩ := id hbody
  rw [List.getElem?_map, Option.map_eq_some_iff] at hat
  obtain ⟨p, hp, rfl⟩ := hat
  refine ⟨p, List.mem_filter.mpr ⟨List.mem_of_getElem? hp, Option.isNone_iff_eq_none.mpr ?_⟩, ?_⟩
  · by_contra hended
    obtain ⟨g', hg', hpost, hdone⟩ := hf.finished g.post p hp hended
    rcases honce with hdistinct | hfresh
    · have hsame : g' = g := List.inj_on_of_nodup_map hdistinct hg' hg hpost
      exact hopen (hsame ▸ hdone)
    · obtain ⟨items', hbody', hstage⟩ := hf.handlers g' hg'
      rw [hpost] at hbody'
      obtain rfl := hbody'.unique hbody
      simp only [hdone] at hstage
      have halive : s.actor.done = false := by
        by_contra hne
        have hclosed := (Upload.inv_run h.actor).closed (by simpa using hne)
        cases hphase.symm.trans hclosed
      obtain ⟨r', hlive, hgap⟩ := h.gap hearly hfresh halive
      obtain rfl := Upload.UploadPhase.reordering.inj (hphase.symm.trans hlive.phase)
      obtain ⟨d', hreceived⟩ := hstage _ hmem r.nextSeq (UInt64.le_of_lt hahead)
      have hne := List.lookup_eq_none_iff.mp hgap _ hreceived
      simp at hne
  · rw [hitems]
    exact hmem

/-- **A frame that arrives ahead of `next_seq`** comes from a handler that is reading: the early data is
    in sequence. -/
theorem Followed.arriving (h : Inv key base122 encoding writeOk early remaining now s)
    (hf : Followed key base122 encoding s) {e : Event} {t : Nat} {seq : UInt64} {data : Bytes}
    (hstep : step key base122 encoding writeOk s e = some s')
    (hlog : s'.log = s.log ++ [.recv t (.frame seq data)]) {r : Upload.Reorder}
    (hphase : s.actor.phase = .reordering r) (hahead : r.nextSeq < seq) :
    ∃ g ∈ s.handlers, g.stage ≠ .responded true ∧
      ∃ items, Body key base122 encoding s g.post items ∧ (seq, data) ∈ items := by
  have hsame {e' : Upload.Event} (heq : s.log ++ [e'] = s.log ++ [.recv t (.frame seq data)]) :
      e' = .recv t (.frame seq data) := by
    simpa using heq
  have hquiet (heq : s.log = s.log ++ [.recv t (.frame seq data)]) : False := by simp at heq
  cases step_motion hstep with
  | @openingPasses _ _ _ _ _ hopen hpoll hact =>
    cases hsame hlog
    obtain ⟨n, hnext⟩ := (hf.opening hopen).next r hphase
    obtain ⟨rfl, -⟩ := next_item (h.opening hopen).1 hpoll hnext
    exact absurd hahead (UInt64.lt_irrefl _)
  | @passes j _ g _ _ decoder actor hget hreading hpoll hact =>
    cases hsame hlog
    obtain ⟨items, hbody, hpass, -⟩ := hf.reading h hget hreading
    exact ⟨g, List.mem_of_getElem? hget, by simp [hreading], items, hbody, (hpass.item hpoll t).1⟩
  | sendsEos => cases hsame hlog
  | apart hback hact =>
    cases hsame hlog
    cases hback
  | _ => exact (hquiet hlog).elim

/-! ## Counting -/

/-- Different frames of bodies in flight have no more data than these bodies have bytes. -/
theorem sum_le_inFlight {posts : List Post} {l : List (UInt64 × Bytes)} (hnodup : l.Nodup)
    (hin : ∀ x ∈ l, ∃ p ∈ inFlight posts, x ∈ (frames key base122 encoding p.body).1)
    (hbody : ∀ p ∈ posts,
      ((frames key base122 encoding p.body).1.map fun x => x.2.length).sum ≤ p.body.length) :
    (l.map fun x => x.2.length).sum ≤ ((inFlight posts).map fun p => p.body.length).sum := by
  have hsub : l ⊆ (inFlight posts).flatMap fun p => (frames key base122 encoding p.body).1 := by
    intro x hx
    exact List.mem_flatMap.mpr (hin x hx)
  obtain ⟨l', hperm, hsublist⟩ := hnodup.subperm hsub
  calc (l.map fun x => x.2.length).sum
      = (l'.map fun x => x.2.length).sum := ((hperm.map _).sum_eq).symm
    _ ≤ (((inFlight posts).flatMap fun p => (frames key base122 encoding p.body).1).map
          fun x => x.2.length).sum :=
        (hsublist.map _).sum_le_sum fun _ _ => Nat.zero_le _
    _ = ((inFlight posts).map fun p =>
          ((frames key base122 encoding p.body).1.map fun x => x.2.length).sum).sum := by
        rw [List.map_flatMap, List.flatMap_def, List.sum_flatten, List.map_map]
        rfl
    _ ≤ ((inFlight posts).map fun p => p.body.length).sum :=
        List.sum_le_sum fun p hp => hbody p (List.mem_of_mem_filter hp)

/-- A body is not shorter than the data of its frames. -/
theorem Inv.data_le (hkey : key.Lawful) (hb : base122.Lawful) (hseven : base122.SevenBit)
    (h : Inv key base122 encoding writeOk early remaining now s) :
    ∀ p ∈ s.client.posts,
      ((frames key base122 encoding p.body).1.map fun x => x.2.length).sum ≤ p.body.length := by
  intro p hp
  obtain ⟨batchBuf, ⟨groups, cur, hframes, hbodies, -, -⟩, -⟩ := h.client.batches
  have hbody : p.body ∈ s.client.posts.map Post.body := List.mem_map_of_mem hp
  rw [hbodies] at hbody
  obtain ⟨fs, hfs, hbytes⟩ := List.mem_map.mp hbody
  have hcarried : ∀ f ∈ fs, ∃ padding, Carries key base122 encoding f.bytes f.seq f.data padding := by
    intro f hf
    refine (h.client.conserved.carried f ?_).2
    rw [← hframes]
    exact List.mem_append_left _ (List.mem_flatten.mpr ⟨fs, hfs, hf⟩)
  rw [← hbytes, frames_bytesOf hkey hb hcarried]
  simp only [itemsOf, bytesOf, List.map_map, List.length_flatten]
  apply List.sum_le_sum
  intro f hf
  obtain ⟨padding, hcarries⟩ := hcarried f hf
  exact hcarries.data_le hkey hseven

/-- **Room for the next frame**: what is in the map and the frame that arrives are different frames of
    bodies in flight. -/
theorem Followed.room (hkey : key.Lawful) (hb : base122.Lawful) (hseven : base122.SevenBit)
    (hearly : Carried key base122 encoding 0 early)
    (h : Inv key base122 encoding writeOk early remaining now s)
    (hf : Followed key base122 encoding s)
    (honce : (s.handlers.map PostHandler.post).Nodup ∨
      (early ++ s.client.shaped.frames).length < 2 ^ 64)
    {r : Upload.Reorder} (hphase : s.actor.phase = .reordering r) :
    (∀ q d, r.pending.lookup q = some d →
      ∃ p ∈ inFlight s.client.posts, (q, d) ∈ (frames key base122 encoding p.body).1) ∧
    ∀ e s' t seq data, step key base122 encoding writeOk s e = some s' →
      s'.log = s.log ++ [.recv t (.frame seq data)] → r.nextSeq < seq → r.pending.lookup seq = none →
      r.pendingBytes + data.length ≤ ((inFlight s.client.posts).map fun p => p.body.length).sum := by
  have hbuffered := Upload.inBounds_run h.actor r hphase
  have hkept : ∀ q d, r.pending.lookup q = some d →
      ∃ p ∈ inFlight s.client.posts, (q, d) ∈ (frames key base122 encoding p.body).1 := by
    intro q d hlook
    obtain ⟨j, g, items, hget, hbody, hmem, -, -, hopen, -⟩ := hf.owned r hphase q d hlook
    have hahead : r.nextSeq < q := by
      refine hbuffered.above q (AList.lookup_isSome.mp ?_)
      rw [hlook]
      rfl
    exact hf.running hearly h honce hphase (List.mem_of_getElem? hget) hopen hbody hmem hahead
  refine ⟨hkept, ?_⟩
  intro e s' t seq data hstep hlog hahead hnew
  obtain ⟨g, hg, hopen, items, hbody, hmem⟩ := hf.arriving h hstep hlog hphase hahead
  have hcoming := hf.running hearly h honce hphase hg hopen hbody hmem hahead
  let held := r.pending.entries.map fun entry => (entry.1, entry.2)
  have hkeys : held.map Prod.fst = r.pending.keys := by
    rw [List.map_map]
    rfl
  have hnodup : ((seq, data) :: held).Nodup := by
    refine List.Nodup.of_map Prod.fst ?_
    rw [List.map_cons, hkeys]
    exact List.nodup_cons.mpr ⟨AList.lookup_eq_none.mp hnew, r.pending.keys_nodup⟩
  have hsum := sum_le_inFlight hnodup ?_ (h.data_le hkey hb hseven)
  · have htotal : (held.map fun x => x.2.length).sum = r.pendingBytes := by
      rw [hbuffered.bytes, List.map_map]
      rfl
    rw [List.map_cons, List.sum_cons, htotal] at hsum
    rw [Nat.add_comm]
    exact hsum
  · intro x hx
    rcases List.mem_cons.mp hx with rfl | hx
    · exact hcoming
    · obtain ⟨entry, hentry, rfl⟩ := List.mem_map.mp hx
      exact hkept _ _ (AList.mem_lookup_iff.mpr hentry)

end Running

/-! ## Every run -/

section Run

variable {key : LessSafeKey} {base122 : Base122Fast} {encoding : EncodingType} {writeOk : Nat → Bool}
  {s s' : Path}

/-- No POST is there twice. -/
theorem distinct_path {e : Event} (h : (s.handlers.map PostHandler.post).Nodup)
    (horderly : orderly s e = true) (hstep : step key base122 encoding writeOk s e = some s') :
    (s'.handlers.map PostHandler.post).Nodup := by
  have hset {j : Nat} {g g' : PostHandler} (hget : s.handlers[j]? = some g) (hpost : g'.post = g.post) :
      ((s.setHandler j g').handlers.map PostHandler.post).Nodup := by
    rw [posts_setHandler hget hpost]
    exact h
  cases step_motion hstep with
  | @arrives i inner post hpost hcuts =>
    have hfirst : i ∉ s.handlers.map PostHandler.post := by simpa [orderly] using horderly
    rw [List.map_append, List.map_singleton]
    refine List.nodup_append.mpr ⟨h, List.nodup_singleton _, fun a ha b hb hab => hfirst ?_⟩
    obtain rfl : b = i := List.mem_singleton.mp hb
    exact hab ▸ ha
  | waits hget => exact hset hget rfl
  | passes hget => exact hset hget rfl
  | fails hget => exact hset hget rfl
  | finishes hget => exact hset hget rfl
  | sendsEos hget => exact hset hget rfl
  | answers hget => exact hset hget rfl
  | givesUp hget => exact hset hget rfl
  | _ => exact h

theorem bounded_path {config : ResolvedShaperConfig} {startSeq : UInt64} {payload : Bytes}
    {uploadConcurrency maxInFlightBytes : Nat} (hseal : key.NeverFails) (hkey : key.Lawful)
    (hshort : base122.Short) {e : Event}
    (h : Bounded key base122 config startSeq payload
      (limitsOf config uploadConcurrency maxInFlightBytes) s.client)
    (hstep : step key base122 encoding writeOk s e = some s') :
    Bounded key base122 config startSeq payload
      (limitsOf config uploadConcurrency maxInFlightBytes) s'.client := by
  rcases client_of_step hstep with hsame | ⟨e', hclient⟩
  · rwa [hsame]
  · exact bounded_step hseal hkey hshort (Nat.lt_of_lt_of_le Nat.zero_lt_one (Nat.le_max_right _ _)) h
      hclient

theorem followed_start (hkey : key.Lawful) (hb : base122.Lawful) {early : List SealedFrame}
    (hearly : Carried key base122 encoding 0 early) {opening : List Feed}
    (hcuts : Cuts opening (bytesOf early)) {client : UploadLoopActor} (hposts : client.posts = [])
    (now : Nat) : Followed key base122 encoding (.start client opening now) where
  opening _ := by
    refine ⟨rfl, hposts, ?_, ?_⟩
    · rintro r ⟨⟩ q
      rfl
    · rintro r ⟨⟩
      have hdue : (FrameDecoder.new opening).due = bytesOf early := hcuts.2
      refine ⟨early.length, ?_⟩
      show (frames key base122 encoding (FrameDecoder.new opening).due).1.map Prod.fst = _
      rw [hdue, frames_bytesOf hkey hb fun f hf => (hearly.carries f hf).2, itemsOf, List.map_map]
      exact hearly.seqs
  handlers _ hmem := absurd hmem List.not_mem_nil
  sent _ _ hmem := absurd hmem List.not_mem_nil
  owned := by
    rintro r ⟨⟩ q d hlook
    cases hlook
  finished i p hp _ := by
    have hat : client.posts[i]? = some p := hp
    rw [hposts] at hat
    cases hat

end Run

/-- **An honest client cannot overflow the reorder bytes.**

    For every configuration that `build_state` accepts with `max_in_flight_bytes` at most 2 MiB, every
    input and every order in which the POSTs and their frames reach the server, when no POST fails, and
    either none reaches the server twice or there are fewer than `2^64` bytes: whenever `handle_frame`
    computes `pending_bytes + len`, it is at most `MAX_PENDING_BYTES`.  For each frame in the map is in the
    body of a POST whose 204 has not been received, and these bodies sum to at most
    `max_in_flight_bytes`. -/
theorem reorder_bytes_bounded (key : LessSafeKey) (base122 : Base122Fast) (hkey : key.Lawful)
    (hseal : key.NeverFails) (hb : base122.Lawful) (hseven : base122.SevenBit)
    (maxInFlight concurrency : Option Nat) (maxInFlightBytes uploadConcurrency : Nat)
    (hbuild : buildState maxInFlight concurrency = .ok (maxInFlightBytes, uploadConcurrency))
    (hmax : maxInFlightBytes ≤ 2 * 1024 * 1024) (config : ResolvedShaperConfig) (draw : UInt64 → Draw)
    (initial : Bytes) (random now : Nat) (writeOk : Nat → Bool) :
    ∃ body remaining framesSent,
      encodeInitialPayload key base122 config draw initial MAX_RAW_PAYLOAD =
        .ok (body, remaining, framesSent) ∧
      ∀ (opening : List Feed) (es : List Event) (s : Path), Cuts opening body →
        let path := Path.start
          (.new config uploadConcurrency maxInFlightBytes remaining framesSent random) opening now
        run (step key base122 config.encoding writeOk) path es = some s →
        Meets (step key base122 config.encoding writeOk) (fun _ e => unfailing e = true) path es →
        (Meets (step key base122 config.encoding writeOk) (fun s e => orderly s e = true) path es ∨
          initial.length + s.client.socket.length < 2 ^ 64) →
        ((inFlight s.client.posts).map fun p => p.body.length).sum ≤ maxInFlightBytes ∧
        ∀ r, s.actor.phase = .reordering r →
          (∀ q d, r.pending.lookup q = some d →
            ∃ p ∈ inFlight s.client.posts, (q, d) ∈ (frames key base122 config.encoding p.body).1) ∧
          ∀ e s' t seq data, step key base122 config.encoding writeOk s e = some s' →
            s'.log = s.log ++ [.recv t (.frame seq data)] → r.nextSeq < seq →
            r.pending.lookup seq = none → r.pendingBytes + data.length ≤ Upload.MAX_PENDING_BYTES := by
  obtain ⟨early, remaining, hencoded, hinitial, hearly⟩ :=
    encodeInitialPayload_spec hseal initial MAX_RAW_PAYLOAD
  refine ⟨bytesOf early, remaining, seqAt 0 early.length, hencoded, ?_⟩
  intro opening es s hcuts path hrun hunfailing honce
  obtain ⟨hmin, -⟩ := buildState_ok hbuild
  let P (s : Path) : Prop := Inv key base122 config.encoding writeOk early remaining now s ∧
    Followed key base122 config.encoding s ∧
    Bounded key base122 config (seqAt 0 early.length) remaining
      (limitsOf config uploadConcurrency maxInFlightBytes) s.client
  have hP : P s := by
    refine run_invariant_of_meets (P := P) (fun s e t hs hG hstep => ?_) es path s ⟨?_, ?_, ?_⟩
      hunfailing hrun
    · obtain ⟨hinv, hfollowed, hbounded⟩ := hs
      refine ⟨inv_path hkey hseal hb hinv hstep, followed_path hkey hb hinv hfollowed hG hstep, ?_⟩
      exact bounded_path hseal hkey hb.short hbounded hstep
    · exact inv_start hkey hb hearly hcuts writeOk remaining uploadConcurrency maxInFlightBytes random now
    · exact followed_start hkey hb hearly hcuts rfl now
    · exact bounded_new uploadConcurrency maxInFlightBytes random
  obtain ⟨hinv, hfollowed, hbounded⟩ := hP
  have hsum := hbounded.in_flight_le hmin
  refine ⟨hsum, fun r hphase => ?_⟩
  have honce' : (s.handlers.map PostHandler.post).Nodup ∨
      (early ++ s.client.shaped.frames).length < 2 ^ 64 := by
    rcases honce with horderly | hsize
    · refine .inl (run_invariant_of_meets (P := fun s => (s.handlers.map PostHandler.post).Nodup)
        (fun _ _ _ h hG hstep => distinct_path h hG hstep) es path s List.nodup_nil horderly hrun)
    · exact .inr (Nat.lt_of_le_of_lt (hinv.frames_le hearly hinitial) hsize)
  obtain ⟨hkept, hroom⟩ := hfollowed.room hkey hb hseven hearly hinv honce' hphase
  refine ⟨hkept, fun e s' t seq data hstep hlog hahead hnew => ?_⟩
  have hle := hroom e s' t seq data hstep hlog hahead hnew
  have hlimit : Upload.MAX_PENDING_BYTES = 2 * 1024 * 1024 := rfl
  omega

/-- The second of two POSTs reaches the server first. -/
def reorderEvents : List Event := waiterEvents.take 14

/-- What is read off a step: the logs, the number the actor waits for, and whether the frame 1 is there. -/
def reorderSummary (s s' : Path) : List Upload.Event × List Upload.Event × Option (UInt64 × Bool) :=
  (s.log, s'.log,
    match s.actor.phase with
    | .reordering r => some (r.nextSeq, (r.pending.lookup 1).isNone)
    | _ => none)

theorem reorder_bytes_bounded_demo :
    ∃ s s' r, run (step uploadKey publishedBase122 .binary fun _ => true)
        (.start (.new demoConfig 128 2097152 [] 0 0) [] 0) reorderEvents = some s ∧
      step uploadKey publishedBase122 .binary (fun _ => true) s (.poll 0 2) = some s' ∧
      s'.log = [.recv 2 (.frame 1 [2])] ∧ s.actor.phase = .reordering r ∧
      r.pendingBytes + [(2 : UInt8)].length ≤ Upload.MAX_PENDING_BYTES := by
  have hkey : uploadKey.Lawful := streamKey_lawful (by decide)
  obtain ⟨body, remaining, framesSent, hencoded, hpath⟩ :=
    reorder_bytes_bounded uploadKey publishedBase122 hkey (streamKey_neverFails _)
      publishedBase122_lawful publishedBase122_sevenBit none none 2097152 128 rfl (by decide)
      demoConfig (fun _ => demoDraw) [] 0 0 (fun _ => true)
  have hearly : (encodeInitialPayload uploadKey publishedBase122 demoConfig (fun _ => demoDraw) []
      MAX_RAW_PAYLOAD).toOption = some ([], [], 0) := by decide +kernel
  rw [hencoded, Except.toOption, Option.some.injEq, Prod.mk.injEq, Prod.mk.injEq] at hearly
  obtain ⟨rfl, rfl, rfl⟩ := hearly
  have heval : ((run (step uploadKey publishedBase122 .binary fun _ => true)
      (.start (.new demoConfig 128 2097152 [] 0 0) [] 0) reorderEvents).bind fun s =>
        (step uploadKey publishedBase122 .binary (fun _ => true) s (.poll 0 2)).map fun s' =>
          reorderSummary s s') =
      some ([], [.recv 2 (.frame 1 [2])], some (0, true)) := by decide +kernel
  obtain ⟨s, hrun, hsummary⟩ := Option.bind_eq_some_iff.mp heval
  obtain ⟨s', hstep, hs⟩ := Option.map_eq_some_iff.mp hsummary
  obtain ⟨hbefore, hrest⟩ := Prod.mk.inj hs
  obtain ⟨hlog, hphase⟩ := Prod.mk.inj hrest
  have hunfailing : Meets (step uploadKey publishedBase122 .binary fun _ => true)
      (fun _ e => unfailing e = true) (.start (.new demoConfig 128 2097152 [] 0 0) [] 0)
      reorderEvents := by decide +kernel
  have horderly : Meets (step uploadKey publishedBase122 .binary fun _ => true)
      (fun s e => orderly s e = true) (.start (.new demoConfig 128 2097152 [] 0 0) [] 0)
      reorderEvents := by decide +kernel
  obtain ⟨-, hreorder⟩ := hpath [] reorderEvents s ⟨fun e => List.not_mem_nil, rfl⟩ hrun hunfailing
    (.inl horderly)
  cases hp : s.actor.phase with
  | reordering r =>
    rw [hp] at hphase
    obtain ⟨hnext, hnone⟩ := Prod.mk.inj (Option.some.inj hphase)
    refine ⟨s, s', r, hrun, hstep, hlog, hp, ?_⟩
    refine (hreorder r hp).2 (.poll 0 2) s' 2 1 [2] hstep ?_ ?_ (Option.isNone_iff_eq_none.mp hnone)
    · rw [hbefore, hlog]
      rfl
    · rw [hnext]
      decide
  | draining ws =>
    rw [hp] at hphase
    cases hphase
  | closed =>
    rw [hp] at hphase
    cases hphase

end Httproxy.UploadPath
