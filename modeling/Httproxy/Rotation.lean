/-
  Rotation: the client reads the server's one download stream through a chain of responses.

  Both ends use the same `max_download_bytes` and each applies the limit on its own: the server
  parks the shaper when a segment's count reaches it, the client asks for the next segment when the
  body's count reaches it.  With a client that keeps its replies open and has at most one
  `Continue` outstanding (`Honest`), whatever the interleaving:

  1. **Nothing is lost or repeated** — the bodies of the successive segments, followed by what is
     still in the shaper, are the shaper's frames in order; `None` is answered, and the loop left,
     only when everything has been delivered.

  2. **Segments end at the limit** — a segment that parked the shaper has reached the limit with
     its last frame and not before.

  3. **Both ends agree** — `do_streaming` rotates, on the same body bytes cut in any way, exactly
     when the server parked the shaper.

  The invariant is `Whole`: it follows the shaper from slot to segment and back, on top of the
  ownership invariant of `Server/TunnelOwner`.
-/
import Httproxy.Client.Download
import Httproxy.Server.TunnelReplies
import Httproxy.Shaper.Traffic

namespace Httproxy.Tunnel

open Machine

/-! ## The client's side of a run -/

/-- What an honest client and a quiet environment do: bodies are read to their end before they are
    dropped, a `Continue` comes with an open reply and only when none is outstanding, nothing times
    out or shuts down. -/
def honest (t : TunnelState) : Event → Bool
  | .release i => t.segments[i]?.all fun g => g.ended
  | .cmd (.continue r) => decide (r.receiver = .open) && t.pendingContinue.isEmpty
  | .idleSleep => decide (t.clock - t.lastActivity < STREAM_IDLE_TIMEOUT_SECS)
  | .cmd .shutdown | .cmdClosed | .rotationTimeout | .shutdownSignal => false
  | .tick _ | .segmentDone | .poll _ _ | .notify | .direct _ | .upload => true

def Honest (t : TunnelState) (e : Event) : Prop := honest t e = true

instance (t : TunnelState) (e : Event) : Decidable (Honest t e) :=
  inferInstanceAs (Decidable (_ = _))

theorem honest_careful {t : TunnelState} {e : Event} (h : Honest t e) : Careful t e := by
  unfold Honest at h
  cases e with
  | cmd c =>
    cases c with
    | shutdown => rfl
    | «continue» r =>
      have hr : r.receiver = .open := by
        simp only [honest, Bool.and_eq_true, decide_eq_true_eq] at h
        exact h.1
      simp [Careful, strands, hr]
  | _ => rfl

/-! ## Segments and the limit -/

/-- A body that reached the limit with its last frame. -/
def Full (m : UInt64) (body : List Bytes) : Prop :=
  ∃ init last, body = init ++ [last] ∧ m ≤ Bytes.count body ∧ (init = [] ∨ Bytes.count init < m)

/-- A body that stayed below the limit. -/
def Short (m : UInt64) (body : List Bytes) : Prop := body = [] ∨ Bytes.count body < m

/-- A segment of a stream of frames, polled by a reader and not cancelled. -/
structure SegOk (m : UInt64) (g : Segment) : Prop where
  max : g.maxBytes = some m
  sent : g.sent = Bytes.count g.body
  going : g.ended = false → g.pauseOnDrop = false ∧ Short m g.body
  paused : g.pauseOnDrop = true → Full m g.body
  eof : g.ended = true → g.pauseOnDrop = false → g.shaper = some [] ∧ Short m g.body

theorem segOk_new (m : UInt64) (shaper : Shaper) : SegOk m (Segment.new shaper (some m)) := by
  refine ⟨rfl, rfl, fun _ => ⟨rfl, .inl rfl⟩, ?_, ?_⟩
  · intro h
    cases h
  · intro h
    cases h

/-- What polling a segment of a frame stream does: nothing, end at EOF, or emit the next frame. -/
theorem pollNext_frames {g g' : Segment} {ready : Bool} {r : PollResult} {frames : List Bytes}
    (hs : g.shaper = some (frames.map Item.frame)) (hp : pollNext false ready g = (r, g')) :
    (g' = g ∧ ∀ d, r ≠ .item (.frame d)) ∨
    (g.ended = false ∧ frames = [] ∧ g' = { g with ended := true } ∧
      ∀ d, r ≠ .item (.frame d)) ∨
    (g.ended = false ∧ ∃ data rest, frames = data :: rest ∧ r = .item (.frame data) ∧
      g' = { g with
        shaper := some (rest.map Item.frame)
        sent := g.sent + UInt64.ofNat data.length
        pauseOnDrop := g.pauseOnDrop || limitReached g.maxBytes (g.sent + UInt64.ofNat data.length)
        ended := limitReached g.maxBytes (g.sent + UInt64.ofNat data.length)
        body := g.body ++ [data] }) := by
  unfold pollNext at hp
  by_cases he : g.ended = true
  · rw [if_pos he] at hp
    obtain ⟨rfl, rfl⟩ := Prod.mk.inj hp
    exact .inl ⟨rfl, fun d hd => nomatch hd⟩
  · rw [if_neg he, hs] at hp
    simp only [Bool.false_eq_true, if_false] at hp
    have he' : g.ended = false := by simpa using he
    cases ready with
    | false =>
      obtain ⟨rfl, rfl⟩ := Prod.mk.inj hp
      exact .inl ⟨rfl, fun d hd => nomatch hd⟩
    | true =>
      cases frames with
      | nil =>
        obtain ⟨rfl, rfl⟩ := Prod.mk.inj hp
        exact .inr (.inl ⟨he', rfl, by rw [hs], fun d hd => nomatch hd⟩)
      | cons data rest =>
        obtain ⟨rfl, rfl⟩ := Prod.mk.inj hp
        exact .inr (.inr ⟨he', data, rest, rfl, rfl, rfl⟩)

/-- Emitting a frame: the segment ends, and will park the shaper, exactly when the limit is
    reached. -/
theorem segOk_frame {m : UInt64} {g : Segment} (h : SegOk m g) (he : g.ended = false)
    (data : Bytes) (rest : Shaper) :
    SegOk m { g with
      shaper := some rest
      sent := g.sent + UInt64.ofNat data.length
      pauseOnDrop := g.pauseOnDrop || limitReached g.maxBytes (g.sent + UInt64.ofNat data.length)
      ended := limitReached g.maxBytes (g.sent + UInt64.ofNat data.length)
      body := g.body ++ [data] } := by
  obtain ⟨hpause, hshort⟩ := h.going he
  have hsent : g.sent + UInt64.ofNat data.length = Bytes.count (g.body ++ [data]) := by
    rw [h.sent, Bytes.count_append, Bytes.count_singleton]
  have hlim : limitReached g.maxBytes (g.sent + UInt64.ofNat data.length) = true ↔
      m ≤ Bytes.count (g.body ++ [data]) := by
    rw [h.max, hsent]
    simp [limitReached]
  refine ⟨h.max, hsent, ?_, ?_, ?_⟩
  · intro hn
    have hn' : limitReached g.maxBytes (g.sent + UInt64.ofNat data.length) = false := hn
    refine ⟨by simp [hpause, hn'], .inr ?_⟩
    rw [← UInt64.not_le]
    intro hle
    simp [hlim.mpr hle] at hn'
  · intro hp
    have hl : limitReached g.maxBytes (g.sent + UInt64.ofNat data.length) = true := by
      simpa [hpause] using hp
    exact ⟨g.body, data, rfl, hlim.mp hl, hshort⟩
  · intro hn hp
    have hl : limitReached g.maxBytes (g.sent + UInt64.ofNat data.length) = true := hn
    simp [hl] at hp

/-! ## Following the shaper -/

/-- The bodies of the successive segments. -/
def bodies (t : TunnelState) : List (List Bytes) :=
  t.finished.map Prod.fst ++ t.segments.map Segment.body

/-- What the shaper, wherever it is, will still yield. -/
def remaining (t : TunnelState) : Shaper :=
  (t.segments.map fun g => g.shaper.getD []).flatten ++ t.slot.getD []

/-- How a segment that was read to its end left the shaper. -/
def Ended (m : UInt64) (p : List Bytes × Bool) : Prop :=
  (p.2 = true → Full m p.1) ∧ (p.2 = false → Short m p.1)

structure Whole (m : UInt64) (frames : List Bytes) (t : TunnelState) : Prop where
  limit : t.maxDownloadBytes = some m
  chain : ∃ rest, (bodies t).flatten ++ rest = frames ∧ remaining t = rest.map Item.frame
  segs : ∀ g ∈ t.segments, SegOk m g
  ended : ∀ p ∈ t.finished, Ended m p
  oneReply : t.pendingContinue.length ≤ 1
  openReply : ∀ r ∈ t.pendingContinue, r.receiver = .open
  refused : (∃ r, (r, Answer.none) ∈ t.answers) → t.left ≠ none
  delivered : t.left ≠ none → t.segments = [] ∧ t.slot = none

theorem waiting_open {rs : List Reply} (h : ∀ r ∈ rs, r.receiver = .open) : waiting rs = rs := by
  refine List.filter_eq_self.mpr ?_
  intro r hr
  simp [h r hr]

/-- Handing the parked shaper to an open reply moves it into a fresh segment. -/
theorem whole_grant {m : UInt64} {frames : List Bytes} {t : TunnelState} {shaper : Shaper}
    {r : Reply} (h : Whole m frames t) (hr : r.receiver = .open) (hsl : t.slot = some shaper)
    (hnil : t.segments = []) (hl : t.left = none) : Whole m frames (grant r shaper t) := by
  have heq : grant r shaper t = { t with
      slot := none, segmentActive := true, phase := .active
      answers := t.answers ++ [(r, .segment)]
      segments := [Segment.new shaper (some m)] } := by
    simp [grant, sendSegment, hr, hnil, h.limit]
  rw [heq]
  refine { h with chain := ?_, segs := ?_, refused := ?_, delivered := fun hn => absurd hl hn }
  · obtain ⟨rest, hrest, hrem⟩ := h.chain
    refine ⟨rest, ?_, ?_⟩
    · simpa [bodies, hnil, Segment.new] using hrest
    · simpa [remaining, hnil, hsl, Segment.new] using hrem
  · intro g hg
    obtain rfl := List.mem_singleton.mp hg
    exact segOk_new m shaper
  · rintro ⟨r', hr'⟩
    have hmem : (r', Answer.none) ∈ t.answers := by
      simpa using hr'
    exact h.refused ⟨r', hmem⟩

theorem whole_segmentDone {m : UInt64} {frames : List Bytes} {t : TunnelState}
    (h : Whole m frames t) (ho : Owned t) (hl : t.left = none) (hd : t.doneQueue ≠ 0) :
    Whole m frames (endTurn (segmentDone t)) := by
  obtain ⟨hseg, -, -⟩ := ho.single.done_alone hd
  have hrot : Whole m frames (rotate t) :=
    { h with oneReply := Nat.zero_le 1, openReply := fun r hr => (nomatch hr) }
  cases hsl : t.slot with
  | none =>
    -- the shaper is gone, which on a stream of frames means that it was read to its end
    rw [segmentDone_gone hsl, endTurn_draining rfl]
    refine { h with chain := ?_, oneReply := Nat.zero_le 1, openReply := fun r hr => (nomatch hr),
                    refused := fun _ hn => (nomatch hn), delivered := fun _ => ⟨hseg, ?_⟩ }
    · obtain ⟨rest, hrest, hrem⟩ := h.chain
      refine ⟨rest, hrest, ?_⟩
      simpa [remaining, cleanup, hsl] using hrem
    · simp [cleanup]
      intro _
      exact hsl
  | some shaper =>
    have hw : waiting t.pendingContinue = t.pendingContinue := waiting_open h.openReply
    cases hpc : t.pendingContinue with
    | nil =>
      rw [segmentDone_idle ho.slotted hsl (hw.trans hpc), endTurn_looping (.inr rfl)]
      exact hrot
    | cons r more =>
      have hmore : more = [] := by
        have h1 := h.oneReply
        rw [hpc, List.length_cons] at h1
        exact List.eq_nil_of_length_eq_zero (by omega)
      subst hmore
      have hr : r.receiver = .open := h.openReply r (by rw [hpc]; exact List.mem_cons_self)
      have hg := whole_grant hrot hr hsl hseg hl
      have hlo := (owned_grant shaper r (t := rotate t) ho.slotted
        (outstanding_rotate ho hd) ho.uncancelled).looping
      rw [segmentDone_served ho.slotted hsl (hw.trans hpc), refuse_nil, endTurn_looping hlo]
      exact hg

theorem whole_continue {m : UInt64} {frames : List Bytes} {t : TunnelState}
    (h : Whole m frames t) (ho : Owned t) (hs : Steady t) (hl : t.left = none) {r : Reply}
    (hG : Honest t (.cmd (.continue r))) :
    Whole m frames (dispatchContinue r t) := by
  have hr : r.receiver = .open ∧ t.pendingContinue = [] := by
    simpa [Honest, honest] using hG
  rcases continue_steady ho hs (honest_careful hG) with ⟨_, heq⟩ | ⟨hp, _, shaper, hsl, heq⟩
  · rw [heq]
    refine { h with oneReply := by simp [hr.2], openReply := ?_ }
    intro x hx
    have hx' : x = r := by simpa [hr.2] using hx
    rw [hx']
    exact hr.1
  · rw [heq]
    exact whole_grant h hr.1 hsl (ho.apart (by rw [hsl]; rfl)) hl

/-- The one live segment, with the shaper in it. -/
theorem whole_live {m : UInt64} {frames : List Bytes} {t : TunnelState} (h : Whole m frames t)
    (ho : Owned t) {i : Nat} {g : Segment} (hg : t.segments[i]? = some g) :
    i = 0 ∧ t.segments = [g] ∧ t.slot = none ∧ SegOk m g ∧
      ∃ rest, g.shaper = some (rest.map Item.frame) ∧
        (t.finished.map Prod.fst).flatten ++ g.body ++ rest = frames := by
  obtain ⟨hi, hseg, -, -, hsl⟩ := ho.single.live_alone hg
  obtain ⟨shaper, hsh⟩ := Option.isSome_iff_exists.mp (ho.holds g (by simp [hseg]))
  obtain ⟨rest, hrest, hrem⟩ := h.chain
  have hsh' : shaper = rest.map Item.frame := by
    simpa [remaining, hseg, hsl, hsh] using hrem
  refine ⟨hi, hseg, hsl, h.segs g (by simp [hseg]), rest, by rw [hsh, hsh'], ?_⟩
  simpa [bodies, hseg] using hrest

/-- Replacing the live segment by what polling made of it. -/
theorem whole_poll {m : UInt64} {frames : List Bytes} {t : TunnelState} (h : Whole m frames t)
    (ho : Owned t) {i : Nat} {g g' : Segment} {ready : Bool} {r : PollResult}
    (hg : t.segments[i]? = some g) (hp : pollNext t.cancelled ready g = (r, g')) :
    Whole m frames { t with segments := t.segments.set i g' } := by
  obtain ⟨rfl, hseg, hsl, hok, rest, hsh, hrest⟩ := whole_live h ho hg
  have hl : t.left = none := by
    by_contra hn
    simp [(h.delivered hn).1] at hg
  rw [ho.uncancelled] at hp
  have key : SegOk m g' ∧ ∃ rest', g'.shaper = some (rest'.map Item.frame) ∧
      g'.body ++ rest' = g.body ++ rest := by
    rcases pollNext_frames hsh hp with ⟨rfl, -⟩ | ⟨he, rfl, rfl, -⟩ |
      ⟨he, data, rest', rfl, -, rfl⟩
    · exact ⟨hok, rest, hsh, rfl⟩
    · obtain ⟨hpause, hshort⟩ := hok.going he
      refine ⟨{ hok with going := fun hf => (nomatch hf), eof := fun _ _ => ⟨hsh, hshort⟩ },
        [], hsh, rfl⟩
    · exact ⟨segOk_frame hok he data _, rest', rfl, by simp⟩
  obtain ⟨hok', rest', hsh', hbody⟩ := key
  refine { h with chain := ⟨rest', ?_, ?_⟩, segs := ?_, delivered := fun hn => absurd hl hn }
  · rw [← hrest]
    simpa [bodies, hseg] using hbody
  · simp [remaining, hseg, hsl, hsh']
  · intro x hx
    have hx' : x = g' := by simpa [hseg] using hx
    rw [hx']
    exact hok'

/-- Dropping a segment that was read to its end: the shaper goes back, or was at EOF. -/
theorem whole_release {m : UInt64} {frames : List Bytes} {t : TunnelState} (h : Whole m frames t)
    (ho : Owned t) {i : Nat} {g : Segment} (hg : t.segments[i]? = some g) (he : g.ended = true) :
    Whole m frames
      (release g { t with segments := t.segments.eraseIdx i, dropping := t.dropping + 1 }) := by
  obtain ⟨rfl, hseg, hsl, hok, rest, hsh, hrest⟩ := whole_live h ho hg
  have hl : t.left = none := by
    by_contra hn
    simp [(h.delivered hn).1] at hg
  have hparks : g.parks = g.pauseOnDrop := by simp [Segment.parks, hsh]
  refine { h with chain := ⟨rest, ?_, ?_⟩, segs := ?_, ended := ?_, delivered := fun hn => absurd hl hn }
  · rw [← hrest]
    simp [bodies, release, hseg]
  · cases hpd : g.pauseOnDrop with
    | true => simp [remaining, release, hparks, hpd, hseg, hsh]
    | false =>
      obtain ⟨heof, -⟩ := hok.eof he hpd
      have hnil : rest = [] := by
        rw [hsh] at heof
        simpa using heof
      simp [remaining, release, hparks, hpd, hseg, hsl, hnil]
  · simp [release, hseg]
  · intro p hp
    have hp' : p ∈ t.finished ∨ p = (g.body, g.parks) := by simpa [release] using hp
    rcases hp' with hp' | rfl
    · exact h.ended p hp'
    · rw [hparks]
      exact ⟨hok.paused, fun hpd => (hok.eof he hpd).2⟩

/-- **One step of an honest run** keeps the chain whole. -/
theorem whole_turn {m : UInt64} {frames : List Bytes} {t t' : TunnelState} {e : Event}
    (h : Whole m frames t) (hk : Kept t) (hG : Honest t e) (ht : Turn t e t') :
    Whole m frames t' := by
  -- a segment in somebody's hands means that the loop has not been left
  have hlive : ∀ {i : Nat} {g : Segment}, t.segments[i]? = some g → t.left = none := by
    intro i g hg
    by_contra hn
    simp [(h.delivered hn).1] at hg
  cases ht with
  | segmentDone hl hd => exact whole_segmentDone h (hk hl).1 hl hd
  | cont hl r =>
    obtain ⟨ho, hs⟩ := hk hl
    have hn : Whole m frames (noteCommand t) := { h with }
    rw [continue_turn ho]
    exact whole_continue hn (owned_noteCommand ho) hs hl hG
  | pollFrame ready hg hp =>
    have hset := whole_poll h (hk (hlive hg)).1 hg hp
    exact { hset with }
  | pollOther ready hg hp => exact whole_poll h (hk (hlive hg)).1 hg hp
  | @release i g hg =>
    have he : g.ended = true := by simpa [Honest, honest, hg] using hG
    exact whole_release h (hk (hlive hg)).1 hg he
  | notify hd =>
    unfold notifyDone
    split <;> exact { h with }
  | shutdown | cmdClosed | rotationTimeout | shutdownSignal => cases hG
  | idleExit hl hd hi =>
    have hlt : t.clock - t.lastActivity < STREAM_IDLE_TIMEOUT_SECS := by
      simpa [Honest, honest] using hG
    omega
  | directErr => exact h
  | tick | idleReset | directFrame | upload => exact { h with }

theorem whole_start {u : Setup} {m : UInt64} {frames : List Bytes}
    (hm : u.maxDownloadBytes = some m) (hf : u.shaper = frames.map Item.frame) :
    Whole m frames (start u) := by
  rw [start_segmented hm]
  refine ⟨hm, ⟨frames, rfl, ?_⟩, ?_, ?_, Nat.zero_le 1, ?_, ?_, fun hn => absurd rfl hn⟩
  · simp [remaining, new, Segment.new, hf]
  · intro g hg
    obtain rfl := List.mem_singleton.mp hg
    exact segOk_new m u.shaper
  · intro p hp
    exact absurd hp List.not_mem_nil
  · intro r hr
    exact absurd hr List.not_mem_nil
  · rintro ⟨r, hr⟩
    exact absurd hr List.not_mem_nil

theorem whole_run {u : Setup} {m : UInt64} {frames : List Bytes} (hm : u.maxDownloadBytes = some m)
    (hf : u.shaper = frames.map Item.frame) {es : List Event} {t : TunnelState}
    (hmeets : Meets step Honest (start u) es) (hrun : run step (start u) es = some t) :
    Whole m frames t := by
  have hinv := run_invariant_of_meets (P := fun t => Whole m frames t ∧ Kept t)
    (fun _ _ _ hP hG hstep => ⟨whole_turn hP.1 hP.2 hG (step_turn hstep),
      kept_step hP.2 (honest_careful hG) hstep⟩)
    es (start u) t ⟨whole_start hm hf, kept_start hm⟩ hmeets hrun
  exact hinv.1

/-! ## The guarantee -/

/-- What client and server may rely on, at every point of an honest run. -/
structure Rotated (m : UInt64) (frames : List Bytes) (t : TunnelState) : Prop where
  /-- The bodies so far, followed by what is still in the shaper, are the frames in order. -/
  inOrder : ∃ rest, (bodies t).flatten ++ rest = frames ∧ remaining t = rest.map Item.frame
  /-- `None` is answered, and the loop left, only when every frame has been delivered. -/
  complete : t.left ≠ none ∨ (∃ r, (r, Answer.none) ∈ t.answers) → (bodies t).flatten = frames
  /-- A paused segment reached the limit with its last frame. -/
  paused : ∀ body, (body, true) ∈ t.finished → body ≠ [] ∧ m ≤ Bytes.count body ∧
    (0 < m → Bytes.count body.dropLast < m) ∧ (m = 0 → body.length = 1)
  /-- The counters are exact for every body they can count. -/
  exact : ∀ body, (body, true) ∈ t.finished → body.flatten.length < 2 ^ 64 →
    m.toNat ≤ body.flatten.length ∧ (0 < m → body.dropLast.flatten.length < m.toNat)
  /-- The client rotates exactly when the server parked the shaper. -/
  agree : ∀ body parked, (body, parked) ∈ t.finished → ∀ prefetchAt trigger chunks,
    chunks.flatten = body.flatten →
      (Download.doStreaming (some m) prefetchAt trigger chunks = .rotating ↔ parked = true)

theorem full_dropLast {m : UInt64} {body : List Bytes} (h : Full m body) :
    body ≠ [] ∧ m ≤ Bytes.count body ∧ (0 < m → Bytes.count body.dropLast < m) ∧
      (m = 0 → body.length = 1) := by
  obtain ⟨init, last, rfl, hle, hinit⟩ := h
  refine ⟨by simp, hle, ?_, ?_⟩
  · intro hm
    rw [List.dropLast_concat]
    rcases hinit with rfl | hlt
    · exact hm
    · exact hlt
  · rintro rfl
    rcases hinit with rfl | hlt
    · rfl
    · exact absurd hlt UInt64.not_lt_zero

theorem full_exact {m : UInt64} {body : List Bytes} (h : Full m body)
    (hlt : body.flatten.length < 2 ^ 64) :
    m.toNat ≤ body.flatten.length ∧ (0 < m → body.dropLast.flatten.length < m.toNat) := by
  obtain ⟨-, hle, hdrop, -⟩ := full_dropLast h
  have hsub : body.dropLast.flatten.length ≤ body.flatten.length := by
    obtain ⟨init, last, rfl, -⟩ := h
    rw [List.dropLast_concat, List.flatten_append, List.length_append]
    exact Nat.le_add_right ..
  rw [UInt64.le_iff_toNat_le, Bytes.toNat_count hlt] at hle
  refine ⟨hle, ?_⟩
  intro hm
  have := hdrop hm
  rwa [UInt64.lt_iff_toNat_lt, Bytes.toNat_count (Nat.lt_of_le_of_lt hsub hlt)] at this

/-- A paused body of frames of a sane size has a non-zero count. -/
theorem full_count_pos {m : UInt64} {body : List Bytes} (h : Full m body)
    (hsize : ∀ f ∈ body, 0 < f.length ∧ f.length < 2 ^ 64) : 0 < Bytes.count body := by
  obtain ⟨init, last, rfl, hle, hinit⟩ := h
  rcases hinit with rfl | hlt
  · obtain ⟨hpos, hlt⟩ := hsize last (by simp)
    rw [List.nil_append, Bytes.count_singleton, UInt64.lt_iff_toNat_lt, UInt64.toNat_ofNat',
      Nat.mod_eq_of_lt hlt]
    exact hpos
  · exact Nat.lt_of_le_of_lt (Nat.zero_le _) (Nat.lt_of_lt_of_le hlt hle)

/-- Rotation of frames of a sane size. -/
theorem rotated_run {u : Setup} {m : UInt64} {frames : List Bytes}
    (hm : u.maxDownloadBytes = some m) (hf : u.shaper = frames.map Item.frame)
    (hsize : ∀ f ∈ frames, 0 < f.length ∧ f.length < 2 ^ 64) {es : List Event} {t : TunnelState}
    (hmeets : Meets step Honest (start u) es) (hrun : run step (start u) es = some t) :
    Rotated m frames t := by
  have h := whole_run hm hf hmeets hrun
  refine ⟨h.chain, ?_, ?_, ?_, ?_⟩
  · intro hover
    have hl : t.left ≠ none := by
      rcases hover with hl | hr
      · exact hl
      · exact h.refused hr
    obtain ⟨hseg, hsl⟩ := h.delivered hl
    obtain ⟨rest, hrest, hrem⟩ := h.chain
    have hnil : rest = [] := by
      simpa [remaining, hseg, hsl] using hrem.symm
    rw [← hrest, hnil, List.append_nil]
  · intro body hb
    exact full_dropLast ((h.ended _ hb).1 rfl)
  · intro body hb hlt
    exact full_exact ((h.ended _ hb).1 rfl) hlt
  · intro body parked hb prefetchAt trigger chunks hchunks
    rw [Download.doStreaming_rotating_iff, Bytes.count_eq_of_flatten hchunks]
    obtain ⟨hfull, hshort⟩ := h.ended _ hb
    constructor
    · rintro ⟨hpos, hle⟩
      by_contra hp
      rcases hshort (by simpa using hp) with hb' | hlt
      · simp only [show body = [] from hb'] at hpos
        exact absurd hpos (by decide)
      · exact absurd hle (UInt64.not_le.mpr hlt)
    · intro hp
      have hF := hfull hp
      refine ⟨full_count_pos hF fun f hfb => hsize f ?_, (full_dropLast hF).2.1⟩
      obtain ⟨rest, hrest, -⟩ := h.chain
      rw [← hrest]
      refine List.mem_append_left _ (List.mem_flatten.mpr ⟨body, ?_, hfb⟩)
      exact List.mem_append_left _ (List.mem_map.mpr ⟨_, hb, rfl⟩)

/-- The frames a shaper emits have a sane size. -/
theorem shaped_length {key : Crypto.LessSafeKey} {base122 : Shaper.Base122Fast} (hkey : key.Lawful)
    (hnf : key.NeverFails) (hb : base122.Lawful) {config : Shaper.ResolvedShaperConfig}
    {startSeq : UInt64} {random : Nat} {polls : List Shaper.Event} {p : Shaper.Polling}
    (hp : run (Shaper.step key base122) (.new (.withSeq config startSeq random)) polls = some p) :
    ∀ f ∈ p.frames.map Shaper.SealedFrame.bytes, 0 < f.length ∧ f.length < 2 ^ 64 := by
  intro f hf
  obtain ⟨frame, hmem, rfl⟩ := List.mem_map.mp hf
  obtain ⟨-, padding, hcarries⟩ := (Shaper.conserved_run hnf hp).carried frame hmem
  obtain ⟨hpos, hle⟩ := hcarries.length_le hkey hb
  have hmax : Shaper.maxEncodedFrameLen config.encoding ≤ 18781 := by
    cases config.encoding <;> decide
  exact ⟨hpos, by omega⟩

/-- **Rotation loses nothing, and both ends agree on it**: for all the frames that any run of a shaper
    emits, and any run of the tunnel with an honest client. -/
theorem rotation_loses_nothing {key : Crypto.LessSafeKey} {base122 : Shaper.Base122Fast}
    (hkey : key.Lawful) (hnf : key.NeverFails) (hb : base122.Lawful)
    (config : Shaper.ResolvedShaperConfig) (startSeq : UInt64) (random : Nat)
    (polls : List Shaper.Event) {p : Shaper.Polling}
    (hp : run (Shaper.step key base122) (.new (.withSeq config startSeq random)) polls = some p)
    {u : Setup} {m : UInt64} (hm : u.maxDownloadBytes = some m)
    (hu : u.shaper = (p.frames.map Shaper.SealedFrame.bytes).map Item.frame)
    (es : List Event) {t : TunnelState} (hmeets : Meets step Honest (start u) es)
    (hrun : run step (start u) es = some t) :
    Rotated m (p.frames.map Shaper.SealedFrame.bytes) t :=
  rotated_run hm hu (shaped_length hkey hnf hb hp) hmeets hrun

/-- The two frames that `Shaper.demoEvents` emits, as the binary encoding has them. -/
def demoFrames : List Bytes :=
  [[0, 41] ++ .replicate 12 0 ++
      [0xce, 0xa7, 0x40, 0x3d, 0x4d, 0x60, 0x6b, 0x69, 0x07, 0x4d, 0xc4, 0xd1, 0xb9] ++
      [0x63, 0x3b, 0xc5, 0x13, 0xf5, 0x9f, 0xad, 0x76, 0x3f, 0x67, 0x05, 0xa0, 0x3a, 0xa7, 0x93, 0x82],
    [0, 40] ++ .replicate 12 0 ++
      [0xce, 0xa7, 0x40, 0x3d, 0x4d, 0x60, 0x6b, 0x66, 0x07, 0x4c, 0xc1, 0xd6] ++
      [0x8c, 0x56, 0xa4, 0x31, 0x71, 0xfd, 0xa5, 0x7e, 0x5a, 0xfc, 0x10, 0xf5, 0x80, 0x86, 0x29, 0x4d]]

/-- A tunnel over that shaper, with a limit of one byte. -/
def shapedSetup : Setup := { demoSetup with shaper := demoFrames.map Item.frame }

/-- One prefetched `Continue`, and one after the end of its segment. -/
def demoContinues : List Event :=
  [.cmd (.continue ⟨0, .open⟩), .poll 0 true, .release 0, .notify, .segmentDone,
    .poll 0 true, .release 0, .notify, .segmentDone, .cmd (.continue ⟨1, .open⟩), .poll 0 true]

theorem rotation_loses_nothing_demo :
    ∃ p t, run (Shaper.step Crypto.zeroKey Shaper.publishedBase122)
        (.new (.withSeq Shaper.demoConfig 7 0)) Shaper.demoEvents = some p ∧
      run step (start shapedSetup) demoContinues = some t ∧
      (bodies t).length = 3 ∧ Rotated 1 (p.frames.map Shaper.SealedFrame.bytes) t :=
  ⟨_, _, rfl, rfl, rfl, rotation_loses_nothing Crypto.zeroKey_lawful (fun _ _ h => nomatch h)
    Shaper.publishedBase122_lawful Shaper.demoConfig 7 0 Shaper.demoEvents rfl (u := shapedSetup)
    (m := 1) rfl rfl demoContinues (by decide) rfl⟩

end Httproxy.Tunnel
