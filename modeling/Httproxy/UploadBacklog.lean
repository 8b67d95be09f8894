/-
  How a client can fill the EOS waiters of the upload actor.

  `UploadWaiters` counts: an EOS that has to wait finds at most `n - 2` others when `n` POSTs are in
  flight.  Here the bound is met, for every cipher and every number of POSTs up to the limit.

  1. **Client (`Stands`)** — byte after byte comes from the socket, each is sealed when the delay is over,
     and each frame goes out in a POST of its own, of 41 bytes.  `build_state` lets 258 of them be in
     flight.

  2. **Server (`Backlog`)** — the first POST is slow.  The others are read to the end: each leaves a frame
     in the reorder map and a waiter behind it.  The last one finds `MAX_EOS_WAITERS` of them.
-/
import Httproxy.UploadWaiters

namespace Httproxy.UploadPath

open Crypto Machine Seq Shaper Decoder UploadLoop

/-! ## The client -/

section Client

variable {key : LessSafeKey} {base122 : Base122Fast}

/-- A POST in flight with a frame of one byte. -/
def asPost (body : Bytes) : Post := ⟨body, 41, none, false⟩

theorem length_carries {f : Bytes} {seq : UInt64} (hkey : key.Lawful)
    (h : Carries key base122 .binary f seq [2] 0) : f.length = 41 := by
  obtain ⟨nonce, ct, tag, _, hseal, rfl⟩ := h
  simp [hkey.ct_length hseal, hkey.tag_length hseal, nonce.2, NONCE_LEN, TAG_LEN, HEADER_LEN]

/-- Where the loop stands: the POSTs it has spawned, the number of frames it has sealed, and what it has
    read and not sealed. -/
structure Stands (limits : Limits) (bodies : List Bytes) (count : Nat) (rawBuf : Bytes) (point : Point)
    (u : UploadLoopActor) : Prop where
  limits_eq : u.limits = limits
  posts_eq : u.posts = bodies.map asPost
  seq_eq : u.shaped.shaper.seq = seqAt 0 count
  rawBuf_eq : u.shaped.shaper.rawBuf = rawBuf
  point_eq : u.point = point
  cursor_eq : u.cursor = []
  encoding_eq : u.shaped.shaper.encoding = .binary
  threshold_eq : u.shaped.shaper.sealThreshold = sealThresholdOf .binary
  stages_eq : u.shaped.shaper.stages = []
  padding_eq : u.shaped.shaper.globalThreshold = 0

variable {limits : Limits} {bodies : List Bytes} {count : Nat} {u : UploadLoopActor}

/-- A byte is read. -/
theorem Stands.reads (h : Stands limits bodies count [] (.sealing []) u) :
    ∃ u', UploadLoop.step key base122 u (.turn ⟨.filled [2], false, demoDraw⟩) = some u' ∧
      Stands limits bodies count [2] (.sealing []) u' := by
  have hturn : turn key base122 ⟨.filled [2], false, demoDraw⟩ u.shaped.shaper [] =
      ⟨.again, { u.shaped.shaper with rawBuf := [2] }, [], some (0, .filled [2]), []⟩ := by
    simp [turn, h.rawBuf_eq, h.threshold_eq, sealThresholdOf, MAX_RAW_PAYLOAD, NONCE_LEN, TAG_LEN,
      HEADER_LEN, READ_HIGH_WATER]
  rw [UploadLoop.step, h.point_eq]
  simp only [pollSeal, chain, h.cursor_eq, if_true, hturn]
  exact ⟨_, rfl, { h with rawBuf_eq := rfl, point_eq := rfl, cursor_eq := rfl }⟩

/-- `seal_into` on one byte, where no stage and no threshold asks for padding. -/
theorem sealInto_byte (hkey : key.NeverFails) (base122 : Base122Fast) (draw : Draw) {s : TrafficShaper}
    (hraw : s.rawBuf = [2]) (hencoding : s.encoding = .binary)
    (hthreshold : s.sealThreshold = sealThresholdOf .binary) (hstages : s.stages = [])
    (hpadding : s.globalThreshold = 0) (out : Bytes) :
    ∃ f s', sealInto key base122 draw s out = (s', out ++ f, .ok s.seq) ∧
      Carries key base122 .binary f s.seq [2] 0 ∧ s'.rawBuf = [] ∧ s'.encoding = .binary ∧
      s'.sealThreshold = sealThresholdOf .binary ∧ s'.stages = [] ∧ s'.globalThreshold = 0 ∧
      s'.seq = s.seq + 1 := by
  have hdata : s.frameData = [2] := by
    rw [TrafficShaper.frameData, hraw, hthreshold]
    rfl
  have hresolved : resolvePadding draw.padding 1 { s with timerArmed := false, seq := s.seq + 1 } =
      ({ s with timerArmed := false, seq := s.seq + 1, packetCount := s.packetCount + 1 }, 0) := by
    simp [resolvePadding, hstages, skipStages, TrafficShaper.settings, hpadding, resolveFramePadding]
  obtain ⟨f, encBuf, jsonBuf, hwritten, hf⟩ := writeFrame_spec hkey base122 draw.nonce s.seq
    (s := { s with timerArmed := false, seq := s.seq + 1, packetCount := s.packetCount + 1 })
    (by rw [hencoding]; decide : [(2 : UInt8)].length + 0 ≤ frameRawLimit s.encoding) out
  refine ⟨f, { s with timerArmed := false, seq := s.seq + 1, packetCount := s.packetCount + 1, encBuf,
                      jsonBuf, rawBuf := s.rawBuf.drop 1 }, ?_, hencoding ▸ hf, ?_, hencoding, hthreshold,
    hstages, hpadding, rfl⟩
  · rw [sealInto, hdata]
    show writeFrame key base122 draw.nonce [2] s.seq
      (resolvePadding draw.padding 1 { s with timerArmed := false, seq := s.seq + 1 }).2
      (resolvePadding draw.padding 1 { s with timerArmed := false, seq := s.seq + 1 }).1 out = _
    rw [hresolved]
    exact hwritten
  · rw [hraw]
    rfl

/-- The delay is over: the byte is sealed. -/
theorem Stands.seals (hkey : key.Lawful) (hseal : key.NeverFails) (hroom : 41 < limits.maxBatchBytes)
    (h : Stands limits bodies count [2] (.sealing []) u) :
    ∃ f u', UploadLoop.step key base122 u (.turn ⟨.pending, true, demoDraw⟩) = some u' ∧
      Carries key base122 .binary f (seqAt 0 count) [2] 0 ∧
      Stands limits bodies (count + 1) [] (.filling f) u' := by
  have hsame : u.shaped.shaper.arm.rawBuf = [2] ∧ u.shaped.shaper.arm.encoding = .binary ∧
      u.shaped.shaper.arm.sealThreshold = sealThresholdOf .binary ∧ u.shaped.shaper.arm.stages = [] ∧
      u.shaped.shaper.arm.globalThreshold = 0 ∧ u.shaped.shaper.arm.seq = seqAt 0 count := by
    rw [TrafficShaper.arm]
    split <;>
      exact ⟨h.rawBuf_eq, h.encoding_eq, h.threshold_eq, h.stages_eq, h.padding_eq, h.seq_eq⟩
  obtain ⟨hraw, hencoding, hthreshold, hstages, hpadding, hseq⟩ := hsame
  obtain ⟨f, s', hsealed, hf, hs'⟩ :=
    sealInto_byte hseal base122 demoDraw hraw hencoding hthreshold hstages hpadding []
  obtain ⟨hraw', hencoding', hthreshold', hstages', hpadding', hseq'⟩ := hs'
  have hturn : turn key base122 ⟨.pending, true, demoDraw⟩ u.shaped.shaper [] =
      ⟨.ready (.ok (some (seqAt 0 count))), s', f, some (1, .pending), [2]⟩ := by
    have hfront : u.shaped.shaper.arm.frameData = [2] := by
      rw [TrafficShaper.frameData, hraw, hthreshold]
      rfl
    simp [turn, h.rawBuf_eq, h.threshold_eq, sealThresholdOf, MAX_RAW_PAYLOAD, NONCE_LEN, TAG_LEN,
      HEADER_LEN, sealTurn, hsealed, hfront, h.seq_eq]
  have hlen : f.length = 41 := length_carries hkey hf
  rw [hseq] at hf hseq'
  rw [UploadLoop.step, h.point_eq]
  simp only [pollSeal, chain, h.cursor_eq, if_true, hturn, fill, hlen, h.limits_eq, hroom]
  refine ⟨f, _, rfl, hf, ?_⟩
  exact
    { limits_eq := rfl, posts_eq := h.posts_eq, seq_eq := hseq'.trans (seqAt_succ ..).symm,
      rawBuf_eq := hraw', point_eq := rfl, cursor_eq := rfl, encoding_eq := hencoding',
      threshold_eq := hthreshold', stages_eq := hstages', padding_eq := hpadding' }

/-- Nothing more is ready: the batch is taken as it is. -/
theorem Stands.fills {f : Bytes} (hne : f ≠ []) (h : Stands limits bodies count [] (.filling f) u) :
    ∃ u', UploadLoop.step key base122 u (.turn ⟨.pending, false, demoDraw⟩) = some u' ∧
      Stands limits bodies count [] (.requesting f false) u' := by
  have hturn : turn key base122 ⟨.pending, false, demoDraw⟩ u.shaped.shaper f =
      ⟨.pending, u.shaped.shaper, f, some (0, .pending), []⟩ := by
    simp [turn, h.rawBuf_eq, h.threshold_eq, sealThresholdOf, MAX_RAW_PAYLOAD, NONCE_LEN, TAG_LEN,
      HEADER_LEN]
  rw [UploadLoop.step, h.point_eq]
  simp only [pollSeal, chain, h.cursor_eq, if_true, hturn, afterFill, hne, if_false]
  exact ⟨_, rfl, { h with point_eq := rfl, cursor_eq := rfl }⟩

/-- Both semaphores have permits: the POST is spawned. -/
theorem Stands.spawns {f : Bytes} (hlen : f.length = 41)
    (hfree : bodies.length < limits.uploadConcurrency)
    (hbytes : (bodies.length + 1) * 41 ≤ limits.maxInFlightBytes)
    (h : Stands limits bodies count [] (.requesting f false) u) :
    ∃ u', run (UploadLoop.step key base122) u [.acquire, .acquire, .joinNone] = some u' ∧
      Stands limits (bodies ++ [f]) count [] (.sealing []) u' := by
  have hall : inFlight u.posts = bodies.map asPost := by
    rw [inFlight, h.posts_eq]
    exact List.filter_eq_self.mpr fun p hp => by
      obtain ⟨b, _, rfl⟩ := List.mem_map.mp hp
      rfl
  have hsum : ((inFlight u.posts).map Post.permitBytes).sum = bodies.length * 41 := by
    rw [hall, List.map_map]
    simp [Function.comp_def, asPost]
  have hpermits : permitBytes limits f = 41 := by
    rw [permitBytes, hlen, Nat.min_eq_left (by omega)]
    rfl
  rw [run_cons, UploadLoop.step, h.point_eq]
  simp only [hall, List.length_map, h.limits_eq, hfree, if_true, Option.bind_some, run_cons,
    UploadLoop.step]
  rw [← hall, hsum, hpermits, if_pos (by omega)]
  refine ⟨_, rfl, ?_⟩
  exact
    { h with
      limits_eq := rfl, point_eq := rfl
      posts_eq := by
        show u.posts ++ [⟨f, permitBytes limits f, none, false⟩] = _
        rw [h.posts_eq, hpermits, List.map_append]
        rfl }

/-- Each body is the frame of its number. -/
def Numbered (key : LessSafeKey) (base122 : Base122Fast) (bodies : List Bytes) : Prop :=
  ∀ i b, bodies[i]? = some b → Carries key base122 .binary b (seqAt 0 i) [2] 0

/-- **One more POST**: a byte from the socket is on its way. -/
theorem Stands.next (hkey : key.Lawful) (hseal : key.NeverFails) (hroom : 41 < limits.maxBatchBytes)
    (hfree : bodies.length < limits.uploadConcurrency)
    (hbytes : (bodies.length + 1) * 41 ≤ limits.maxInFlightBytes)
    (h : Stands limits bodies bodies.length [] (.sealing []) u) (hbodies : Numbered key base122 bodies) :
    ∃ f u', Reaches (UploadLoop.step key base122) (fun _ e => ownEvent e = true) u u' ∧
      Stands limits (bodies ++ [f]) (bodies ++ [f]).length [] (.sealing []) u' ∧
      Numbered key base122 (bodies ++ [f]) := by
  obtain ⟨u₁, hstep₁, h₁⟩ := h.reads
  obtain ⟨f, u₂, hstep₂, hf, h₂⟩ := h₁.seals hkey hseal hroom
  have hlen : f.length = 41 := length_carries hkey hf
  have hne : f ≠ [] := by
    rintro rfl
    cases hlen
  obtain ⟨u₃, hstep₃, h₃⟩ := h₂.fills hne
  obtain ⟨u₄, hrun, h₄⟩ := h₃.spawns hlen hfree hbytes
  refine ⟨f, u₄, .head rfl hstep₁ (.head rfl hstep₂ (.head rfl hstep₃ ⟨_, hrun, ?_⟩)), ?_, ?_⟩
  · exact ⟨rfl, fun _ _ => ⟨rfl, fun _ _ => ⟨rfl, fun _ _ => trivial⟩⟩⟩
  · rwa [List.length_append, List.length_singleton]
  · intro i b hb
    rw [List.getElem?_append] at hb
    split at hb
    · exact hbodies i b hb
    · rename_i hi
      obtain ⟨hlt, rfl⟩ := List.getElem?_eq_some_iff.mp hb
      rw [List.length_singleton] at hlt
      obtain rfl : i = bodies.length := by omega
      simpa using hf

/-- As many POSTs as the permits allow. -/
theorem client_spawns (hkey : key.Lawful) (hseal : key.NeverFails) (hroom : 41 < limits.maxBatchBytes)
    (h : Stands limits [] 0 [] (.sealing []) u) {n : Nat} (hfree : n ≤ limits.uploadConcurrency)
    (hbytes : n * 41 ≤ limits.maxInFlightBytes) :
    ∃ bodies u', bodies.length = n ∧ Numbered key base122 bodies ∧
      Stands limits bodies bodies.length [] (.sealing []) u' ∧
      Reaches (UploadLoop.step key base122) (fun _ e => ownEvent e = true) u u' := by
  induction n with
  | zero => exact ⟨[], u, rfl, fun i b hb => (nomatch hb), h, .refl ..⟩
  | succ n ih =>
    obtain ⟨bodies, u', rfl, hbodies, h', hreach⟩ := ih (by omega) (by omega)
    obtain ⟨f, u'', hnext, h'', hbodies'⟩ := h'.next hkey hseal hroom hfree hbytes hbodies
    exact ⟨bodies ++ [f], u'', by simp, hbodies', h'', hreach.trans hnext⟩

/-- In an open tunnel the loop goes its way. -/
theorem reaches_client {writeOk : Nat → Bool} {s : Path} {u' : UploadLoopActor} (hopened : s.opened = true)
    (h : Reaches (UploadLoop.step key base122) (fun _ e => ownEvent e = true) s.client u') :
    Reaches (step key base122 .binary writeOk) (fun s e => orderly s e = true) s { s with client := u' } := by
  obtain ⟨es, hrun, hown⟩ := h
  induction es generalizing s with
  | nil =>
    obtain rfl := Option.some.inj hrun
    exact .refl ..
  | cons e es ih =>
    rw [run_cons, Option.bind_eq_some_iff] at hrun
    obtain ⟨u, hu, hrun⟩ := hrun
    have hstep : step key base122 .binary writeOk s (.client e) = some { s with client := u } := by
      rw [step, if_pos ⟨hopened, hown.1⟩, hu, Option.map_some]
    have hrest := @ih { s with client := u } hopened hrun (hown.2 u hu)
    exact .head rfl hstep hrest

end Client

/-! ## The server -/

section Server

variable {key : LessSafeKey} {base122 : Base122Fast}

/-- A body that has come as a whole is never waited for. -/
theorem pollNext_ready (key : LessSafeKey) (base122 : Base122Fast) {d : FrameDecoder}
    (h : Feed.pending ∉ d.inner) :
    (pollNext key base122 .binary MAX_FRAME_BUF_SIZE d).1 ≠ .pending ∧
      Feed.pending ∉ (pollNext key base122 .binary MAX_FRAME_BUF_SIZE d).2.inner := by
  fun_induction pollNext key base122 .binary MAX_FRAME_BUF_SIZE d with
  | case1 => exact ⟨by rintro ⟨⟩, h⟩
  | case2 => exact ⟨by rintro ⟨⟩, h⟩
  | case3 => exact ⟨by rintro ⟨⟩, h⟩
  | case4 => exact ⟨by rintro ⟨⟩, h⟩
  | case5 => exact ⟨by rintro ⟨⟩, h⟩
  | case6 => exact ⟨by rintro ⟨⟩, h⟩
  | case7 d decoding d' hres heos hfits b rest hin ih =>
    exact ih fun hmem => h (hin ▸ List.mem_cons_of_mem _ hmem)
  | case8 d decoding d' hres heos hfits e rest hin =>
    exact ⟨by rintro ⟨⟩, fun hmem => h (hin ▸ List.mem_cons_of_mem _ hmem)⟩
  | case9 d decoding d' hres heos hfits hin ih => exact ih h
  | case10 d decoding d' hres heos hfits rest hin => exact absurd (hin ▸ List.mem_cons_self) h

/-- A decoder has all of the bytes of these frames. -/
structure Whole (key : LessSafeKey) (base122 : Base122Fast) (items : List (UInt64 × Bytes))
    (d : FrameDecoder) : Prop where
  polling : Decoder.Polling d
  ready : Feed.pending ∉ d.inner
  due : frames key base122 .binary d.due = (items, true)

theorem Whole.item {seq : UInt64} {data : Bytes} {items : List (UInt64 × Bytes)} {d : FrameDecoder}
    (h : Whole key base122 ((seq, data) :: items) d) :
    ∃ d', pollNext key base122 .binary MAX_FRAME_BUF_SIZE d = (.item seq data, d') ∧
      Whole key base122 items d' := by
  have hagree : Agrees key base122 .binary d.due _ := pollNext_agrees h.polling
  obtain ⟨hready, hinner⟩ := pollNext_ready key base122 h.ready
  rcases hpoll : pollNext key base122 .binary MAX_FRAME_BUF_SIZE d with ⟨_ | _ | ⟨seq', data'⟩ | e, d'⟩
  · exact absurd (by rw [hpoll]) hready
  · rw [hpoll] at hagree
    exact absurd (h.due.symm.trans hagree) (by simp)
  · rw [hpoll] at hagree hinner
    obtain ⟨hpolling, hframes⟩ := hagree
    rw [h.due, Prod.mk.injEq, List.cons.injEq, Prod.mk.injEq] at hframes
    obtain ⟨⟨⟨rfl, rfl⟩, rfl⟩, hclean⟩ := hframes
    exact ⟨d', rfl, hpolling, hinner, Prod.ext rfl hclean.symm⟩
  · rw [hpoll] at hagree
    exact absurd (h.due.symm.trans hagree) (by simp)

theorem Whole.ended {d : FrameDecoder} (h : Whole key base122 [] d) :
    ∃ d', pollNext key base122 .binary MAX_FRAME_BUF_SIZE d = (.ended, d') := by
  have hagree : Agrees key base122 .binary d.due _ := pollNext_agrees h.polling
  obtain ⟨hready, _⟩ := pollNext_ready key base122 h.ready
  rcases hpoll : pollNext key base122 .binary MAX_FRAME_BUF_SIZE d with ⟨_ | _ | ⟨seq', data'⟩ | e, d'⟩
  · exact absurd (by rw [hpoll]) hready
  · exact ⟨d', rfl⟩
  · rw [hpoll] at hagree
    exact absurd (h.due.symm.trans hagree.2) (by simp)
  · rw [hpoll] at hagree
    exact absurd (h.due.symm.trans hagree) (by simp)

/-- `k` frames are kept, all above `next_seq` and none above `k`. -/
structure Stocked (k : Nat) (r : Upload.Reorder) : Prop where
  next : r.nextSeq = 0
  frames : r.pending.entries.length = k
  bytes : r.pendingBytes = k
  above : ∀ q : UInt64, k < q.toNat → r.pending.lookup q = none

/-- The actor keeps one more frame. -/
theorem Stocked.store {k : Nat} {a : Upload.UploadActor} {r : Upload.Reorder} (h : Stocked k r)
    (writeOk : Nat → Bool) (now : Nat) (hphase : a.phase = .reordering r) (halive : a.done = false)
    (hk : k < Upload.MAX_PENDING_FRAMES) :
    ∃ r', Upload.step writeOk a (.recv now (.frame (seqAt 0 (k + 1)) [2])) =
        some { a with lastActivity := now, phase := .reordering r' } ∧
      Stocked (k + 1) r' ∧ r'.eosWaiters = r.eosWaiters := by
  have hframes : Upload.MAX_PENDING_FRAMES = 8192 := rfl
  have hbytes : Upload.MAX_PENDING_BYTES = 2097152 := rfl
  have hzero : (0 : UInt64).toNat = 0 := rfl
  have hseq : (seqAt 0 (k + 1)).toNat = k + 1 := by
    rw [seqAt_toNat (by omega)]
    omega
  have hnone := h.above (seqAt 0 (k + 1)) (by omega)
  refine ⟨{ r with pending := r.pending.insert (seqAt 0 (k + 1)) [2]
                   pendingBytes := r.pendingBytes + 1 }, ?_, ?_, rfl⟩
  · have hlt : ¬ seqAt 0 (k + 1) < r.nextSeq := by
      rw [h.next, UInt64.lt_iff_toNat_lt]
      omega
    have hne : seqAt 0 (k + 1) ≠ r.nextSeq := by
      rw [h.next]
      intro heq
      rw [heq] at hseq
      cases hseq
    have hfits : ¬ (r.pending.entries.length ≥ Upload.MAX_PENDING_FRAMES ∨
        r.pendingBytes + [(2 : UInt8)].length > Upload.MAX_PENDING_BYTES) := by
      rw [h.frames, h.bytes, List.length_singleton]
      omega
    simp only [Upload.step, halive, Upload.dispatch, Upload.handleFrame, hphase, hlt, hne, hnone, hfits,
      Bool.false_eq_true, if_false, Option.isSome_none]
    rfl
  · refine ⟨h.next, ?_, by rw [h.bytes], fun q hq => ?_⟩
    · have hnew : seqAt 0 (k + 1) ∉ r.pending := AList.lookup_eq_none.mp hnone
      rw [AList.entries_insert_of_notMem hnew, List.length_cons, h.frames]
    · have hq' : q ≠ seqAt 0 (k + 1) := by
        rintro rfl
        omega
      rw [AList.lookup_insert_ne hq']
      exact h.above q (by omega)

variable {writeOk : Nat → Bool} {s : Path} {bodies : List Bytes} {k : Nat}

/-- The POSTs 1 to `k` have been read to the end, and their EOS are waiting. -/
structure Backlog (bodies : List Bytes) (k : Nat) (s : Path) : Prop where
  posts : s.client.posts = bodies.map asPost
  handlers : s.handlers.map PostHandler.post = (List.range k).map (· + 1)
  alive : s.actor.done = false
  stocked : ∃ r, s.actor.phase = .reordering r ∧ Stocked k r ∧ r.eosWaiters.length = k

/-- The last handler polls its decoder. -/
theorem step_poll_last {hs : List PostHandler} {g : PostHandler} (hreading : g.stage = .reading) (t : Nat) :
    step key base122 .binary writeOk { s with handlers := hs ++ [g] } (.poll hs.length t) =
      Path.send writeOk { s with handlers := hs ++ [(g.poll key base122 .binary).handler] } t
        (g.poll key base122 .binary).cmd := by
  simp [step, hreading, Path.setHandler]

/-- The next POST arrives, and its frame is kept. -/
theorem Backlog.read (hkey : key.Lawful) (hb : base122.Lawful) (hbodies : Numbered key base122 bodies)
    (h : Backlog bodies k s) (writeOk : Nat → Bool) (hk : k + 1 < bodies.length)
    (hfits : k < Upload.MAX_PENDING_FRAMES) :
    ∃ g actor log, Reaches (step key base122 .binary writeOk) (fun s e => orderly s e = true) s
        { s with handlers := s.handlers ++ [g], actor, log } ∧
      g.post = k + 1 ∧ g.stage = .closing ∧ g.maxSeq = seqAt 0 (k + 1) ∧ actor.done = false ∧
      ∃ r, actor.phase = .reordering r ∧ Stocked (k + 1) r ∧ r.eosWaiters.length = k := by
  obtain ⟨r, hphase, hstocked, hwaiters⟩ := h.stocked
  have hcarries := hbodies (k + 1) bodies[k + 1] (List.getElem?_eq_getElem hk)
  -- the body is the frame of its number
  have hwhole : Whole key base122 [(seqAt 0 (k + 1), [2])] (.new [.chunk bodies[k + 1]]) := by
    refine ⟨⟨rfl, nofun, by simp [FrameDecoder.new]⟩, by simp [FrameDecoder.new], ?_⟩
    have hdue : (FrameDecoder.new [.chunk bodies[k + 1]]).due = bodies[k + 1] ++ [] := rfl
    rw [hdue, frames_carries hkey hb hcarries, frames_nil]
  obtain ⟨d₁, hpoll₁, hwhole₁⟩ := hwhole.item
  obtain ⟨d₂, hpoll₂⟩ := hwhole₁.ended
  obtain ⟨r', hact, hstocked', hsame⟩ := hstocked.store writeOk 0 hphase h.alive hfits
  have harrive : step key base122 .binary writeOk s (.arrive (k + 1) [.chunk bodies[k + 1]]) =
      some { s with handlers := s.handlers ++ [.new (k + 1) [.chunk bodies[k + 1]]] } := by
    have hpost : s.client.posts[k + 1]? = some (asPost bodies[k + 1]) := by
      rw [h.posts, List.getElem?_map, List.getElem?_eq_getElem hk, Option.map_some]
    have hcuts : Cuts [.chunk bodies[k + 1]] (asPost bodies[k + 1]).body :=
      ⟨fun e => by simp, by simp [fed, asPost]⟩
    simp only [step, hpost]
    rw [if_pos hcuts]
  have horderly : orderly s (.arrive (k + 1) [.chunk bodies[k + 1]]) = true := by
    simp [orderly, h.handlers]
  have hmax : max 0 (seqAt 0 (k + 1)) = seqAt 0 (k + 1) := if_pos UInt64.zero_le
  have hpassed : step key base122 .binary writeOk
      { s with handlers := s.handlers ++ [.new (k + 1) [.chunk bodies[k + 1]]] }
      (.poll s.handlers.length 0) =
      some { s with
        handlers := s.handlers ++ [⟨k + 1, d₁, seqAt 0 (k + 1), 1, .reading⟩]
        actor := { s.actor with lastActivity := 0, phase := .reordering r' }
        log := s.log ++ [.recv 0 (.frame (seqAt 0 (k + 1)) [2])] } := by
    rw [step_poll_last rfl, PostHandler.poll]
    simp only [PostHandler.new, hpoll₁, hmax, Path.send, Path.receive, hact, Option.map_some]
  have hclosed (actor : Upload.UploadActor) (log : List Upload.Event) : step key base122 .binary writeOk
      { s with handlers := s.handlers ++ [⟨k + 1, d₁, seqAt 0 (k + 1), 1, .reading⟩], actor, log }
      (.poll s.handlers.length 0) =
      some { s with handlers := s.handlers ++ [⟨k + 1, d₂, seqAt 0 (k + 1), 1, .closing⟩], actor, log } := by
    have hpoll := @step_poll_last key base122 writeOk { s with actor, log } s.handlers
      ⟨k + 1, d₁, seqAt 0 (k + 1), 1, .reading⟩ rfl 0
    rw [hpoll, PostHandler.poll]
    simp only [hpoll₂, Path.send]
    rfl
  exact ⟨_, _, _, .head horderly harrive (.head rfl hpassed (.head rfl (hclosed _ _) (.refl ..))),
    rfl, rfl, rfl, h.alive, r', rfl, hstocked', hsame ▸ hwaiters⟩

/-- The last handler sends its EOS. -/
theorem step_eos_last {hs : List PostHandler} {g : PostHandler} (hclosing : g.stage = .closing) (t : Nat) :
    step key base122 .binary writeOk { s with handlers := hs ++ [g] } (.eos hs.length t) =
      Path.receive writeOk { s with handlers := hs ++ [{ g with stage := .waiting }] }
        (.recv t (.eos g.maxSeq hs.length)) := by
  simp [step, hclosing, Path.setHandler]

/-- The frame 0 is missing, so an EOS waits or is refused. -/
theorem Stocked.eos {now ack : Nat} {a : Upload.UploadActor} {r : Upload.Reorder} (h : Stocked k r)
    (hphase : a.phase = .reordering r) (halive : a.done = false) (m : UInt64) :
    Upload.step writeOk a (.recv now (.eos m ack)) =
      if r.eosWaiters.length ≥ Upload.MAX_EOS_WAITERS then
        some (Upload.finish { a with lastActivity := now, acks := a.acks ++ [(ack, refusal)] })
      else
        some { a with
          lastActivity := now
          phase := .reordering { r with eosWaiters := r.eosWaiters ++ [(m, ack)] } } := by
  have hlt : ¬ r.nextSeq > m := by
    rw [h.next]
    exact UInt64.not_lt.mpr UInt64.zero_le
  simp only [Upload.step, halive, Upload.dispatch, Upload.handleEos, hphase, hlt, Bool.false_eq_true,
    if_false]
  split
  · rename_i hfinish
    split at hfinish
    · rw [if_pos ‹_›, ← (Prod.mk.inj hfinish).2]
      rfl
    · cases (Prod.mk.inj hfinish).1
  · rename_i hstored
    split at hstored
    · cases (Prod.mk.inj hstored).1
    · rw [if_neg ‹_›, ← (Prod.mk.inj hstored).2]

/-- **One more waiter**, while there is room. -/
theorem Backlog.next (hkey : key.Lawful) (hb : base122.Lawful) (hbodies : Numbered key base122 bodies)
    (h : Backlog bodies k s) (hk : k + 1 < bodies.length) (hroom : k < Upload.MAX_EOS_WAITERS) :
    ∃ s', Reaches (step key base122 .binary writeOk) (fun s e => orderly s e = true) s s' ∧
      Backlog bodies (k + 1) s' := by
  have hfits : k < Upload.MAX_PENDING_FRAMES := Nat.lt_trans hroom (by decide)
  obtain ⟨g, actor, log, hread, hpost, hclosing, _, halive, r, hphase, hstocked, hwaiters⟩ :=
    h.read hkey hb hbodies writeOk hk hfits
  have hstep := @step_eos_last key base122 writeOk { s with actor, log } s.handlers g hclosing 0
  rw [Path.receive, hstocked.eos hphase halive, hwaiters, if_neg (Nat.not_le.mpr hroom)] at hstep
  refine ⟨_, hread.trans (.head rfl hstep (.refl ..)), h.posts, ?_, halive, _, rfl, ?_, ?_⟩
  · rw [List.map_append, h.handlers, List.range_succ, List.map_append]
    exact congrArg _ (congrArg (fun i => [i]) hpost)
  · exact ⟨hstocked.next, hstocked.frames, hstocked.bytes, hstocked.above⟩
  · rw [List.length_append, hwaiters, List.length_singleton]

/-- Up to the limit. -/
theorem backlog_run (hkey : key.Lawful) (hb : base122.Lawful) (hbodies : Numbered key base122 bodies)
    (h : Backlog bodies 0 s) {n : Nat} (hn : n < bodies.length) (hroom : n ≤ Upload.MAX_EOS_WAITERS) :
    ∃ s', Reaches (step key base122 .binary writeOk) (fun s e => orderly s e = true) s s' ∧
      Backlog bodies n s' := by
  induction n with
  | zero => exact ⟨s, .refl .., h⟩
  | succ n ih =>
    obtain ⟨s', hreach, h'⟩ := ih (by omega) (by omega)
    obtain ⟨s'', hnext, h''⟩ := h'.next hkey hb hbodies hn hroom
    exact ⟨s'', hreach.trans hnext, h''⟩

/-- The EOS behind a full list is refused. -/
theorem Backlog.refused (hkey : key.Lawful) (hb : base122.Lawful) (hbodies : Numbered key base122 bodies)
    (h : Backlog bodies Upload.MAX_EOS_WAITERS s) (hk : Upload.MAX_EOS_WAITERS + 1 < bodies.length) :
    ∃ s' ack, Reaches (step key base122 .binary writeOk) (fun s e => orderly s e = true) s s' ∧
      (ack, refusal) ∈ s'.actor.acks := by
  obtain ⟨g, actor, log, hread, _, hclosing, _, halive, r, hphase, hstocked, hwaiters⟩ :=
    h.read hkey hb hbodies writeOk hk (by decide)
  have hstep := @step_eos_last key base122 writeOk { s with actor, log } s.handlers g hclosing 0
  rw [Path.receive, hstocked.eos hphase halive, if_pos (Nat.le_of_eq hwaiters.symm)] at hstep
  refine ⟨_, s.handlers.length, hread.trans (.head rfl hstep (.refl ..)), ?_⟩
  exact List.mem_append_left _ (List.mem_append_right _ List.mem_cons_self)

end Server

/-- **The limits do not fit.**  With any cipher, and 258 permits or more: some order in which the POSTs
    reach the server makes it refuse an EOS. -/
theorem some_eos_refused {key : LessSafeKey} {base122 : Base122Fast} (hkey : key.Lawful)
    (hseal : key.NeverFails) (hb : base122.Lawful) (uploadConcurrency maxInFlightBytes : Nat)
    (hmany : Upload.MAX_EOS_WAITERS + 2 ≤ uploadConcurrency)
    (hbytes : MIN_IN_FLIGHT_BYTES ≤ maxInFlightBytes) (writeOk : Nat → Bool) (random now : Nat) :
    ∃ s ack, Reaches (step key base122 .binary writeOk) (fun s e => orderly s e = true)
        (.start (.new demoConfig uploadConcurrency maxInFlightBytes [] 0 random) [] now) s ∧
      (ack, refusal) ∈ s.actor.acks := by
  have hlimit : MIN_IN_FLIGHT_BYTES = 20480 := rfl
  have hwaiters : Upload.MAX_EOS_WAITERS = 256 := rfl
  let client := UploadLoopActor.new demoConfig uploadConcurrency maxInFlightBytes [] 0 random
  have hstands : Stands client.limits [] 0 [] (.sealing []) client :=
    ⟨rfl, rfl, rfl, rfl, rfl, rfl, rfl, rfl, rfl, rfl⟩
  have hroom : 41 < client.limits.maxBatchBytes := by
    show 41 < max (min MAX_BATCH_BYTES (maxInFlightBytes - maxEncodedFrameLen .binary)) 1
    have hframe : maxEncodedFrameLen .binary = 16424 := rfl
    have hbatch : MAX_BATCH_BYTES = 1048576 := rfl
    omega
  obtain ⟨bodies, u, hlen, hbodies, hstands', hclient⟩ :=
    @client_spawns key base122 _ _ hkey hseal hroom hstands (Upload.MAX_EOS_WAITERS + 2) hmany
      (Nat.le_trans (by decide) hbytes)
  -- the first request carries no data
  have hwhole : Whole key base122 [] (.new []) :=
    ⟨⟨rfl, nofun, fun _ => List.not_mem_nil⟩, List.not_mem_nil, frames_nil⟩
  obtain ⟨opening, hpoll⟩ := hwhole.ended
  have hopen : step key base122 .binary writeOk (.start client [] now) (.opening 0) =
      some { Path.start client [] now with opening, opened := true } := by
    simp [step, Path.start, hpoll]
  have hspawned := @reaches_client key base122 writeOk
    { Path.start client [] now with opening, opened := true } u rfl hclient
  have hbacklog : Backlog bodies 0
      { Path.start client [] now with opening, opened := true, client := u } :=
    ⟨hstands'.posts_eq, rfl, rfl, _, rfl, ⟨rfl, rfl, rfl, fun _ _ => rfl⟩, rfl⟩
  obtain ⟨s, hfilled, hfull⟩ := @backlog_run key base122 writeOk _ bodies hkey hb hbodies hbacklog
    Upload.MAX_EOS_WAITERS (by omega) (Nat.le_refl _)
  obtain ⟨s', ack, hlast, hrefused⟩ :=
    @Backlog.refused key base122 writeOk s bodies hkey hb hbodies hfull (by omega)
  exact ⟨s', ack, .head rfl hopen (hspawned.trans (hfilled.trans hlast)), hrefused⟩

/-- `upload_concurrency = 258`, and all else as it is by default: `build_state` accepts it, the first
    request carries no data, and in some run without failed or repeated POSTs an EOS is refused. -/
theorem eos_refused_with_258_posts :
    (buildState none (some 258)).toOption = some (2097152, 258) ∧
    (encodeInitialPayload zeroKey publishedBase122 demoConfig (fun _ => demoDraw) []
      MAX_RAW_PAYLOAD).toOption = some ([], [], 0) ∧
    ∃ es s ack, run (step zeroKey publishedBase122 .binary fun _ => true)
        (.start (.new demoConfig 258 2097152 [] 0 0) [] 0) es = some s ∧
      Meets (step zeroKey publishedBase122 .binary fun _ => true) (fun s e => orderly s e = true)
        (.start (.new demoConfig 258 2097152 [] 0 0) [] 0) es ∧
      (ack, refusal) ∈ s.actor.acks ∧ ¬ NoneRefused s.actor := by
  refine ⟨by decide, by decide +kernel, ?_⟩
  obtain ⟨s, ack, ⟨es, hrun, horderly⟩, hrefused⟩ :=
    some_eos_refused zeroKey_lawful (streamKey_neverFails _) publishedBase122_lawful 258 2097152
      (by decide) (by decide) (fun _ => true) 0 0
  exact ⟨es, s, ack, hrun, horderly, hrefused, fun hnone => hnone ack hrefused⟩

end Httproxy.UploadPath
