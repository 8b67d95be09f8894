/-
  What somebody on the network can do to a tunnel: cut it off, and nothing else.

  Requests and responses pass through relays that may drop, repeat, reorder, cut and invent bodies.
  Against that stand the sealed frames and their numbers: the client's `ingest` takes the frames of a
  download in sequence only, and the server's upload actor writes them in sequence only.

  1. **Assumption (`Authentic`)** — what AES-GCM is used for: a box that opens under the key was sealed
     by the other side, as one of the frames it made.  Nothing is assumed about the bodies.

  2. **The decoders (`decodeFrame_authentic`)** — so whatever bytes are decoded, an item that comes out
     is a frame of the other side, with its own number and its own data.

  3. **The numbers (`numbered_prefix`)** — items that are taken by their number, from 0 on, are the first
     frames in order.

  The theorems are `download_tampering_harmless` and `upload_tampering_harmless`.
-/
import Httproxy.Client.DownloadLoop
import Httproxy.UploadPath

namespace Httproxy.Tampering

open Crypto Machine Seq Shaper

/-! ## Assumption -/

/-- Every box that opens under the key holds the plaintext of one of the frames. -/
def Authentic (key : LessSafeKey) (frames : List SealedFrame) : Prop :=
  ∀ nonce box body len, key.openInPlace nonce box = (body, some len) →
    ∃ f ∈ frames, ∃ padding left, body = framePlain f.seq f.data padding ++ left ∧
      len = (framePlain f.seq f.data padding).length

/-- The number and the data of an item are those of a frame. -/
def Genuine (frames : List SealedFrame) (item : UInt64 × Bytes) : Prop :=
  item ∈ UploadPath.itemsOf frames

/-! ## The decoders -/

section Decoders

variable {key : LessSafeKey} {base122 : Base122Fast} {encoding : EncodingType}
  {frames : List SealedFrame}

/-- Opening a buffer in place shows a plaintext of one of the frames behind the nonce. -/
theorem decryptInPlace_authentic (hauth : Authentic key frames) {buf buf' : Bytes} {start stop : Nat}
    (h : decryptInPlace key buf = (buf', .ok (start, stop))) :
    ∃ nonce : Nonce, ∃ f ∈ frames, ∃ padding left,
      buf' = nonce ++ framePlain f.seq f.data padding ++ left ∧ start = NONCE_LEN ∧
      stop = NONCE_LEN + (framePlain f.seq f.data padding).length := by
  unfold decryptInPlace at h
  split at h
  · cases congrArg Prod.snd h
  · rename_i hlong
    dsimp only at h
    split at h
    · cases congrArg Prod.snd h
    · rename_i body len hopen
      obtain ⟨f, hf, padding, left, rfl, rfl⟩ := hauth _ _ _ _ hopen
      obtain ⟨rfl, hrange⟩ := Prod.mk.inj h
      obtain ⟨rfl, rfl⟩ := Prod.mk.inj (Except.ok.inj hrange)
      refine ⟨⟨buf.take NONCE_LEN, ?_⟩, f, hf, padding, left, ?_, rfl, rfl⟩
      · rw [List.length_take]
        omega
      · exact (List.append_assoc _ _ _).symm

theorem openBody_authentic (hauth : Authentic key frames) (hsize : ∀ f ∈ frames, f.data.length < 2 ^ 16)
    {view : Bytes} {frame : DecodedFrame} (scratch : Scratch)
    (h : Decoder.openBody key view = .ok frame) : Genuine frames (Decoder.itemOf scratch frame) := by
  unfold Decoder.openBody at h
  split at h
  · cases h
  · rename_i opened offset stop hopened
    obtain ⟨nonce, f, hf, padding, left, rfl, rfl, -⟩ := decryptInPlace_authentic hauth hopened
    have hplain : (nonce.1 ++ framePlain f.seq f.data padding ++ left).drop NONCE_LEN =
        framePlain f.seq f.data padding ++ left := by
      rw [List.append_assoc, List.drop_left' nonce.2]
    have hdata := slice_framePlain nonce.1 f.seq f.data padding left
    rw [nonce.2] at hdata
    rw [hplain, extractFrameRange_framePlain f.seq f.data (hsize f hf)] at h
    obtain rfl := Except.ok.inj h
    show (f.seq, _) ∈ _
    rw [hdata]
    exact List.mem_map.mpr ⟨f, hf, rfl⟩

theorem openLine_authentic (hauth : Authentic key frames) (hsize : ∀ f ∈ frames, f.data.length < 2 ^ 16)
    {line : Bytes} {scratch scratch' : Scratch} {frame : DecodedFrame}
    (h : Decoder.openLine key base122 line scratch = (.ok frame, scratch')) :
    Genuine frames (Decoder.itemOf scratch' frame) := by
  unfold Decoder.openLine at h
  dsimp only at h
  split at h
  · cases congrArg Prod.fst h
  · split at h
    · cases congrArg Prod.fst h
    · rename_i opened start stop hopened
      obtain ⟨nonce, f, hf, padding, left, rfl, rfl, rfl⟩ := decryptInPlace_authentic hauth hopened
      have hplain := Bytes.slice_append nonce.1 (framePlain f.seq f.data padding) left
      rw [nonce.2] at hplain
      have hextract := extractFrameRange_framePlain f.seq f.data (hsize f hf) padding []
      rw [List.append_nil] at hextract
      have hdata := slice_framePlain nonce.1 f.seq f.data padding left
      rw [nonce.2] at hdata
      rw [hplain, hextract] at h
      obtain ⟨hframe, rfl⟩ := Prod.mk.inj h
      obtain rfl := Except.ok.inj hframe
      show (f.seq, _) ∈ _
      rw [hdata]
      exact List.mem_map.mpr ⟨f, hf, rfl⟩

/-- **Only frames of the other side come out of `decode_frame`**, whatever bytes go in. -/
theorem decodeFrame_authentic (hauth : Authentic key frames)
    (hsize : ∀ f ∈ frames, f.data.length < 2 ^ 16) {src : Bytes} {scratch : Scratch}
    {frame : DecodedFrame}
    (h : (decodeFrame key base122 src scratch encoding).result = .ok (some frame)) :
    Genuine frames (Decoder.itemOf (decodeFrame key base122 src scratch encoding).scratch frame) := by
  cases encoding with
  | binary =>
    rw [Decoder.decodeFrame_binary_eq] at h ⊢
    split at h
    · cases h
    · split at h
      · cases h
      · split at h
        · cases h
        · rename_i hlong hlimit hwhole
          rw [if_neg hlong, if_neg hlimit, if_neg hwhole]
          cases hopen : Decoder.openBody key ((src.drop 2).take (readU16Be (src.take 2))) with
          | error e =>
            rw [hopen] at h
            cases h
          | ok frame' =>
            rw [hopen] at h
            obtain rfl := Option.some.inj (Except.ok.inj h)
            exact openBody_authentic hauth hsize scratch hopen
  | json =>
    rw [Decoder.decodeFrame_json_eq] at h ⊢
    cases hnewline : src.idxOf? DELIMITER with
    | none =>
      rw [hnewline] at h
      dsimp only at h
      split at h
      · cases h
      · cases h
    | some pos =>
      rw [hnewline] at h
      dsimp only at h ⊢
      split at h
      · cases h
      · split at h
        · cases h
        · rename_i hlimit hne
          rw [if_neg hlimit, if_neg hne]
          cases hopen : Decoder.openLine key base122 (src.take pos) scratch with
          | mk opened scratch' =>
            rw [hopen] at h
            cases opened with
            | error e => cases h
            | ok frame' =>
              obtain rfl := Option.some.inj (Except.ok.inj h)
              exact openLine_authentic hauth hsize hopen

theorem frames_authentic (hauth : Authentic key frames) (hsize : ∀ f ∈ frames, f.data.length < 2 ^ 16)
    (body : Bytes) : ∀ item ∈ (Decoder.frames key base122 encoding body).1, Genuine frames item := by
  fun_induction Decoder.frames key base122 encoding body with
  | case1 body decoding f hres rest ih =>
    intro item hmem
    rcases List.mem_cons.mp hmem with rfl | hmem
    · exact decodeFrame_authentic hauth hsize hres
    · exact ih item hmem
  | case2 => exact fun item hmem => absurd hmem List.not_mem_nil
  | case3 => exact fun item hmem => absurd hmem List.not_mem_nil

/-- The same for a decoder that is polled, in whatever state it is. -/
theorem pollNext_authentic (hauth : Authentic key frames)
    (hsize : ∀ f ∈ frames, f.data.length < 2 ^ 16) {maxBufSize : Nat} {d d' : Decoder.FrameDecoder}
    {seq : UInt64} {data : Bytes}
    (h : Decoder.pollNext key base122 encoding maxBufSize d = (.item seq data, d')) :
    Genuine frames (seq, data) := by
  fun_induction Decoder.pollNext key base122 encoding maxBufSize d with
  | case1 d decoding d'' seq' start stop hres =>
    obtain ⟨rfl, rfl⟩ := Decoder.Polled.item.inj (Prod.mk.inj h).1
    exact decodeFrame_authentic hauth hsize hres
  | case2 d decoding d'' seq' data' hres =>
    obtain ⟨rfl, rfl⟩ := Decoder.Polled.item.inj (Prod.mk.inj h).1
    exact decodeFrame_authentic hauth hsize hres
  | case3 => cases (Prod.mk.inj h).1
  | case4 => cases (Prod.mk.inj h).1
  | case5 => cases (Prod.mk.inj h).1
  | case6 => cases (Prod.mk.inj h).1
  | case7 d decoding d'' hres heos hlimit b rest hin ih => exact ih h
  | case8 => cases (Prod.mk.inj h).1
  | case9 d decoding d'' hres heos hlimit hin ih => exact ih h
  | case10 => cases (Prod.mk.inj h).1

end Decoders

/-! ## The server's side of an upload -/

open UploadPath (PostHandler itemsOf background)

/-- The handlers of a tunnel's requests, whoever sent them, and its upload actor. -/
structure Server where
  handlers : List PostHandler
  actor : Upload.UploadActor
  /-- Log: what the upload actor has received. -/
  log : List Upload.Event

def Server.start (now : Nat) : Server := ⟨[], Upload.new 0 now, []⟩

inductive Event where
  /-- A request with some body, in some pieces; it may break off. -/
  | request (inner : List Decoder.Feed)
  /-- The `j`-th handler polls its decoder. -/
  | poll (j now : Nat)
  /-- The `j`-th handler sends its `Eos`. -/
  | eos (j now : Nat)
  /-- The actor's timeout, its shutdown, the end of its channel. -/
  | actor (e : Upload.Event)

section Program

variable (key : LessSafeKey) (base122 : Base122Fast) (encoding : EncodingType) (writeOk : Nat → Bool)

def Server.receive (s : Server) (e : Upload.Event) : Option Server :=
  (Upload.step writeOk s.actor e).map fun actor => { s with actor, log := s.log ++ [e] }

def Server.send (s : Server) (now : Nat) : Option Upload.UploadCmd → Option Server
  | none => some s
  | some cmd => s.receive writeOk (.recv now cmd)

def step (s : Server) : Event → Option Server
  | .request inner => some { s with handlers := s.handlers ++ [.new s.handlers.length inner] }
  | .poll j now =>
    match s.handlers[j]? with
    | some h =>
      if h.stage = .reading then
        let polled := h.poll key base122 encoding
        { s with handlers := s.handlers.set j polled.handler }.send writeOk now polled.cmd
      else none
    | none => none
  | .eos j now =>
    match s.handlers[j]? with
    | some h =>
      if h.stage = .closing then
        { s with handlers := s.handlers.set j { h with stage := .waiting } }.receive writeOk
          (.recv now (.eos h.maxSeq j))
      else none
    | none => none
  | .actor e => if background e then s.receive writeOk e else none

end Program

section Runs

variable {key : LessSafeKey} {base122 : Base122Fast} {encoding : EncodingType} {writeOk : Nat → Bool}
  {frames : List SealedFrame}

/-- What holds of the server, whatever reaches it. -/
structure Inv (writeOk : Nat → Bool) (frames : List SealedFrame) (now : Nat) (s : Server) : Prop where
  actor : run (Upload.step writeOk) (Upload.new 0 now) s.log = some s.actor
  genuine : ∀ item ∈ Upload.framesOf s.log, Genuine frames item

theorem inv_start (writeOk : Nat → Bool) (frames : List SealedFrame) (now : Nat) :
    Inv writeOk frames now (.start now) :=
  ⟨rfl, fun _ hmem => absurd hmem List.not_mem_nil⟩

/-- The actor receives one thing more; if it is a frame, a frame of the client's. -/
theorem Inv.receive {now : Nat} {s s' : Server} {handlers : List PostHandler} {e : Upload.Event}
    (h : Inv writeOk frames now s) (he : ∀ item ∈ Upload.framesOf [e], Genuine frames item)
    (hstep : Server.receive writeOk { s with handlers } e = some s') : Inv writeOk frames now s' := by
  obtain ⟨actor, hact, rfl⟩ := Option.map_eq_some_iff.mp hstep
  constructor
  · show run _ _ (s.log ++ [e]) = some actor
    rw [run_append, h.actor]
    simpa [run] using hact
  · show ∀ item ∈ Upload.framesOf (s.log ++ [e]), _
    intro item hmem
    rw [Upload.framesOf_append] at hmem
    rcases List.mem_append.mp hmem with hmem | hmem
    · exact h.genuine item hmem
    · exact he item hmem

theorem inv_step (hauth : Authentic key frames) (hsize : ∀ f ∈ frames, f.data.length < 2 ^ 16)
    {now : Nat} {s s' : Server} {e : Event} (h : Inv writeOk frames now s)
    (hstep : step key base122 encoding writeOk s e = some s') : Inv writeOk frames now s' := by
  cases e with
  | request inner =>
    obtain rfl := Option.some.inj hstep
    exact ⟨h.actor, h.genuine⟩
  | poll j t =>
    rw [step] at hstep
    split at hstep
    · rename_i g hget
      rw [Option.ite_none_right_eq_some] at hstep
      obtain ⟨-, hstep⟩ := hstep
      dsimp only at hstep
      rw [PostHandler.poll] at hstep
      split at hstep
      · obtain rfl := Option.some.inj hstep
        exact ⟨h.actor, h.genuine⟩
      · rename_i seq data decoder hpoll
        refine h.receive (fun item hmem => ?_) hstep
        obtain rfl := List.mem_singleton.mp hmem
        exact pollNext_authentic hauth hsize hpoll
      · obtain rfl := Option.some.inj hstep
        exact ⟨h.actor, h.genuine⟩
      · obtain rfl := Option.some.inj hstep
        exact ⟨h.actor, h.genuine⟩
    · cases hstep
  | eos j t =>
    rw [step] at hstep
    split at hstep
    · rw [Option.ite_none_right_eq_some] at hstep
      exact h.receive (fun item hmem => absurd hmem List.not_mem_nil) hstep.2
    · cases hstep
  | actor e =>
    rw [step, Option.ite_none_right_eq_some] at hstep
    obtain ⟨hback, hstep⟩ := hstep
    refine h.receive (fun item hmem => ?_) hstep
    cases e with
    | recv t cmd =>
      cases cmd with
      | frame seq data => cases hback
      | eos m ack => cases hback
      | shutdown => exact absurd hmem List.not_mem_nil
    | closed => exact absurd hmem List.not_mem_nil
    | timeout t => exact absurd hmem List.not_mem_nil

/-- Data that fits into a frame has a length that fits into its header. -/
theorem carries_size {f : SealedFrame} {padding : Nat}
    (h : Carries key base122 encoding f.bytes f.seq f.data padding) : f.data.length < 2 ^ 16 := by
  obtain ⟨-, -, -, hfits, -⟩ := h
  have hlimit : frameRawLimit encoding < 2 ^ 16 := by
    cases encoding <;> decide
  omega

/-- Fewer frames than bytes. -/
theorem count_lt {fs : List SealedFrame} (hne : ∀ f ∈ fs, f.data ≠ []) {n : Nat}
    (hbytes : (fs.map SealedFrame.data).flatten.length ≤ n) (hn : n < 2 ^ 64) :
    fs.length < 2 ^ 64 :=
  Nat.lt_of_le_of_lt (Nat.le_trans (UploadPath.length_le_data hne) hbytes) hn

/-- What the actor has written is a front of the frames. -/
theorem written_front {now : Nat} {s : Server} (h : Inv writeOk frames now s)
    (hseqs : frames.map SealedFrame.seq = (List.range frames.length).map (seqAt 0))
    (hcount : frames.length < 2 ^ 64) :
    Upload.written s.actor <+: frames.map SealedFrame.data := by
  have hnumbered : (itemsOf frames).map Prod.fst =
      (List.range (itemsOf frames).length).map (seqAt 0) := by
    rw [itemsOf, List.map_map, List.length_map]
    exact hseqs
  have hlength : (itemsOf frames).length < 2 ^ 64 := by
    rwa [itemsOf, List.length_map]
  have horder : Upload.InOrder 0 (Upload.framesOf s.log) (Upload.written s.actor) :=
    (Upload.inv_run h.actor).core.order
  have hprefix := numbered_prefix hnumbered hlength fun i d hi hlt => by
    have hlook := horder i d hi (by rwa [UInt64.toNat_zero, Nat.zero_add])
    obtain ⟨before, after, hsplit, -⟩ := List.lookup_eq_some_iff.mp hlook
    refine h.genuine _ ?_
    rw [hsplit]
    exact List.mem_append_right _ List.mem_cons_self
  rwa [itemsOf, List.map_map] at hprefix

end Runs

/-! ## Headlines -/

/-- **The client delivers a front of what upstream sent, or all of it, whatever the network does to the
    download.**

    The server's shaper has read and sealed; nobody else has the key.  The client's loop gets responses
    with any bodies.  Then what it takes are the first frames of the shaper, and what it has written or
    queued is a front of the bytes the shaper has read. -/
theorem download_tampering_harmless (key : LessSafeKey) (hseal : key.NeverFails)
    (base122 : Base122Fast) (config : ResolvedShaperConfig) (random : Nat)
    (shaping : List Shaper.Event) (p : Shaper.Polling)
    (hshaping : run (Shaper.step key base122) (.new (.withSeq config 0 random)) shaping = some p)
    (hauth : Authentic key p.frames) (hsize : (bytesRead p.reads).length < 2 ^ 64)
    (maxBytes : Option UInt64) (es : List Download.Event) (l : Download.Loop)
    (hclient : run (Download.loopStep key base122 config.encoding maxBytes) (.new maxBytes) es =
      some l) :
    l.accepted <+: itemsOf p.frames ∧
      l.written ++ l.buffers.queue.pending.flatten <+: bytesRead p.reads := by
  have hconserved := conserved_run hseal hshaping
  have hread := Download.reading_run hclient
  have hfits : ∀ f ∈ p.frames, f.data.length < 2 ^ 16 := by
    intro f hf
    obtain ⟨-, padding, hcarries⟩ := hconserved.carried f hf
    exact carries_size hcarries
  have hcount : p.frames.length < 2 ^ 64 := by
    have hbytes := congrArg List.length hconserved.bytes
    rw [List.length_append] at hbytes
    exact count_lt (fun f hf => (hconserved.carried f hf).1) (by omega) hsize
  -- every frame that was accepted is one of the shaper's
  have hgenuine : ∀ item ∈ l.accepted, Genuine p.frames item := by
    intro item hmem
    obtain ⟨body, -, hitem⟩ : ∃ body ∈ l.bodies ++ [l.body],
        item ∈ (Decoder.frames key base122 config.encoding body).1 := by
      simpa [Download.decoded] using hread.front.subset hmem
    exact frames_authentic hauth hfits body item hitem
  have hnumbered : (itemsOf p.frames).map Prod.fst =
      (List.range (itemsOf p.frames).length).map (seqAt 0) := by
    rw [itemsOf, List.map_map, List.length_map]
    exact hconserved.seqs
  have hfront : l.accepted <+: itemsOf p.frames :=
    prefix_of_numbered hread.numbered hnumbered (by rwa [itemsOf, List.length_map]) hgenuine
  refine ⟨hfront, ?_⟩
  rw [hread.flow, ← hconserved.bytes]
  have hdata : (l.accepted.map Prod.snd).flatten <+: (p.frames.map SealedFrame.data).flatten := by
    have hmap := (hfront.map Prod.snd).flatten
    rwa [itemsOf, List.map_map] at hmap
  exact hdata.trans (List.prefix_append _ _)

/-- The key of the demo for those who have it: a box opens only if the server has sealed it. -/
def relayedKey : LessSafeKey where
  sealSeparateTag := Download.downloadKey.sealSeparateTag
  openInPlace nonce box :=
    if nonce.1 = .replicate 12 0 ∧
        (box = Download.demoFrame0.drop 14 ∨ box = Download.demoFrame1.drop 14) then
      Download.downloadKey.openInPlace nonce box
    else (box, none)

/-- The frames 0 of `[1]` and 1 of `[2]`. -/
def relayedFrames : List SealedFrame :=
  [⟨0, [1], Download.demoFrame0⟩, ⟨1, [2], Download.demoFrame1⟩]

theorem relayedKey_authentic : Authentic relayedKey relayedFrames := by
  intro nonce box body len hopen
  simp only [relayedKey] at hopen
  split at hopen
  · rename_i hbox
    rcases hbox with ⟨-, rfl | rfl⟩
    · obtain ⟨rfl, hlen⟩ := Prod.mk.inj hopen
      obtain rfl := Option.some.inj hlen
      exact ⟨_, List.mem_cons_self, 0, _, rfl, rfl⟩
    · obtain ⟨rfl, hlen⟩ := Prod.mk.inj hopen
      obtain rfl := Option.some.inj hlen
      exact ⟨_, List.mem_cons_of_mem _ List.mem_cons_self, 0, _, rfl, rfl⟩
  · cases (Prod.mk.inj hopen).2

/-- The server's shaper seals `[1]` and `[2]`. -/
def relayedShaping : List Shaper.Event :=
  [.call [], .turn ⟨.filled [1], false, demoDraw⟩, .turn ⟨.pending, true, demoDraw⟩,
    .call [], .turn ⟨.filled [2], false, demoDraw⟩, .turn ⟨.pending, true, demoDraw⟩]

/-- The first frame comes in two pieces, then a second time. -/
def replayedBodies : List Download.Event :=
  [.chunk (Download.demoFrame0.take 20) fun _ => .room 1,
    .chunk (Download.demoFrame0.drop 20) fun _ => .room 1, .flushDeadline fun _ => .room 1,
    .chunk Download.demoFrame0 fun _ => .room 1]

theorem download_tampering_harmless_demo :
    ∃ p l, run (Shaper.step relayedKey publishedBase122) (.new (.withSeq demoConfig 0 0))
        relayedShaping = some p ∧
      run (Download.loopStep relayedKey publishedBase122 .binary none) (.new none) replayedBodies =
        some l ∧
      bytesRead p.reads = [1, 2] ∧ l.stage = .failed (.outOfOrder 0 1) ∧
      l.written ++ l.buffers.queue.pending.flatten <+: [1, 2] := by
  obtain ⟨p, hp, hframes, hread⟩ : ∃ p, run (Shaper.step relayedKey publishedBase122)
      (.new (.withSeq demoConfig 0 0)) relayedShaping = some p ∧ p.frames = relayedFrames ∧
        bytesRead p.reads = [1, 2] := ⟨_, rfl, rfl, rfl⟩
  have hclient : (run (Download.loopStep relayedKey publishedBase122 .binary none) (.new none)
      replayedBodies).map Download.Loop.stage = some (.failed (.outOfOrder 0 1)) := by decide +kernel
  obtain ⟨l, hl, hstage⟩ := Option.map_eq_some_iff.mp hclient
  have hharmless := download_tampering_harmless relayedKey (streamKey_neverFails _)
    publishedBase122 demoConfig 0 relayedShaping p hp (hframes ▸ relayedKey_authentic)
    (by rw [hread]; decide) none replayedBodies l hl
  exact ⟨p, l, hp, hl, hread, hstage, hread ▸ hharmless.2⟩

/-- **Upstream gets a front of what the local socket sent, or all of it, whatever requests reach the
    server.**

    The client has sealed its early data and what its loop has read; nobody else has the key.  Requests
    reach the server with any bodies, in any order, any number of them at a time, and break off anywhere.
    Then what the upload actor writes is a front of the initial payload and the bytes of the socket. -/
theorem upload_tampering_harmless (key : LessSafeKey) (hseal : key.NeverFails) (base122 : Base122Fast)
    (config : ResolvedShaperConfig) (draw : UInt64 → Draw) (initial : Bytes)
    (uploadConcurrency maxInFlightBytes random now : Nat) (writeOk : Nat → Bool) :
    ∃ early remaining,
      UploadLoop.encodeInitialPayload key base122 config draw initial MAX_RAW_PAYLOAD =
        .ok (UploadLoop.bytesOf early, remaining, seqAt 0 early.length) ∧
      (early.map SealedFrame.data).flatten ++ remaining = initial ∧
      UploadLoop.Carried key base122 config.encoding 0 early ∧
      ∀ (sealing : List UploadLoop.Event) (client : UploadLoop.UploadLoopActor) (es : List Event)
        (s : Server),
        run (UploadLoop.step key base122)
          (.new config uploadConcurrency maxInFlightBytes remaining (seqAt 0 early.length) random)
          sealing = some client →
        Authentic key (early ++ client.shaped.frames) →
        initial.length + client.socket.length < 2 ^ 64 →
        run (step key base122 config.encoding writeOk) (.start now) es = some s →
        (Upload.written s.actor).flatten <+: initial ++ client.socket := by
  obtain ⟨early, remaining, hencoded, hinitial, hearly⟩ :=
    UploadLoop.encodeInitialPayload_spec hseal initial MAX_RAW_PAYLOAD
  refine ⟨early, remaining, hencoded, hinitial, hearly,
    fun sealing client es s hsealing hauth hsize hrun => ?_⟩
  have hclient : UploadLoop.Inv key base122 config.encoding (seqAt 0 early.length) remaining client :=
    run_invariant (fun _ _ _ h hstep => UploadLoop.inv_step hseal h hstep) sealing _ _
      (UploadLoop.inv_new key base122 config uploadConcurrency maxInFlightBytes remaining _ random)
      hsealing
  have hcarried : ∀ f ∈ early ++ client.shaped.frames, f.data ≠ [] ∧
      ∃ padding, Carries key base122 config.encoding f.bytes f.seq f.data padding := by
    intro f hf
    rcases List.mem_append.mp hf with hf | hf
    · exact hearly.carries f hf
    · exact hclient.conserved.carried f hf
  have hfits : ∀ f ∈ early ++ client.shaped.frames, f.data.length < 2 ^ 16 := by
    intro f hf
    obtain ⟨-, padding, hf⟩ := hcarried f hf
    exact carries_size hf
  have hserver : Inv writeOk (early ++ client.shaped.frames) now s :=
    run_invariant (fun _ _ _ h hstep => inv_step hauth hfits h hstep) es _ _ (inv_start _ _ _) hrun
  -- the data of the frames is a front of what the client was given
  have hdata : ((early ++ client.shaped.frames).map SealedFrame.data).flatten <+:
      initial ++ client.socket := by
    have hread : bytesRead client.shaped.reads <+: remaining ++ client.socket :=
      ⟨client.cursor, hclient.reader⟩
    have hsealed : (client.shaped.frames.map SealedFrame.data).flatten <+:
        remaining ++ client.socket :=
      List.IsPrefix.trans ⟨_, hclient.conserved.bytes⟩ hread
    rw [List.map_append, List.flatten_append, ← hinitial, List.append_assoc]
    exact (List.prefix_append_right_inj _).mpr hsealed
  have hcount : (early ++ client.shaped.frames).length < 2 ^ 64 := by
    refine count_lt (fun f hf => (hcarried f hf).1) hdata.length_le ?_
    rwa [List.length_append]
  have hseqs := numbered_append hearly.seqs hclient.conserved.seqs
  exact (written_front hserver hseqs hcount).flatten.trans hdata

/-- A request with the second frame, one that does not decode, and two with the first frame. -/
def forgedRequests : List Event :=
  [.request [.chunk Download.demoFrame1], .request [.chunk (.replicate 41 0)],
    .request [.chunk (Download.demoFrame0.take 7), .chunk (Download.demoFrame0.drop 7)],
    .request [.chunk Download.demoFrame0],
    .poll 0 1, .poll 1 2, .poll 2 3, .poll 3 4, .poll 3 5, .eos 3 6]

theorem upload_tampering_harmless_demo :
    ∃ s, run (step relayedKey publishedBase122 .binary fun _ => true) (.start 0) forgedRequests =
        some s ∧
      Upload.written s.actor = [[1], [2]] ∧ (Upload.written s.actor).flatten <+: [1] ++ [2] := by
  obtain ⟨early, remaining, hencoded, hinitial, hearly, hall⟩ :=
    upload_tampering_harmless relayedKey (streamKey_neverFails _) publishedBase122 demoConfig
      (fun _ => demoDraw) [1] 4 20480 0 0 (fun _ => true)
  have hbody : (UploadLoop.encodeInitialPayload relayedKey publishedBase122 demoConfig
      (fun _ => demoDraw) [1] MAX_RAW_PAYLOAD).toOption = some (Download.demoFrame0, [], 1) := by
    decide +kernel
  rw [hencoded, Except.toOption, Option.some.injEq, Prod.mk.injEq, Prod.mk.injEq] at hbody
  obtain ⟨hbytes, rfl, hlength⟩ := hbody
  rw [List.append_nil] at hinitial
  -- one byte makes one frame
  have hle : early.length ≤ 1 := by
    have hcount := UploadPath.length_le_data fun f hf => (hearly.carries f hf).1
    rwa [hinitial] at hcount
  rcases early with _ | ⟨f, _ | ⟨g, rest⟩⟩
  · cases hinitial
  · have hdata : f.data = [1] := by simpa using hinitial
    have hseq : f.seq = 0 := by simpa using hearly.seqs
    have hbytes : f.bytes = Download.demoFrame0 := by simpa [UploadLoop.bytesOf] using hbytes
    obtain ⟨client, hclient, hsealed, hsocket⟩ : ∃ client, run (UploadLoop.step relayedKey
        publishedBase122) (.new demoConfig 4 20480 [] 1 0)
          [.turn ⟨.filled [2], false, demoDraw⟩, .turn ⟨.pending, true, demoDraw⟩] = some client ∧
        client.shaped.frames = [⟨1, [2], Download.demoFrame1⟩] ∧ client.socket = [2] :=
      ⟨_, rfl, rfl, rfl⟩
    have heval : (run (step relayedKey publishedBase122 .binary fun _ => true) (.start 0)
        forgedRequests).map (fun s => Upload.written s.actor) = some [[1], [2]] := by decide +kernel
    obtain ⟨s, hs, hwritten⟩ := Option.map_eq_some_iff.mp heval
    have hauth : Authentic relayedKey ([f] ++ client.shaped.frames) := by
      have hf : f = ⟨0, [1], Download.demoFrame0⟩ := by
        rw [← hseq, ← hdata, ← hbytes]
      rw [hsealed, hf]
      exact relayedKey_authentic
    have hfront := hall _ client forgedRequests s (hlength ▸ hclient) hauth
      (by rw [hsocket]; decide) hs
    exact ⟨s, hs, hwritten, hsocket ▸ hfront⟩
  · simp at hle

end Httproxy.Tampering
