/-
  The streaming decoder of the upload direction (`FrameDecoder` in `src/server/stream.rs`).

  A request body arrives in chunks that the network has cut anywhere.  The decoder appends them to a
  buffer, tries `decode_frame` before every read, and passes on what that yields.  Three limits are
  tested at different moments: the length of a binary frame and of a JSON line inside
  `decode_frame`, and the length of the whole buffer afterwards.

  1. **Program** — `pollNext` is `poll_next` with its loop; `decodeAll` polls until the stream ends or
     fails.  The inner stream is the list of what its polls return.

  2. **Specification (`frames`)** — the frames of a byte string that lies there as a whole.  It knows
     no chunk, no buffer limit and no end of stream.

  3. **The crux (`decodeFrame_append`)** — more bytes behind the buffer change nothing of a frame that
     was found, and turn no error into anything but an error.  What is not yet a frame is at most as
     long as the buffer may be, so the third limit is never met.
-/
import Httproxy.Shaper.Frame

namespace Httproxy.Decoder

open Crypto Bytes Shaper

/-! ## Program -/

def MAX_FRAME_BUF_SIZE : Nat := 18781

/-- What a poll of the inner stream returns, the end of the stream apart. -/
inductive Feed where
  | pending
  | chunk (b : Bytes)
  | failed (e : IoError)

structure FrameDecoder where
  /-- What the polls of `inner` will return; then it has ended. -/
  inner : List Feed
  buf : Bytes
  jsonScratch : Scratch
  eos : Bool

/-- `FrameDecoder::new`. -/
def FrameDecoder.new (inner : List Feed) : FrameDecoder where
  inner := inner
  buf := []
  jsonScratch := ⟨[], 0⟩
  eos := false

/-- `Poll<Option<io::Result<(u64, Bytes)>>>`. -/
inductive Polled where
  | pending
  | ended
  | item (seq : UInt64) (data : Bytes)
  | failed (e : IoError)

section Program

variable (key : LessSafeKey) (base122 : Base122Fast) (encoding : EncodingType) (maxBufSize : Nat)

/-- `poll_next`.  A turn of its loop reads the inner stream or notes that it has ended. -/
def pollNext (d : FrameDecoder) : Polled × FrameDecoder :=
  let decoding := decodeFrame key base122 d.buf d.jsonScratch encoding
  let d' := { d with buf := decoding.src, jsonScratch := decoding.scratch }
  match decoding.result with
  | .ok (some (.inJsonScratch seq start stop)) =>
    (.item seq (slice decoding.scratch.data start stop), { d' with jsonScratch := ⟨[], 0⟩ })
  | .ok (some (.owned seq data)) => (.item seq data, d')
  | .error e => (.failed e, d')
  | .ok none =>
    if d.eos then
      if d'.buf = [] then (.ended, d')
      else (.failed ⟨.invalidData, "trailing data after last frame"⟩, d')
    else if d'.buf.length > maxBufSize then
      (.failed ⟨.invalidData, "frame buffer exceeded maximum size"⟩, d')
    else match _hin : d.inner with
      | .chunk b :: rest => pollNext { d' with inner := rest, buf := d'.buf ++ b }
      | .failed e :: rest => (.failed e, { d' with inner := rest })
      | [] => pollNext { d' with eos := true }
      | .pending :: rest => (.pending, { d' with inner := rest })
termination_by 2 * d.inner.length + (if d.eos then 0 else 1)
decreasing_by
  · simp only [_hin, List.length_cons]
    omega
  · simp_all

end Program

/-! ## One call of `decode_frame` -/

section Call

variable (key : LessSafeKey) (base122 : Base122Fast)

/-- The end of the binary branch: the body of a frame is opened. -/
def openBody (view : Bytes) : Except IoError DecodedFrame :=
  match decryptInPlace key view with
  | (_, .error e) => .error e
  | (view, .ok (offset, _)) =>
    match extractFrameRange (view.drop offset) with
    | .error e => .error e
    | .ok (seq, start, stop) => .ok (.owned seq (slice view (offset + start) (offset + stop)))

/-- The end of the JSON branch: a line that is not empty is opened. -/
def openLine (line : Bytes) (jsonScratch : Scratch) : Except IoError DecodedFrame × Scratch :=
  let scratch :=
    if jsonScratch.capacity < MAX_JSON_LINE_LEN then Scratch.take MAX_JSON_LINE_LEN
    else jsonScratch
  match parseJsonPayloadInto base122 line scratch.data with
  | (data, .error e) => (.error e, { scratch with data := data })
  | (data, .ok _) =>
    match decryptInPlace key data with
    | (data, .error e) => (.error e, { scratch with data := data })
    | (data, .ok (plainStart, plainStop)) =>
      match extractFrameRange (slice data plainStart plainStop) with
      | .error e => (.error e, { scratch with data := data })
      | .ok (seq, start, stop) =>
        (.ok (.inJsonScratch seq (plainStart + start) (plainStart + stop)), { scratch with data := data })

theorem decodeFrame_binary_eq (src : Bytes) (scratch : Scratch) :
    decodeFrame key base122 src scratch .binary =
      if src.length < 2 then ⟨.ok none, src, scratch⟩
      else if readU16Be (src.take 2) > MAX_BINARY_FRAME_LEN then
        ⟨.error ⟨.invalidData, "binary frame length exceeds limit"⟩, src, scratch⟩
      else if src.length < 2 + readU16Be (src.take 2) then ⟨.ok none, src, scratch⟩
      else ⟨(openBody key ((src.drop 2).take (readU16Be (src.take 2)))).map some,
        (src.drop 2).drop (readU16Be (src.take 2)), scratch⟩ := by
  rw [decodeFrame]
  dsimp only
  split
  · rfl
  · split
    · rfl
    · split
      · rfl
      · rw [openBody]
        generalize decryptInPlace key _ = opened
        obtain ⟨view, e | ⟨offset, stop⟩⟩ := opened
        · rfl
        · dsimp only
          generalize extractFrameRange _ = range
          rcases range with e | ⟨seq, start, stop⟩ <;> rfl

theorem decodeFrame_json_eq (src : Bytes) (scratch : Scratch) :
    decodeFrame key base122 src scratch .json =
      match src.idxOf? DELIMITER with
      | some pos =>
        if pos > MAX_JSON_LINE_LEN then
          ⟨.error ⟨.invalidData, "JSON line exceeds maximum allowed length"⟩, src, scratch⟩
        else if src.take pos = [] then
          ⟨.error ⟨.invalidData, "empty frame line"⟩, (src.drop pos).drop 1, scratch⟩
        else
          ⟨(openLine key base122 (src.take pos) scratch).1.map some, (src.drop pos).drop 1,
            (openLine key base122 (src.take pos) scratch).2⟩
      | none =>
        if src.length > MAX_JSON_LINE_LEN then
          ⟨.error ⟨.invalidData, "incomplete JSON line is too long"⟩, src, scratch⟩
        else ⟨.ok none, src, scratch⟩ := by
  rw [decodeFrame]
  generalize src.idxOf? DELIMITER = newline
  cases newline with
  | none => rfl
  | some pos =>
    dsimp only
    split
    · rfl
    · split
      · rfl
      · rw [openLine]
        generalize parseJsonPayloadInto base122 _ _ = parsed
        obtain ⟨data, e | len⟩ := parsed
        · rfl
        · dsimp only
          generalize decryptInPlace key data = opened
          obtain ⟨data', e | ⟨plainStart, plainStop⟩⟩ := opened
          · rfl
          · dsimp only
            generalize extractFrameRange _ = range
            rcases range with e | ⟨seq, start, stop⟩ <;> rfl

variable {key base122} {src : Bytes} {scratch : Scratch} {encoding : EncodingType}

/-- What a call leaves when it finds no frame yet: everything, and that is short of the limit on the
    buffer. -/
theorem decodeFrame_none (h : (decodeFrame key base122 src scratch encoding).result = .ok none) :
    decodeFrame key base122 src scratch encoding = ⟨.ok none, src, scratch⟩ ∧
      src.length ≤ MAX_FRAME_BUF_SIZE := by
  cases encoding with
  | binary =>
    rw [decodeFrame_binary_eq] at h ⊢
    split at h
    · rename_i hshort
      refine ⟨by rw [if_pos hshort], ?_⟩
      unfold MAX_FRAME_BUF_SIZE
      omega
    · split at h
      · cases h
      · rename_i htwo hlimit
        split at h
        · rename_i hshort
          refine ⟨by rw [if_neg htwo, if_neg hlimit, if_pos hshort], ?_⟩
          unfold MAX_BINARY_FRAME_LEN MAX_RAW_PAYLOAD at hlimit
          unfold MAX_FRAME_BUF_SIZE
          omega
        · rename_i hwhole
          generalize openBody key _ = opened at h
          cases opened <;> cases h
  | json =>
    rw [decodeFrame_json_eq] at h ⊢
    split at h
    · split at h
      · cases h
      · split at h
        · cases h
        · generalize openLine key base122 _ _ = opened at h
          obtain ⟨e | f, left⟩ := opened <;> cases h
    · split at h
      · cases h
      · rename_i hnone hlimit
        refine ⟨by simp [hlimit], ?_⟩
        unfold MAX_JSON_LINE_LEN MAX_RAW_PAYLOAD at hlimit
        unfold MAX_FRAME_BUF_SIZE
        omega

/-- A newline that was found is found at the same place when more follows. -/
theorem idxOf?_append_of_some {pos : Nat} (h : src.idxOf? DELIMITER = some pos) (more : Bytes) :
    (src ++ more).idxOf? DELIMITER = some pos ∧ pos < src.length := by
  obtain ⟨hlt, hat, hbefore⟩ := List.idxOf?_eq_some_iff.mp h
  refine ⟨List.idxOf?_eq_some_iff.mpr ⟨by simp; omega, ?_, ?_⟩, hlt⟩
  · rw [List.getElem_append_left hlt]
    exact hat
  · intro j hj
    rw [List.getElem_append_left (by omega)]
    exact hbefore j hj

/-- What a call on a longer buffer returns, by what it returned on the shorter one. -/
def Extends (before : Decoding) (more : Bytes) (after : Decoding) : Prop :=
  match before.result with
  | .ok (some _) => after = { before with src := before.src ++ more }
  | .error _ => ∃ e, after.result = .error e
  | .ok none => True

theorem extends_error {e : IoError} {left : Bytes} {after : Decoding} (more : Bytes)
    (h : ∃ e', after.result = .error e') : Extends ⟨.error e, left, scratch⟩ more after := h

/-- The body of a frame, or its line, was opened in the same way. -/
theorem extends_opened (opened : Except IoError DecodedFrame) (left more : Bytes) :
    Extends ⟨opened.map some, left, scratch⟩ more ⟨opened.map some, left ++ more, scratch⟩ := by
  cases opened with
  | error e => exact ⟨e, rfl⟩
  | ok f => exact rfl

theorem decodeFrame_append_binary (more : Bytes) :
    Extends (decodeFrame key base122 src scratch .binary) more
      (decodeFrame key base122 (src ++ more) scratch .binary) := by
  rw [decodeFrame_binary_eq key base122 src]
  split
  · trivial
  · have htwo : ¬ (src ++ more).length < 2 := by
      rw [List.length_append]
      omega
    have hhead : (src ++ more).take 2 = src.take 2 := List.take_append_of_le_length (by omega)
    rw [decodeFrame_binary_eq, if_neg htwo, hhead]
    split
    · exact extends_error more ⟨_, rfl⟩
    · split
      · trivial
      · rename_i hwhole
        have hwhole' : ¬ (src ++ more).length < 2 + readU16Be (src.take 2) := by
          rw [List.length_append]
          omega
        have hbody : (src ++ more).drop 2 = src.drop 2 ++ more :=
          List.drop_append_of_le_length (by omega)
        have hlen : readU16Be (src.take 2) ≤ (src.drop 2).length := by
          rw [List.length_drop]
          omega
        rw [if_neg hwhole', hbody, List.take_append_of_le_length hlen,
          List.drop_append_of_le_length hlen]
        exact extends_opened _ _ more

/-- Without a newline so far, the first newline lies behind what is there. -/
theorem idxOf?_append_of_none {pos : Nat} {more : Bytes} (h : src.idxOf? DELIMITER = none)
    (hpos : (src ++ more).idxOf? DELIMITER = some pos) : src.length ≤ pos := by
  obtain ⟨_, hat, _⟩ := List.idxOf?_eq_some_iff.mp hpos
  refine Nat.le_of_not_lt fun hlt => ?_
  rw [List.getElem_append_left hlt] at hat
  exact List.idxOf?_eq_none_iff.mp h (hat ▸ List.getElem_mem hlt)

theorem decodeFrame_append_json (more : Bytes) :
    Extends (decodeFrame key base122 src scratch .json) more
      (decodeFrame key base122 (src ++ more) scratch .json) := by
  rw [decodeFrame_json_eq key base122 src, decodeFrame_json_eq]
  cases hpos : src.idxOf? DELIMITER with
  | some pos =>
    obtain ⟨hpos', hlt⟩ := idxOf?_append_of_some hpos more
    have hline : (src ++ more).take pos = src.take pos :=
      List.take_append_of_le_length (Nat.le_of_lt hlt)
    have hrest : ((src ++ more).drop pos).drop 1 = (src.drop pos).drop 1 ++ more := by
      rw [List.drop_drop, List.drop_drop, List.drop_append_of_le_length (by omega)]
    rw [hpos']
    dsimp only
    rw [hline, hrest]
    split
    · exact extends_error more ⟨_, rfl⟩
    · split
      · exact extends_error more ⟨_, rfl⟩
      · exact extends_opened _ _ more
  | none =>
    dsimp only
    split
    · rename_i hlong
      apply extends_error
      cases hpos' : (src ++ more).idxOf? DELIMITER with
      | some pos =>
        have := idxOf?_append_of_none hpos hpos'
        dsimp only
        rw [if_pos (by omega)]
        exact ⟨_, rfl⟩
      | none =>
        dsimp only
        rw [if_pos (by rw [List.length_append]; omega)]
        exact ⟨_, rfl⟩
    · trivial

/-- **More bytes change nothing of a call that found a frame**, except that they are left behind it;
    and after an error they leave an error. -/
theorem decodeFrame_append (more : Bytes) :
    Extends (decodeFrame key base122 src scratch encoding) more
      (decodeFrame key base122 (src ++ more) scratch encoding) := by
  cases encoding with
  | binary => exact decodeFrame_append_binary more
  | json => exact decodeFrame_append_json more

/-- Only a JSON frame is left in the scratch buffer. -/
theorem decodeFrame_owned {seq : UInt64} {data : Bytes}
    (h : (decodeFrame key base122 src scratch encoding).result = .ok (some (.owned seq data))) :
    (decodeFrame key base122 src scratch encoding).scratch = scratch := by
  cases encoding with
  | binary =>
    rw [decodeFrame_binary_eq]
    repeat' split
    all_goals rfl
  | json =>
    rw [decodeFrame_json_eq] at h ⊢
    split at h
    · split at h
      · cases h
      · split at h
        · cases h
        · rw [openLine] at h
          generalize parseJsonPayloadInto base122 _ _ = parsed at h
          obtain ⟨out, e | len⟩ := parsed
          · cases h
          · dsimp only at h
            generalize decryptInPlace key out = opened at h
            obtain ⟨out', e | ⟨plainStart, plainStop⟩⟩ := opened
            · cases h
            · dsimp only at h
              generalize extractFrameRange _ = range at h
              rcases range with e | ⟨seq', start, stop⟩ <;> cases h
    · split at h <;> cases h

/-- A frame takes at least one byte. -/
theorem decodeFrame_some_length {f : DecodedFrame}
    (h : (decodeFrame key base122 src scratch encoding).result = .ok (some f)) :
    (decodeFrame key base122 src scratch encoding).src.length < src.length := by
  cases encoding with
  | binary =>
    rw [decodeFrame_binary_eq] at h ⊢
    by_cases hshort : src.length < 2
    · rw [if_pos hshort] at h
      cases h
    · rw [if_neg hshort] at h ⊢
      split at h
      · cases h
      · rename_i hlimit
        split at h
        · cases h
        · rename_i hwhole
          rw [if_neg hlimit, if_neg hwhole]
          show ((src.drop 2).drop _).length < src.length
          rw [List.length_drop, List.length_drop]
          omega
  | json =>
    rw [decodeFrame_json_eq] at h ⊢
    cases hpos : src.idxOf? DELIMITER with
    | none =>
      rw [hpos] at h
      dsimp only at h
      split at h <;> cases h
    | some pos =>
      rw [hpos] at h
      dsimp only at h ⊢
      obtain ⟨-, hlt⟩ := idxOf?_append_of_some hpos []
      split at h
      · cases h
      · rename_i hlimit
        split at h
        · cases h
        · rename_i hline
          rw [if_neg hlimit, if_neg hline]
          show ((src.drop pos).drop 1).length < src.length
          rw [List.length_drop, List.length_drop]
          omega

end Call

/-! ## Polling until the end -/

section Polling

variable (key : LessSafeKey) (base122 : Base122Fast) (encoding : EncodingType) (maxBufSize : Nat)

def Feed.size : Feed → Nat
  | .chunk b => b.length + 1
  | _ => 1

/-- What is left to be done: every poll that comes to something makes it smaller. -/
def FrameDecoder.size (d : FrameDecoder) : Nat := d.buf.length + (d.inner.map Feed.size).sum

def Polled.goesOn : Polled → Prop
  | .pending | .item _ _ => True
  | .ended | .failed _ => False

theorem pollNext_size (d : FrameDecoder)
    (h : (pollNext key base122 encoding maxBufSize d).1.goesOn) :
    (pollNext key base122 encoding maxBufSize d).2.size < d.size := by
  fun_induction pollNext key base122 encoding maxBufSize d with
  | case1 d decoding d' seq start stop hres =>
    exact Nat.add_lt_add_right (decodeFrame_some_length hres) _
  | case2 d decoding d' seq data hres =>
    exact Nat.add_lt_add_right (decodeFrame_some_length hres) _
  | case3 => exact h.elim
  | case4 => exact h.elim
  | case5 => exact h.elim
  | case6 => exact h.elim
  | case7 d decoding d' hres heos hlimit b rest hin ih =>
    refine Nat.lt_trans (ih h) ?_
    have hsrc : decoding.src = d.buf := congrArg Decoding.src (decodeFrame_none hres).1
    simp only [FrameDecoder.size, d', hsrc, hin, List.length_append, List.map_cons, List.sum_cons,
      Feed.size]
    omega
  | case8 => exact h.elim
  | case9 d decoding d' hres heos hlimit hin ih =>
    have hsrc : decoding.src = d.buf := congrArg Decoding.src (decodeFrame_none hres).1
    have := ih h
    simpa only [FrameDecoder.size, d', hsrc] using this
  | case10 d decoding d' hres heos hlimit rest hin =>
    have hsrc : decoding.src = d.buf := congrArg Decoding.src (decodeFrame_none hres).1
    simp only [FrameDecoder.size, d', hsrc, hin, List.map_cons, List.sum_cons, Feed.size]
    omega

inductive Ending where
  | clean
  | failed (e : IoError)

/-- The items of the stream up to its end or its first error, and which of the two it is. -/
def decodeAll (d : FrameDecoder) : List (UInt64 × Bytes) × Ending :=
  match _hp : pollNext key base122 encoding maxBufSize d with
  | (.item seq data, d') =>
    let rest := decodeAll d'
    ((seq, data) :: rest.1, rest.2)
  | (.pending, d') => decodeAll d'
  | (.failed e, _) => ([], .failed e)
  | (.ended, _) => ([], .clean)
termination_by d.size
decreasing_by
  all_goals
    have hsize := pollNext_size key base122 encoding maxBufSize d
    rw [_hp] at hsize
    exact hsize trivial

/-! ## Specification -/

/-- The number and the data of a frame, and the buffer its range may refer to. -/
def itemOf (scratch : Scratch) : DecodedFrame → UInt64 × Bytes
  | .inJsonScratch seq start stop => (seq, slice scratch.data start stop)
  | .owned seq data => (seq, data)

/-- The frames at the beginning of `b`, and whether they make up all of it. -/
def frames (b : Bytes) : List (UInt64 × Bytes) × Bool :=
  let decoding := decodeFrame key base122 b ⟨[], 0⟩ encoding
  match _hres : decoding.result with
  | .ok (some f) =>
    let rest := frames decoding.src
    (itemOf decoding.scratch f :: rest.1, rest.2)
  | .error _ => ([], false)
  | .ok none => ([], b = [])
termination_by b.length
decreasing_by exact decodeFrame_some_length _hres

/-- The bytes that the inner stream delivers. -/
def fed : List Feed → Bytes
  | [] => []
  | .chunk b :: inner => b ++ fed inner
  | _ :: inner => fed inner

/-- `inner` delivers `b` in some pieces, with any number of pauses and without a failure. -/
def Cuts (inner : List Feed) (b : Bytes) : Prop := (∀ e, Feed.failed e ∉ inner) ∧ fed inner = b

/-! ## Any cut gives the frames of the whole -/

variable {key base122 encoding}

theorem frames_some {b : Bytes} {f : DecodedFrame}
    (h : (decodeFrame key base122 b ⟨[], 0⟩ encoding).result = .ok (some f)) :
    frames key base122 encoding b =
      (itemOf (decodeFrame key base122 b ⟨[], 0⟩ encoding).scratch f ::
        (frames key base122 encoding (decodeFrame key base122 b ⟨[], 0⟩ encoding).src).1,
       (frames key base122 encoding (decodeFrame key base122 b ⟨[], 0⟩ encoding).src).2) := by
  rw [frames]
  split
  · rename_i f' hf'
    obtain rfl : f' = f := by simpa [h] using hf'.symm
    rfl
  · rename_i hf'
    simp [h] at hf'
  · rename_i hf'
    simp [h] at hf'

theorem frames_error {b : Bytes} {e : IoError}
    (h : (decodeFrame key base122 b ⟨[], 0⟩ encoding).result = .error e) :
    frames key base122 encoding b = ([], false) := by
  rw [frames]
  split
  · rename_i hf'
    simp [h] at hf'
  · rfl
  · rename_i hf'
    simp [h] at hf'

theorem frames_none {b : Bytes}
    (h : (decodeFrame key base122 b ⟨[], 0⟩ encoding).result = .ok none) :
    frames key base122 encoding b = ([], decide (b = [])) := by
  rw [frames]
  split
  · rename_i hf'
    simp [h] at hf'
  · rename_i hf'
    simp [h] at hf'
  · rfl

/-- A decoder between two polls, before any error. -/
structure Polling (d : FrameDecoder) : Prop where
  scratch : d.jsonScratch = ⟨[], 0⟩
  ended : d.eos = true → d.inner = []
  intact : ∀ e, Feed.failed e ∉ d.inner

/-- What is in the buffer, and what is to come. -/
def FrameDecoder.due (d : FrameDecoder) : Bytes := d.buf ++ fed d.inner

/-- What one poll may return, against the frames of all that is due. -/
def Agrees (key : LessSafeKey) (base122 : Base122Fast) (encoding : EncodingType) (due : Bytes) :
    Polled × FrameDecoder → Prop
  | (.pending, d') => Polling d' ∧ d'.due = due
  | (.item seq data, d') => Polling d' ∧
      frames key base122 encoding due =
        ((seq, data) :: (frames key base122 encoding d'.due).1,
         (frames key base122 encoding d'.due).2)
  | (.failed _, _) => frames key base122 encoding due = ([], false)
  | (.ended, _) => frames key base122 encoding due = ([], true)

/-- A frame of the buffer is the first frame of all that is due. -/
theorem frames_found {d : FrameDecoder} (h : Polling d) {f : DecodedFrame}
    (hres : (decodeFrame key base122 d.buf d.jsonScratch encoding).result = .ok (some f)) :
    frames key base122 encoding d.due =
      (itemOf (decodeFrame key base122 d.buf d.jsonScratch encoding).scratch f ::
        (frames key base122 encoding
          ((decodeFrame key base122 d.buf d.jsonScratch encoding).src ++ fed d.inner)).1,
       (frames key base122 encoding
          ((decodeFrame key base122 d.buf d.jsonScratch encoding).src ++ fed d.inner)).2) := by
  have happ : Extends (decodeFrame key base122 d.buf d.jsonScratch encoding) (fed d.inner)
      (decodeFrame key base122 (d.buf ++ fed d.inner) d.jsonScratch encoding) :=
    decodeFrame_append _
  rw [Extends, hres] at happ
  rw [h.scratch] at happ hres ⊢
  have hwhole : (decodeFrame key base122 d.due ⟨[], 0⟩ encoding).result = .ok (some f) := by
    rw [FrameDecoder.due, happ]
  rw [frames_some hwhole, FrameDecoder.due, happ]

/-- An error on the buffer is an error on all that is due. -/
theorem frames_broken {d : FrameDecoder} (h : Polling d) {e : IoError}
    (hres : (decodeFrame key base122 d.buf d.jsonScratch encoding).result = .error e) :
    frames key base122 encoding d.due = ([], false) := by
  have happ : Extends (decodeFrame key base122 d.buf d.jsonScratch encoding) (fed d.inner)
      (decodeFrame key base122 (d.buf ++ fed d.inner) d.jsonScratch encoding) :=
    decodeFrame_append _
  rw [Extends, hres, h.scratch] at happ
  obtain ⟨e', he'⟩ := happ
  exact frames_error he'

/-- At the end of the stream only the buffer is due. -/
theorem Polling.due_ended {d : FrameDecoder} (h : Polling d) (heos : d.eos = true) :
    d.due = d.buf := by
  rw [FrameDecoder.due, h.ended heos, fed, List.append_nil]

theorem frames_unfinished {d : FrameDecoder} (h : Polling d)
    (hres : (decodeFrame key base122 d.buf d.jsonScratch encoding).result = .ok none) :
    frames key base122 encoding d.buf = ([], decide (d.buf = [])) :=
  frames_none (h.scratch ▸ hres)

/-- **One poll.**  Whatever has arrived so far, it returns the first frame of all that is due. -/
theorem pollNext_agrees {d : FrameDecoder} (h : Polling d) :
    Agrees key base122 encoding d.due
      (pollNext key base122 encoding MAX_FRAME_BUF_SIZE d) := by
  fun_induction pollNext key base122 encoding MAX_FRAME_BUF_SIZE d with
  | case1 d decoding d' seq start stop hres =>
    exact ⟨{ h with scratch := rfl }, frames_found h hres⟩
  | case2 d decoding d' seq data hres =>
    refine ⟨{ h with scratch := ?_ }, frames_found h hres⟩
    exact (decodeFrame_owned hres).trans h.scratch
  | case3 d decoding d' e hres => exact frames_broken h hres
  | case4 d decoding d' hres heos hempty =>
    show frames key base122 encoding d.due = ([], true)
    rw [h.due_ended heos, frames_unfinished h hres]
    simpa [d', decoding, (decodeFrame_none hres).1] using hempty
  | case5 d decoding d' hres heos hrest =>
    show frames key base122 encoding d.due = ([], false)
    rw [h.due_ended heos, frames_unfinished h hres]
    simpa [d', decoding, (decodeFrame_none hres).1] using hrest
  | case6 d decoding d' hres heos hlimit =>
    -- the limit on the buffer is not met
    have hkeep := decodeFrame_none hres
    have hsrc : decoding.src = d.buf := congrArg Decoding.src hkeep.1
    exact absurd (hsrc ▸ hlimit) (Nat.not_lt.mpr hkeep.2)
  | case7 d decoding d' hres heos hlimit b rest hin ih =>
    have hkeep : decoding = ⟨.ok none, d.buf, d.jsonScratch⟩ := (decodeFrame_none hres).1
    have hpoll : Polling { d' with inner := rest, buf := d'.buf ++ b } := by
      refine ⟨?_, fun he => absurd he heos, fun e he => h.intact e (hin ▸ List.mem_cons_of_mem _ he)⟩
      simp only [d', hkeep, h.scratch]
    have hdue : ({ d' with inner := rest, buf := d'.buf ++ b } : FrameDecoder).due = d.due := by
      simp only [FrameDecoder.due, d', hkeep, hin, fed, List.append_assoc]
    exact hdue ▸ ih hpoll
  | case8 d decoding d' hres heos hlimit e rest hin =>
    exact absurd (hin ▸ List.mem_cons_self) (h.intact e)
  | case9 d decoding d' hres heos hlimit hin ih =>
    have hkeep : decoding = ⟨.ok none, d.buf, d.jsonScratch⟩ := (decodeFrame_none hres).1
    have hpoll : Polling { d' with eos := true } := by
      refine ⟨?_, fun _ => hin, h.intact⟩
      simp only [d', hkeep, h.scratch]
    have hdue : ({ d' with eos := true } : FrameDecoder).due = d.due := by
      simp only [FrameDecoder.due, d', hkeep]
    exact hdue ▸ ih hpoll
  | case10 d decoding d' hres heos hlimit rest hin =>
    have hkeep : decoding = ⟨.ok none, d.buf, d.jsonScratch⟩ := (decodeFrame_none hres).1
    refine ⟨⟨?_, fun he => absurd he heos,
      fun e he => h.intact e (hin ▸ List.mem_cons_of_mem _ he)⟩, ?_⟩
    · simp only [d', hkeep, h.scratch]
    · simp only [FrameDecoder.due, d', hkeep, hin, fed]

/-- **Any cut gives the frames of the whole.** -/
theorem decodeAll_eq_frames {d : FrameDecoder} (h : Polling d) :
    (decodeAll key base122 encoding MAX_FRAME_BUF_SIZE d).1 = (frames key base122 encoding d.due).1 ∧
    ((decodeAll key base122 encoding MAX_FRAME_BUF_SIZE d).2 = .clean ↔
      (frames key base122 encoding d.due).2 = true) := by
  fun_induction decodeAll key base122 encoding MAX_FRAME_BUF_SIZE d with
  | case1 d seq data d' hp rest ih =>
    have hagree : Agrees key base122 encoding d.due _ := pollNext_agrees h
    rw [hp] at hagree
    obtain ⟨hpoll, hframes⟩ := hagree
    obtain ⟨hitems, hend⟩ := ih hpoll
    rw [hframes]
    exact ⟨congrArg _ hitems, hend⟩
  | case2 d d' hp ih =>
    have hagree : Agrees key base122 encoding d.due _ := pollNext_agrees h
    rw [hp] at hagree
    exact hagree.2 ▸ ih hagree.1
  | case3 d e d' hp =>
    have hagree : Agrees key base122 encoding d.due _ := pollNext_agrees h
    rw [hp] at hagree
    rw [show frames key base122 encoding d.due = ([], false) from hagree]
    simp
  | case4 d d' hp =>
    have hagree : Agrees key base122 encoding d.due _ := pollNext_agrees h
    rw [hp] at hagree
    rw [show frames key base122 encoding d.due = ([], true) from hagree]
    simp

/-- A decoder that is fed `b` in pieces, whatever the pieces. -/
theorem decodeAll_cuts {inner : List Feed} {b : Bytes} (h : Cuts inner b) :
    (decodeAll key base122 encoding MAX_FRAME_BUF_SIZE (.new inner)).1 =
      (frames key base122 encoding b).1 ∧
    ((decodeAll key base122 encoding MAX_FRAME_BUF_SIZE (.new inner)).2 = .clean ↔
      (frames key base122 encoding b).2 = true) := by
  have hpoll : Polling (FrameDecoder.new inner) :=
    { scratch := rfl, ended := fun he => Bool.noConfusion he, intact := h.1 }
  have hdue : (FrameDecoder.new inner).due = b := h.2
  exact hdue ▸ decodeAll_eq_frames hpoll

end Polling

/-- **Chunking independence.**  For both encodings, two decoders that are fed the same bytes in any two
    ways yield the same items, and then both end cleanly or both fail; and the limit on the buffer
    is never met, since what `decode_frame` leaves as incomplete is no longer than it. -/
theorem chunking_independent (key : LessSafeKey) (base122 : Base122Fast) (encoding : EncodingType)
    (b : Bytes) (inner inner' : List Feed) (h : Cuts inner b) (h' : Cuts inner' b) :
    (decodeAll key base122 encoding MAX_FRAME_BUF_SIZE (.new inner)).1 =
      (decodeAll key base122 encoding MAX_FRAME_BUF_SIZE (.new inner')).1 ∧
    ((decodeAll key base122 encoding MAX_FRAME_BUF_SIZE (.new inner)).2 = .clean ↔
      (decodeAll key base122 encoding MAX_FRAME_BUF_SIZE (.new inner')).2 = .clean) ∧
    ∀ (src : Bytes) (scratch : Scratch),
      (decodeFrame key base122 src scratch encoding).result = .ok none →
      (decodeFrame key base122 src scratch encoding).src.length ≤ MAX_FRAME_BUF_SIZE := by
  obtain ⟨hitems, hclean⟩ := decodeAll_cuts h
  obtain ⟨hitems', hclean'⟩ := decodeAll_cuts h'
  refine ⟨hitems.trans hitems'.symm, hclean.trans hclean'.symm, ?_⟩
  intro src scratch hnone
  obtain ⟨hkeep, hle⟩ := decodeFrame_none hnone
  rw [hkeep]
  exact hle

/-- The length of a binary frame, cut in the middle. -/
theorem chunking_independent_demo :
    (decodeAll zeroKey publishedBase122 .binary MAX_FRAME_BUF_SIZE
        (.new [.chunk [0], .pending, .chunk [], .chunk [38, 7]])).1 =
      (decodeAll zeroKey publishedBase122 .binary MAX_FRAME_BUF_SIZE
        (.new [.chunk [0, 38, 7]])).1 :=
  (chunking_independent zeroKey publishedBase122 .binary [0, 38, 7] _ _
    ⟨fun e => by simp, rfl⟩ ⟨fun e => by simp, rfl⟩).1

end Httproxy.Decoder
