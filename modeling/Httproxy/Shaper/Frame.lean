/-
  The frame codec of the shaper (`encode_frame_into`, `decode_frame`, `decode_from_buffer` in
  `src/shaper/mod.rs`).

  A frame carries a sequence number and a piece of data.  Both stand in a plaintext behind each
  other, with zeros as padding at its end, and the plaintext is sealed.  On the wire the sealed box is
  either led by its length (binary) or put, in base-122, into one line of JSON.

  1. **Program** — `encodeFrameInto` and `decodeFrame`, with the buffers they leave behind and the
     texts of their errors.  The cipher's key and the base-122 codec are libraries, so they are
     PARAMETERS; `Base122Fast.Lawful` is what the frame needs of the second.

  2. **Specification** — `Carries` says, without either program, that some bytes are a frame of a
     number and of data: padded within the limit, sealed under some nonce, in the wire form.

  3. **The crux (`decodeFrame_carries`)** — the padding is capped so that header, data, padding, nonce
     and tag come to AT MOST what the decoder takes: 16422 for the binary length, which also fits its
     16 bits, and 16378 of 18780 for the JSON line.  So every frame that can be made is read back,
     and what is short of a frame is never taken for one or for an error.

  The theorem is `frame_round_trip`: encoding appends a frame; decoding the frame with anything behind it
  yields the number and the data and leaves what is behind it; decoding less yields nothing yet and
  changes nothing.
-/
import Httproxy.Crypto.Cipher
import Httproxy.Lib.Base122

namespace Httproxy.Shaper

open Crypto Bytes

/-! ## Program -/

inductive EncodingType where
  | json
  | binary
  deriving DecidableEq, Repr

def HEADER_LEN : Nat := 10
def MAX_RAW_PAYLOAD : Nat := 16 * 1024
def JSON_PAYLOAD_CAP : Nat := 14320 - HEADER_LEN - NONCE_LEN - TAG_LEN
def MAX_BINARY_FRAME_LEN : Nat := MAX_RAW_PAYLOAD + 38
def MAX_JSON_LINE_LEN : Nat := MAX_RAW_PAYLOAD + 2396
def DELIMITER : UInt8 := 10

/-- `max_encoded_frame_len`. -/
def maxEncodedFrameLen : EncodingType → Nat
  | .binary => MAX_BINARY_FRAME_LEN + 2
  | .json => MAX_JSON_LINE_LEN + 1

/-- The bytes of `{"data":"`. -/
def DATA_START : Bytes := [123, 34, 100, 97, 116, 97, 34, 58, 34]
/-- The bytes of `"}`. -/
def DATA_END : Bytes := [34, 125]
/-- The bytes of `"data":"`. -/
def FIELD : Bytes := [34, 100, 97, 116, 97, 34, 58, 34]

/-- The base-122 codec of the library: both functions write into a buffer that is passed to them. -/
structure Base122Fast where
  encodeInto : Bytes → Bytes → Bytes
  decodeIntoBytes : Bytes → Bytes → Bytes × Except String Nat

/-- `[usize; 2]` of a padding range.  `random_range` PANICS on an empty one, so there is none here. -/
structure PaddingRange where
  low : Nat
  high : Nat
  ordered : low ≤ high

/-- `random_range(low..=high)` on the number drawn. -/
def PaddingRange.random (range : PaddingRange) (draw : Nat) : Nat :=
  range.low + draw % (range.high - range.low + 1)

/-- `put_u16` of a length; its `as u16` keeps the low bytes. -/
def putU16 (v : Nat) : Bytes := putBe 2 v

def putU64 (v : UInt64) : Bytes := putBe 8 v.toNat

def readU16Be (data : Bytes) : Nat := readBe (data.take 2)

def readU64Be (data : Bytes) : UInt64 := UInt64.ofNat (readBe (data.take 8))

/-- `extract_frame_range`: the number, and where in the plaintext the data lies. -/
def extractFrameRange (payload : Bytes) : Except IoError (UInt64 × Nat × Nat) :=
  if payload.length < HEADER_LEN then .error ⟨.invalidData, "payload too short"⟩
  else
    let seq := readU64Be (payload.take 8)
    let origLen := readU16Be (slice payload 8 10)
    let total := HEADER_LEN + origLen
    if payload.length < total then
      .error ⟨.invalidData, "payload shorter than declared original length"⟩
    else .ok (seq, HEADER_LEN, total)

def isAsciiWhitespace (b : UInt8) : Bool := b == 32 || b == 9 || b == 10 || b == 12 || b == 13

def trimBytes (b : Bytes) : Bytes := (b.dropWhile isAsciiWhitespace).rdropWhile isAsciiWhitespace

/-- `parse_json_payload_into`: the buffer as it is left, and the number of bytes decoded. -/
def parseJsonPayloadInto (base122 : Base122Fast) (line out : Bytes) : Bytes × Except IoError Nat :=
  let decodeInto (payload : Bytes) : Bytes × Except IoError Nat :=
    match base122.decodeIntoBytes payload out with
    | (out, .error msg) => (out, .error ⟨.invalidData, msg⟩)
    | (out, .ok n) => (out, .ok n)
  let json := trimBytes line
  match (dropStart DATA_START json).bind (dropEnd DATA_END) with
  | some payload => decodeInto payload
  | none =>
    match find FIELD json with
    | none => (out, .error ⟨.invalidData, "missing 'data' field"⟩)
    | some start =>
      let remaining := json.drop (start + FIELD.length)
      match remaining.idxOf? 34 with
      | none => (out, .error ⟨.invalidData, "malformed JSON structure"⟩)
      | some dataEnd => decodeInto (remaining.take dataEnd)

def frameRawLimit : EncodingType → Nat
  | .json => JSON_PAYLOAD_CAP
  | .binary => MAX_RAW_PAYLOAD

def resolveFramePadding (draw rawLen paddingThreshold : Nat) (paddingRange : PaddingRange)
    (rawLimit : Nat) : Nat :=
  if rawLen < paddingThreshold then
    let maxPad := rawLimit - rawLen
    min (paddingRange.random draw) maxPad
  else 0

/-- The random choices one frame takes. -/
structure Draw where
  padding : Nat
  nonce : Nonce

/-- The binary branch of `encode_frame_into`, which is also that of `seal_into`. -/
def putBinary (key : LessSafeKey) (nonce : Nonce) (data : Bytes) (seq : UInt64) (paddingLen : Nat)
    (out : Bytes) : Bytes × Except IoError Unit :=
  let rawLen := data.length
  let payloadLen := HEADER_LEN + rawLen + paddingLen
  let encLen := NONCE_LEN + payloadLen + TAG_LEN
  let out := out ++ putU16 encLen
  let nonceStart := out.length
  let out := out ++ .replicate NONCE_LEN 0
  let ctStart := out.length
  let out := out ++ (putU64 seq ++ putU16 rawLen ++ data)
  let out := if paddingLen > 0 then out ++ .replicate paddingLen 0 else out
  sealInPlace key nonce out nonceStart ctStart

/-- `encode_frame_into`: the buffer `out` as it is left, and the result. -/
def encodeFrameInto (key : LessSafeKey) (base122 : Base122Fast) (draw : Draw) (data : Bytes)
    (seq : UInt64) (paddingThreshold : Nat) (paddingRange : PaddingRange) (encoding : EncodingType)
    (out : Bytes) : Bytes × Except IoError Unit :=
  let rawLen := data.length
  let rawLimit := frameRawLimit encoding
  if rawLen > rawLimit then
    (out, .error ⟨.invalidInput, s!"frame payload too large: {rawLen} > {rawLimit}"⟩)
  else
    let paddingLen := resolveFramePadding draw.padding rawLen paddingThreshold paddingRange rawLimit
    let payloadLen := HEADER_LEN + rawLen + paddingLen
    match encoding with
    | .binary => putBinary key draw.nonce data seq paddingLen out
    | .json =>
      let payload := putU64 seq ++ putU16 rawLen ++ data
      let payload :=
        if paddingLen > 0 then payload ++ .replicate (payloadLen - payload.length) 0 else payload
      match encryptInto key draw.nonce payload [] with
      | (_, .error e) => (out, .error e)
      | (box, .ok ()) =>
        let encoded := base122.encodeInto box []
        (out ++ DATA_START ++ encoded ++ (DATA_END ++ [DELIMITER]), .ok ())

/-- `encode_frame`. -/
def encodeFrame (key : LessSafeKey) (base122 : Base122Fast) (draw : Draw) (data : Bytes) (seq : UInt64)
    (paddingThreshold : Nat) (paddingRange : PaddingRange) (encoding : EncodingType) :
    Except IoError Bytes :=
  match encodeFrameInto key base122 draw data seq paddingThreshold paddingRange encoding [] with
  | (_, .error e) => .error e
  | (frame, .ok ()) => .ok frame

inductive DecodedFrame where
  | inJsonScratch (seq : UInt64) (start stop : Nat)
  | owned (seq : UInt64) (data : Bytes)
  deriving DecidableEq, Repr

/-- A `Vec<u8>`: its bytes, and how many it has room for. -/
structure Scratch where
  data : Bytes
  capacity : Nat
  deriving DecidableEq, Repr

/-- `bufpool::take`: an empty buffer.  A reused one may be larger than asked for; no caller looks. -/
def Scratch.take (minCapacity : Nat) : Scratch := ⟨[], minCapacity⟩

/-- What a call of `decode_frame` returns, and the two buffers as it leaves them. -/
structure Decoding where
  result : Except IoError (Option DecodedFrame)
  src : Bytes
  scratch : Scratch

/-- `decode_frame`. -/
def decodeFrame (key : LessSafeKey) (base122 : Base122Fast) (src : Bytes) (jsonScratch : Scratch) :
    EncodingType → Decoding
  | .binary =>
    if src.length < 2 then ⟨.ok none, src, jsonScratch⟩
    else
      let frameLen := readU16Be (src.take 2)
      if frameLen > MAX_BINARY_FRAME_LEN then
        ⟨.error ⟨.invalidData, "binary frame length exceeds limit"⟩, src, jsonScratch⟩
      else if src.length < 2 + frameLen then ⟨.ok none, src, jsonScratch⟩
      else
        let rest := src.drop 2
        let view := rest.take frameLen
        let src := rest.drop frameLen
        match decryptInPlace key view with
        | (_, .error e) => ⟨.error e, src, jsonScratch⟩
        | (view, .ok (offset, _)) =>
          match extractFrameRange (view.drop offset) with
          | .error e => ⟨.error e, src, jsonScratch⟩
          | .ok (seq, start, stop) =>
            ⟨.ok (some (.owned seq (slice view (offset + start) (offset + stop)))), src, jsonScratch⟩
  | .json =>
    match src.idxOf? DELIMITER with
    | some pos =>
      if pos > MAX_JSON_LINE_LEN then
        ⟨.error ⟨.invalidData, "JSON line exceeds maximum allowed length"⟩, src, jsonScratch⟩
      else
        let line := src.take pos
        let src := (src.drop pos).drop 1
        if line = [] then ⟨.error ⟨.invalidData, "empty frame line"⟩, src, jsonScratch⟩
        else
          let scratch :=
            if jsonScratch.capacity < MAX_JSON_LINE_LEN then Scratch.take MAX_JSON_LINE_LEN
            else jsonScratch
          match parseJsonPayloadInto base122 line scratch.data with
          | (data, .error e) => ⟨.error e, src, { scratch with data := data }⟩
          | (data, .ok _) =>
            match decryptInPlace key data with
            | (data, .error e) => ⟨.error e, src, { scratch with data := data }⟩
            | (data, .ok (plainStart, plainStop)) =>
              match extractFrameRange (slice data plainStart plainStop) with
              | .error e => ⟨.error e, src, { scratch with data := data }⟩
              | .ok (seq, start, stop) =>
                ⟨.ok (some (.inJsonScratch seq (plainStart + start) (plainStart + stop))), src,
                  { scratch with data := data }⟩
    | none =>
      if src.length > MAX_JSON_LINE_LEN then
        ⟨.error ⟨.invalidData, "incomplete JSON line is too long"⟩, src, jsonScratch⟩
      else ⟨.ok none, src, jsonScratch⟩

/-- `decode_from_buffer`: the result, and `src` as it is left. -/
def decodeFromBuffer (key : LessSafeKey) (base122 : Base122Fast) (src : Bytes)
    (encoding : EncodingType) : Except IoError (Option (UInt64 × Bytes)) × Bytes :=
  let decoding := decodeFrame key base122 src ⟨[], 0⟩ encoding
  match decoding.result with
  | .error e => (.error e, decoding.src)
  | .ok (some (.inJsonScratch seq start stop)) =>
    (.ok (some (seq, slice decoding.scratch.data start stop)), decoding.src)
  | .ok (some (.owned seq data)) => (.ok (some (seq, data)), decoding.src)
  | .ok none => (.ok none, decoding.src)

/-! ## Specification -/

/-- What the frames rely on: the old content of a buffer does not matter, decoding undoes encoding,
    the text has no newline, and it is about 8/7 as long as what it encodes. -/
structure Base122Fast.Lawful (base122 : Base122Fast) : Prop where
  encode_clears : ∀ x out, base122.encodeInto x out = base122.encodeInto x []
  decode_encode : ∀ x out, base122.decodeIntoBytes (base122.encodeInto x []) out = (x, .ok x.length)
  no_newline : ∀ x, 10 ∉ base122.encodeInto x []
  length_le : ∀ x, (base122.encodeInto x []).length ≤ (8 * x.length + 6) / 7 + 1

/-- The plaintext of a frame. -/
def framePlain (seq : UInt64) (data : Bytes) (padding : Nat) : Bytes :=
  putU64 seq ++ putU16 data.length ++ data ++ .replicate padding 0

/-- `f` is a frame of the number `seq` and of `data`, with `padding` zeros: sealed under some nonce,
    and in the form of the encoding.  (`old` is what the text buffer held before.) -/
def Carries (key : LessSafeKey) (base122 : Base122Fast) (encoding : EncodingType) (f : Bytes)
    (seq : UInt64) (data : Bytes) (padding : Nat) : Prop :=
  ∃ (nonce : Nonce) (ct tag : Bytes),
    data.length + padding ≤ frameRawLimit encoding ∧
    key.sealSeparateTag nonce (framePlain seq data padding) = some (ct, tag) ∧
    match encoding with
    | .binary =>
      f = putU16 (NONCE_LEN + (HEADER_LEN + data.length + padding) + TAG_LEN) ++
        (nonce ++ ct ++ tag)
    | .json =>
      ∃ old, f = DATA_START ++ base122.encodeInto (nonce ++ ct ++ tag) old ++
        (DATA_END ++ [DELIMITER])

/-- The number and the data a call of `decodeFrame` yields; a range in the scratch buffer is read
    from the buffer the same call left. -/
def Decoding.yields (decoding : Decoding) : Except IoError (Option (UInt64 × Bytes)) :=
  match decoding.result with
  | .error e => .error e
  | .ok none => .ok none
  | .ok (some (.inJsonScratch seq start stop)) =>
    .ok (some (seq, slice decoding.scratch.data start stop))
  | .ok (some (.owned seq data)) => .ok (some (seq, data))

theorem decodeFromBuffer_eq (key : LessSafeKey) (base122 : Base122Fast) (src : Bytes)
    (encoding : EncodingType) :
    decodeFromBuffer key base122 src encoding =
      ((decodeFrame key base122 src ⟨[], 0⟩ encoding).yields,
        (decodeFrame key base122 src ⟨[], 0⟩ encoding).src) := by
  unfold decodeFromBuffer Decoding.yields
  dsimp only
  split <;> simp_all only

/-! ## The plaintext -/

@[simp] theorem length_putU16 (v : Nat) : (putU16 v).length = 2 := length_putBe 2 v

@[simp] theorem length_putU64 (v : UInt64) : (putU64 v).length = 8 := length_putBe 8 v.toNat

theorem readU16Be_putU16 {v : Nat} (h : v < 2 ^ 16) (more : Bytes) :
    readU16Be (putU16 v ++ more) = v := by
  rw [readU16Be, List.take_left' (length_putU16 v), putU16, readBe_putBe]
  exact Nat.mod_eq_of_lt h

theorem readU64Be_putU64 (v : UInt64) (more : Bytes) : readU64Be (putU64 v ++ more) = v := by
  rw [readU64Be, List.take_left' (length_putU64 v), putU64, readBe_putBe]
  exact (congrArg UInt64.ofNat (Nat.mod_eq_of_lt v.toNat_lt)).trans UInt64.ofNat_toNat

@[simp] theorem length_framePlain (seq : UInt64) (data : Bytes) (padding : Nat) :
    (framePlain seq data padding).length = HEADER_LEN + data.length + padding := by
  simp only [framePlain, List.length_append, length_putU64, length_putU16, List.length_replicate]
  rfl

/-- Reading a plaintext, whatever follows it, finds the number and the data; the padding is outside
    the range. -/
theorem extractFrameRange_framePlain (seq : UInt64) (data : Bytes) (hdata : data.length < 2 ^ 16)
    (padding : Nat) (more : Bytes) :
    extractFrameRange (framePlain seq data padding ++ more) =
      .ok (seq, HEADER_LEN, HEADER_LEN + data.length) := by
  have hlen : (framePlain seq data padding ++ more).length =
      HEADER_LEN + data.length + padding + more.length := by
    rw [List.length_append, length_framePlain]
  have hshape : framePlain seq data padding ++ more =
      putU64 seq ++ putU16 data.length ++ (data ++ (.replicate padding 0 ++ more)) := by
    simp [framePlain]
  have hseq : readU64Be ((framePlain seq data padding ++ more).take 8) = seq := by
    rw [hshape, List.append_assoc, List.take_left' (length_putU64 seq)]
    simpa using readU64Be_putU64 seq []
  have hfield : slice (framePlain seq data padding ++ more) 8 10 = putU16 data.length := by
    rw [hshape]
    exact slice_append (putU64 seq) (putU16 data.length) _
  have horig : readU16Be (putU16 data.length) = data.length := by
    simpa using readU16Be_putU16 hdata []
  unfold extractFrameRange
  dsimp only
  rw [hseq, hfield, horig, hlen, if_neg (by omega), if_neg (by omega)]

/-- The range points at the data. -/
theorem slice_framePlain (before : Bytes) (seq : UInt64) (data : Bytes) (padding : Nat)
    (more : Bytes) :
    slice (before ++ framePlain seq data padding ++ more) (before.length + HEADER_LEN)
      (before.length + (HEADER_LEN + data.length)) = data := by
  have hshape : before ++ framePlain seq data padding ++ more =
      (before ++ (putU64 seq ++ putU16 data.length)) ++ data ++ (.replicate padding 0 ++ more) := by
    simp [framePlain]
  have hstart : (before ++ (putU64 seq ++ putU16 data.length)).length = before.length + HEADER_LEN := by
    simp [HEADER_LEN]
  rw [hshape, ← hstart, ← Nat.add_assoc, ← hstart]
  exact slice_append _ _ _

/-! ## A whole frame -/

section Wire

variable {key : LessSafeKey} {base122 : Base122Fast} {seq : UInt64} {data : Bytes} {padding : Nat}
  {nonce : Nonce} {ct tag : Bytes}

theorem length_box (hkey : key.Lawful)
    (hseal : key.sealSeparateTag nonce (framePlain seq data padding) = some (ct, tag)) :
    (nonce.1 ++ ct ++ tag).length = 38 + (data.length + padding) := by
  rw [List.length_append, List.length_append, nonce.2, hkey.ct_length hseal, hkey.tag_length hseal,
    length_framePlain]
  simp only [NONCE_LEN, HEADER_LEN, TAG_LEN]
  omega

/-- A sealed box on the wire, when the libraries keep their promises. -/
def wire (base122 : Base122Fast) : EncodingType → Bytes → Bytes
  | .binary, box => putU16 box.length ++ box
  | .json, box => DATA_START ++ base122.encodeInto box [] ++ (DATA_END ++ [DELIMITER])

theorem Carries.wire_eq {encoding : EncodingType} {f : Bytes}
    (hf : Carries key base122 encoding f seq data padding) (hkey : key.Lawful)
    (hb : base122.Lawful) :
    ∃ (nonce : Nonce) (ct tag : Bytes), data.length + padding ≤ frameRawLimit encoding ∧
      key.sealSeparateTag nonce (framePlain seq data padding) = some (ct, tag) ∧
      f = wire base122 encoding (nonce ++ ct ++ tag) := by
  obtain ⟨nonce, ct, tag, hfits, hseal, hform⟩ := hf
  refine ⟨nonce, ct, tag, hfits, hseal, ?_⟩
  cases encoding with
  | binary =>
    have hlen : NONCE_LEN + (HEADER_LEN + data.length + padding) + TAG_LEN =
        (nonce.1 ++ ct ++ tag).length := by
      rw [length_box hkey hseal]
      simp only [NONCE_LEN, HEADER_LEN, TAG_LEN]
      omega
    rw [hform, hlen, wire]
  | json =>
    obtain ⟨old, rfl⟩ := hform
    rw [hb.encode_clears, wire]

theorem decodeFrame_wire_binary (hkey : key.Lawful)
    (hseal : key.sealSeparateTag nonce (framePlain seq data padding) = some (ct, tag))
    (hfits : data.length + padding ≤ MAX_RAW_PAYLOAD) (rest : Bytes) (scratch : Scratch) :
    decodeFrame key base122 (wire base122 .binary (nonce ++ ct ++ tag) ++ rest) scratch .binary =
      ⟨.ok (some (.owned seq data)), rest, scratch⟩ := by
  obtain ⟨left, hopen⟩ := decryptInPlace_sealed hkey hseal
  have hbox := length_box hkey hseal
  unfold MAX_RAW_PAYLOAD at hfits
  generalize nonce.1 ++ ct ++ tag = box at hopen hbox
  have hhead : (wire base122 .binary box ++ rest).take 2 = putU16 box.length := by
    rw [wire, List.append_assoc, List.take_left' (length_putU16 _)]
  have hread : readU16Be (putU16 box.length) = box.length := by
    simpa using readU16Be_putU16 (v := box.length) (by omega) []
  have hbody : (wire base122 .binary box ++ rest).drop 2 = box ++ rest := by
    rw [wire, List.append_assoc, List.drop_left' (length_putU16 _)]
  have htotal : (wire base122 .binary box ++ rest).length = 2 + box.length + rest.length := by
    simp [wire, Nat.add_assoc]
  have hplain : (nonce.1 ++ framePlain seq data padding ++ left).drop NONCE_LEN =
      framePlain seq data padding ++ left := by
    rw [List.append_assoc, List.drop_left' nonce.2]
  have hdata := slice_framePlain nonce.1 seq data padding left
  rw [nonce.2] at hdata
  unfold decodeFrame
  dsimp only
  rw [htotal, if_neg (by omega), hhead, hread,
    if_neg (by unfold MAX_BINARY_FRAME_LEN MAX_RAW_PAYLOAD; omega), if_neg (by omega), hbody,
    List.take_left, List.drop_left, hopen]
  dsimp only
  rw [hplain, extractFrameRange_framePlain seq data (by omega)]
  dsimp only
  rw [hdata]

/-- Trimming leaves a line of JSON alone, and the fast path takes the text out of it. -/
theorem parseJsonPayloadInto_line (hb : base122.Lawful) (box out : Bytes) :
    parseJsonPayloadInto base122 (DATA_START ++ base122.encodeInto box [] ++ DATA_END) out =
      (box, .ok box.length) := by
  have htrim : trimBytes (DATA_START ++ base122.encodeInto box [] ++ DATA_END) =
      DATA_START ++ base122.encodeInto box [] ++ DATA_END := by
    have hstart : (DATA_START ++ base122.encodeInto box [] ++ DATA_END).dropWhile isAsciiWhitespace =
        DATA_START ++ base122.encodeInto box [] ++ DATA_END := rfl
    have hend : DATA_START ++ base122.encodeInto box [] ++ DATA_END =
        (DATA_START ++ base122.encodeInto box [] ++ [34]) ++ [125] := by simp [DATA_END]
    rw [trimBytes, hstart, hend, List.rdropWhile_concat_neg _ _ _ (by decide)]
  have hfast : (dropStart DATA_START (DATA_START ++ base122.encodeInto box [] ++ DATA_END)).bind
      (dropEnd DATA_END) = some (base122.encodeInto box []) := by
    rw [List.append_assoc, dropStart_append, Option.bind_some, dropEnd_append]
  unfold parseJsonPayloadInto
  dsimp only
  rw [htrim, hfast]
  dsimp only
  rw [hb.decode_encode]

theorem newline_not_mem_line (hb : base122.Lawful) (box : Bytes) :
    DELIMITER ∉ DATA_START ++ base122.encodeInto box [] ++ DATA_END := by
  simp only [List.mem_append, not_or]
  exact ⟨⟨by decide, hb.no_newline box⟩, by decide⟩

theorem length_line_le (hb : base122.Lawful) (box : Bytes) (hbox : box.length ≤ 14320) :
    (DATA_START ++ base122.encodeInto box [] ++ DATA_END).length ≤ 16378 := by
  have := hb.length_le box
  simp only [List.length_append, DATA_START, DATA_END, List.length_cons, List.length_nil]
  omega

theorem wire_json_eq (box : Bytes) : wire base122 .json box =
    (DATA_START ++ base122.encodeInto box [] ++ DATA_END) ++ [DELIMITER] := by
  simp [wire]

theorem decodeFrame_wire_json (hkey : key.Lawful) (hb : base122.Lawful)
    (hseal : key.sealSeparateTag nonce (framePlain seq data padding) = some (ct, tag))
    (hfits : data.length + padding ≤ JSON_PAYLOAD_CAP) (rest : Bytes) (scratch : Scratch) :
    ∃ left capacity,
      decodeFrame key base122 (wire base122 .json (nonce ++ ct ++ tag) ++ rest) scratch .json =
        ⟨.ok (some (.inJsonScratch seq (NONCE_LEN + HEADER_LEN)
            (NONCE_LEN + (HEADER_LEN + data.length)))),
          rest, ⟨nonce ++ framePlain seq data padding ++ left, capacity⟩⟩ := by
  obtain ⟨left, hopen⟩ := decryptInPlace_sealed hkey hseal
  have hbox := length_box hkey hseal
  have hcap : JSON_PAYLOAD_CAP = 14282 := rfl
  generalize nonce.1 ++ ct ++ tag = box at hopen hbox
  have hline := newline_not_mem_line hb box
  have hlen := length_line_le hb box (by omega)
  have hparse := parseJsonPayloadInto_line hb box
  rw [wire_json_eq, List.append_assoc, List.singleton_append]
  generalize hl : DATA_START ++ base122.encodeInto box [] ++ DATA_END = line at hline hlen hparse
  have hne : line ≠ [] := by
    rw [← hl]
    exact List.cons_ne_nil _ _
  have hplain : slice (nonce.1 ++ framePlain seq data padding ++ left) NONCE_LEN
      (NONCE_LEN + (framePlain seq data padding).length) = framePlain seq data padding := by
    have := slice_append nonce.1 (framePlain seq data padding) left
    rwa [nonce.2] at this
  have hextract := extractFrameRange_framePlain seq data (by omega) padding []
  rw [List.append_nil] at hextract
  refine ⟨left, if scratch.capacity < MAX_JSON_LINE_LEN then MAX_JSON_LINE_LEN
    else scratch.capacity, ?_⟩
  unfold decodeFrame
  rw [idxOf?_line hline]
  dsimp only
  rw [if_neg (by unfold MAX_JSON_LINE_LEN MAX_RAW_PAYLOAD; omega), List.take_left, if_neg hne,
    List.drop_left, hparse]
  dsimp only
  rw [hopen]
  dsimp only
  rw [hplain, hextract]
  dsimp only [List.drop_succ_cons, List.drop_zero]
  split <;> rfl

/-- A frame is not empty, and fits the buffer that is reserved for it. -/
theorem Carries.length_le {encoding : EncodingType} {f : Bytes}
    (hf : Carries key base122 encoding f seq data padding) (hkey : key.Lawful)
    (hb : base122.Lawful) : 0 < f.length ∧ f.length ≤ maxEncodedFrameLen encoding := by
  obtain ⟨nonce, ct, tag, hfits, hseal, rfl⟩ := hf.wire_eq hkey hb
  have hbox := length_box hkey hseal
  cases encoding with
  | binary =>
    have hlimit : data.length + padding ≤ 16384 := hfits
    have hmax : maxEncodedFrameLen .binary = 16424 := rfl
    rw [wire, List.length_append, length_putU16]
    omega
  | json =>
    have hlimit : data.length + padding ≤ 14282 := hfits
    have hmax : maxEncodedFrameLen .json = 18781 := rfl
    have hline := length_line_le hb (nonce ++ ct ++ tag) (by omega)
    rw [wire_json_eq, List.length_append, List.length_singleton]
    omega

/-- **A whole frame is read back.**  Its number and data come out, and what follows it stays. -/
theorem decodeFrame_carries (hkey : key.Lawful) (hb : base122.Lawful) {encoding : EncodingType}
    {f : Bytes} (hf : Carries key base122 encoding f seq data padding) (rest : Bytes)
    (scratch : Scratch) :
    (decodeFrame key base122 (f ++ rest) scratch encoding).yields = .ok (some (seq, data)) ∧
      (decodeFrame key base122 (f ++ rest) scratch encoding).src = rest := by
  obtain ⟨nonce, ct, tag, hfits, hseal, rfl⟩ := hf.wire_eq hkey hb
  cases encoding with
  | binary =>
    rw [decodeFrame_wire_binary hkey hseal hfits]
    exact ⟨rfl, rfl⟩
  | json =>
    obtain ⟨left, capacity, hdecode⟩ := decodeFrame_wire_json hkey hb hseal hfits rest scratch
    have hdata := slice_framePlain nonce.1 seq data padding left
    rw [nonce.2] at hdata
    rw [hdecode]
    refine ⟨?_, rfl⟩
    show Except.ok (some (seq, _)) = _
    rw [hdata]

/-! ## Less than a frame -/

theorem decodeFrame_short_binary {box p q : Bytes} (hbox : box.length ≤ MAX_BINARY_FRAME_LEN)
    (hsplit : p ++ q = wire base122 .binary box) (hq : q ≠ []) (scratch : Scratch) :
    decodeFrame key base122 p scratch .binary = ⟨.ok none, p, scratch⟩ := by
  have hmax : MAX_BINARY_FRAME_LEN = 16422 := rfl
  have hlen := congrArg List.length hsplit
  have hqlen := List.length_pos_iff.mpr hq
  rw [wire, List.length_append, List.length_append, length_putU16] at hlen
  unfold decodeFrame
  dsimp only
  by_cases hhead : p.length < 2
  · rw [if_pos hhead]
  · have htake : p.take 2 = putU16 box.length := by
      have h2 : (p ++ q).take 2 = p.take 2 := List.take_append_of_le_length (by omega)
      rw [← h2, hsplit, wire, List.take_left' (length_putU16 _)]
    have hread : readU16Be (putU16 box.length) = box.length := by
      simpa using readU16Be_putU16 (v := box.length) (by omega) []
    rw [if_neg hhead, htake, hread, if_neg (by omega), if_pos (by omega)]

theorem decodeFrame_short_json (hb : base122.Lawful) {box p q : Bytes} (hbox : box.length ≤ 14320)
    (hsplit : p ++ q = wire base122 .json box) (hq : q ≠ []) (scratch : Scratch) :
    decodeFrame key base122 p scratch .json = ⟨.ok none, p, scratch⟩ := by
  have hline := newline_not_mem_line hb box
  have hlen := length_line_le hb box hbox
  rw [wire_json_eq] at hsplit
  -- the newline is the last byte, so it is among the bytes that are missing
  obtain ⟨q', x, rfl⟩ := (List.eq_nil_or_concat q).resolve_left hq
  rw [List.concat_eq_append, ← List.append_assoc] at hsplit
  obtain ⟨hp, -⟩ := List.append_inj' hsplit rfl
  have hnone : p.idxOf? DELIMITER = none := by
    rw [List.idxOf?_eq_none_iff]
    intro hmem
    rw [← hp] at hline
    exact hline (List.mem_append_left q' hmem)
  rw [← hp, List.length_append] at hlen
  unfold decodeFrame
  rw [hnone]
  dsimp only
  rw [if_neg (by unfold MAX_JSON_LINE_LEN MAX_RAW_PAYLOAD; omega)]

/-- **Less than a frame is nothing yet.**  Neither buffer changes. -/
theorem decodeFrame_short (hkey : key.Lawful) (hb : base122.Lawful) {encoding : EncodingType}
    {p q : Bytes} (hf : Carries key base122 encoding (p ++ q) seq data padding) (hq : q ≠ [])
    (scratch : Scratch) :
    decodeFrame key base122 p scratch encoding = ⟨.ok none, p, scratch⟩ := by
  obtain ⟨nonce, ct, tag, hfits, hseal, hsplit⟩ := hf.wire_eq hkey hb
  have hbox := length_box hkey hseal
  cases encoding with
  | binary =>
    have hlimit : data.length + padding ≤ 16384 := hfits
    exact decodeFrame_short_binary (by rw [hbox]; unfold MAX_BINARY_FRAME_LEN MAX_RAW_PAYLOAD; omega)
      hsplit hq scratch
  | json =>
    have hlimit : data.length + padding ≤ 14282 := hfits
    exact decodeFrame_short_json hb (by rw [hbox]; omega) hsplit hq scratch

end Wire

/-! ## What the encoder appends -/

theorem resolveFramePadding_le {rawLen rawLimit : Nat} (h : rawLen ≤ rawLimit)
    (draw paddingThreshold : Nat) (paddingRange : PaddingRange) :
    rawLen + resolveFramePadding draw rawLen paddingThreshold paddingRange rawLimit ≤ rawLimit := by
  unfold resolveFramePadding
  dsimp only
  split
  · have := Nat.min_le_right (paddingRange.random draw) (rawLimit - rawLen)
    omega
  · omega

/-- Zeros are appended only when there are some; that makes no difference. -/
theorem append_zeros (b : Bytes) (n : Nat) :
    (if n > 0 then b ++ .replicate n 0 else b) = b ++ .replicate n 0 := by
  split
  · rfl
  · obtain rfl : n = 0 := by omega
    simp

theorem putBinary_ok {key : LessSafeKey} {nonce : Nonce} {data out out' : Bytes} {seq : UInt64}
    {padding : Nat} (h : putBinary key nonce data seq padding out = (out', .ok ())) :
    ∃ ct tag, key.sealSeparateTag nonce (framePlain seq data padding) = some (ct, tag) ∧
      out' = out ++ (putU16 (NONCE_LEN + (HEADER_LEN + data.length + padding) + TAG_LEN) ++
        (nonce ++ ct ++ tag)) := by
  unfold putBinary at h
  dsimp only at h
  rw [append_zeros] at h
  obtain ⟨ct, tag, hseal, rfl⟩ := sealInPlace_ok h
  rw [List.append_assoc _ _ (List.replicate padding 0), List.drop_left] at hseal
  refine ⟨ct, tag, hseal, ?_⟩
  rw [List.append_assoc, List.append_assoc, List.take_left, List.append_assoc]

/-- **The encoder appends a frame**, or it fails. -/
theorem encodeFrameInto_carries {key : LessSafeKey} {base122 : Base122Fast} {draw : Draw}
    {data : Bytes} {seq : UInt64} {paddingThreshold : Nat} {paddingRange : PaddingRange}
    {encoding : EncodingType} {out out' : Bytes}
    (h : encodeFrameInto key base122 draw data seq paddingThreshold paddingRange encoding out =
      (out', .ok ())) :
    ∃ f padding, out' = out ++ f ∧ Carries key base122 encoding f seq data padding := by
  unfold encodeFrameInto at h
  dsimp only at h
  split at h
  · exact absurd (congrArg Prod.snd h) nofun
  · rename_i hraw
    have hfits := resolveFramePadding_le (Nat.le_of_not_lt hraw) draw.padding paddingThreshold
      paddingRange
    generalize resolveFramePadding draw.padding data.length paddingThreshold paddingRange
      (frameRawLimit encoding) = padding at h hfits
    cases encoding with
    | binary =>
      obtain ⟨ct, tag, hseal, rfl⟩ := putBinary_ok h
      exact ⟨_, padding, rfl, draw.nonce, ct, tag, hfits, hseal, rfl⟩
    | json =>
      have hzeros : HEADER_LEN + data.length + padding -
          (putU64 seq ++ putU16 data.length ++ data).length = padding := by
        simp only [List.length_append, length_putU64, length_putU16, HEADER_LEN]
        omega
      dsimp only at h
      rw [hzeros, append_zeros] at h
      split at h
      · exact absurd (congrArg Prod.snd h) nofun
      · rename_i box henc
        obtain ⟨ct, tag, hseal, rfl⟩ := encryptInto_ok henc
        refine ⟨_, padding, ?_, draw.nonce, ct, tag, hfits, hseal, [], rfl⟩
        simpa using (congrArg Prod.fst h).symm

/-- A payload that fits is always encoded. -/
theorem encodeFrameInto_neverFails {key : LessSafeKey} {base122 : Base122Fast}
    (hkey : key.NeverFails) {data : Bytes} {encoding : EncodingType}
    (hfits : data.length ≤ frameRawLimit encoding) (draw : Draw) (seq : UInt64) (threshold : Nat)
    (range : PaddingRange) (out : Bytes) :
    (encodeFrameInto key base122 draw data seq threshold range encoding out).2 = .ok () := by
  rw [encodeFrameInto]
  dsimp only
  rw [if_neg (Nat.not_lt.mpr hfits)]
  cases encoding with
  | binary => exact hkey.sealInPlace ..
  | json =>
    dsimp only
    split
    · rename_i e herr
      have hok := congrArg Prod.snd herr
      rw [hkey.encryptInto] at hok
      cases hok
    · rfl

theorem encodeFrame_carries {key : LessSafeKey} {base122 : Base122Fast} (hkey : key.NeverFails)
    {data : Bytes} {encoding : EncodingType} (hfits : data.length ≤ frameRawLimit encoding) (draw : Draw)
    (seq : UInt64) (threshold : Nat) (range : PaddingRange) :
    ∃ f padding, encodeFrame key base122 draw data seq threshold range encoding = .ok f ∧
      Carries key base122 encoding f seq data padding := by
  have hok := @encodeFrameInto_neverFails key base122 hkey data encoding hfits draw seq threshold range []
  obtain ⟨out, hout⟩ : ∃ out, encodeFrameInto key base122 draw data seq threshold range encoding [] =
      (out, .ok ()) := ⟨_, Prod.ext rfl hok⟩
  obtain ⟨f, padding, hshape, hf⟩ := encodeFrameInto_carries hout
  refine ⟨f, padding, ?_, hf⟩
  rw [encodeFrame, hout, hshape, List.nil_append]

/-! ## The round trip -/

/-- **What is encoded is decoded, from any stream it stands in.**

    If `encode_frame_into` succeeds it has appended some frame `f`, and for everything that may follow
    on the stream and every scratch buffer, `decode_frame` finds the number and the data that went
    into `f` and leaves exactly what follows.  With only a part of `f` received it reports that there
    is no frame yet and leaves both buffers alone.  `decode_from_buffer` does the same. -/
theorem frame_round_trip (key : LessSafeKey) (base122 : Base122Fast) (hkey : key.Lawful)
    (hb : base122.Lawful) (draw : Draw) (data : Bytes) (seq : UInt64) (paddingThreshold : Nat)
    (paddingRange : PaddingRange) (encoding : EncodingType) (out out' : Bytes)
    (h : encodeFrameInto key base122 draw data seq paddingThreshold paddingRange encoding out =
      (out', .ok ())) :
    ∃ f, out' = out ++ f ∧
      (∀ rest scratch,
        (decodeFrame key base122 (f ++ rest) scratch encoding).yields = .ok (some (seq, data)) ∧
        (decodeFrame key base122 (f ++ rest) scratch encoding).src = rest) ∧
      (∀ p q scratch, f = p ++ q → q ≠ [] →
        decodeFrame key base122 p scratch encoding = ⟨.ok none, p, scratch⟩) ∧
      (∀ rest, decodeFromBuffer key base122 (f ++ rest) encoding = (.ok (some (seq, data)), rest)) ∧
      (∀ p q, f = p ++ q → q ≠ [] → decodeFromBuffer key base122 p encoding = (.ok none, p)) := by
  obtain ⟨f, padding, hout, hf⟩ := encodeFrameInto_carries h
  have hwhole := decodeFrame_carries hkey hb hf
  have hshort : ∀ p q scratch, f = p ++ q → q ≠ [] →
      decodeFrame key base122 p scratch encoding = ⟨.ok none, p, scratch⟩ := by
    rintro p q scratch rfl hq
    exact decodeFrame_short hkey hb hf hq scratch
  refine ⟨f, hout, hwhole, hshort, ?_, ?_⟩
  · intro rest
    rw [decodeFromBuffer_eq, (hwhole rest _).1, (hwhole rest _).2]
  · intro p q hsplit hq
    rw [decodeFromBuffer_eq, hshort p q _ hsplit hq]
    rfl

/-- The published base-122, as a codec that clears its buffers. -/
def publishedBase122 : Base122Fast where
  encodeInto x _ := Base122.encode x
  decodeIntoBytes text out :=
    match Base122.decode text with
    | some x => (x, .ok x.length)
    | none => (out, .error "invalid base-122")

theorem publishedBase122_lawful : publishedBase122.Lawful where
  encode_clears _ _ := rfl
  decode_encode x out := by
    show (match Base122.decode (Base122.encode x) with
      | some x => (x, Except.ok x.length)
      | none => (out, Except.error "invalid base-122")) = _
    rw [Base122.decode_encode]
  no_newline x := Base122.newline_not_mem_encode x
  length_le x := Base122.length_encode_le x

/-- The all-zero nonce, and 6 bytes of padding. -/
def demoDraw : Draw := ⟨6, ⟨.replicate 12 0, rfl⟩⟩

/-- The empty frame 0 with 6 bytes of padding, which is 16 zero bytes of plaintext, makes the trip in
    both encodings. -/
theorem frame_round_trip_demo :
    (∃ f, encodeFrameInto zeroKey publishedBase122 demoDraw [] 0 1 ⟨0, 9, by decide⟩ .binary [] =
        (f, .ok ()) ∧
      f = [0, 44] ++ .replicate 12 0 ++ zeroKeyStream ++ zeroKeyTag ∧
      decodeFromBuffer zeroKey publishedBase122 (f ++ [7]) .binary = (.ok (some (0, [])), [7])) ∧
    (∃ f, encodeFrameInto zeroKey publishedBase122 demoDraw [] 0 1 ⟨0, 9, by decide⟩ .json [] =
        (f, .ok ()) ∧
      decodeFromBuffer zeroKey publishedBase122 (f ++ [7]) .json = (.ok (some (0, [])), [7])) := by
  constructor
  · obtain ⟨f, hf, -, -, hbuffer, -⟩ := frame_round_trip zeroKey publishedBase122 zeroKey_lawful
      publishedBase122_lawful demoDraw [] 0 1 ⟨0, 9, by decide⟩ .binary []
      ([0, 44] ++ .replicate 12 0 ++ zeroKeyStream ++ zeroKeyTag) (by rfl)
    rw [List.nil_append] at hf
    subst hf
    exact ⟨_, rfl, rfl, hbuffer [7]⟩
  · obtain ⟨f, hf, -, -, hbuffer, -⟩ := frame_round_trip zeroKey publishedBase122 zeroKey_lawful
      publishedBase122_lawful demoDraw [] 0 1 ⟨0, 9, by decide⟩ .json [] _ (Prod.ext rfl rfl)
    rw [List.nil_append] at hf
    exact ⟨_, Prod.ext rfl rfl, hf ▸ hbuffer [7]⟩

end Httproxy.Shaper
