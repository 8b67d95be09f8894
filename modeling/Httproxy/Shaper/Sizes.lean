/-
  How long a frame gets (`seal_into` and `encode_frame_into` in `src/shaper/mod.rs`).

  A frame of the shaper has to fit ONE HTTP/2 DATA frame of 16384 bytes; every frame has to fit the buffer
  that is reserved for it and to pass the decoder's own limit.

  1. **Specification** — `Fits encoding f`: `f` fits its buffer, and the limit of `decode_frame` does not
     reject it.  `Base122Fast.Short` is all that is assumed of the base-122 codec: `n` bytes become at
     most `⌈8n/7⌉ + 1`.

  2. **One frame (`Carries.length_binary`, `Carries.length_json`)** — data and padding are wrapped into 40
     bytes (binary), or into 38 bytes whose base-122 text gets 12 more (JSON).

  3. **The crux (`sealInto_sized`)** — the padding is capped by the SHAPER's threshold, not by the
     encoder's limit: 16344 + 40 = 16384 bytes for binary, and 14282 + 38 = 14320 bytes, of which base-122
     makes 16367, hence a line of 16379, for JSON.

  The theorem is `frame_sizes`.  A config's ranges are ordered, which is what `TrafficConfig::validate`
  checks; nothing else of the config matters, however large its thresholds and ranges are.
-/
import Httproxy.Shaper.Traffic

namespace Httproxy.Shaper

open Crypto Bytes Machine

/-! ## Specification -/

/-- The size of what base-122 makes. -/
def Base122Fast.Short (base122 : Base122Fast) : Prop :=
  ∀ x out, (base122.encodeInto x out).length ≤ (8 * x.length + 6) / 7 + 1

theorem Base122Fast.Lawful.short {base122 : Base122Fast} (h : base122.Lawful) : base122.Short := by
  intro x out
  rw [h.encode_clears]
  exact h.length_le x

/-- No byte of what base-122 makes stands for more than seven bits. -/
def Base122Fast.SevenBit (base122 : Base122Fast) : Prop :=
  ∀ x out, 8 * x.length ≤ 7 * (base122.encodeInto x out).length

/-- What `decode_frame` checks before it takes a frame: the length in front, or where the line ends. -/
def Decodable : EncodingType → Bytes → Prop
  | .binary, f => readU16Be (f.take 2) ≤ MAX_BINARY_FRAME_LEN ∧ f.length = 2 + readU16Be (f.take 2)
  | .json, f => ∃ pos, f.idxOf? DELIMITER = some pos ∧ pos ≤ MAX_JSON_LINE_LEN

structure Fits (encoding : EncodingType) (f : Bytes) : Prop where
  buffer : f.length ≤ maxEncodedFrameLen encoding
  decoder : Decodable encoding f

/-- The length in front of a binary frame. -/
def encLen (rawLen paddingLen : Nat) : Nat := NONCE_LEN + (HEADER_LEN + rawLen + paddingLen) + TAG_LEN

/-! ## One frame -/

section Carried

variable {key : LessSafeKey} {base122 : Base122Fast} {f : Bytes} {seq : UInt64} {data : Bytes}
  {padding : Nat}

theorem encLen_lt {rawLen paddingLen : Nat} (h : rawLen + paddingLen ≤ MAX_RAW_PAYLOAD) :
    encLen rawLen paddingLen ≤ MAX_BINARY_FRAME_LEN ∧ encLen rawLen paddingLen < 2 ^ 16 := by
  have hmax : MAX_RAW_PAYLOAD = 16384 := rfl
  have hlen : MAX_BINARY_FRAME_LEN = 16422 := rfl
  simp only [encLen, NONCE_LEN, HEADER_LEN, TAG_LEN]
  omega

/-- A binary frame is its length, and then as many bytes. -/
theorem Carries.length_binary (hf : Carries key base122 .binary f seq data padding)
    (hkey : key.Lawful) :
    f.length = 2 + encLen data.length padding ∧ readU16Be (f.take 2) = encLen data.length padding := by
  obtain ⟨nonce, ct, tag, hfits, hseal, rfl⟩ := hf
  have hbox := length_box hkey hseal
  have hsmall := (encLen_lt hfits).2
  constructor
  · rw [List.length_append, length_putU16, hbox]
    simp only [encLen, NONCE_LEN, HEADER_LEN, TAG_LEN]
    omega
  · rw [List.take_left' (length_putU16 _)]
    have hread := readU16Be_putU16 hsmall []
    rwa [List.append_nil] at hread

/-- A line of JSON is the text of 38 bytes, data and padding, and 12 more. -/
theorem Carries.length_json (hf : Carries key base122 .json f seq data padding) (hkey : key.Lawful)
    (hb : base122.Short) :
    f.length ≤ (8 * (38 + (data.length + padding)) + 6) / 7 + 13 ∧ ∃ line, f = line ++ [DELIMITER] := by
  obtain ⟨nonce, ct, tag, -, hseal, old, rfl⟩ := hf
  have hbox := length_box hkey hseal
  have htext := hb (nonce.1 ++ ct ++ tag) old
  rw [hbox] at htext
  constructor
  · simp only [List.length_append, DATA_START, DATA_END, List.length_cons, List.length_nil]
    omega
  · exact ⟨DATA_START ++ base122.encodeInto (nonce.1 ++ ct ++ tag) old ++ DATA_END, by
      simp only [List.append_assoc]⟩

/-- The first delimiter of a line is its last byte, or stands before it. -/
theorem delimiter_le {line : Bytes} {n : Nat} (h : (line ++ [DELIMITER]).length ≤ n + 1) :
    ∃ pos, (line ++ [DELIMITER]).idxOf? DELIMITER = some pos ∧ pos ≤ n := by
  have hmem : DELIMITER ∈ line ++ [DELIMITER] := List.mem_append_right _ (List.mem_singleton_self _)
  obtain ⟨pos, hpos⟩ := Option.isSome_iff_exists.mp (List.isSome_idxOf?.mpr hmem)
  obtain ⟨hlt, -⟩ := List.idxOf?_eq_some_iff.mp hpos
  exact ⟨pos, hpos, by omega⟩

/-- **Every frame fits**: its buffer, and the decoder's limit. -/
theorem Carries.fits {encoding : EncodingType} (hf : Carries key base122 encoding f seq data padding)
    (hkey : key.Lawful) (hb : base122.Short) : Fits encoding f := by
  have hlimit : data.length + padding ≤ frameRawLimit encoding := by
    obtain ⟨nonce, ct, tag, hfits, -⟩ := hf
    exact hfits
  cases encoding with
  | binary =>
    obtain ⟨hlen, hread⟩ := hf.length_binary hkey
    have hmax := (encLen_lt hlimit).1
    constructor
    · have hbuffer : maxEncodedFrameLen .binary = MAX_BINARY_FRAME_LEN + 2 := rfl
      omega
    · rw [Decodable, hread]
      exact ⟨hmax, hlen⟩
  | json =>
    obtain ⟨hlen, line, rfl⟩ := hf.length_json hkey hb
    have hcap : frameRawLimit .json = 14282 := rfl
    have hline : MAX_JSON_LINE_LEN = 18780 := rfl
    have hbuffer : maxEncodedFrameLen .json = 18781 := rfl
    constructor
    · omega
    · apply delimiter_le
      omega

/-- **A frame within the shaper's threshold fits one HTTP/2 DATA frame.** -/
theorem Carries.single {encoding : EncodingType} (hf : Carries key base122 encoding f seq data padding)
    (hkey : key.Lawful) (hb : base122.Short)
    (hpadded : data.length + padding ≤ sealThresholdOf encoding) : f.length ≤ 16384 := by
  cases encoding with
  | binary =>
    have hthreshold : sealThresholdOf .binary = 16344 := rfl
    obtain ⟨hlen, -⟩ := hf.length_binary hkey
    simp only [encLen, NONCE_LEN, HEADER_LEN, TAG_LEN] at hlen
    omega
  | json =>
    have hthreshold : sealThresholdOf .json = 14282 := rfl
    obtain ⟨hlen, -⟩ := hf.length_json hkey hb
    omega

/-- **A frame is not shorter than its data.** -/
theorem Carries.data_le {encoding : EncodingType} (hf : Carries key base122 encoding f seq data padding)
    (hkey : key.Lawful) (hb : base122.SevenBit) : data.length ≤ f.length := by
  cases encoding with
  | binary =>
    obtain ⟨hlen, -⟩ := hf.length_binary hkey
    simp only [encLen] at hlen
    omega
  | json =>
    obtain ⟨nonce, ct, tag, -, hseal, old, rfl⟩ := hf
    have hbox := length_box hkey hseal
    have htext := hb (nonce.1 ++ ct ++ tag) old
    rw [hbox] at htext
    simp only [List.length_append]
    omega

end Carried

/-! ## One call of `seal_into` -/

/-- Neither the encoding nor the threshold ever changes, also when the cipher fails. -/
theorem writeFrame_same (key : LessSafeKey) (base122 : Base122Fast) (nonce : Nonce) (data : Bytes)
    (seq : UInt64) (padding : Nat) (s : TrafficShaper) (out : Bytes) :
    (writeFrame key base122 nonce data seq padding s out).1.encoding = s.encoding ∧
      (writeFrame key base122 nonce data seq padding s out).1.sealThreshold = s.sealThreshold := by
  unfold writeFrame
  dsimp only
  split
  · split <;> exact ⟨rfl, rfl⟩
  · split <;> exact ⟨rfl, rfl⟩

/-- The threshold is the one of the encoding. -/
def TrafficShaper.Tuned (encoding : EncodingType) (s : TrafficShaper) : Prop :=
  s.encoding = encoding ∧ s.sealThreshold = sealThresholdOf encoding

/-- **The subtraction of the padding does not underflow, and both casts are exact.** -/
theorem TrafficShaper.Tuned.arithmetic {encoding : EncodingType} {s : TrafficShaper} (h : s.Tuned encoding)
    (draw : Nat) :
    s.frameData.length ≤ s.sealThreshold ∧ s.frameData.length < 2 ^ 16 ∧
      encLen s.frameData.length (resolvePadding draw s.frameData.length s).2 < 2 ^ 16 := by
  have hraw : s.frameData.length ≤ s.sealThreshold := by
    rw [length_frameData]
    omega
  have hpadded := resolvePadding_le hraw draw
  have hthreshold : s.sealThreshold ≤ MAX_RAW_PAYLOAD := by
    rw [h.2]
    cases encoding <;> decide
  have hmax : MAX_RAW_PAYLOAD = 16384 := rfl
  refine ⟨hraw, by omega, (encLen_lt ?_).2⟩
  omega

/-- **One call**: what it appends, if it succeeds, is a frame within the threshold. -/
theorem sealInto_sized {key : LessSafeKey} {base122 : Base122Fast} {draw : Draw}
    {encoding : EncodingType} {s s' : TrafficShaper} {out out' : Bytes} {n : UInt64}
    (hs : s.Tuned encoding) (h : sealInto key base122 draw s out = (s', out', .ok n)) :
    ∃ f padding, out' = out ++ f ∧ Carries key base122 encoding f s.seq s.frameData padding ∧
      s.frameData.length + padding ≤ sealThresholdOf encoding := by
  have hraw : s.frameData.length ≤ s.sealThreshold := by
    rw [length_frameData]
    omega
  have hpadded := resolvePadding_le (s := { s with timerArmed := false, seq := s.seq + 1 }) hraw
    draw.padding
  obtain ⟨rfl, hthreshold⟩ := hs
  have hlimit := Nat.le_trans hpadded (hthreshold ▸ sealThresholdOf_le s.encoding)
  obtain ⟨f, -, -, -, hout, -, hf⟩ := writeFrame_ok (s := (resolvePadding draw.padding s.frameData.length
    { s with timerArmed := false, seq := s.seq + 1 }).1) hlimit h
  exact ⟨f, _, hout, hf, hthreshold ▸ hpadded⟩

/-! ## Every run -/

/-- What is proved of a sealed frame. -/
def SealedFrame.Sized (encoding : EncodingType) (f : SealedFrame) : Prop :=
  f.bytes.length ≤ 16384 ∧ Fits encoding f.bytes

/-- What a turn from a tuned shaper comes to. -/
def Turned.Sized (encoding : EncodingType) (out : Bytes) (t : Turned) : Prop :=
  t.shaper.Tuned encoding ∧ ∀ f ∈ t.frames out, f.Sized encoding

section Run

variable {key : LessSafeKey} {base122 : Base122Fast} {encoding : EncodingType}

theorem sealTurn_sized (hkey : key.Lawful) (hb : base122.Short) {s : TrafficShaper}
    (hs : s.Tuned encoding) (draw : Draw) (out : Bytes) (read : Option (Nat × Served)) :
    (sealTurn key base122 draw s out read).Sized encoding out := by
  have hsame := writeFrame_same key base122 draw.nonce s.frameData s.seq
    (resolvePadding draw.padding s.frameData.length { s with timerArmed := false, seq := s.seq + 1 }).2
    (resolvePadding draw.padding s.frameData.length { s with timerArmed := false, seq := s.seq + 1 }).1 out
  have htuned : (sealInto key base122 draw s out).1.Tuned encoding :=
    ⟨hsame.1.trans hs.1, hsame.2.trans hs.2⟩
  unfold sealTurn
  split
  · rename_i s' out' e hseal
    rw [hseal] at htuned
    constructor
    · exact htuned
    · intro f hf
      cases hf
  · rename_i s' out' n hseal
    rw [hseal] at htuned
    obtain ⟨bytes, padding, rfl, hf, hpadded⟩ := sealInto_sized hs hseal
    constructor
    · exact htuned
    · intro f hmem
      obtain rfl := List.mem_singleton.mp hmem
      have hbytes : (out ++ bytes).drop out.length = bytes := List.drop_left
      constructor
      · show ((out ++ bytes).drop out.length).length ≤ 16384
        rw [hbytes]
        exact hf.single hkey hb hpadded
      · show Fits encoding ((out ++ bytes).drop out.length)
        rw [hbytes]
        exact hf.fits hkey hb

/-- **One turn of the loop**, of either shape. -/
theorem turn_sized (hkey : key.Lawful) (hb : base122.Short) {s : TrafficShaper}
    (hs : s.Tuned encoding) (io : Io) (out : Bytes) : (turn key base122 io s out).Sized encoding out := by
  obtain ⟨timerArmed, cursor, read, hturn⟩ | ⟨outcome, rawBuf, timerArmed, cursor, read, hno, hturn⟩ :=
    turn_shape key base122 io s out
  · rw [hturn]
    exact sealTurn_sized hkey hb (s := { s with timerArmed, cursor }) hs io.draw out read
  · rw [hturn]
    constructor
    · exact hs
    · intro f hf
      rw [Turned.frames_nil hno] at hf
      cases hf

/-- What holds of the shaper and its frames, after any number of turns. -/
def Polling.Sized (encoding : EncodingType) (p : Polling) : Prop :=
  p.shaper.Tuned encoding ∧ ∀ f ∈ p.frames, f.Sized encoding

theorem sized_step (hkey : key.Lawful) (hb : base122.Short) {p p' : Polling} {e : Event}
    (h : p.Sized encoding) (hstep : step key base122 p e = some p') : p'.Sized encoding := by
  cases e with
  | call out =>
    simp only [step, Option.ite_none_right_eq_some, Option.some.injEq] at hstep
    obtain ⟨-, rfl⟩ := hstep
    exact h
  | turn io =>
    obtain ⟨out, -, rfl⟩ := Option.map_eq_some_iff.mp hstep
    obtain ⟨hshaper, hframes⟩ := turn_sized hkey hb h.1 io out
    constructor
    · exact hshaper
    · intro f hf
      rcases List.mem_append.mp hf with hold | hnew
      · exact h.2 f hold
      · exact hframes f hnew

theorem sized_run (hkey : key.Lawful) (hb : base122.Short) {config : ResolvedShaperConfig}
    {startSeq : UInt64} {random : Nat} {events : List Event} {p : Polling}
    (h : run (step key base122) (.new (.withSeq config startSeq random)) events = some p) :
    p.Sized config.encoding := by
  have hnew : (Polling.new (.withSeq config startSeq random)).Sized config.encoding := by
    refine ⟨⟨rfl, rfl⟩, ?_⟩
    rintro f ⟨⟩
  exact run_invariant (fun _ _ _ hp hstep => sized_step hkey hb hp hstep) events _ _ hnew h

end Run

/-! ## The sizes -/

/-- **Every frame fits.**

    For every config and every state the shaper can reach, with base-122 making at most `⌈8n/7⌉ + 1` bytes
    of `n`: the frames it has sealed have at most 16384 bytes, fit the buffer reserved for them and pass
    the decoder's limit; when the next one is sealed, `seal_threshold - raw_len` does not underflow and
    both lengths fit 16 bits.  What `encode_frame_into` appends fits the buffer and the decoder's limit
    too, and its subtraction and its casts are as safe. -/
theorem frame_sizes (key : LessSafeKey) (hkey : key.Lawful) (base122 : Base122Fast)
    (hb : base122.Short) :
    (∀ config startSeq random events p,
      run (step key base122) (.new (.withSeq config startSeq random)) events = some p →
      (∀ f ∈ p.frames, f.bytes.length ≤ 16384 ∧ Fits config.encoding f.bytes) ∧
      (∀ draw, p.shaper.frameData.length ≤ p.shaper.sealThreshold ∧
        p.shaper.frameData.length < 2 ^ 16 ∧
        encLen p.shaper.frameData.length
          (resolvePadding draw p.shaper.frameData.length p.shaper).2 < 2 ^ 16)) ∧
    (∀ draw data seq threshold range encoding out out',
      encodeFrameInto key base122 draw data seq threshold range encoding out = (out', .ok ()) →
      (∃ f, out' = out ++ f ∧ Fits encoding f) ∧
      data.length ≤ frameRawLimit encoding ∧ data.length < 2 ^ 16 ∧
      encLen data.length
        (resolveFramePadding draw.padding data.length threshold range (frameRawLimit encoding)) < 2 ^ 16) := by
  constructor
  · intro config startSeq random events p h
    obtain ⟨htuned, hframes⟩ := sized_run hkey hb h
    exact ⟨hframes, htuned.arithmetic⟩
  · intro draw data seq threshold range encoding out out' h
    obtain ⟨f, padding, hout, hf⟩ := encodeFrameInto_carries h
    have hraw : data.length ≤ frameRawLimit encoding := by
      apply Nat.le_of_not_lt
      intro hlong
      rw [encodeFrameInto, if_pos hlong] at h
      cases h
    have hpadded := resolveFramePadding_le hraw draw.padding threshold range
    have hlimit : frameRawLimit encoding ≤ MAX_RAW_PAYLOAD := by cases encoding <;> decide
    have hmax : MAX_RAW_PAYLOAD = 16384 := rfl
    exact ⟨⟨f, hout, hf.fits hkey hb⟩, hraw, by omega, (encLen_lt (by omega)).2⟩

theorem publishedBase122_short : publishedBase122.Short :=
  fun x _ => Base122.length_encode_le x

theorem publishedBase122_sevenBit : publishedBase122.SevenBit :=
  fun x _ => Base122.length_le_encode x

/-- The two frames of `demoEvents`, and the empty frame of the codec. -/
theorem frame_sizes_demo :
    (∃ p, run (step zeroKey publishedBase122) (.new (.withSeq demoConfig 7 0)) demoEvents = some p ∧
      p.frames.length = 2 ∧ ∀ f ∈ p.frames, f.bytes.length ≤ 16384 ∧ Fits .binary f.bytes) ∧
    (∃ f, encodeFrameInto zeroKey publishedBase122 demoDraw [] 0 1 ⟨0, 9, by decide⟩ .json [] =
      (f, .ok ()) ∧ Fits .json f) := by
  have hsizes := frame_sizes zeroKey zeroKey_lawful publishedBase122 publishedBase122_short
  constructor
  · exact ⟨_, rfl, rfl, (hsizes.1 demoConfig 7 0 demoEvents _ rfl).1⟩
  · obtain ⟨⟨f, hf, hfits⟩, -⟩ := hsizes.2 demoDraw [] 0 1 ⟨0, 9, by decide⟩ .json [] _ (Prod.ext rfl rfl)
    rw [List.nil_append] at hf
    exact ⟨_, Prod.ext rfl rfl, hf ▸ hfits⟩

end Httproxy.Shaper
