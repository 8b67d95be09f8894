/-
  The traffic shaper (`TrafficShaper` in `src/shaper/mod.rs`): bytes in, frames out.

  `poll_fill_and_seal` reads into `raw_buf` and seals what has gathered there into ONE frame, when the
  buffer is full, at the end of the input, or when a random delay is over.  It is polled again and
  again, by a stream, by an upload loop or just to see whether there is something.

  1. **Program** — `turn` is one turn of the loop in `poll_fill_and_seal`, `sealInto` makes a frame,
     `resolvePadding` chooses its padding from the stage the packet number is in.  What the reader and
     the timer answer, and every random choice, comes with the turn (`Io`).  `step` runs calls turn by
     turn and keeps what they did: every read, every frame, every result.

  2. **Specification** — `Turns` says what one turn does, whichever of its branches it takes: the data
     it sealed and what is left in the buffer are what was in the buffer and what it read.

  3. **The run (`conserved_run`)** — so the frames' data and the buffer, in a row, stay all that was
     read.  A frame is only ever made of a buffer that is not empty, and a read only happens below
     the threshold, where the buffer has room.

  The frames are not only counted: each `Carries` its number and data, so `decodeFrame_carries` applies
  to it.
-/
import Httproxy.Lib.Machine
import Httproxy.Lib.Seq
import Httproxy.Shaper.Frame

namespace Httproxy.Shaper

open Crypto Machine Seq

/-! ## Program -/

def READ_HIGH_WATER : Nat := 32 * 1024
def TABLE_SIZE : Nat := 8192
def TABLE_MASK : Nat := TABLE_SIZE - 1

structure ResolvedStage where
  endCount : Nat
  paddingThreshold : Nat
  paddingRange : PaddingRange

structure ResolvedShaperConfig where
  stages : List ResolvedStage
  globalThreshold : Nat
  globalRange : PaddingRange
  encoding : EncodingType

structure TrafficShaper where
  rawBuf : Bytes
  encBuf : Bytes
  jsonBuf : Bytes
  timerArmed : Bool
  cursor : Nat
  stages : List ResolvedStage
  globalThreshold : Nat
  globalRange : PaddingRange
  packetCount : Nat
  stageIdx : Nat
  encoding : EncodingType
  sealThreshold : Nat
  seq : UInt64

/-- The most data a frame of the shaper takes. -/
def sealThresholdOf : EncodingType → Nat
  | .binary => MAX_RAW_PAYLOAD - (NONCE_LEN + TAG_LEN + HEADER_LEN + 2)
  | .json => JSON_PAYLOAD_CAP

/-- `TrafficShaper::with_seq`; `random` is the place in the table of delays to start from. -/
def TrafficShaper.withSeq (config : ResolvedShaperConfig) (startSeq : UInt64) (random : Nat) :
    TrafficShaper where
  rawBuf := []
  encBuf := []
  jsonBuf := []
  timerArmed := false
  cursor := random &&& TABLE_MASK
  stages := config.stages
  globalThreshold := config.globalThreshold
  globalRange := config.globalRange
  packetCount := 0
  stageIdx := 0
  encoding := config.encoding
  sealThreshold := sealThresholdOf config.encoding
  seq := startSeq

/-- The loop that leaves the stages behind whose last packet is past; its list is the stages from
    `si` on. -/
def skipStages (pc : Nat) : List ResolvedStage → Nat → Nat
  | [], si => si
  | stage :: later, si => if pc > stage.endCount then skipStages pc later (si + 1) else si

/-- The threshold and the range of the stage `si`, or the global ones behind the last stage. -/
def TrafficShaper.settings (s : TrafficShaper) (si : Nat) : Nat × PaddingRange :=
  match s.stages[si]? with
  | some stage => (stage.paddingThreshold, stage.paddingRange)
  | none => (s.globalThreshold, s.globalRange)

/-- `resolve_padding`: how much padding the next packet gets.  With the settings found it does what
    `resolve_frame_padding` does, up to `seal_threshold`. -/
def resolvePadding (draw rawLen : Nat) (s : TrafficShaper) : TrafficShaper × Nat :=
  let pc := s.packetCount + 1
  let si := skipStages pc (s.stages.drop s.stageIdx) s.stageIdx
  let (threshold, range) := s.settings si
  ({ s with packetCount := pc, stageIdx := si },
    resolveFramePadding draw rawLen threshold range s.sealThreshold)

/-- `raw_buf[..raw_len]`, what the next frame is made of. -/
def TrafficShaper.frameData (s : TrafficShaper) : Bytes :=
  s.rawBuf.take (min s.rawBuf.length s.sealThreshold)

/-- The `match *this.encoding` of `seal_into` and what follows it: the shaper and `out` as they are
    left, and the frame's number.  If the cipher fails the data STAYS in `raw_buf`. -/
def writeFrame (key : LessSafeKey) (base122 : Base122Fast) (nonce : Nonce) (data : Bytes)
    (seq : UInt64) (paddingLen : Nat) (s : TrafficShaper) (out : Bytes) :
    TrafficShaper × Bytes × Except IoError UInt64 :=
  let rawLen := data.length
  match s.encoding with
  | .binary =>
    match putBinary key nonce data seq paddingLen out with
    | (out, .error e) => (s, out, .error e)
    | (out, .ok ()) => ({ s with rawBuf := s.rawBuf.drop rawLen }, out, .ok seq)
  | .json =>
    let encBuf := .replicate NONCE_LEN 0 ++ (putU64 seq ++ putU16 rawLen ++ data)
    let encBuf := if paddingLen > 0 then encBuf ++ .replicate paddingLen 0 else encBuf
    match sealInPlace key nonce encBuf 0 NONCE_LEN with
    | (encBuf, .error e) => ({ s with encBuf }, out, .error e)
    | (encBuf, .ok ()) =>
      let jsonBuf := base122.encodeInto encBuf s.jsonBuf
      ({ s with encBuf, jsonBuf, rawBuf := s.rawBuf.drop rawLen },
        out ++ DATA_START ++ jsonBuf ++ (DATA_END ++ [DELIMITER]), .ok seq)

/-- `seal_into`.  The number is used up and the packet counted, also if the cipher then fails. -/
def sealInto (key : LessSafeKey) (base122 : Base122Fast) (draw : Draw) (s : TrafficShaper)
    (out : Bytes) : TrafficShaper × Bytes × Except IoError UInt64 :=
  let data := s.frameData
  let seq := s.seq
  let s := { s with timerArmed := false, seq := seq + 1 }
  let (s, paddingLen) := resolvePadding draw.padding data.length s
  writeFrame key base122 draw.nonce data seq paddingLen s out

/-- What the reader answers when it is polled; `filled []` is its end. -/
inductive Served where
  | filled (bytes : Bytes)
  | pending
  | failed (e : IoError)
  deriving DecidableEq, Repr

/-- What the environment has ready for a turn of the loop. -/
structure Io where
  read : Served
  timerReady : Bool
  draw : Draw

inductive Outcome where
  /-- The loop goes on. -/
  | again
  | pending
  | ready (result : Except IoError (Option UInt64))

/-- What a turn does: how it ends, the shaper and `out` as it leaves them, the read if there was one
    (`raw_buf.len()` at that point, and the answer), and the data it sealed. -/
structure Turned where
  outcome : Outcome
  shaper : TrafficShaper
  out : Bytes
  read : Option (Nat × Served)
  data : Bytes

/-- `return Poll::Ready(Self::seal_into(&mut this, out).map(Some))`. -/
def sealTurn (key : LessSafeKey) (base122 : Base122Fast) (draw : Draw) (s : TrafficShaper)
    (out : Bytes) (read : Option (Nat × Served)) : Turned :=
  match sealInto key base122 draw s out with
  | (shaper, out, .error e) => ⟨.ready (.error e), shaper, out, read, []⟩
  | (shaper, out, .ok seq) => ⟨.ready (.ok (some seq)), shaper, out, read, s.frameData⟩

/-- Start the delay, unless one is running. -/
def TrafficShaper.arm (s : TrafficShaper) : TrafficShaper :=
  if s.timerArmed then s
  else { s with cursor := (s.cursor + 1) &&& TABLE_MASK, timerArmed := true }

/-- One turn of the loop in `poll_fill_and_seal`. -/
def turn (key : LessSafeKey) (base122 : Base122Fast) (io : Io) (s : TrafficShaper) (out : Bytes) :
    Turned :=
  let rawLen := s.rawBuf.length
  if rawLen ≥ s.sealThreshold then sealTurn key base122 io.draw s out none
  else
    let remaining := READ_HIGH_WATER - rawLen
    match io.read with
    | .filled offered =>
      -- the `ReadBuf` has room for `remaining` bytes, whatever the reader has
      let filled := offered.take remaining
      let read := some (rawLen, Served.filled filled)
      if filled.length = 0 then
        if s.rawBuf = [] then ⟨.ready (.ok none), s, out, read, []⟩
        else sealTurn key base122 io.draw s out read
      else ⟨.again, { s with rawBuf := s.rawBuf ++ filled }, out, read, []⟩
    | .pending =>
      let read := some (rawLen, Served.pending)
      if rawLen = 0 then ⟨.pending, s, out, read, []⟩
      else if rawLen ≥ s.sealThreshold then sealTurn key base122 io.draw s out read
      else
        let s := s.arm
        if io.timerReady then sealTurn key base122 io.draw s out read
        else ⟨.pending, s, out, read, []⟩
    | .failed e => ⟨.ready (.error e), s, out, some (rawLen, .failed e), []⟩

/-- A frame: its number and data, and the bytes appended for it. -/
structure SealedFrame where
  seq : UInt64
  data : Bytes
  bytes : Bytes

/-- How a call returned: what the reader had answered in the turn that ended it, if it was polled,
    and what was in `raw_buf` then. -/
structure Returned where
  outcome : Outcome
  answer : Option Served
  rawBuf : Bytes

/-- The shaper, the buffer of the call in progress, and what the calls have done so far. -/
structure Polling where
  shaper : TrafficShaper
  call : Option Bytes
  reads : List (Nat × Served)
  frames : List SealedFrame
  results : List Returned

def Polling.new (shaper : TrafficShaper) : Polling := ⟨shaper, none, [], [], []⟩

inductive Event where
  /-- `poll_fill_and_seal` is called with this buffer to append to; `poll_next` calls it with an
      empty one. -/
  | call (out : Bytes)
  | turn (io : Io)

/-- The frame a turn appended to `out`. -/
def Turned.frames (t : Turned) (out : Bytes) : List SealedFrame :=
  match t.outcome with
  | .ready (.ok (some seq)) => [⟨seq, t.data, t.out.drop out.length⟩]
  | _ => []

/-- The result of the call, if the turn ended it. -/
def Turned.results (t : Turned) : List Returned :=
  match t.outcome with
  | .again => []
  | o => [⟨o, t.read.map Prod.snd, t.shaper.rawBuf⟩]

/-- The buffer of the call that is still in progress. -/
def Turned.call (t : Turned) (out : Bytes) : Option Bytes :=
  match t.outcome with
  | .again => some out
  | _ => none

def step (key : LessSafeKey) (base122 : Base122Fast) (p : Polling) : Event → Option Polling
  | .call out => if p.call = none then some { p with call := some out } else none
  | .turn io =>
    p.call.map fun out =>
      let t := turn key base122 io p.shaper out
      { shaper := t.shaper
        call := t.call out
        reads := p.reads ++ t.read.toList
        frames := p.frames ++ t.frames out
        results := p.results ++ t.results }

/-! ## Specification -/

/-- The bytes of an answer. -/
def Served.bytes : Served → Bytes
  | .filled bytes => bytes
  | _ => []

/-- All the bytes that some reads put into `raw_buf`. -/
def bytesRead (reads : List (Nat × Served)) : Bytes := (reads.map fun r => r.2.bytes).flatten

theorem bytesRead_append (rs rs' : List (Nat × Served)) :
    bytesRead (rs ++ rs') = bytesRead rs ++ bytesRead rs' := by
  simp [bytesRead]

/-- What a turn of the loop from `s` with the buffer `out` comes to, in any of its branches. -/
structure Turns (key : LessSafeKey) (base122 : Base122Fast) (s : TrafficShaper) (out : Bytes)
    (t : Turned) : Prop where
  encoding : t.shaper.encoding = s.encoding
  threshold : t.shaper.sealThreshold = s.sealThreshold
  /-- Bytes go from the reader to the buffer and from the buffer to the frame, in order. -/
  moves : t.data ++ t.shaper.rawBuf = s.rawBuf ++ bytesRead t.read.toList
  below : ∀ r ∈ t.read, r.1 = s.rawBuf.length ∧ r.1 < s.sealThreshold
  sealed : ∀ seq, t.outcome = .ready (.ok (some seq)) →
    seq = s.seq ∧ t.shaper.seq = s.seq + 1 ∧ t.data ≠ [] ∧
      ∃ f padding, t.out = out ++ f ∧ Carries key base122 s.encoding f seq t.data padding
  unsealed : (∀ seq, t.outcome ≠ .ready (.ok (some seq))) →
    t.shaper.seq = s.seq ∧ t.data = [] ∧ t.out = out
  ended : t.outcome = .ready (.ok none) →
    t.read = some (s.rawBuf.length, .filled []) ∧ t.shaper.rawBuf = []

/-! ## One frame -/

theorem resolvePadding_le {rawLen : Nat} {s : TrafficShaper} (h : rawLen ≤ s.sealThreshold)
    (draw : Nat) : rawLen + (resolvePadding draw rawLen s).2 ≤ s.sealThreshold :=
  resolveFramePadding_le h draw _ _

theorem sealThresholdOf_le (encoding : EncodingType) :
    sealThresholdOf encoding ≤ frameRawLimit encoding := by
  cases encoding <;> decide

theorem sealThresholdOf_pos (encoding : EncodingType) : 0 < sealThresholdOf encoding := by
  cases encoding <;> decide

theorem length_frameData (s : TrafficShaper) :
    s.frameData.length = min s.rawBuf.length s.sealThreshold := by
  rw [TrafficShaper.frameData, List.length_take]
  omega

theorem frameData_append_drop (s : TrafficShaper) :
    s.frameData ++ s.rawBuf.drop s.frameData.length = s.rawBuf := by
  rw [length_frameData]
  exact List.take_append_drop ..

theorem frameData_ne_nil {s : TrafficShaper} (hpos : 0 < s.sealThreshold) (hraw : s.rawBuf ≠ []) :
    s.frameData ≠ [] := by
  have hlen := List.length_pos_iff.mpr hraw
  rw [← List.length_pos_iff, length_frameData]
  omega

/-- What was written, if the cipher did not fail. -/
theorem writeFrame_ok {key : LessSafeKey} {base122 : Base122Fast} {nonce : Nonce} {data : Bytes}
    {seq : UInt64} {padding : Nat} {s s' : TrafficShaper} {out out' : Bytes} {n : UInt64}
    (hfits : data.length + padding ≤ frameRawLimit s.encoding)
    (h : writeFrame key base122 nonce data seq padding s out = (s', out', .ok n)) :
    ∃ f encBuf jsonBuf, s' = { s with encBuf, jsonBuf, rawBuf := s.rawBuf.drop data.length } ∧
      out' = out ++ f ∧ n = seq ∧ Carries key base122 s.encoding f seq data padding := by
  unfold writeFrame at h
  dsimp only at h
  cases he : s.encoding with
  | binary =>
    rw [he] at h hfits
    dsimp only at h
    split at h
    · cases h
    · rename_i put hput
      obtain ⟨ct, tag, hseal, rfl⟩ := putBinary_ok hput
      obtain ⟨rfl, rfl, hn⟩ := by simpa only [Prod.mk.injEq] using h
      obtain rfl := Except.ok.inj hn
      exact ⟨_, s.encBuf, s.jsonBuf, rfl, rfl, rfl, nonce, ct, tag, hfits, hseal, rfl⟩
  | json =>
    rw [he] at h hfits
    dsimp only at h
    rw [append_zeros] at h
    split at h
    · cases h
    · rename_i encBuf hput
      obtain ⟨ct, tag, hseal, rfl⟩ := sealInPlace_ok hput
      rw [List.append_assoc, List.drop_left' List.length_replicate] at hseal
      obtain ⟨rfl, rfl, hn⟩ := by simpa only [Prod.mk.injEq] using h
      obtain rfl := Except.ok.inj hn
      refine ⟨_, _, _, rfl, ?_, rfl, nonce, ct, tag, hfits, hseal, s.jsonBuf, rfl⟩
      simp only [List.take_zero, List.nil_append, List.append_assoc]

theorem writeFrame_neverFails {key : LessSafeKey} (hkey : key.NeverFails) (base122 : Base122Fast)
    (nonce : Nonce) (data : Bytes) (seq : UInt64) (padding : Nat) (s : TrafficShaper) (out : Bytes) :
    ∃ s' out' n, writeFrame key base122 nonce data seq padding s out = (s', out', .ok n) := by
  unfold writeFrame
  dsimp only
  split
  · have hok : (putBinary key nonce data seq padding out).2 = .ok () := hkey.sealInPlace ..
    split
    · rename_i e herr
      rw [herr] at hok
      cases hok
    · exact ⟨_, _, _, rfl⟩
  · split
    · rename_i encBuf e herr
      have hok := congrArg Prod.snd herr
      rw [hkey.sealInPlace] at hok
      cases hok
    · exact ⟨_, _, _, rfl⟩

theorem writeFrame_spec {key : LessSafeKey} (hkey : key.NeverFails) (base122 : Base122Fast)
    (nonce : Nonce) {data : Bytes} (seq : UInt64) {padding : Nat} {s : TrafficShaper}
    (hfits : data.length + padding ≤ frameRawLimit s.encoding) (out : Bytes) :
    ∃ f encBuf jsonBuf,
      writeFrame key base122 nonce data seq padding s out =
        ({ s with encBuf, jsonBuf, rawBuf := s.rawBuf.drop data.length }, out ++ f, .ok seq) ∧
      Carries key base122 s.encoding f seq data padding := by
  obtain ⟨s', out', n, h⟩ := writeFrame_neverFails hkey base122 nonce data seq padding s out
  obtain ⟨f, encBuf, jsonBuf, rfl, rfl, rfl, hf⟩ := writeFrame_ok hfits h
  exact ⟨f, encBuf, jsonBuf, h, hf⟩

/-- The shaper as `seal_into` leaves it before it writes, and the padding. -/
def TrafficShaper.resolved (draw : Nat) (s : TrafficShaper) : TrafficShaper × Nat :=
  resolvePadding draw s.frameData.length { s with timerArmed := false, seq := s.seq + 1 }

/-- `seal_into` with a cipher that never fails: what `resolve_padding` leaves, with the front of the buffer
    taken off it, and a frame of that padding. -/
theorem sealInto_resolved {key : LessSafeKey} (hkey : key.NeverFails) (base122 : Base122Fast)
    (draw : Draw) {s : TrafficShaper} (hwf : s.sealThreshold = sealThresholdOf s.encoding)
    (out : Bytes) :
    ∃ f encBuf jsonBuf, sealInto key base122 draw s out =
        ({ (s.resolved draw.padding).1 with
            encBuf, jsonBuf, rawBuf := s.rawBuf.drop s.frameData.length }, out ++ f, .ok s.seq) ∧
      Carries key base122 s.encoding f s.seq s.frameData (s.resolved draw.padding).2 := by
  have hraw : s.frameData.length ≤ s.sealThreshold := by
    rw [length_frameData]
    omega
  have hlimit : s.sealThreshold ≤ frameRawLimit s.encoding := hwf ▸ sealThresholdOf_le s.encoding
  have hpadded := resolvePadding_le (s := { s with timerArmed := false, seq := s.seq + 1 }) hraw
    draw.padding
  exact writeFrame_spec hkey base122 draw.nonce s.seq (s := (s.resolved draw.padding).1)
    (hpadded.trans hlimit) out

/-- **One frame.**  With a cipher that never fails, `seal_into` appends a frame of the next number and
    of the front of the buffer, as much of it as a frame takes, and takes just that off it. -/
theorem sealInto_spec {key : LessSafeKey} (hkey : key.NeverFails) (base122 : Base122Fast)
    (draw : Draw) {s : TrafficShaper} (hwf : s.sealThreshold = sealThresholdOf s.encoding)
    (out : Bytes) :
    ∃ s' f padding, sealInto key base122 draw s out = (s', out ++ f, .ok s.seq) ∧
      Carries key base122 s.encoding f s.seq s.frameData padding ∧
      s'.rawBuf = s.rawBuf.drop s.frameData.length ∧ s'.seq = s.seq + 1 ∧
      s'.encoding = s.encoding ∧ s'.sealThreshold = s.sealThreshold := by
  obtain ⟨f, encBuf, jsonBuf, heq, hf⟩ := sealInto_resolved hkey base122 draw hwf out
  exact ⟨_, f, _, heq, hf, rfl, rfl, rfl, rfl⟩

/-! ## One turn -/

section Turn

variable {key : LessSafeKey} {base122 : Base122Fast} {s : TrafficShaper} {out : Bytes}

theorem sealTurn_read (key : LessSafeKey) (base122 : Base122Fast) (draw : Draw) (s : TrafficShaper)
    (out : Bytes) (read : Option (Nat × Served)) : (sealTurn key base122 draw s out read).read = read := by
  rw [sealTurn]
  split <;> rfl

theorem sealTurn_ends (key : LessSafeKey) (base122 : Base122Fast) (draw : Draw) (s : TrafficShaper)
    (out : Bytes) (read : Option (Nat × Served)) :
    (sealTurn key base122 draw s out read).outcome ≠ .again := by
  rw [sealTurn]
  split
  · rintro ⟨⟩
  · rintro ⟨⟩

/-- A turn that seals a buffer that is not empty, having read nothing. -/
theorem turns_seal (hkey : key.NeverFails) (hwf : s.sealThreshold = sealThresholdOf s.encoding)
    (hraw : s.rawBuf ≠ []) (draw : Draw) {read : Option (Nat × Served)}
    (hnothing : bytesRead read.toList = [])
    (hbelow : ∀ r ∈ read, r.1 = s.rawBuf.length ∧ r.1 < s.sealThreshold) :
    Turns key base122 s out (sealTurn key base122 draw s out read) := by
  obtain ⟨s', f, padding, hseal, hf, hbuf, hseq, henc, hthr⟩ :=
    sealInto_spec hkey base122 draw hwf out
  have hpos : 0 < s.sealThreshold := hwf ▸ sealThresholdOf_pos s.encoding
  rw [sealTurn, hseal]
  constructor
  case encoding => exact henc
  case threshold => exact hthr
  case moves => rw [hnothing, List.append_nil, hbuf, frameData_append_drop]
  case below => exact hbelow
  case sealed =>
    intro seq hout
    cases hout
    exact ⟨rfl, hseq, frameData_ne_nil hpos hraw, f, padding, rfl, hf⟩
  case unsealed => exact fun hno => absurd rfl (hno s.seq)
  case ended => exact fun hout => nomatch hout

/-- A turn that seals nothing: it reads, or it finds nothing to do. -/
theorem turns_unsealed {s' : TrafficShaper} {outcome : Outcome} {read : Option (Nat × Served)}
    (hseq : s'.seq = s.seq) (henc : s'.encoding = s.encoding)
    (hthr : s'.sealThreshold = s.sealThreshold)
    (hbuf : s'.rawBuf = s.rawBuf ++ bytesRead read.toList)
    (hbelow : ∀ r ∈ read, r.1 = s.rawBuf.length ∧ r.1 < s.sealThreshold)
    (hno : ∀ seq, outcome ≠ .ready (.ok (some seq)))
    (hended : outcome = .ready (.ok none) →
      read = some (s.rawBuf.length, .filled []) ∧ s'.rawBuf = []) :
    Turns key base122 s out ⟨outcome, s', out, read, []⟩ where
  encoding := henc
  threshold := hthr
  moves := hbuf
  below := hbelow
  sealed := fun seq hout => absurd hout (hno seq)
  unsealed := fun _ => ⟨hseq, rfl, rfl⟩
  ended := hended

@[simp] theorem arm_rawBuf (s : TrafficShaper) : s.arm.rawBuf = s.rawBuf := by
  unfold TrafficShaper.arm
  split <;> rfl

@[simp] theorem arm_seq (s : TrafficShaper) : s.arm.seq = s.seq := by
  unfold TrafficShaper.arm
  split <;> rfl

@[simp] theorem arm_encoding (s : TrafficShaper) : s.arm.encoding = s.encoding := by
  unfold TrafficShaper.arm
  split <;> rfl

@[simp] theorem arm_sealThreshold (s : TrafficShaper) : s.arm.sealThreshold = s.sealThreshold := by
  unfold TrafficShaper.arm
  split <;> rfl

/-- Starting the delay first makes no difference to what the turn does. -/
theorem Turns.of_arm {t : Turned} (h : Turns key base122 s.arm out t) : Turns key base122 s out t where
  encoding := by simpa using h.encoding
  threshold := by simpa using h.threshold
  moves := by simpa using h.moves
  below := by simpa using h.below
  sealed := by simpa using h.sealed
  unsealed := by simpa using h.unsealed
  ended := by simpa using h.ended

/-- The two shapes of a turn: it seals, with the delay started or not; or it seals nothing, and all of the
    shaper that it touches is the buffer and the delay. -/
theorem turn_shape (key : LessSafeKey) (base122 : Base122Fast) (io : Io) (s : TrafficShaper)
    (out : Bytes) :
    (∃ timerArmed cursor read, turn key base122 io s out =
        sealTurn key base122 io.draw { s with timerArmed, cursor } out read) ∨
      ∃ outcome rawBuf timerArmed cursor read, (∀ seq, outcome ≠ .ready (.ok (some seq))) ∧
        turn key base122 io s out = ⟨outcome, { s with rawBuf, timerArmed, cursor }, out, read, []⟩ := by
  have harm : ∃ timerArmed cursor, s.arm = { s with timerArmed, cursor } := by
    unfold TrafficShaper.arm
    split
    · exact ⟨_, _, rfl⟩
    · exact ⟨_, _, rfl⟩
  unfold turn
  dsimp only
  by_cases hfull : s.rawBuf.length ≥ s.sealThreshold
  · rw [if_pos hfull]
    exact .inl ⟨s.timerArmed, s.cursor, none, rfl⟩
  rw [if_neg hfull]
  cases io.read with
  | filled offered =>
    dsimp only
    split
    · split
      · exact .inr ⟨_, s.rawBuf, s.timerArmed, s.cursor, _, by rintro _ ⟨⟩, rfl⟩
      · exact .inl ⟨s.timerArmed, s.cursor, _, rfl⟩
    · exact .inr ⟨_, _, s.timerArmed, s.cursor, _, by rintro _ ⟨⟩, rfl⟩
  | pending =>
    dsimp only
    rw [if_neg hfull]
    obtain ⟨timerArmed, cursor, harm⟩ := harm
    split
    · exact .inr ⟨_, s.rawBuf, s.timerArmed, s.cursor, _, by rintro _ ⟨⟩, rfl⟩
    · rw [harm]
      split
      · exact .inl ⟨timerArmed, cursor, _, rfl⟩
      · exact .inr ⟨_, s.rawBuf, timerArmed, cursor, _, by rintro _ ⟨⟩, rfl⟩
  | failed e => exact .inr ⟨_, s.rawBuf, s.timerArmed, s.cursor, _, by rintro _ ⟨⟩, rfl⟩

/-- A turn with another outcome has no frame. -/
theorem Turned.frames_nil {t : Turned} (h : ∀ seq, t.outcome ≠ .ready (.ok (some seq))) (out : Bytes) :
    t.frames out = [] := by
  unfold Turned.frames
  split
  · rename_i seq hout
    exact absurd hout (h seq)
  · rfl

/-- **One turn of the loop**, in every branch. -/
theorem turn_turns (hkey : key.NeverFails) (hwf : s.sealThreshold = sealThresholdOf s.encoding)
    (io : Io) : Turns key base122 s out (turn key base122 io s out) := by
  have hpos : 0 < s.sealThreshold := hwf ▸ sealThresholdOf_pos s.encoding
  unfold turn
  dsimp only
  by_cases hfull : s.rawBuf.length ≥ s.sealThreshold
  · rw [if_pos hfull]
    have hraw : s.rawBuf ≠ [] := List.length_pos_iff.mp (by omega)
    exact turns_seal hkey hwf hraw io.draw rfl (fun r hr => nomatch hr)
  rw [if_neg hfull]
  have hbelow : ∀ a : Served, ∀ r ∈ some (s.rawBuf.length, a),
      r.1 = s.rawBuf.length ∧ r.1 < s.sealThreshold := by
    rintro a r hr
    obtain rfl := Option.some.inj hr
    exact ⟨rfl, by omega⟩
  cases io.read with
  | filled offered =>
    dsimp only
    generalize offered.take (READ_HIGH_WATER - s.rawBuf.length) = filled
    by_cases hend : filled.length = 0
    · obtain rfl := List.length_eq_zero_iff.mp hend
      rw [if_pos hend]
      by_cases hraw : s.rawBuf = []
      · rw [if_pos hraw]
        exact turns_unsealed rfl rfl rfl (by simp [bytesRead, Served.bytes]) (hbelow _)
          (fun _ h => nomatch h) (fun _ => ⟨rfl, hraw⟩)
      · rw [if_neg hraw]
        exact turns_seal hkey hwf hraw io.draw rfl (hbelow _)
    · rw [if_neg hend]
      exact turns_unsealed rfl rfl rfl (by simp [bytesRead, Served.bytes]) (hbelow _)
        (fun _ h => nomatch h) (fun h => nomatch h)
  | pending =>
    dsimp only
    by_cases hzero : s.rawBuf.length = 0
    · rw [if_pos hzero]
      exact turns_unsealed rfl rfl rfl (by simp [bytesRead, Served.bytes]) (hbelow _)
        (fun _ h => nomatch h) (fun h => nomatch h)
    · have hraw : s.rawBuf ≠ [] := fun h => hzero (by rw [h]; rfl)
      rw [if_neg hzero, if_neg hfull]
      by_cases htimer : io.timerReady = true
      · rw [if_pos htimer]
        exact (turns_seal hkey (by simpa using hwf) (by simpa using hraw) io.draw rfl
          (by simpa using hbelow .pending)).of_arm
      · rw [if_neg htimer]
        exact turns_unsealed (by simp) (by simp) (by simp) (by simp [bytesRead, Served.bytes])
          (hbelow _) (fun _ h => nomatch h) (fun h => nomatch h)
  | failed e =>
    exact turns_unsealed rfl rfl rfl (by simp [bytesRead, Served.bytes]) (hbelow _)
      (fun _ h => nomatch h) (fun h => nomatch h)

end Turn

/-! ## Every run -/

/-- What holds after any number of turns and calls. -/
structure Conserved (key : LessSafeKey) (base122 : Base122Fast) (encoding : EncodingType)
    (startSeq : UInt64) (p : Polling) : Prop where
  encoding_eq : p.shaper.encoding = encoding
  threshold_eq : p.shaper.sealThreshold = sealThresholdOf encoding
  bytes : (p.frames.map SealedFrame.data).flatten ++ p.shaper.rawBuf = bytesRead p.reads
  seqs : p.frames.map SealedFrame.seq = (List.range p.frames.length).map (seqAt startSeq)
  next : p.shaper.seq = seqAt startSeq p.frames.length
  carried : ∀ f ∈ p.frames, f.data ≠ [] ∧
    ∃ padding, Carries key base122 encoding f.bytes f.seq f.data padding
  below : ∀ r ∈ p.reads, r.1 < sealThresholdOf encoding
  ended : ∀ r ∈ p.results, r.outcome = .ready (.ok none) →
    r.answer = some (.filled []) ∧ r.rawBuf = []

/-- The frames of a turn: none, and then the data and the number are untouched, or one. -/
theorem Turns.frames_cases {key : LessSafeKey} {base122 : Base122Fast} {s : TrafficShaper}
    {out : Bytes} {t : Turned} (ht : Turns key base122 s out t) :
    (t.frames out = [] ∧ t.data = [] ∧ t.shaper.seq = s.seq) ∨
      ∃ f, t.frames out = [⟨s.seq, t.data, f⟩] ∧ t.data ≠ [] ∧ t.shaper.seq = s.seq + 1 ∧
        ∃ padding, Carries key base122 s.encoding f s.seq t.data padding := by
  by_cases hsealed : ∃ seq, t.outcome = .ready (.ok (some seq))
  · obtain ⟨seq, hout⟩ := hsealed
    obtain ⟨rfl, hseq, hne, f, padding, hbytes, hf⟩ := ht.sealed seq hout
    refine .inr ⟨f, ?_, hne, hseq, padding, hf⟩
    rw [Turned.frames, hout]
    dsimp only
    rw [hbytes, List.drop_left]
  · obtain ⟨hseq, hdata, -⟩ := ht.unsealed fun seq hout => hsealed ⟨seq, hout⟩
    exact .inl ⟨Turned.frames_nil (fun seq hout => hsealed ⟨seq, hout⟩) out, hdata, hseq⟩

theorem Turns.results_ended {key : LessSafeKey} {base122 : Base122Fast} {s : TrafficShaper}
    {out : Bytes} {t : Turned} (ht : Turns key base122 s out t) :
    ∀ r ∈ t.results, r.outcome = .ready (.ok none) → r.answer = some (.filled []) ∧ r.rawBuf = [] := by
  intro r hr hout
  unfold Turned.results at hr
  split at hr
  · cases hr
  · obtain rfl := List.mem_singleton.mp hr
    obtain ⟨hread, hraw⟩ := ht.ended hout
    exact ⟨by rw [hread]; rfl, hraw⟩

theorem conserved_turn {key : LessSafeKey} {base122 : Base122Fast} {encoding : EncodingType}
    {startSeq : UInt64} {p : Polling} {out : Bytes} {t : Turned} {call : Option Bytes}
    (h : Conserved key base122 encoding startSeq p) (ht : Turns key base122 p.shaper out t) :
    Conserved key base122 encoding startSeq
      ⟨t.shaper, call, p.reads ++ t.read.toList, p.frames ++ t.frames out, p.results ++ t.results⟩ := by
  have hdata : ((t.frames out).map SealedFrame.data).flatten = t.data := by
    rcases ht.frames_cases with ⟨hnone, hdata, -⟩ | ⟨f, hone, -⟩
    · rw [hnone, hdata]
      rfl
    · simp [hone]
  constructor
  case encoding_eq => exact ht.encoding.trans h.encoding_eq
  case threshold_eq => exact ht.threshold.trans h.threshold_eq
  case bytes =>
    calc ((p.frames ++ t.frames out).map SealedFrame.data).flatten ++ t.shaper.rawBuf
        = (p.frames.map SealedFrame.data).flatten ++ (t.data ++ t.shaper.rawBuf) := by
          rw [List.map_append, List.flatten_append, hdata, List.append_assoc]
      _ = bytesRead (p.reads ++ t.read.toList) := by
          rw [ht.moves, ← List.append_assoc, h.bytes, bytesRead_append]
  case seqs =>
    rcases ht.frames_cases with ⟨hnone, -, -⟩ | ⟨f, hone, -⟩
    · rw [hnone, List.append_nil, h.seqs]
    · rw [hone, List.map_append, h.seqs, List.length_append, List.length_singleton, List.range_succ,
        List.map_append, h.next]
      rfl
  case next =>
    rcases ht.frames_cases with ⟨hnone, -, hseq⟩ | ⟨f, hone, -, hseq, -⟩
    · rw [hnone, List.append_nil, hseq, h.next]
    · rw [hone, hseq, h.next, List.length_append, List.length_singleton, seqAt_succ]
  case carried =>
    intro f hf
    rcases List.mem_append.mp hf with hf | hf
    · exact h.carried f hf
    · rcases ht.frames_cases with ⟨hnone, -, -⟩ | ⟨bytes, hone, hne, -, hcarries⟩
      · rw [hnone] at hf
        cases hf
      · rw [hone] at hf
        obtain rfl := List.mem_singleton.mp hf
        exact ⟨hne, h.encoding_eq ▸ hcarries⟩
  case below =>
    intro r hr
    rcases List.mem_append.mp hr with hr | hr
    · exact h.below r hr
    · exact h.threshold_eq ▸ (ht.below r (Option.mem_toList.mp hr)).2
  case ended =>
    intro r hr
    rcases List.mem_append.mp hr with hr | hr
    · exact h.ended r hr
    · exact ht.results_ended r hr

/-- The step: a call changes nothing, a turn is `turn_turns`. -/
theorem conserved_step {key : LessSafeKey} (hkey : key.NeverFails) {base122 : Base122Fast}
    {encoding : EncodingType} {startSeq : UInt64} {p p' : Polling} {e : Event}
    (h : Conserved key base122 encoding startSeq p) (hstep : step key base122 p e = some p') :
    Conserved key base122 encoding startSeq p' := by
  cases e with
  | call out =>
    simp only [step, Option.ite_none_right_eq_some, Option.some.injEq] at hstep
    obtain ⟨-, rfl⟩ := hstep
    exact { h with }
  | turn io =>
    obtain ⟨out, -, rfl⟩ := Option.map_eq_some_iff.mp hstep
    have hwf : p.shaper.sealThreshold = sealThresholdOf p.shaper.encoding := by
      rw [h.threshold_eq, h.encoding_eq]
    exact conserved_turn h (turn_turns hkey hwf io)

theorem conserved_new (key : LessSafeKey) (base122 : Base122Fast) (config : ResolvedShaperConfig)
    (startSeq : UInt64) (random : Nat) :
    Conserved key base122 config.encoding startSeq
      (.new (.withSeq config startSeq random)) where
  encoding_eq := rfl
  threshold_eq := rfl
  bytes := rfl
  seqs := rfl
  next := (seqAt_zero startSeq).symm
  carried := fun _ hf => nomatch hf
  below := fun _ hr => nomatch hr
  ended := fun _ hr => nomatch hr

theorem conserved_run {key : LessSafeKey} (hkey : key.NeverFails) {base122 : Base122Fast}
    {config : ResolvedShaperConfig} {startSeq : UInt64} {random : Nat} {events : List Event}
    {p : Polling}
    (h : run (step key base122) (.new (.withSeq config startSeq random)) events = some p) :
    Conserved key base122 config.encoding startSeq p :=
  run_invariant (fun _ _ _ hs hstep => conserved_step hkey hs hstep) events _ _
    (conserved_new key base122 config startSeq random) h

/-- **The shaper neither loses, repeats nor reorders bytes.**

    After any calls and turns, with any answers of the reader and the timer: the data of the frames
    and what is in the buffer, in a row, are the bytes read; the frames are numbered from `start_seq`
    on without gaps, carry data, and have it in the bytes appended for them; the reader was polled
    only below the threshold, where the buffer has room; and a call ended the stream only when the
    reader had ended and the buffer was empty. -/
theorem shaper_conserves_bytes (key : LessSafeKey) (hkey : key.NeverFails) (base122 : Base122Fast)
    (config : ResolvedShaperConfig) (startSeq : UInt64) (random : Nat) (events : List Event)
    (p : Polling)
    (h : run (step key base122) (.new (.withSeq config startSeq random)) events = some p) :
    (p.frames.map SealedFrame.data).flatten ++ p.shaper.rawBuf = bytesRead p.reads ∧
    p.frames.map SealedFrame.seq = (List.range p.frames.length).map (seqAt startSeq) ∧
    (∀ f ∈ p.frames, f.data ≠ [] ∧
      ∃ padding, Carries key base122 config.encoding f.bytes f.seq f.data padding) ∧
    (∀ r ∈ p.reads, r.1 < p.shaper.sealThreshold ∧ r.1 ≤ READ_HIGH_WATER) ∧
    (∀ r ∈ p.results, r.outcome = .ready (.ok none) →
      r.answer = some (.filled []) ∧ r.rawBuf = []) := by
  have hc := conserved_run hkey h
  have hroom : sealThresholdOf config.encoding ≤ READ_HIGH_WATER := by
    cases config.encoding <;> decide
  refine ⟨hc.bytes, hc.seqs, hc.carried, ?_, hc.ended⟩
  intro r hr
  have := hc.below r hr
  exact ⟨hc.threshold_eq ▸ this, by omega⟩

def demoConfig : ResolvedShaperConfig := ⟨[], 0, ⟨1, 2, by decide⟩, .binary⟩

/-- Two chunks with a wait between them, sealed when the delay is over; a third one, sealed at the end
    of the input; and the end. -/
def demoEvents : List Event :=
  [.call [], .turn ⟨.filled [1, 2], false, demoDraw⟩, .turn ⟨.pending, false, demoDraw⟩,
    .call [], .turn ⟨.filled [3], false, demoDraw⟩, .turn ⟨.pending, true, demoDraw⟩,
    .call [], .turn ⟨.filled [4, 5], false, demoDraw⟩, .turn ⟨.filled [], false, demoDraw⟩,
    .call [], .turn ⟨.filled [], false, demoDraw⟩]

theorem shaper_conserves_bytes_demo :
    ∃ p, run (step zeroKey publishedBase122) (.new (.withSeq demoConfig 7 0)) demoEvents = some p ∧
      p.frames.map (fun f => (f.seq, f.data)) = [(7, [1, 2, 3]), (8, [4, 5])] ∧
      p.results.length = 4 ∧
      (p.frames.map SealedFrame.data).flatten ++ p.shaper.rawBuf = bytesRead p.reads := by
  refine ⟨_, rfl, rfl, rfl, ?_⟩
  exact (shaper_conserves_bytes zeroKey (fun _ _ h => nomatch h) publishedBase122 demoConfig 7 0
    demoEvents _ rfl).1

end Httproxy.Shaper
