/-
  The sending half of a WARP tunnel (`MasqueSend` in `src/warp/masque.rs`), polled.

  `MasqueSend::poll_write` wraps what its callers hand over in DATA frames.  A frame's length is
  committed BEFORE the payload is accepted: the header goes out first, perhaps in pieces, and a later
  call may come with another buffer than the one the length was taken from.

  1. **Program** — `announce` makes a header, `writeTurn` is one write to the QUIC stream, of header
     or of payload; `sendStep` runs calls write by write.  `Taken` is what the stream does with the
     bytes it is offered.

  2. **Specification** — `decodeFrames` reads a stream of frames; `Incomplete w part body` says that
     `part` is a DATA frame that lacks exactly the unsent header bytes and `w.remaining` bytes of
     payload.

  3. **The invariant (`Emits`)** — whole DATA frames, then at most one incomplete frame, and together
     they carry the accepted bytes.  One lemma for a header that is announced, one for header bytes
     that go out, one for payload bytes.
-/
import Httproxy.Warp.Masque

namespace Httproxy.Masque

open Machine H3 Bytes

/-! ## Program -/

def MAX_DATA_FRAME : Nat := 64 * 1024

/-- `header[0] = FRAME_DATA` and the length behind it: the header, and how much of it is used. -/
def dataHeader (header : Bytes) (len : Nat) : Bytes × Nat :=
  (UInt8.ofNat FRAME_DATA :: (putVarintSlice (header.drop 1) len).1,
    1 + (putVarintSlice (header.drop 1) len).2)

theorem length_dataHeader {header : Bytes} (h : header.length = 16) (len : Nat) :
    (dataHeader header len).1.length = 16 := by
  have hcopy : ∀ bytes : Bytes, bytes.length ≤ 8 →
      (copyFromSlice (header.drop 1) bytes).length = 15 := by
    intro bytes hb
    rw [copyFromSlice, List.length_append, List.length_drop, List.length_drop]
    omega
  have hput : (putVarintSlice (header.drop 1) len).1.length = 15 := by
    unfold putVarintSlice
    split
    · exact hcopy _ (by simp)
    · exact hcopy _ (by simp)
    · exact hcopy _ (by simp)
    · exact hcopy _ (by simp)
  rw [dataHeader, List.length_cons, hput]

/-- `WriteState`; the header is a `[u8; 16]`. -/
structure WriteState where
  header : Bytes
  headerLen : UInt8
  headerSent : UInt8
  remaining : Nat
  header_size : header.length = 16
  deriving DecidableEq

/-- `WriteState::default()`. -/
def WriteState.default : WriteState where
  header := List.replicate 16 0
  headerLen := 0
  headerSent := 0
  remaining := 0
  header_size := List.length_replicate

/-- A new frame of `len` bytes. -/
def WriteState.announce (w : WriteState) (len : Nat) : WriteState where
  header := (dataHeader w.header len).1
  headerLen := UInt8.ofNat (dataHeader w.header len).2
  headerSent := 0
  remaining := len
  header_size := length_dataHeader w.header_size len

/-- The sender, and all the bytes that the QUIC stream has taken from it. -/
structure MasqueSend where
  stream : Bytes
  write : WriteState
  deriving DecidableEq

/-- `MasqueSend::new`. -/
def MasqueSend.new : MasqueSend := ⟨[], .default⟩

/-- What the QUIC stream does when it is offered bytes. -/
inductive Taken where
  | pending
  | err
  /-- Ready with `n` bytes, or as many as were offered. -/
  | ready (n : Nat)
  deriving DecidableEq, Repr

inductive Wrote where
  /-- The header loop goes on. -/
  | again
  | pending
  /-- `Ready(Ok(n))`. -/
  | ready (n : Nat)
  | streamErr
  | writeZero
  deriving DecidableEq, Repr

/-- `poll_write` up to its first write to the stream. -/
def MasqueSend.begin (m : MasqueSend) (buf : Bytes) : MasqueSend :=
  if m.write.remaining = 0 then
    { m with write := m.write.announce (min buf.length MAX_DATA_FRAME) }
  else m

/-- One write to the stream in `poll_write`: a turn of its header loop, or the payload. -/
def writeTurn (buf : Bytes) (taken : Taken) (m : MasqueSend) : Wrote × MasqueSend :=
  if m.write.headerSent < m.write.headerLen then
    let offered := slice m.write.header m.write.headerSent.toNat m.write.headerLen.toNat
    match taken with
    | .pending => (.pending, m)
    | .err => (.streamErr, m)
    | .ready n =>
      let n := min n offered.length
      if n = 0 then (.writeZero, m)
      else (.again,
        { stream := m.stream ++ offered.take n
          write := { m.write with headerSent := m.write.headerSent + UInt8.ofNat n } })
  else
    let want := min buf.length m.write.remaining
    let offered := buf.take want
    match taken with
    | .pending => (.pending, m)
    | .err => (.streamErr, m)
    | .ready n =>
      let n := min n offered.length
      if n = 0 then (.writeZero, m)
      else (.ready n,
        { stream := m.stream ++ offered.take n
          write := { m.write with remaining := m.write.remaining - n } })

/-- The sender, the buffer of the call in progress, and every finished call with its result. -/
structure Sender where
  send : MasqueSend
  call : Option Bytes
  results : List (Bytes × Wrote)
  deriving DecidableEq

def Sender.new : Sender := ⟨.new, none, []⟩

inductive SendEvent where
  /-- `poll_write` is called with this buffer. -/
  | call (buf : Bytes)
  | turn (taken : Taken)
  deriving DecidableEq, Repr

def sendStep (s : Sender) : SendEvent → Option Sender
  | .call buf =>
    if s.call ≠ none then none
    else if buf = [] then some { s with results := s.results ++ [(buf, .ready 0)] }
    else some { s with send := s.send.begin buf, call := some buf }
  | .turn taken =>
    s.call.map fun buf =>
      match writeTurn buf taken s.send with
      | (.again, send) => { s with send }
      | (o, send) => { send, call := none, results := s.results ++ [(buf, o)] }

/-! ## Specification -/

/-- The frames of a stream, each with its type and its payload; `none` if it ends inside one. -/
def decodeFrames (buf : Bytes) : Option (List (Nat × Bytes)) :=
  match _h : getFrameHeader buf with
  | none => if buf = [] then some [] else none
  | some (ty, len, used) =>
    if used + len ≤ buf.length then
      (decodeFrames (buf.drop (used + len))).map ((ty, (buf.drop used).take len) :: ·)
    else none
termination_by buf.length
decreasing_by
  have := getFrameHeader_used _h
  rw [List.length_drop]
  omega

/-- The DATA payloads of a stream of frames. -/
def decodeData (buf : Bytes) : Option Bytes :=
  (decodeFrames buf).map fun fs => (fs.map fun f => if f.1 = FRAME_DATA then f.2 else []).flatten

/-- How many bytes a call says were taken. -/
def Wrote.count : Wrote → Nat
  | .ready n => n
  | _ => 0

/-- The prefixes of the callers' buffers that were accepted. -/
def accepted (results : List (Bytes × Wrote)) : Bytes :=
  (results.map fun r => r.1.take r.2.count).flatten

/-- The header bytes that are not sent. -/
def WriteState.unsent (w : WriteState) : Bytes :=
  slice w.header w.headerSent.toNat w.headerLen.toNat

/-- `part` is a DATA frame without its end, and `body` what it has of its payload: it lacks the
    unsent header bytes and `w.remaining` bytes of payload. -/
def Incomplete (w : WriteState) (part body : Bytes) : Prop :=
  0 < w.remaining ∧ body.length + w.remaining ≤ MAX_DATA_FRAME ∧ (w.unsent = [] ∨ body = []) ∧
  ∃ hdr, getFrameHeader hdr = some (FRAME_DATA, body.length + w.remaining, hdr.length) ∧
    part ++ w.unsent = hdr ++ body

theorem encode_concat (fs : List Frame) (f : Frame) :
    encode (fs ++ [f]) = encode fs ++ (f.hdr ++ f.payload) := by
  simp [encode]

theorem dataOf_concat (fs : List Frame) {f : Frame} (h : f.ty = FRAME_DATA) :
    dataOf (fs ++ [f]) = dataOf fs ++ f.payload := by
  simp [dataOf, h]

/-- **Decoding is the inverse of encoding.** -/
theorem decodeFrames_encode (fs : List Frame) :
    decodeFrames (encode fs) = some (fs.map fun f => (f.ty, f.payload)) := by
  induction fs with
  | nil =>
    rw [encode_nil, decodeFrames, getFrameHeader_nil]
    rfl
  | cons f fs ih =>
    have hparse : getFrameHeader (encode (f :: fs)) = some (f.ty, f.payload.length, f.hdr.length) := by
      rw [encode_cons]
      exact getFrameHeader_append f.parses _
    have hdrop : (encode (f :: fs)).drop f.hdr.length = f.payload ++ encode fs := by
      rw [encode_cons, List.drop_left]
    rw [decodeFrames]
    split
    · rename_i hnone
      rw [hparse] at hnone
      cases hnone
    · rename_i ty len used hsome
      rw [hparse] at hsome
      obtain ⟨rfl, rfl, rfl⟩ : _ = ty ∧ _ = len ∧ _ = used := by simpa using hsome
      rw [if_pos (by rw [encode_cons]; simp only [List.length_append]; omega), ← List.drop_drop,
        hdrop, List.drop_left, List.take_left, ih]
      rfl

theorem decodeData_encode (fs : List Frame) : decodeData (encode fs) = some (dataOf fs) := by
  rw [decodeData, decodeFrames_encode, Option.map_some, List.map_map]
  rfl

/-! ## The invariant -/

/-- The header is sent from its beginning on, and lies within its array. -/
def WriteState.InBounds (w : WriteState) : Prop :=
  w.headerSent.toNat ≤ w.headerLen.toNat ∧ w.headerLen.toNat ≤ w.header.length

/-- Whole DATA frames and at most one incomplete one are on the stream, and carry `acc`. -/
def Emits (m : MasqueSend) (acc : Bytes) : Prop :=
  m.write.InBounds ∧ ∃ frames part body,
    m.stream = encode frames ++ part ∧
    (∀ f ∈ frames, f.ty = FRAME_DATA ∧ f.payload.length ≤ MAX_DATA_FRAME) ∧
    dataOf frames ++ body = acc ∧
    ((m.write.remaining = 0 ∧ part = [] ∧ body = []) ∨ Incomplete m.write part body)

theorem length_unsent {w : WriteState} (h : w.InBounds) :
    w.unsent.length = w.headerLen.toNat - w.headerSent.toNat := by
  obtain ⟨-, hle⟩ := h
  rw [WriteState.unsent, slice, List.length_drop, List.length_take]
  omega

/-- The used part of a header: the type and the length, as varints. -/
theorem take_dataHeader (header : Bytes) {len : Nat} (h : len < 2 ^ 62) :
    (dataHeader header len).2 = 1 + varintLen len ∧
      (dataHeader header len).1.take (1 + varintLen len) = varint FRAME_DATA ++ varint len := by
  rw [dataHeader, putVarintSlice_eq h]
  refine ⟨rfl, ?_⟩
  show List.take _ (_ :: copyFromSlice (header.drop 1) (varint len)) = _
  rw [copyFromSlice, Nat.add_comm, List.take_succ_cons, List.take_left' (length_varint len)]
  rfl

theorem varintLen_le (value : Nat) : varintLen value ≤ 8 := by
  unfold varintLen
  repeat' split
  all_goals omega

theorem parse_dataHeader {len : Nat} (h : len < 2 ^ 62) :
    getFrameHeader (varint FRAME_DATA ++ varint len) =
      some (FRAME_DATA, len, (varint FRAME_DATA ++ varint len).length) := by
  have hparse := @getFrameHeader_varint FRAME_DATA len (by decide) h []
  rw [List.append_nil] at hparse
  rw [hparse, List.length_append, length_varint, length_varint]

/-- A DATA frame with the shortest header. -/
def dataFrame (payload : Bytes) (h : payload.length < 2 ^ 62) : Frame where
  ty := FRAME_DATA
  hdr := varint FRAME_DATA ++ varint payload.length
  payload := payload
  parses := parse_dataHeader h

theorem announce_unsent (w : WriteState) {len : Nat} (h : len < 2 ^ 62) :
    (w.announce len).InBounds ∧ (w.announce len).unsent = varint FRAME_DATA ++ varint len := by
  obtain ⟨hlen, htake⟩ := take_dataHeader w.header h
  have hle := varintLen_le len
  have hused : (w.announce len).headerLen.toNat = 1 + varintLen len := by
    show (UInt8.ofNat (dataHeader w.header len).2).toNat = _
    rw [hlen, UInt8.toNat_ofNat']
    omega
  refine ⟨⟨Nat.zero_le _, ?_⟩, ?_⟩
  · rw [(w.announce len).header_size, hused]
    omega
  · rw [WriteState.unsent, hused]
    exact htake

/-- **A new frame.**  Nothing of it is on the stream, and it lacks its header and its payload. -/
theorem emits_begin {m : MasqueSend} {acc buf : Bytes} (h : Emits m acc) (hbuf : buf ≠ []) :
    Emits (m.begin buf) acc ∧ 0 < (m.begin buf).write.remaining := by
  have hpos : 0 < buf.length := List.length_pos_iff.mpr hbuf
  rw [MasqueSend.begin]
  split
  · rename_i hrem
    obtain ⟨-, frames, part, body, hstream, hall, hacc, hopen⟩ := h
    obtain ⟨-, rfl, rfl⟩ : m.write.remaining = 0 ∧ part = [] ∧ body = [] := by
      rcases hopen with hopen | hopen
      · exact hopen
      · exact absurd hrem (Nat.ne_of_gt hopen.1)
    have hle : min buf.length MAX_DATA_FRAME ≤ MAX_DATA_FRAME := Nat.min_le_right ..
    have hmin : 0 < min buf.length MAX_DATA_FRAME := Nat.lt_min.mpr ⟨hpos, by decide⟩
    have hlt : min buf.length MAX_DATA_FRAME < 2 ^ 62 := Nat.lt_of_le_of_lt hle (by decide)
    obtain ⟨hin, hunsent⟩ := announce_unsent m.write hlt
    refine ⟨⟨hin, frames, [], [], hstream, hall, hacc, .inr ⟨hmin, ?_, .inr rfl, ?_⟩⟩, hmin⟩
    · rw [List.length_nil, Nat.zero_add]
      exact hle
    · refine ⟨varint FRAME_DATA ++ varint (min buf.length MAX_DATA_FRAME), ?_, ?_⟩
      · rw [List.length_nil, Nat.zero_add]
        exact parse_dataHeader hlt
      · rw [List.nil_append, List.append_nil]
        exact hunsent
  · exact ⟨h, by omega⟩

/-- **Header bytes go out**: the frame lacks that many bytes less of its header. -/
theorem emits_header {m : MasqueSend} {acc : Bytes} {n : Nat} (h : Emits m acc)
    (hrem : 0 < m.write.remaining) (hn : n ≤ m.write.unsent.length) (hpos : 0 < n) :
    Emits { stream := m.stream ++ m.write.unsent.take n
            write := { m.write with headerSent := m.write.headerSent + UInt8.ofNat n } } acc := by
  obtain ⟨hin, frames, part, body, hstream, hall, hacc, hopen⟩ := h
  have hlen := length_unsent hin
  obtain ⟨hle, hsize⟩ := hin
  obtain ⟨-, hmax, hnil, hdr, hparse, hcat⟩ : Incomplete m.write part body := by
    rcases hopen with hopen | hopen
    · omega
    · exact hopen
  have hsent : (m.write.headerSent + UInt8.ofNat n).toNat = m.write.headerSent.toNat + n := by
    have := m.write.headerLen.toNat_lt
    rw [UInt8.toNat_add, UInt8.toNat_ofNat']
    omega
  have hrest : ({ m.write with headerSent := m.write.headerSent + UInt8.ofNat n } :
      WriteState).unsent = m.write.unsent.drop n := by
    show slice m.write.header (m.write.headerSent + UInt8.ofNat n).toNat _ = _
    rw [hsent, WriteState.unsent, slice, slice, List.drop_drop]
  -- a header that is not all out has no payload behind it
  have hbody : body = [] := by
    rcases hnil with hnil | hnil
    · rw [hnil, List.length_nil] at hn
      omega
    · exact hnil
  refine ⟨⟨?_, hsize⟩, frames, part ++ m.write.unsent.take n, body, ?_, hall, hacc, .inr ?_⟩
  · show (m.write.headerSent + UInt8.ofNat n).toNat ≤ m.write.headerLen.toNat
    omega
  · show m.stream ++ m.write.unsent.take n = _
    rw [hstream, List.append_assoc]
  · refine ⟨hrem, hmax, .inr hbody, hdr, hparse, ?_⟩
    rw [hrest, List.append_assoc, List.take_append_drop]
    exact hcat

/-- **Payload bytes go out**: they are accepted, and if they are the last ones the frame is whole. -/
theorem emits_body {m : MasqueSend} {acc data : Bytes} (h : Emits m acc)
    (hsent : ¬ m.write.headerSent < m.write.headerLen) (hrem : 0 < m.write.remaining)
    (hdata : data.length ≤ m.write.remaining) :
    Emits { stream := m.stream ++ data
            write := { m.write with remaining := m.write.remaining - data.length } }
      (acc ++ data) := by
  obtain ⟨hin, frames, part, body, hstream, hall, hacc, hopen⟩ := h
  obtain ⟨-, hmax, -, hdr, hparse, hcat⟩ : Incomplete m.write part body := by
    rcases hopen with hopen | hopen
    · omega
    · exact hopen
  have hunsent : m.write.unsent = [] := by
    apply List.eq_nil_of_length_eq_zero
    have : ¬ m.write.headerSent.toNat < m.write.headerLen.toNat := hsent
    rw [length_unsent hin]
    omega
  rw [hunsent, List.append_nil] at hcat
  have hsum : (body ++ data).length + (m.write.remaining - data.length) =
      body.length + m.write.remaining := by
    rw [List.length_append]
    omega
  refine ⟨hin, ?_⟩
  by_cases hlast : m.write.remaining - data.length = 0
  · -- the announced length is reached
    rw [hlast, Nat.add_zero] at hsum
    refine ⟨frames ++ [⟨FRAME_DATA, hdr, body ++ data, hsum ▸ hparse⟩], [], [], ?_, ?_, ?_,
      .inl ⟨hlast, rfl, rfl⟩⟩
    · show m.stream ++ data = _
      rw [hstream, encode_concat, List.append_nil, hcat]
      simp only [List.append_assoc]
    · intro f hf
      rcases List.mem_append.mp hf with hf | hf
      · exact hall f hf
      · obtain rfl := List.mem_singleton.mp hf
        refine ⟨rfl, ?_⟩
        show (body ++ data).length ≤ _
        omega
    · rw [dataOf_concat frames rfl, List.append_nil, ← hacc, List.append_assoc]
  · refine ⟨frames, part ++ data, body ++ data, ?_, hall, ?_, .inr ⟨Nat.pos_of_ne_zero hlast, ?_,
      .inl hunsent, hdr, ?_, ?_⟩⟩
    · show m.stream ++ data = _
      rw [hstream, List.append_assoc]
    · rw [← hacc, List.append_assoc]
    · show (body ++ data).length + (m.write.remaining - data.length) ≤ _
      omega
    · show getFrameHeader hdr = some (_, (body ++ data).length + (m.write.remaining - data.length), _)
      rw [hsum]
      exact hparse
    · show part ++ data ++ m.write.unsent = _
      rw [hunsent, hcat, List.append_nil, List.append_assoc]

/-- **One write.**  Whatever the stream does, the bytes taken of the payload are those that the
    result counts. -/
theorem emits_turn {m : MasqueSend} {acc buf : Bytes} (h : Emits m acc)
    (hrem : 0 < m.write.remaining) (taken : Taken) {o : Wrote} {m' : MasqueSend}
    (ht : writeTurn buf taken m = (o, m')) :
    Emits m' (acc ++ buf.take o.count) ∧ o.count ≤ buf.length ∧
      (o = .again → 0 < m'.write.remaining) := by
  have hkeep : ∀ {o' : Wrote}, o'.count = 0 → Emits m (acc ++ buf.take o'.count) ∧
      o'.count ≤ buf.length ∧ (o' = .again → 0 < m.write.remaining) := by
    intro o' ho'
    rw [ho', List.take_zero, List.append_nil]
    exact ⟨h, Nat.zero_le _, fun _ => hrem⟩
  unfold writeTurn at ht
  split at ht
  · cases taken with
    | pending =>
      obtain ⟨rfl, rfl⟩ := Prod.mk.inj ht
      exact hkeep rfl
    | err =>
      obtain ⟨rfl, rfl⟩ := Prod.mk.inj ht
      exact hkeep rfl
    | ready n =>
      dsimp only at ht
      split at ht
      · obtain ⟨rfl, rfl⟩ := Prod.mk.inj ht
        exact hkeep rfl
      · rename_i hne
        obtain ⟨rfl, rfl⟩ := Prod.mk.inj ht
        refine ⟨?_, Nat.zero_le _, fun _ => hrem⟩
        rw [show Wrote.again.count = 0 from rfl, List.take_zero, List.append_nil]
        exact emits_header h hrem (Nat.min_le_right ..) (Nat.pos_of_ne_zero hne)
  · rename_i hsent
    cases taken with
    | pending =>
      obtain ⟨rfl, rfl⟩ := Prod.mk.inj ht
      exact hkeep rfl
    | err =>
      obtain ⟨rfl, rfl⟩ := Prod.mk.inj ht
      exact hkeep rfl
    | ready n =>
      dsimp only at ht
      split at ht
      · obtain ⟨rfl, rfl⟩ := Prod.mk.inj ht
        exact hkeep rfl
      · obtain ⟨rfl, rfl⟩ := Prod.mk.inj ht
        generalize hk : min n (buf.take (min buf.length m.write.remaining)).length = k
        have hoff : (buf.take (min buf.length m.write.remaining)).length =
            min buf.length m.write.remaining := by
          rw [List.length_take]
          omega
        have hfront : (buf.take (min buf.length m.write.remaining)).take k = buf.take k := by
          rw [List.take_take]
          congr 1
          omega
        have hlen : (buf.take k).length = k := by
          rw [List.length_take]
          omega
        have hbody := @emits_body m acc (buf.take k) h hsent hrem (by omega)
        rw [hlen] at hbody
        rw [hfront]
        exact ⟨hbody, by show k ≤ _; omega, by rintro ⟨⟩⟩

/-! ## Runs -/

/-- The invariant of runs: what is on the stream carries what was accepted, each call counted no more
    than it was offered, and during a call a frame is open. -/
def Sending (s : Sender) : Prop :=
  Emits s.send (accepted s.results) ∧ (∀ r ∈ s.results, r.2.count ≤ r.1.length) ∧
    (s.call ≠ none → 0 < s.send.write.remaining)

theorem accepted_concat (rs : List (Bytes × Wrote)) (buf : Bytes) (o : Wrote) :
    accepted (rs ++ [(buf, o)]) = accepted rs ++ buf.take o.count := by
  simp [accepted]

theorem length_accepted {rs : List (Bytes × Wrote)} (h : ∀ r ∈ rs, r.2.count ≤ r.1.length) :
    (accepted rs).length = (rs.map fun r => r.2.count).sum := by
  induction rs with
  | nil => rfl
  | cons r rs ih =>
    have hr := h r List.mem_cons_self
    have hrest := ih fun x hx => h x (List.mem_cons_of_mem _ hx)
    rw [List.map_cons, List.sum_cons, ← hrest, accepted, List.map_cons, List.flatten_cons,
      List.length_append, List.length_take, Nat.min_eq_left hr]
    rfl

theorem sending_new : Sending .new :=
  ⟨⟨⟨Nat.le_refl _, Nat.zero_le _⟩, [], [], [], rfl, by simp, rfl, .inl ⟨rfl, rfl, rfl⟩⟩,
    by simp [Sender.new], fun h => absurd rfl h⟩

/-- **One step.** -/
theorem sending_step (s : Sender) (e : SendEvent) (s' : Sender) (h : Sending s)
    (hstep : sendStep s e = some s') : Sending s' := by
  obtain ⟨hemit, hcount, hcall⟩ := h
  have hmore : ∀ {buf : Bytes} {o : Wrote}, o.count ≤ buf.length →
      ∀ r ∈ s.results ++ [(buf, o)], r.2.count ≤ r.1.length := by
    intro buf o ho r hr
    rcases List.mem_append.mp hr with hr | hr
    · exact hcount r hr
    · obtain rfl := List.mem_singleton.mp hr
      exact ho
  cases e with
  | call buf =>
    simp only [sendStep] at hstep
    split at hstep
    · cases hstep
    rename_i hidle
    split at hstep
    · obtain rfl := Option.some.inj hstep
      refine ⟨?_, hmore (Nat.zero_le _), hcall⟩
      rw [accepted_concat]
      show Emits s.send (accepted s.results ++ buf.take 0)
      rw [List.take_zero, List.append_nil]
      exact hemit
    · rename_i hbuf
      obtain rfl := Option.some.inj hstep
      obtain ⟨hemit', hpos⟩ := emits_begin hemit hbuf
      exact ⟨hemit', hcount, fun _ => hpos⟩
  | turn taken =>
    obtain ⟨buf, hbuf, hs'⟩ := Option.map_eq_some_iff.mp hstep
    obtain ⟨o, m', ht⟩ : ∃ o m', writeTurn buf taken s.send = (o, m') := ⟨_, _, rfl⟩
    obtain ⟨hemit', hle, hagain⟩ := emits_turn hemit (hcall (by simp [hbuf])) taken ht
    rw [ht] at hs'
    by_cases ho : o = .again
    · subst ho
      obtain rfl : _ = s' := hs'
      rw [show Wrote.again.count = 0 from rfl, List.take_zero, List.append_nil] at hemit'
      exact ⟨hemit', hcount, fun _ => hagain rfl⟩
    · have hs : s' = ⟨m', none, s.results ++ [(buf, o)]⟩ := by
        rw [← hs']
        cases o <;> first | rfl | exact absurd rfl ho
      subst hs
      refine ⟨?_, hmore hle, fun hc => absurd rfl hc⟩
      rw [accepted_concat]
      exact hemit'

/-- **What `MasqueSend` emits is HTTP/3.**  However the calls come and whatever the stream takes of
    each write: whole DATA frames of at most `MAX_DATA_FRAME` bytes and then at most one that lacks its
    unsent header bytes and `remaining` bytes of payload; they carry the accepted prefixes of the
    buffers, and between frames the stream decodes to these. -/
theorem send_emits_data_frames (es : List SendEvent) {s : Sender}
    (hrun : run sendStep .new es = some s) :
    (∃ frames part body,
      s.send.stream = encode frames ++ part ∧
      (∀ f ∈ frames, f.ty = FRAME_DATA ∧ f.payload.length ≤ MAX_DATA_FRAME) ∧
      dataOf frames ++ body = accepted s.results ∧
      ((s.send.write.remaining = 0 ∧ part = [] ∧ body = []) ∨ Incomplete s.send.write part body)) ∧
    (accepted s.results).length = (s.results.map fun r => r.2.count).sum ∧
    (s.send.write.remaining = 0 → decodeData s.send.stream = some (accepted s.results)) := by
  obtain ⟨⟨-, hemit⟩, hcount, -⟩ := run_invariant sending_step es .new s sending_new hrun
  refine ⟨hemit, length_accepted hcount, fun hrem => ?_⟩
  obtain ⟨frames, part, body, hstream, -, hacc, hopen⟩ := hemit
  obtain ⟨-, rfl, rfl⟩ : s.send.write.remaining = 0 ∧ part = [] ∧ body = [] := by
    rcases hopen with hopen | hopen
    · exact hopen
    · exact absurd hrem (Nat.ne_of_gt hopen.1)
  rw [hstream, List.append_nil, decodeData_encode, ← hacc, List.append_nil]

/-- The header in two pieces, then a shorter buffer than the one announced, then a longer one. -/
theorem send_emits_data_frames_demo :
    ∃ s, run sendStep .new [.call [1, 2, 3], .turn (.ready 1), .turn .pending, .call [1, 2],
        .turn (.ready 9), .turn (.ready 9), .call [3, 4], .turn (.ready 9)] = some s ∧
      s.send.stream = [0, 3, 1, 2, 3] ∧ decodeData s.send.stream = some [1, 2, 3] := by
  obtain ⟨s, hs⟩ : ∃ s, run sendStep .new [.call [1, 2, 3], .turn (.ready 1), .turn .pending,
      .call [1, 2], .turn (.ready 9), .turn (.ready 9), .call [3, 4], .turn (.ready 9)] = some s :=
    ⟨_, rfl⟩
  have hdecode := (send_emits_data_frames _ hs).2.2
  obtain rfl := Option.some.inj hs
  exact ⟨_, rfl, by decide +kernel, hdecode (by decide +kernel)⟩

end Httproxy.Masque
