/-
  The receiving half of a WARP tunnel (`MasqueRecv` in `src/warp/masque.rs`).

  After the CONNECT response the peer's stream is a sequence of HTTP/3 frames, of which only DATA
  carries tunnel bytes.  `MasqueRecv::poll_read` keeps a look-ahead buffer (`header`), payload bytes
  that fell into it (`pending`), how much payload is still in the stream (`remaining`) and whether
  that payload is to be thrown away (`discard`).

  1. **Program** — `turn` is one turn of the loop in `poll_read`; `step` runs calls turn by turn.
     `Served` is what the QUIC stream does when it is read: nothing yet, an error, or some bytes,
     as many as the environment likes.

  2. **Specification** — `encode frames` for any types, payloads and header forms, and
     `dataOf frames`, the DATA payloads.

  3. **The crux (`turn_due`)** — `Due r d` says that `d` is what is still to come out of `r`.  Every
     turn moves bytes from `d` to the caller, EXCEPT one that parses the header of a frame that is
     not DATA while payload bytes of it are already in the look-ahead: these go to `pending` and
     from there to the caller, whatever `discard` says.  Such a leak only ever adds bytes, so the
     delivered bytes are right at EOF exactly when there was none (`recv_delivers_data_iff`).

  4. **Handover** — `readResponseHead` reads the response that comes first, and hands the receiver
     exactly the bytes behind it (`readResponseHead_handover`), split as the reads happened to
     be cut.
-/
import Httproxy.Lib.Machine
import Httproxy.Warp.Status

namespace Httproxy.Masque

open Machine H3

/-! ## Program -/

structure MasqueRecv where
  /-- What the QUIC stream will still yield before its end. -/
  stream : Bytes
  header : Bytes
  pending : Bytes
  remaining : Nat
  discard : Bool
  eof : Bool
  deriving DecidableEq, Repr

/-- `MasqueRecv::new`. -/
def MasqueRecv.new (stream leftover : Bytes) : MasqueRecv where
  stream := stream
  header := leftover
  pending := []
  remaining := 0
  discard := false
  eof := false

/-- What the stream does when it is read. -/
inductive Served where
  | pending
  | err
  /-- Ready with `k + 1` bytes, or as many as fit and are left. -/
  | ready (k : Nat)
  deriving DecidableEq, Repr

inductive StreamRead where
  | pending
  | err
  | ok (data rest : Bytes)

/-- Reading up to `want` bytes of the stream; no bytes means its end. -/
def pollReadSome (stream : Bytes) (want : Nat) : Served → StreamRead
  | .pending => .pending
  | .err => .err
  | .ready k => .ok (stream.take (min (k + 1) want)) (stream.drop (min (k + 1) want))

inductive Outcome where
  /-- `continue`. -/
  | again
  | pending
  /-- `Ready(Ok(()))` with these bytes put into the caller's buffer. -/
  | ready (data : Bytes)
  | streamErr
  | unexpectedEof
  deriving DecidableEq, Repr

/-- One turn of the loop in `poll_read`, with `room = buf.remaining()`. -/
def turn (room : Nat) (served : Served) (r : MasqueRecv) : Outcome × MasqueRecv :=
  if room = 0 then (.ready [], r)
  else if r.pending ≠ [] then
    let n := min r.pending.length room
    (.ready (r.pending.take n), { r with pending := r.pending.drop n })
  else if r.remaining > 0 then
    if r.discard then
      match pollReadSome r.stream (min r.remaining 512) served with
      | .pending => (.pending, r)
      | .err => (.streamErr, r)
      | .ok [] _ => (.unexpectedEof, r)
      | .ok data rest =>
        (.again, { r with stream := rest, remaining := r.remaining - data.length })
    else
      match pollReadSome r.stream (min r.remaining room) served with
      | .pending => (.pending, r)
      | .err => (.streamErr, r)
      | .ok [] _ => (.unexpectedEof, r)
      | .ok data rest =>
        (.ready data, { r with stream := rest, remaining := r.remaining - data.length })
  else
    match getFrameHeader r.header with
    | some (ty, len, used) =>
      let header := r.header.drop used
      let take := min header.length len
      (.again, { r with
        header := header.drop take
        pending := if take > 0 then header.take take else r.pending
        remaining := len - take
        discard := decide (ty ≠ FRAME_DATA) })
    | none =>
      if r.eof then
        (if r.header = [] then .ready [] else .unexpectedEof, r)
      else
        match pollReadSome r.stream 16 served with
        | .pending => (.pending, r)
        | .err => (.streamErr, r)
        | .ok [] _ =>
          (if r.header = [] then .ready [] else .unexpectedEof, { r with eof := true })
        | .ok data rest => (.again, { r with stream := rest, header := r.header ++ data })

/-- The receiver, the call in progress with the room in its buffer, and what the caller has seen:
    the bytes delivered, and the result of every call with its room. -/
structure Reader where
  recv : MasqueRecv
  room : Option Nat
  delivered : Bytes
  results : List (Nat × Outcome)
  deriving DecidableEq, Repr

def Reader.new (stream leftover : Bytes) : Reader := ⟨.new stream leftover, none, [], []⟩

inductive Event where
  /-- `poll_read` is called with a buffer of this room. -/
  | call (room : Nat)
  | turn (served : Served)
  deriving DecidableEq, Repr

/-- The bytes that an outcome hands to the caller. -/
def Outcome.data : Outcome → Bytes
  | .ready data => data
  | _ => []

def step (s : Reader) : Event → Option Reader
  | .call room => if s.room = none then some { s with room := some room } else none
  | .turn served =>
    s.room.map fun room =>
      match turn room served s.recv with
      | (.again, recv) => { s with recv }
      | (o, recv) =>
        { recv, room := none, delivered := s.delivered ++ o.data,
          results := s.results ++ [(room, o)] }

/-- A call with room for something returned nothing: the end of the stream. -/
def AtEof (s : Reader) : Prop := ∃ room, 0 < room ∧ (room, Outcome.ready []) ∈ s.results

/-! ## Specification -/

/-- An HTTP/3 frame: a header in any form that parses, and the payload it announces. -/
structure Frame where
  ty : Nat
  hdr : Bytes
  payload : Bytes
  parses : getFrameHeader hdr = some (ty, payload.length, hdr.length)

def encode (frames : List Frame) : Bytes := (frames.map fun f => f.hdr ++ f.payload).flatten

/-- The payloads of the DATA frames. -/
def dataOf (frames : List Frame) : Bytes :=
  (frames.map fun f => if f.ty = FRAME_DATA then f.payload else []).flatten

/-- The receiver is about to parse the header of a frame that is not DATA, and bytes of its payload
    are in the look-ahead. -/
def leaks (r : MasqueRecv) : Bool :=
  decide (r.pending = [] ∧ r.remaining = 0) &&
    match getFrameHeader r.header with
    | some (ty, len, used) => decide (ty ≠ FRAME_DATA ∧ 0 < min (r.header.length - used) len)
    | none => false

/-- The event is a turn that leaks; a call without room looks at nothing. -/
def leaky (s : Reader) : Event → Bool
  | .call _ => false
  | .turn _ => s.room.any (fun room => decide (0 < room)) && leaks s.recv

/-- The guard of the runs without leaks. -/
def Clean (s : Reader) (e : Event) : Prop := leaky s e = false

instance (s : Reader) (e : Event) : Decidable (Clean s e) := inferInstanceAs (Decidable (_ = _))

/-! ## Parsing a stream of frames -/

@[simp] theorem encode_nil : encode [] = [] := rfl

@[simp] theorem encode_cons (f : Frame) (fs : List Frame) :
    encode (f :: fs) = f.hdr ++ (f.payload ++ encode fs) := by
  simp [encode]

@[simp] theorem dataOf_nil : dataOf [] = [] := rfl

@[simp] theorem dataOf_cons (f : Frame) (fs : List Frame) :
    dataOf (f :: fs) = (if f.ty = FRAME_DATA then f.payload else []) ++ dataOf fs := by
  simp [dataOf]

theorem hdr_ne_nil (f : Frame) : f.hdr ≠ [] := by
  intro h
  have := f.parses
  rw [h, getFrameHeader_nil] at this
  cases this

/-- A header parsed from a look-ahead is that of the next frame. -/
theorem parsed_frame {header stream : Bytes} {fs : List Frame} {ty len used : Nat}
    (h : header ++ stream = encode fs) (hp : getFrameHeader header = some (ty, len, used)) :
    ∃ f fs', fs = f :: fs' ∧ f.ty = ty ∧ f.payload.length = len ∧ f.hdr.length = used ∧
      header.drop used ++ stream = f.payload ++ encode fs' := by
  cases fs with
  | nil =>
    rw [encode_nil, List.append_eq_nil_iff] at h
    rw [h.1, getFrameHeader_nil] at hp
    cases hp
  | cons f fs' =>
    -- both parses survive the bytes behind them, so they are the same parse
    have h1 := getFrameHeader_append hp stream
    have h2 := getFrameHeader_append f.parses (f.payload ++ encode fs')
    rw [h, encode_cons, h2, Option.some.injEq, Prod.mk.injEq, Prod.mk.injEq] at h1
    obtain ⟨h1ty, h1len, h1used⟩ := h1
    refine ⟨f, fs', rfl, h1ty, h1len, h1used, ?_⟩
    rw [← List.drop_append_of_le_length (getFrameHeader_used hp).2, h, encode_cons, ← h1used,
      List.drop_left]

/-- A whole frame in the look-ahead parses. -/
theorem unparsed_frames {header stream : Bytes} {fs : List Frame}
    (h : header ++ stream = encode fs) (hp : getFrameHeader header = none) (hs : stream = []) :
    header = [] ∧ fs = [] := by
  cases fs with
  | nil =>
    rw [encode_nil, List.append_eq_nil_iff] at h
    exact ⟨h.1, rfl⟩
  | cons f fs' =>
    have h2 := getFrameHeader_append f.parses (f.payload ++ encode fs')
    rw [hs, List.append_nil] at h
    rw [h, encode_cons, h2] at hp
    cases hp

/-! ## What is still to come -/

/-- `Due r d` — the stream is one of whole frames, and `d` is what `r` will still deliver if
    nothing leaks: what is pending, the rest of the current payload, the DATA frames behind it. -/
def Due (r : MasqueRecv) (d : Bytes) : Prop :=
  ∃ part fs, part.length = r.remaining ∧ (0 < r.remaining → r.header = []) ∧
    r.header ++ r.stream = part ++ encode fs ∧ (r.eof = true → r.stream = []) ∧
    d = r.pending ++ (if r.discard then [] else part) ++ dataOf fs

/-- Nothing is left, neither buffered nor in the stream. -/
def Spent (r : MasqueRecv) : Prop :=
  r.header = [] ∧ r.stream = [] ∧ r.pending = [] ∧ r.remaining = 0

theorem pollReadSome_ok {stream data rest : Bytes} {want : Nat} {served : Served}
    (h : pollReadSome stream want served = .ok data rest) (hw : 0 < want) :
    data ++ rest = stream ∧ data.length ≤ want ∧ (data = [] → stream = []) := by
  cases served with
  | pending => cases h
  | err => cases h
  | ready k =>
    obtain ⟨rfl, rfl⟩ := StreamRead.ok.inj h
    refine ⟨List.take_append_drop .., ?_, ?_⟩
    · rw [List.length_take]
      omega
    · intro hn
      rcases List.take_eq_nil_iff.mp hn with hn | hn
      · omega
      · exact hn

/-- Two cuts of one byte string, the first one not behind the second. -/
theorem split_of_append_eq {a b c d : Bytes} (h : a ++ b = c ++ d) (hl : a.length ≤ c.length) :
    ∃ m, c = a ++ m ∧ b = m ++ d := by
  obtain ⟨m, rfl⟩ := List.prefix_of_prefix_length_le ⟨b, h⟩ (List.prefix_append c d) hl
  rw [List.append_assoc] at h
  exact ⟨m, rfl, List.append_cancel_left h⟩

/-- A turn's effect on what is due: its bytes come off the front, or it leaked. -/
def Moves (room : Nat) (r : MasqueRecv) (d : Bytes) (o : Outcome) (r' : MasqueRecv) : Prop :=
  o ≠ .unexpectedEof ∧ (o = .ready [] → 0 < room → Spent r') ∧
  ∃ d', Due r' d' ∧
    ((¬ (0 < room ∧ leaks r = true) ∧ o.data ++ d' = d) ∨
      ((0 < room ∧ leaks r = true) ∧ o = .again ∧ d.length < d'.length))

/-- The stream has nothing yet, or fails: nothing moves. -/
theorem moves_keep {room : Nat} {r : MasqueRecv} {d : Bytes} {o : Outcome} (h : Due r d)
    (hnl : ¬ (0 < room ∧ leaks r = true)) (ho : o = .pending ∨ o = .streamErr) :
    Moves room r d o r := by
  rcases ho with rfl | rfl
  · exact ⟨fun hf => (nomatch hf), fun hf => (nomatch hf), d, h, .inl ⟨hnl, rfl⟩⟩
  · exact ⟨fun hf => (nomatch hf), fun hf => (nomatch hf), d, h, .inl ⟨hnl, rfl⟩⟩

/-- Handing out what is pending. -/
theorem moves_pending {room : Nat} {r : MasqueRecv} {d : Bytes} (h : Due r d)
    (hp : r.pending ≠ []) :
    Moves room r d (.ready (r.pending.take (min r.pending.length room)))
      { r with pending := r.pending.drop (min r.pending.length room) } := by
  obtain ⟨part, fs, hlen, hhd, hcat, heof, rfl⟩ := h
  have hpos : 0 < r.pending.length := List.length_pos_iff.mpr hp
  refine ⟨fun hf => (nomatch hf), ?_, ?_⟩
  · intro hf hroom
    rcases List.take_eq_nil_iff.mp (Outcome.ready.inj hf) with hf | hf
    · omega
    · exact absurd hf hp
  · refine ⟨_, ⟨part, fs, hlen, hhd, hcat, heof, rfl⟩, .inl ⟨?_, ?_⟩⟩
    · intro hl
      simp [leaks, hp] at hl
    · simp [Outcome.data, ← List.append_assoc]

/-- Reading the payload of the current frame from the stream: to the caller, or away. -/
theorem moves_payload (room : Nat) {want : Nat} {served : Served} {r : MasqueRecv} {d data rest : Bytes}
    (h : Due r d) (hp : r.pending = []) (hrem : 0 < r.remaining) (hw : 0 < want)
    (hwant : want ≤ r.remaining) (hread : pollReadSome r.stream want served = .ok data rest) :
    data ≠ [] ∧
    Moves room r d (if r.discard then .again else .ready data)
      { r with stream := rest, remaining := r.remaining - data.length } := by
  obtain ⟨part, fs, hlen, hhd, hcat, heof, rfl⟩ := h
  obtain ⟨hdata, hle, hend⟩ := pollReadSome_ok hread hw
  rw [hhd hrem, List.nil_append, ← hdata] at hcat
  have hne : data ≠ [] := by
    rintro rfl
    rw [hdata, hend rfl] at hcat
    have hz : part.length = 0 := by
      rw [(List.append_eq_nil_iff.mp hcat.symm).1]
      rfl
    omega
  obtain ⟨part', rfl, hrest⟩ := split_of_append_eq hcat (by omega)
  rw [List.length_append] at hlen
  refine ⟨hne, ?_, ?_, ?_⟩
  · split <;> exact fun hf => nomatch hf
  · intro hf
    split at hf
    · cases hf
    · exact absurd (Outcome.ready.inj hf) hne
  · refine ⟨_, ⟨part', fs, ?_, fun _ => hhd hrem, ?_, ?_, rfl⟩, .inl ⟨?_, ?_⟩⟩
    · show part'.length = r.remaining - data.length
      omega
    · show r.header ++ rest = _
      rw [hhd hrem, List.nil_append, hrest]
    · intro he
      rw [heof he] at hdata
      exact absurd (List.append_eq_nil_iff.mp hdata).1 hne
    · intro hl
      have : r.remaining ≠ 0 := by omega
      simp [leaks, this] at hl
    · cases hd : r.discard <;> simp [Outcome.data, hp]

/-- **Parsing a header.**  The payload bytes in the look-ahead become pending; if the frame is not
    DATA, they are the leak. -/
theorem moves_header {room : Nat} {r : MasqueRecv} {d : Bytes} {ty len used : Nat} (h : Due r d)
    (hroom : room ≠ 0) (hp : r.pending = []) (hrem : r.remaining = 0)
    (hparse : getFrameHeader r.header = some (ty, len, used)) :
    Moves room r d .again { r with
      header := (r.header.drop used).drop (min (r.header.drop used).length len)
      pending := if min (r.header.drop used).length len > 0
        then (r.header.drop used).take (min (r.header.drop used).length len) else r.pending
      remaining := len - min (r.header.drop used).length len
      discard := decide (ty ≠ FRAME_DATA) } := by
  obtain ⟨part, fs, hlen, -, hcat, heof, rfl⟩ := h
  have hnil : part = [] := List.eq_nil_of_length_eq_zero (hlen.trans hrem)
  subst hnil
  rw [List.nil_append] at hcat
  obtain ⟨f, fs', rfl, rfl, rfl, -, hcat'⟩ := parsed_frame hcat hparse
  generalize hlook : r.header.drop used = look at hcat' ⊢
  have hlooklen : r.header.length - used = look.length := by rw [← hlook, List.length_drop]
  generalize htake : min look.length f.payload.length = take
  have hle1 : take ≤ look.length := by omega
  have hle2 : take ≤ f.payload.length := by omega
  -- the look-ahead holds the first `take` bytes of the payload and then what is behind it
  have hcut : look.take take = f.payload.take take := by
    have h1 := congrArg (List.take take) hcat'
    rwa [List.take_append_of_le_length hle1, List.take_append_of_le_length hle2] at h1
  have hback : look.drop take ++ r.stream = f.payload.drop take ++ encode fs' := by
    have h1 := congrArg (List.drop take) hcat'
    rwa [List.drop_append_of_le_length hle1, List.drop_append_of_le_length hle2] at h1
  have hpend : (if take > 0 then look.take take else r.pending) = f.payload.take take := by
    split
    · exact hcut
    · rw [hp, show take = 0 by omega, List.take_zero]
  refine ⟨fun hf => (nomatch hf), fun hf => (nomatch hf), ?_⟩
  refine ⟨f.payload.take take ++ (if f.ty ≠ FRAME_DATA then [] else f.payload.drop take) ++
    dataOf fs', ⟨f.payload.drop take, fs', ?_, ?_, hback, heof, ?_⟩, ?_⟩
  · exact List.length_drop ..
  · intro hpos
    refine List.eq_nil_of_length_eq_zero ?_
    rw [List.length_drop]
    simp only at hpos
    omega
  · simp [hpend]
  · have hleak : leaks r = true ↔ f.ty ≠ FRAME_DATA ∧ 0 < take := by
      simp [leaks, hp, hrem, hparse, hlooklen, htake]
    by_cases hl : leaks r = true
    · obtain ⟨hty, htk⟩ := hleak.mp hl
      refine .inr ⟨⟨by omega, hl⟩, rfl, ?_⟩
      simp only [hp, hty, List.length_append, List.length_take, dataOf_cons, if_false,
        ne_eq, not_false_eq_true, if_true, List.length_nil, List.nil_append]
      split <;> simp only [List.length_nil] <;> omega
    · refine .inl ⟨fun hc => hl hc.2, ?_⟩
      by_cases hty : f.ty = FRAME_DATA
      · simp [Outcome.data, hp, hty, ← List.append_assoc]
      · have htk : take = 0 := by
          by_contra hne
          exact hl (hleak.mpr ⟨hty, by omega⟩)
        simp [Outcome.data, hp, hty, htk]

/-- Filling the look-ahead, or finding the end of the stream. -/
theorem moves_fill {room : Nat} {served : Served} {r : MasqueRecv} {d : Bytes} {o : Outcome}
    {r' : MasqueRecv} (h : Due r d) (hp : r.pending = []) (hrem : r.remaining = 0)
    (hparse : getFrameHeader r.header = none) (hroom : room ≠ 0)
    (ht : turn room served r = (o, r')) : Moves room r d o r' := by
  have hnl : ¬ (0 < room ∧ leaks r = true) := fun hl => by
    simp [leaks, hparse] at hl
  have hkeep {o' : Outcome} := moves_keep (o := o') h hnl
  obtain ⟨part, fs, hlen, hhd, hcat, heof, hd⟩ := h
  have hnil : part = [] := List.eq_nil_of_length_eq_zero (hlen.trans hrem)
  subst hnil
  rw [List.nil_append] at hcat
  -- at the end of the stream the look-ahead is empty, and nothing is due
  have hend : ∀ e : Bool, r.stream = [] →
      Moves room r d (if r.header = [] then .ready [] else .unexpectedEof) { r with eof := e } := by
    intro e hs
    obtain ⟨hh, rfl⟩ := unparsed_frames hcat hparse hs
    rw [if_pos hh]
    refine ⟨fun hf => (nomatch hf), fun _ _ => ⟨hh, hs, hp, hrem⟩, d, ?_, .inl ⟨hnl, rfl⟩⟩
    exact ⟨[], [], hlen, hhd, by rw [hh, hs]; rfl, fun _ => hs, hd⟩
  unfold turn at ht
  rw [if_neg hroom, if_neg (by simp [hp]), if_neg (by omega), hparse] at ht
  dsimp only at ht
  split at ht
  · rename_i he
    obtain ⟨rfl, rfl⟩ := Prod.mk.inj ht
    have := hend r.eof (heof he)
    exact this
  · cases hread : pollReadSome r.stream 16 served with
    | pending =>
      rw [hread] at ht
      obtain ⟨rfl, rfl⟩ := Prod.mk.inj ht
      exact hkeep (.inl rfl)
    | err =>
      rw [hread] at ht
      obtain ⟨rfl, rfl⟩ := Prod.mk.inj ht
      exact hkeep (.inr rfl)
    | ok data rest =>
      obtain ⟨hdata, -, hnone⟩ := pollReadSome_ok hread (by omega)
      rw [hread] at ht
      cases data with
      | nil =>
        obtain ⟨rfl, rfl⟩ := Prod.mk.inj ht
        exact hend true (hnone rfl)
      | cons b bs =>
        obtain ⟨rfl, rfl⟩ := Prod.mk.inj ht
        refine ⟨fun hf => (nomatch hf), fun hf => (nomatch hf), d, ?_, .inl ⟨hnl, rfl⟩⟩
        refine ⟨[], fs, hlen, ?_, ?_, ?_, hd⟩
        · intro hpos
          simp only at hpos
          omega
        · rw [List.append_assoc, hdata]
          exact hcat
        · intro hf
          rw [heof hf] at hdata
          cases hdata

/-- The payload is read in the same way whether it is for the caller or thrown away: up to `want`
    bytes, and `act` says how the turn ends if some came. -/
theorem moves_read {room want : Nat} {served : Served} {r r' : MasqueRecv} {d : Bytes} {o : Outcome}
    (h : Due r d) (hp : r.pending = []) (hrem : 0 < r.remaining) (hw : 0 < want)
    (hwant : want ≤ r.remaining) (act : Bytes → Outcome)
    (hact : ∀ data, act data = if r.discard then .again else .ready data)
    (ht : (match pollReadSome r.stream want served with
      | .pending => (.pending, r)
      | .err => (.streamErr, r)
      | .ok [] _ => (.unexpectedEof, r)
      | .ok data rest =>
        (act data, { r with stream := rest, remaining := r.remaining - data.length })) = (o, r')) :
    Moves room r d o r' := by
  have hnl : ¬ (0 < room ∧ leaks r = true) := by
    intro hl
    have hne : r.remaining ≠ 0 := by omega
    simp [leaks, hne] at hl
  cases hread : pollReadSome r.stream want served with
  | pending =>
    rw [hread] at ht
    obtain ⟨rfl, rfl⟩ := Prod.mk.inj ht
    exact moves_keep h hnl (.inl rfl)
  | err =>
    rw [hread] at ht
    obtain ⟨rfl, rfl⟩ := Prod.mk.inj ht
    exact moves_keep h hnl (.inr rfl)
  | ok data rest =>
    obtain ⟨hne, hm⟩ := moves_payload room h hp hrem hw hwant hread
    rw [hread] at ht
    cases data with
    | nil => exact absurd rfl hne
    | cons b bs =>
      obtain ⟨rfl, rfl⟩ := Prod.mk.inj ht
      rwa [hact]

/-- **One turn.** -/
theorem turn_moves {room : Nat} {served : Served} {r r' : MasqueRecv} {d : Bytes} {o : Outcome}
    (h : Due r d) (ht : turn room served r = (o, r')) : Moves room r d o r' := by
  by_cases hroom : room = 0
  · unfold turn at ht
    rw [if_pos hroom] at ht
    obtain ⟨rfl, rfl⟩ := Prod.mk.inj ht
    exact ⟨fun hf => (nomatch hf), fun _ hpos => by omega, d, h, .inl ⟨by omega, rfl⟩⟩
  by_cases hp : r.pending = []
  swap
  · unfold turn at ht
    rw [if_neg hroom, if_pos hp] at ht
    obtain ⟨rfl, rfl⟩ := Prod.mk.inj ht
    exact moves_pending h hp
  by_cases hrem : 0 < r.remaining
  swap
  · cases hparse : getFrameHeader r.header with
    | none => exact moves_fill h hp (by omega) hparse hroom ht
    | some x =>
      unfold turn at ht
      rw [if_neg hroom, if_neg (by simp [hp]), if_neg hrem, hparse] at ht
      obtain ⟨rfl, rfl⟩ := Prod.mk.inj ht
      exact moves_header h hroom hp (by omega) hparse
  -- payload of the current frame
  unfold turn at ht
  rw [if_neg hroom, if_neg (by simp [hp]), if_pos hrem] at ht
  by_cases hdis : r.discard = true
  · rw [if_pos hdis] at ht
    exact moves_read h hp hrem (by omega) (by omega) (fun _ => .again)
      (fun _ => (if_pos hdis).symm) ht
  · rw [if_neg hdis] at ht
    exact moves_read h hp hrem (by omega) (by omega) .ready (fun _ => (if_neg hdis).symm) ht

/-! ## Runs -/

theorem spent_due {r : MasqueRecv} {d : Bytes} (hs : Spent r) (h : Due r d) : d = [] := by
  obtain ⟨hh, hst, hp, hrem⟩ := hs
  obtain ⟨part, fs, hlen, -, hcat, -, rfl⟩ := h
  have hnil : part = [] := List.eq_nil_of_length_eq_zero (hlen.trans hrem)
  subst hnil
  rw [hh, hst] at hcat
  cases fs with
  | nil => simp [hp]
  | cons f fs =>
    rw [List.nil_append, List.nil_append, encode_cons] at hcat
    exact absurd (List.append_eq_nil_iff.mp hcat.symm).1 (hdr_ne_nil f)

/-- Nothing comes after the end. -/
theorem spent_turn {room : Nat} {served : Served} {r r' : MasqueRecv} {o : Outcome}
    (hs : Spent r) (ht : turn room served r = (o, r')) : Spent r' := by
  obtain ⟨hh, hst, hp, hrem⟩ := hs
  have hstay : ∀ e : Bool, Spent { r with eof := e } := fun e => ⟨hh, hst, hp, hrem⟩
  unfold turn at ht
  rw [hh, getFrameHeader_nil, hst, hp, hrem] at ht
  dsimp only at ht
  split at ht
  · obtain ⟨-, rfl⟩ := Prod.mk.inj ht
    exact hstay r.eof
  · rw [if_neg (fun h => h rfl), if_neg (by omega)] at ht
    split at ht
    · obtain ⟨-, rfl⟩ := Prod.mk.inj ht
      exact hstay r.eof
    · cases served <;> simp only [pollReadSome, List.take_nil] at ht <;>
        obtain ⟨-, rfl⟩ := Prod.mk.inj ht
      · exact hstay r.eof
      · exact hstay r.eof
      · exact ⟨rfl, rfl, rfl, rfl⟩

/-- The invariant of runs: `d` is due, and nothing is left after an EOF. -/
def Stands (s : Reader) (d : Bytes) : Prop :=
  Due s.recv d ∧ (AtEof s → Spent s.recv) ∧ ∀ room, (room, Outcome.unexpectedEof) ∉ s.results

/-- A step without a leak moves bytes; a leak adds some. -/
theorem stands_step {s s' : Reader} {e : Event} {d : Bytes} (h : Stands s d)
    (hstep : step s e = some s') :
    ∃ d', Stands s' d' ∧
      ((Clean s e ∧ s'.delivered ++ d' = s.delivered ++ d) ∨
        (¬ Clean s e ∧ (s.delivered ++ d).length < (s'.delivered ++ d').length)) := by
  obtain ⟨hdue, heof, hun⟩ := h
  cases e with
  | call room =>
    simp only [step] at hstep
    split at hstep
    · obtain rfl := Option.some.inj hstep
      exact ⟨d, ⟨hdue, heof, hun⟩, .inl ⟨rfl, rfl⟩⟩
    · cases hstep
  | turn served =>
    obtain ⟨room, hroom, hs'⟩ := Option.map_eq_some_iff.mp hstep
    obtain ⟨o, r', ht⟩ : ∃ o r', turn room served s.recv = (o, r') := ⟨_, _, rfl⟩
    obtain ⟨hne, hend, d', hdue', hmove⟩ := turn_moves hdue ht
    have hleaky : Clean s (.turn served) ↔ ¬ (0 < room ∧ leaks s.recv = true) := by
      simp [Clean, leaky, hroom]
    rw [ht] at hs'
    by_cases ho : o = .again
    · subst ho
      obtain rfl : _ = s' := hs'
      refine ⟨d', ⟨hdue', fun hE => spent_turn (heof hE) ht, hun⟩, ?_⟩
      rcases hmove with ⟨hnl, hd⟩ | ⟨hl, -, hlt⟩
      · exact .inl ⟨hleaky.mpr hnl, by rw [← hd]; rfl⟩
      · refine .inr ⟨fun hc => hleaky.mp hc hl, ?_⟩
        simp only [List.length_append]
        omega
    · have hs : s' = { recv := r', room := none, delivered := s.delivered ++ o.data,
                       results := s.results ++ [(room, o)] } := by
        rw [← hs']
        cases o <;> first | rfl | exact absurd rfl ho
      subst hs
      rcases hmove with ⟨hnl, hd⟩ | ⟨-, hag, -⟩
      swap
      · exact absurd hag ho
      refine ⟨d', ⟨hdue', ?_, ?_⟩, .inl ⟨hleaky.mpr hnl, by rw [← hd, List.append_assoc]⟩⟩
      · rintro ⟨room', hpos, hmem⟩
        rcases List.mem_append.mp hmem with hmem | hmem
        · exact spent_turn (heof ⟨room', hpos, hmem⟩) ht
        · obtain ⟨rfl, rfl⟩ := Prod.mk.inj (List.mem_singleton.mp hmem)
          exact hend rfl hpos
      · intro room' hmem
        rcases List.mem_append.mp hmem with hmem | hmem
        · exact hun room' hmem
        · exact hne (Prod.mk.inj (List.mem_singleton.mp hmem)).2.symm

/-- **A whole run**, by induction on its events: without a leak what was due is delivered or still
    due; after a leak there is more than there should be, and it stays. -/
theorem stands_run (es : List Event) : ∀ (s t : Reader) (d : Bytes), Stands s d →
    run step s es = some t →
    ∃ d', Stands t d' ∧
      ((Meets step Clean s es ∧ t.delivered ++ d' = s.delivered ++ d) ∨
        (¬ Meets step Clean s es ∧ (s.delivered ++ d).length < (t.delivered ++ d').length)) := by
  induction es with
  | nil =>
    intro s t d h hrun
    obtain rfl : s = t := by simpa using hrun
    exact ⟨d, h, .inl ⟨trivial, rfl⟩⟩
  | cons e es ih =>
    intro s t d h hrun
    rw [run_cons, Option.bind_eq_some_iff] at hrun
    obtain ⟨m, hm, hrun⟩ := hrun
    obtain ⟨d₁, h₁, hstep⟩ := stands_step h hm
    obtain ⟨d₂, h₂, hrest⟩ := ih m t d₁ h₁ hrun
    have hmeets : Meets step Clean s (e :: es) ↔ Clean s e ∧ Meets step Clean m es :=
      ⟨fun hM => ⟨hM.1, hM.2 m hm⟩, fun hM => ⟨hM.1, fun t' ht' => by
        obtain rfl := Option.some.inj (hm.symm.trans ht')
        exact hM.2⟩⟩
    refine ⟨d₂, h₂, ?_⟩
    rcases hstep with ⟨hc, heq⟩ | ⟨hc, hlt⟩
    · rcases hrest with ⟨hM, heq'⟩ | ⟨hM, hlt'⟩
      · exact .inl ⟨hmeets.mpr ⟨hc, hM⟩, heq'.trans heq⟩
      · exact .inr ⟨fun hM' => hM (hmeets.mp hM').2, by rwa [← heq]⟩
    · refine .inr ⟨fun hM' => hc (hmeets.mp hM').1, ?_⟩
      rcases hrest with ⟨-, heq'⟩ | ⟨-, hlt'⟩
      · rwa [heq']
      · exact Nat.lt_trans hlt hlt'

theorem stands_new {fs : List Frame} {leftover stream : Bytes}
    (h : leftover ++ stream = encode fs) : Stands (Reader.new stream leftover) (dataOf fs) := by
  refine ⟨⟨[], fs, rfl, fun hpos => (by simp [Reader.new, MasqueRecv.new] at hpos), h, ?_, rfl⟩,
    ?_, ?_⟩
  · intro hf
    cases hf
  · rintro ⟨room, -, hmem⟩
    cases hmem
  · intro room hmem
    cases hmem

/-- **What the receiver delivers.**  For every stream of whole frames, every split of it between the
    leftover and the later reads, every chunking and every sequence of calls: at EOF the delivered
    bytes are the DATA payloads, IFF no turn of the run parses the header of a frame that is not
    DATA with bytes of its payload in the look-ahead.  Without such a turn only DATA payload bytes
    are ever delivered, in order; and the stream never ends inside a frame. -/
theorem recv_delivers_data_iff {fs : List Frame} {leftover stream : Bytes}
    (h : leftover ++ stream = encode fs) {es : List Event} {t : Reader}
    (hrun : run step (Reader.new stream leftover) es = some t) :
    (AtEof t → (t.delivered = dataOf fs ↔ Meets step Clean (Reader.new stream leftover) es)) ∧
    (Meets step Clean (Reader.new stream leftover) es → t.delivered <+: dataOf fs) ∧
    (∀ room, (room, Outcome.unexpectedEof) ∉ t.results) := by
  obtain ⟨d, ⟨hdue, heof, hun⟩, hcase⟩ := stands_run es _ t _ (stands_new h) hrun
  have hnew : (Reader.new stream leftover).delivered = [] := rfl
  rw [hnew, List.nil_append] at hcase
  refine ⟨?_, ?_, hun⟩
  · intro hE
    have hd : d = [] := spent_due (heof hE) hdue
    subst hd
    rw [List.append_nil] at hcase
    rcases hcase with ⟨hM, heq⟩ | ⟨hM, hlt⟩
    · exact ⟨fun _ => hM, fun _ => heq⟩
    · refine ⟨?_, fun hM' => absurd hM' hM⟩
      intro heq
      rw [heq] at hlt
      exact absurd hlt (Nat.lt_irrefl _)
  · intro hM
    rcases hcase with ⟨-, heq⟩ | ⟨hM', -⟩
    · exact ⟨d, heq⟩
    · exact absurd hM hM'

/-- A GREASE frame (type 0x21) with three payload bytes, and a DATA frame with two. -/
def demoFrames : List Frame :=
  [⟨0x21, [0x21, 3], [1, 2, 3], rfl⟩, ⟨FRAME_DATA, [0, 2], [8, 9], rfl⟩]

/-- The look-ahead ends with the header of the GREASE frame: its payload is thrown away. -/
theorem recv_delivers_data_iff_demo :
    ∃ t, run step (Reader.new [1, 2, 3, 0, 2, 8, 9] [0x21, 3])
        [.call 4, .turn .pending, .turn (.ready 9), .turn (.ready 1), .turn .pending,
          .turn (.ready 9), .call 4, .turn (.ready 9)] = some t ∧
      AtEof t ∧ t.delivered = dataOf demoFrames := by
  obtain ⟨t, ht⟩ : ∃ t, run step (Reader.new [1, 2, 3, 0, 2, 8, 9] [0x21, 3])
      [.call 4, .turn .pending, .turn (.ready 9), .turn (.ready 1), .turn .pending,
        .turn (.ready 9), .call 4, .turn (.ready 9)] = some t := ⟨_, rfl⟩
  have hE : AtEof t := by
    obtain rfl := Option.some.inj ht
    exact ⟨4, by decide, by decide⟩
  have hsplit : [0x21, 3] ++ [1, 2, 3, 0, 2, 8, 9] = encode demoFrames := rfl
  exact ⟨t, ht, hE, ((recv_delivers_data_iff hsplit ht).1 hE).mpr (by decide)⟩

/-- **The defect.**  The whole GREASE frame is in the leftover: its payload is delivered. -/
theorem grease_payload_delivered :
    ∃ t, run step (Reader.new [0, 2, 8, 9] [0x21, 3, 1, 2, 3])
        [.call 4, .turn .pending, .turn .pending] = some t ∧
      [0x21, 3, 1, 2, 3] ++ [0, 2, 8, 9] = encode demoFrames ∧
      t.delivered = [1, 2, 3] ∧ dataOf demoFrames = [8, 9] ∧
      ¬ t.delivered <+: dataOf demoFrames :=
  ⟨_, rfl, rfl, rfl, rfl, by decide⟩

/-! ## Handover from the response head -/

def MAX_RESPONSE_HEAD_BUFFER : Nat := 64 * 1024

inductive Scan where
  /-- The loop stopped for more bytes. -/
  | need (buf : Bytes)
  | found (status : Nat) (leftover : Bytes)
  | fail (msg : String)

/-- The inner loop of `read_response_head`: skip whole frames up to the HEADERS frame. -/
def scanFrames (authority : String) (buf : Bytes) : Scan :=
  match _hp : getFrameHeader buf with
  | none => .need buf
  | some (ty, len, used) =>
    if used + len ≥ U64 then .fail "warp: response frame length overflow"
    else if buf.length < used + len then
      if used + len > MAX_RESPONSE_HEAD_BUFFER then
        .fail ("warp: response frame too large (" ++ toString (used + len) ++ " bytes)")
      else .need buf
    else if ty = FRAME_HEADERS then
      match decodeStatus ((buf.drop used).take len) with
      | .ok status => .found status (buf.drop (used + len))
      | .error e => .fail ("warp: unusable CONNECT response for " ++ authority ++ ": " ++ e)
    else scanFrames authority (buf.drop (used + len))
termination_by buf.length
decreasing_by
  have := getFrameHeader_used _hp
  rw [List.length_drop]
  omega

inductive Head where
  | ok (status : Nat) (leftover stream : Bytes)
  | fail (msg : String)
  /-- The stream has not been served further. -/
  | waiting

/-- `read_response_head`, reading the stream as `served`. -/
def readResponseHead (authority : String) (buf stream : Bytes) : List Served → Head
  | [] =>
    match scanFrames authority buf with
    | .found status leftover => .ok status leftover stream
    | .fail msg => .fail msg
    | .need _ => .waiting
  | served :: later =>
    match scanFrames authority buf with
    | .found status leftover => .ok status leftover stream
    | .fail msg => .fail msg
    | .need buf =>
      if buf.length > MAX_RESPONSE_HEAD_BUFFER then
        .fail ("warp: CONNECT response for " ++ authority ++ " exceeded " ++
          toString MAX_RESPONSE_HEAD_BUFFER ++ " bytes")
      else match pollReadSome stream 4096 served with
        | .pending => readResponseHead authority buf stream later
        | .err => .fail "warp: read response"
        | .ok [] _ =>
          .fail ("warp: connection closed before CONNECT response for " ++ authority)
        | .ok data rest => readResponseHead authority (buf ++ data) rest later

/-- The inner loop finds the first HEADERS frame, or stops before it. -/
theorem scanFrames_spec (authority : String) {H : Frame} (hH : H.ty = FRAME_HEADERS)
    {post : List Frame} (buf stream : Bytes) : ∀ pre : List Frame,
    (∀ f ∈ pre, f.ty ≠ FRAME_HEADERS) → buf ++ stream = encode (pre ++ H :: post) →
    match scanFrames authority buf with
    | .found status leftover =>
      leftover ++ stream = encode post ∧ decodeStatus H.payload = .ok status
    | .need buf' => ∃ pre', (∀ f ∈ pre', f.ty ≠ FRAME_HEADERS) ∧
        buf' ++ stream = encode (pre' ++ H :: post)
    | .fail _ => True := by
  fun_induction scanFrames authority buf with
  | case1 buf hp =>
    intro pre hpre hcat
    exact ⟨pre, hpre, hcat⟩
  | case2 => exact fun _ _ _ => trivial
  | case3 => exact fun _ _ _ => trivial
  | case4 =>
    intro pre hpre hcat
    exact ⟨pre, hpre, hcat⟩
  | case5 buf len used h1 h2 status hst hp =>
    intro pre hpre hcat
    obtain ⟨f, fs', hfs, hfty, hlen, hused, hback⟩ := parsed_frame hcat hp
    have hhead : f = H ∧ fs' = post := by
      cases pre with
      | nil =>
        obtain ⟨rfl, rfl⟩ := List.cons.inj hfs
        exact ⟨rfl, rfl⟩
      | cons g pre =>
        obtain ⟨rfl, -⟩ := List.cons.inj hfs
        exact absurd hfty (hpre g List.mem_cons_self)
    obtain ⟨rfl, rfl⟩ := hhead
    have hle : len ≤ (buf.drop used).length := by
      rw [List.length_drop]
      omega
    have hpay : (buf.drop used).take len = f.payload := by
      have h3 := congrArg (List.take len) hback
      rwa [List.take_append_of_le_length hle, ← hlen, List.take_left, hlen] at h3
    refine ⟨?_, by rw [← hpay]; exact hst⟩
    have h4 := congrArg (List.drop len) hback
    rw [List.drop_append_of_le_length hle, List.drop_drop, ← hlen, List.drop_left, hlen] at h4
    exact h4
  | case6 => exact fun _ _ _ => trivial
  | case7 buf ty len used hp h1 h2 hty ih =>
    intro pre hpre hcat
    obtain ⟨f, fs', hfs, hfty, hlen, hused, hback⟩ := parsed_frame hcat hp
    cases pre with
    | nil =>
      obtain ⟨rfl, rfl⟩ := List.cons.inj hfs
      exact absurd (hfty.symm.trans hH) hty
    | cons g pre =>
      obtain ⟨rfl, rfl⟩ := List.cons.inj hfs
      refine ih pre (fun x hx => hpre x (List.mem_cons_of_mem _ hx)) ?_
      have hle : len ≤ (buf.drop used).length := by
        rw [List.length_drop]
        omega
      have h4 := congrArg (List.drop len) hback
      rw [List.drop_append_of_le_length hle, List.drop_drop, ← hlen, List.drop_left, hlen] at h4
      exact h4

/-- **Handover.**  However the reads are cut, the leftover and the rest of the stream are together
    the frames behind the response, and the status is that of the response. -/
theorem readResponseHead_handover {authority : String} {H : Frame} (hH : H.ty = FRAME_HEADERS)
    {post : List Frame} (served : List Served) : ∀ (pre : List Frame) (buf stream : Bytes),
    (∀ f ∈ pre, f.ty ≠ FRAME_HEADERS) → buf ++ stream = encode (pre ++ H :: post) →
    ∀ {status : Nat} {leftover stream' : Bytes},
      readResponseHead authority buf stream served = .ok status leftover stream' →
      leftover ++ stream' = encode post ∧ decodeStatus H.payload = .ok status := by
  induction served with
  | nil =>
    intro pre buf stream hpre hcat status leftover stream' hok
    have hscan := scanFrames_spec authority hH buf stream pre hpre hcat
    rw [readResponseHead] at hok
    split at hok <;> rename_i heq
    · obtain ⟨rfl, rfl, rfl⟩ := Head.ok.inj hok
      rwa [heq] at hscan
    · cases hok
    · cases hok
  | cons s later ih =>
    intro pre buf stream hpre hcat status leftover stream' hok
    have hscan := scanFrames_spec authority hH buf stream pre hpre hcat
    rw [readResponseHead] at hok
    split at hok <;> rename_i heq
    · obtain ⟨rfl, rfl, rfl⟩ := Head.ok.inj hok
      rwa [heq] at hscan
    · cases hok
    · rw [heq] at hscan
      obtain ⟨pre', hpre', hcat'⟩ := hscan
      split at hok
      · cases hok
      split at hok
      · exact ih pre' _ _ hpre' hcat' hok
      · cases hok
      · cases hok
      · rename_i data rest hread
        obtain ⟨hdata, -, -⟩ := pollReadSome_ok hread (by omega)
        refine ih pre' _ _ hpre' ?_ hok
        rw [List.append_assoc, hdata]
        exact hcat'

end Httproxy.Masque
