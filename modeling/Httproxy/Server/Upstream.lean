/-
  The two ways upload frames leave the server (`src/server/upstream.rs`, and `write_frames` of
  `MasqueSend` in `src/warp/masque.rs`).

  `UploadActor` hands a run of frames to `UpstreamWrite::write_frames`.  The direct variant writes them
  to a TCP stream, one frame with `write_all` and several with vectored writes; the WARP variant groups
  them into DATA frames.

  1. **Streams** — `OwnedWriteHalf` and `SendStream` are the streams of other crates, as parameters;
     `Lawful` says that they take what they are given: `write_all` all of it, a vectored write some of
     it, and NOTHING only when there is nothing.

  2. **Program** — `advance` moves the cursor `(first, skip)` of `writeVectoredAll` over what was
     written; `groupEnd` cuts the frames into groups.

  3. **The crux (`writeVectoredAll_iff`)** — `rest frames first skip` is what is still to be written,
     and each write takes its front off (`advance_rest`).  The loop leaves an empty frame behind only
     together with bytes after it.  So it meets its end exactly when the LAST frame has a byte; otherwise
     it offers only empty slices in the end, and takes the 0 it gets for a failure.
-/
import Httproxy.Warp.Send
import Httproxy.Server.UploadOrder

namespace Httproxy.Upstream

open Machine H3 Masque Upload

/-! ## Streams -/

inductive IoError where
  | writeZero
  | other
  deriving DecidableEq, Repr

/-- The writing half of a TCP stream in any states `σ`, with the bytes put on it so far. -/
structure OwnedWriteHalf (σ : Type) where
  sent : σ → Bytes
  writeAll : σ → Bytes → Except IoError Unit × σ
  writeVectored : σ → List Bytes → Except IoError Nat × σ

/-- The stream makes progress: some of what it is offered is taken, whatever the pattern. -/
structure OwnedWriteHalf.Lawful {σ : Type} (tcp : OwnedWriteHalf σ) : Prop where
  writeAll : ∀ s b, ∃ s', tcp.writeAll s b = (.ok (), s') ∧ tcp.sent s' = tcp.sent s ++ b
  writeVectored : ∀ s slices, ∃ n s', tcp.writeVectored s slices = (.ok n, s') ∧
    n ≤ slices.flatten.length ∧ (slices.flatten ≠ [] → 0 < n) ∧
    tcp.sent s' = tcp.sent s ++ slices.flatten.take n

/-- The sending half of a QUIC stream. -/
structure SendStream (τ : Type) where
  sent : τ → Bytes
  writeAll : τ → Bytes → Except IoError Unit × τ
  writeAllChunks : τ → List Bytes → Except IoError Unit × τ

structure SendStream.Lawful {τ : Type} (quic : SendStream τ) : Prop where
  writeAll : ∀ q b, ∃ q', quic.writeAll q b = (.ok (), q') ∧ quic.sent q' = quic.sent q ++ b
  writeAllChunks : ∀ q chunks, ∃ q', quic.writeAllChunks q chunks = (.ok (), q') ∧
    quic.sent q' = quic.sent q ++ chunks.flatten

/-! ## The direct variant -/

section Direct

variable {σ : Type} (tcp : OwnedWriteHalf σ)

/-- The slices of one vectored write: up to `MAX_WRITE_IOV` frames, the first without what is sent. -/
def ioSlices (frames : List Bytes) (first skip : Nat) : List Bytes :=
  ((frames.drop first).take MAX_WRITE_IOV).mapIdx fun i frame =>
    if i = 0 then frame.drop skip else frame

/-- The loop `while left > 0 && first < frames.len()`: where the cursor is after it. -/
def advance (frames : List Bytes) (left first skip : Nat) : Nat × Nat :=
  if h : 0 < left ∧ first < frames.length then
    let remain := frames[first].length - skip
    if left ≥ remain then advance frames (left - remain) (first + 1) 0
    else (first, skip + left)
  else (first, skip)
termination_by frames.length - first

/-- What is still to be written. -/
def rest (frames : List Bytes) (first skip : Nat) : Bytes := (frames.drop first).flatten.drop skip

/-- The cursor is at the beginning of a frame, or before its end. -/
def Within (frames : List Bytes) (first skip : Nat) : Prop :=
  skip = 0 ∨ ∃ h : first < frames.length, skip < frames[first].length

theorem rest_cons {frames : List Bytes} {first skip : Nat} (h : first < frames.length)
    (hskip : skip ≤ frames[first].length) :
    rest frames first skip = frames[first].drop skip ++ rest frames (first + 1) 0 := by
  rw [rest, rest, List.drop_eq_getElem_cons h, List.flatten_cons, List.drop_zero,
    List.drop_append_of_le_length hskip]

theorem rest_end {frames : List Bytes} {first skip : Nat} (h : frames.length ≤ first) :
    rest frames first skip = [] := by
  rw [rest, List.drop_of_length_le h, List.flatten_nil, List.drop_nil]

theorem Within.le {frames : List Bytes} {first skip : Nat} (hw : Within frames first skip)
    (h : first < frames.length) : skip ≤ frames[first].length := by
  rcases hw with rfl | ⟨_, hlt⟩
  · exact Nat.zero_le _
  · exact Nat.le_of_lt hlt

/-- **The cursor moves over what was written.** -/
theorem advance_rest {frames : List Bytes} {left first skip : Nat} (hw : Within frames first skip)
    (hle : left ≤ (rest frames first skip).length) :
    Within frames (advance frames left first skip).1 (advance frames left first skip).2 ∧
      rest frames (advance frames left first skip).1 (advance frames left first skip).2 =
        (rest frames first skip).drop left := by
  fun_induction advance frames left first skip with
  | case1 left first skip h remain hge ih =>
    have hskip := hw.le h.2
    have hremain : remain = frames[first].length - skip := rfl
    obtain ⟨front, hfront⟩ : ∃ front, frames[first].drop skip = front := ⟨_, rfl⟩
    have hlen : front.length = remain := by rw [← hfront, List.length_drop]
    rw [rest_cons h.2 hskip, hfront] at hle ⊢
    rw [List.length_append] at hle
    obtain ⟨hw', hrest⟩ := ih (.inl rfl) (by omega)
    refine ⟨hw', hrest.trans ?_⟩
    rw [List.drop_append, List.drop_of_length_le (show front.length ≤ left by omega),
      List.nil_append, hlen]
  | case2 left first skip h remain hlt =>
    have hremain : remain = frames[first].length - skip := rfl
    have hshort : skip + left < frames[first].length := by omega
    refine ⟨.inr ⟨h.2, hshort⟩, ?_⟩
    rw [rest, rest, List.drop_drop]
  | case3 left first skip h =>
    refine ⟨hw, ?_⟩
    by_cases hleft : left = 0
    · rw [hleft, List.drop_zero]
    · -- the cursor is at the end
      rw [rest_end (show frames.length ≤ first by omega), List.drop_nil]

/-- A turn of the loop that writes something moves the cursor. -/
theorem advance_moves {frames : List Bytes} {left first skip : Nat} (h : 0 < left)
    (hfirst : first < frames.length) :
    first < (advance frames left first skip).1 ∨
      ((advance frames left first skip).1 = first ∧ skip < (advance frames left first skip).2 ∧
        (advance frames left first skip).2 < frames[first].length) := by
  have hmono : ∀ left first skip, first ≤ (advance frames left first skip).1 := by
    intro left first skip
    fun_induction advance frames left first skip with
    | case1 left first skip h remain hge ih => omega
    | case2 => exact Nat.le_refl _
    | case3 => exact Nat.le_refl _
  rw [advance, dif_pos ⟨h, hfirst⟩]
  dsimp only
  split
  · exact .inl (hmono ..)
  · refine .inr ⟨rfl, ?_, ?_⟩
    · show skip < skip + left
      omega
    · show skip + left < _
      omega

/-- `write_vectored_all`, from the cursor `(first, skip)` on. -/
def writeVectoredAll (frames : List Bytes) (s : σ) (first skip : Nat) : Except IoError Unit × σ :=
  if _h : first < frames.length then
    match tcp.writeVectored s (ioSlices frames first skip) with
    | (.error e, s) => (.error e, s)
    | (.ok written, s) =>
      if _hw : written = 0 then (.error .writeZero, s)
      else writeVectoredAll frames s (advance frames written first skip).1
        (advance frames written first skip).2
  else (.ok (), s)
termination_by (frames.length - first, (frames.getD first []).length - skip)
decreasing_by
  rcases @advance_moves frames _ first skip (Nat.pos_of_ne_zero _hw) _h with hlt | ⟨heq, hlt, hlen⟩
  · exact Prod.Lex.left _ _ (by omega)
  · rw [heq]
    refine Prod.Lex.right _ ?_
    rw [List.getD_eq_getElem _ _ _h]
    omega

def writeTcpFrames (s : σ) (frames : List Bytes) : Except IoError Unit × σ :=
  if frames.length = 1 then tcp.writeAll s (frames.headD []) else writeVectoredAll tcp frames s 0 0

/-- With at most `MAX_WRITE_IOV` frames a vectored write is offered all that is left. -/
theorem flatten_ioSlices {frames : List Bytes} {first skip : Nat}
    (hlen : frames.length ≤ MAX_WRITE_IOV) (hw : Within frames first skip)
    (h : first < frames.length) : (ioSlices frames first skip).flatten = rest frames first skip := by
  have hall : (frames.drop first).take MAX_WRITE_IOV = frames.drop first := by
    apply List.take_of_length_le
    rw [List.length_drop]
    omega
  have hlater : ∀ fs : List Bytes,
      fs.mapIdx (fun i frame => if i + 1 = 0 then frame.drop skip else frame) = fs := by
    intro fs
    apply List.ext_getElem (by simp)
    intro i h₁ h₂
    simp
  rw [ioSlices, hall, rest_cons h (hw.le h), rest, List.drop_eq_getElem_cons h, List.mapIdx_cons,
    List.flatten_cons, if_pos rfl, List.drop_zero, hlater]

/-- As long as the last frame has a byte, there is something to offer. -/
theorem rest_ne_nil {frames : List Bytes} {first skip : Nat} (hlast : frames.getLast? ≠ some [])
    (hw : Within frames first skip) (h : first < frames.length) : rest frames first skip ≠ [] := by
  intro hnil
  rw [rest_cons h (hw.le h), List.append_eq_nil_iff] at hnil
  obtain ⟨hfront, hback⟩ := hnil
  rcases Nat.lt_or_ge (first + 1) frames.length with hmore | hend
  · -- the last frame is among the later ones
    have hsame : (frames.drop (first + 1)).getLast? = frames.getLast? := by
      rw [List.getLast?_drop, if_neg (by omega)]
    obtain ⟨last, hl⟩ : ∃ last, frames.getLast? = some last :=
      ⟨_, List.getLast?_eq_some_getLast (List.ne_nil_of_length_pos (by omega))⟩
    have hmem := List.mem_of_getLast? (hsame.trans hl)
    rw [rest, List.drop_zero] at hback
    have hempty := List.flatten_eq_nil_iff.mp hback last hmem
    exact hlast (hempty ▸ hl)
  · -- it is the one under the cursor
    have hl : frames.getLast? = some frames[first] := by
      rw [List.getLast?_eq_getElem?, List.getElem?_eq_getElem (by omega)]
      congr 2
      omega
    have hle := List.drop_eq_nil_iff.mp hfront
    have hzero : frames[first] = [] := by
      rcases hw with rfl | ⟨_, hlt⟩
      · exact List.eq_nil_of_length_eq_zero (by omega)
      · omega
    exact hlast (hzero ▸ hl)

/-- The cursor does not move past an empty last frame: nothing of it is ever written. -/
theorem advance_lt {frames : List Bytes} {left first skip : Nat} (hlast : frames.getLast? = some [])
    (hw : Within frames first skip) (hle : left ≤ (rest frames first skip).length)
    (h : first < frames.length) : (advance frames left first skip).1 < frames.length := by
  fun_induction advance frames left first skip with
  | case1 left first skip hc remain hge ih =>
    have hremain : remain = frames[first].length - skip := rfl
    rw [rest_cons hc.2 (hw.le hc.2), List.length_append, List.length_drop] at hle
    apply ih (.inl rfl) (by omega)
    by_contra hend
    have hl : frames.getLast? = some frames[first] := by
      rw [List.getLast?_eq_getElem?, List.getElem?_eq_getElem (by omega)]
      congr 2
      omega
    have hzero : frames[first].length = 0 := by
      rw [Option.some.inj (hl.symm.trans hlast)]
      rfl
    rw [rest_end (show frames.length ≤ first + 1 by omega), List.length_nil] at hle
    omega
  | case2 => exact h
  | case3 => exact h

/-- **The vectored loop, when the last frame has a byte**: all that is left is written. -/
theorem writeVectoredAll_ok (htcp : tcp.Lawful) {frames : List Bytes}
    (hlen : frames.length ≤ MAX_WRITE_IOV) (hlast : frames.getLast? ≠ some []) (s : σ)
    (first skip : Nat) (hw : Within frames first skip) :
    ∃ s', writeVectoredAll tcp frames s first skip = (.ok (), s') ∧
      tcp.sent s' = tcp.sent s ++ rest frames first skip := by
  fun_induction writeVectoredAll tcp frames s first skip with
  | case1 s first skip h e s' herr =>
    obtain ⟨n, s'', hok, -⟩ := htcp.writeVectored s (ioSlices frames first skip)
    rw [herr] at hok
    cases hok
  | case2 s first skip h s' hzero =>
    obtain ⟨n, s'', hok, -, hpos, -⟩ := htcp.writeVectored s (ioSlices frames first skip)
    obtain ⟨hn, -⟩ := Prod.mk.inj (hzero.symm.trans hok)
    obtain rfl := Except.ok.inj hn
    rw [flatten_ioSlices hlen hw h] at hpos
    exact absurd (hpos (rest_ne_nil hlast hw h)) (Nat.lt_irrefl 0)
  | case3 s first skip h written s' hwrote hne ih =>
    obtain ⟨n, s'', hok, hle, -, hsent⟩ := htcp.writeVectored s (ioSlices frames first skip)
    obtain ⟨hn, rfl⟩ := Prod.mk.inj (hwrote.symm.trans hok)
    obtain rfl := Except.ok.inj hn
    rw [flatten_ioSlices hlen hw h] at hle hsent
    obtain ⟨hw', hrest⟩ := advance_rest hw hle
    obtain ⟨t, ht, hsent'⟩ := ih hw'
    refine ⟨t, ht, ?_⟩
    rw [hsent', hsent, hrest, List.append_assoc, List.take_append_drop]
  | case4 s first skip h =>
    refine ⟨s, rfl, ?_⟩
    rw [rest_end (Nat.le_of_not_lt h), List.append_nil]

/-- **The vectored loop, when the last frame is empty**: it ends with `WriteZero`. -/
theorem writeVectoredAll_writeZero (htcp : tcp.Lawful) {frames : List Bytes}
    (hlen : frames.length ≤ MAX_WRITE_IOV) (hlast : frames.getLast? = some []) (s : σ)
    (first skip : Nat) (hw : Within frames first skip) (hfirst : first < frames.length) :
    (writeVectoredAll tcp frames s first skip).1 = .error .writeZero := by
  fun_induction writeVectoredAll tcp frames s first skip with
  | case1 s first skip h e s' herr =>
    obtain ⟨n, s'', hok, -⟩ := htcp.writeVectored s (ioSlices frames first skip)
    rw [herr] at hok
    cases hok
  | case2 => rfl
  | case3 s first skip h written s' hwrote hne ih =>
    obtain ⟨n, s'', hok, hle, -, -⟩ := htcp.writeVectored s (ioSlices frames first skip)
    obtain ⟨hn, rfl⟩ := Prod.mk.inj (hwrote.symm.trans hok)
    obtain rfl := Except.ok.inj hn
    rw [flatten_ioSlices hlen hw h] at hle
    exact ih (advance_rest hw hle).1 (advance_lt hlast hw hle h)
  | case4 s first skip h => exact absurd hfirst h

/-- **When the direct variant writes a list of frames.** -/
theorem writeTcpFrames_iff (htcp : tcp.Lawful) {frames : List Bytes}
    (hlen : frames.length ≤ MAX_WRITE_IOV) (s : σ) :
    (∃ s', writeTcpFrames tcp s frames = (.ok (), s') ∧
      tcp.sent s' = tcp.sent s ++ frames.flatten) ↔
      frames.length ≤ 1 ∨ frames.getLast? ≠ some [] := by
  have hrest : rest frames 0 0 = frames.flatten := by rw [rest, List.drop_zero, List.drop_zero]
  unfold writeTcpFrames
  by_cases hone : frames.length = 1
  · rw [if_pos hone]
    obtain ⟨frame, rfl⟩ := List.length_eq_one_iff.mp hone
    obtain ⟨s', hok, hsent⟩ := htcp.writeAll s frame
    refine ⟨fun _ => .inl (Nat.le_refl 1), fun _ => ⟨s', hok, ?_⟩⟩
    rw [hsent, List.flatten_singleton]
  · rw [if_neg hone]
    constructor
    · rintro ⟨s', hok, -⟩
      by_contra hno
      rw [not_or, not_not] at hno
      have herr := writeVectoredAll_writeZero tcp htcp hlen hno.2 s 0 0 (.inl rfl) (by omega)
      rw [hok] at herr
      cases herr
    · intro h
      have hlast : frames.getLast? ≠ some [] := by
        rcases h with h | h
        · obtain rfl : frames = [] := List.eq_nil_of_length_eq_zero (by omega)
          rw [List.getLast?_nil]
          rintro ⟨⟩
        · exact h
      obtain ⟨s', hok, hsent⟩ := writeVectoredAll_ok tcp htcp hlen hlast s 0 0 (.inl rfl)
      exact ⟨s', hok, hrest ▸ hsent⟩

end Direct

/-! ## The WARP variant -/

section Warp

variable {τ : Type} (quic : SendStream τ)

/-- `write_data`: a header for `total` bytes, and the frames behind it. -/
def writeData (q : τ) (frames : List Bytes) (total : Nat) : Except IoError Unit × τ :=
  let (header, n) := dataHeader (List.replicate 16 0) total
  match quic.writeAll q (header.take n) with
  | (.error e, q) => (.error e, q)
  | (.ok (), q) => quic.writeAllChunks q frames

/-- The inner loop of `write_frames`: how far a group reaches, and its bytes. -/
def groupEnd (frames : List Bytes) (stop total : Nat) : Nat × Nat :=
  if h : stop < frames.length then
    if total + frames[stop].length ≤ MAX_DATA_FRAME then
      groupEnd frames (stop + 1) (total + frames[stop].length)
    else (stop, total)
  else (stop, total)
termination_by frames.length - stop

/-- The group that starts at `start`; a frame over the cap is one of its own. -/
def group (frames : List Bytes) (start : Nat) (h : start < frames.length) : Nat × Nat :=
  if (groupEnd frames start 0).1 = start then (start + 1, frames[start].length)
  else groupEnd frames start 0

theorem le_groupEnd (frames : List Bytes) (stop total : Nat) :
    stop ≤ (groupEnd frames stop total).1 := by
  fun_induction groupEnd frames stop total with
  | case1 stop total h hle ih => omega
  | case2 => exact Nat.le_refl _
  | case3 => exact Nat.le_refl _

theorem lt_group {frames : List Bytes} {start : Nat} (h : start < frames.length) :
    start < (group frames start h).1 := by
  have hle := le_groupEnd frames start 0
  unfold group
  split
  · exact Nat.lt_succ_self start
  · omega

/-- `MasqueSend::write_frames`, from `start` on. -/
def writeWarpFrames (frames : List Bytes) (q : τ) (start : Nat) : Except IoError Unit × τ :=
  if h : start < frames.length then
    let stop := (group frames start h).1
    let total := (group frames start h).2
    if total > 0 then
      match writeData quic q ((frames.take stop).drop start) total with
      | (.error e, q) => (.error e, q)
      | (.ok (), q) => writeWarpFrames frames q stop
    else writeWarpFrames frames q stop
  else (.ok (), q)
termination_by frames.length - start
decreasing_by
  · have := lt_group h
    omega
  · have := lt_group h
    omega

/-- What a group is: its frames lie between `stop` and its end, and have the bytes added. -/
theorem groupEnd_spec (frames : List Bytes) (stop total : Nat) (hstop : stop ≤ frames.length) :
    (groupEnd frames stop total).1 ≤ frames.length ∧
    (groupEnd frames stop total).2 =
      total + ((frames.take (groupEnd frames stop total).1).drop stop).flatten.length := by
  fun_induction groupEnd frames stop total with
  | case1 stop total h hle ih =>
    obtain ⟨hend, htotal⟩ := ih h
    refine ⟨hend, ?_⟩
    have hmore := le_groupEnd frames (stop + 1) (total + frames[stop].length)
    have hcut : (frames.take (groupEnd frames (stop + 1) (total + frames[stop].length)).1).drop stop =
        frames[stop] :: (frames.take
          (groupEnd frames (stop + 1) (total + frames[stop].length)).1).drop (stop + 1) := by
      rw [List.drop_eq_getElem_cons (by rw [List.length_take]; omega), List.getElem_take]
    rw [hcut, List.flatten_cons, List.length_append]
    omega
  | case2 stop total h => exact ⟨hstop, by simp⟩
  | case3 stop total h => exact ⟨hstop, by simp⟩

theorem group_spec {frames : List Bytes} {start : Nat} (h : start < frames.length) :
    (group frames start h).1 ≤ frames.length ∧
    (group frames start h).2 =
      ((frames.take (group frames start h).1).drop start).flatten.length := by
  obtain ⟨hend, htotal⟩ := groupEnd_spec frames start 0 (Nat.le_of_lt h)
  unfold group
  split
  · refine ⟨h, ?_⟩
    show frames[start].length = _
    rw [List.drop_eq_getElem_cons (by rw [List.length_take]; omega), List.getElem_take,
      List.drop_of_length_le (by rw [List.length_take]; omega), List.flatten_singleton]
  · exact ⟨hend, by omega⟩

/-- The bytes of a group: at most the cap, or those of its only frame. -/
theorem group_le {frames : List Bytes} {start N : Nat} (h : start < frames.length)
    (hcap : MAX_DATA_FRAME ≤ N) (hsize : ∀ frame ∈ frames, frame.length ≤ N) :
    (group frames start h).2 ≤ N := by
  have hbound : ∀ stop total, total ≤ MAX_DATA_FRAME →
      (groupEnd frames stop total).2 ≤ MAX_DATA_FRAME := by
    intro stop total htotal
    fun_induction groupEnd frames stop total with
    | case1 stop total h hle ih => exact ih hle
    | case2 => exact htotal
    | case3 => exact htotal
  unfold group
  split
  · exact hsize _ (List.getElem_mem h)
  · exact Nat.le_trans (hbound start 0 (Nat.zero_le _)) hcap

/-- **One group is one DATA frame.** -/
theorem writeData_ok (hquic : quic.Lawful) (q : τ) (frames : List Bytes)
    (h : frames.flatten.length < 2 ^ 62) :
    ∃ q', writeData quic q frames frames.flatten.length = (.ok (), q') ∧
      quic.sent q' = quic.sent q ++ encode [dataFrame frames.flatten h] := by
  obtain ⟨hlen, htake⟩ := take_dataHeader (List.replicate 16 0) h
  obtain ⟨q₁, hok₁, hsent₁⟩ := hquic.writeAll q (varint FRAME_DATA ++ varint frames.flatten.length)
  obtain ⟨q₂, hok₂, hsent₂⟩ := hquic.writeAllChunks q₁ frames
  refine ⟨q₂, ?_, ?_⟩
  · unfold writeData
    dsimp only
    rw [hlen, htake, hok₁]
    exact hok₂
  · rw [hsent₂, hsent₁, encode_cons, encode_nil, List.append_nil, List.append_assoc]
    rfl

theorem writeGroup_ok (hquic : quic.Lawful) {frames : List Bytes}
    (hsize : ∀ frame ∈ frames, frame.length < 2 ^ 62) (q : τ) {start : Nat}
    (h : start < frames.length) :
    ∃ hlt : ((frames.take (group frames start h).1).drop start).flatten.length < 2 ^ 62,
    ∃ q', writeData quic q ((frames.take (group frames start h).1).drop start)
        (group frames start h).2 = (.ok (), q') ∧
      quic.sent q' = quic.sent q ++ encode [dataFrame _ hlt] := by
  have htotal := (group_spec h).2
  have hle := @group_le frames start (2 ^ 62 - 1) h (by decide) fun f hf =>
    Nat.le_sub_one_of_lt (hsize f hf)
  have hlt : ((frames.take (group frames start h).1).drop start).flatten.length < 2 ^ 62 := by
    omega
  rw [htotal]
  exact ⟨hlt, writeData_ok quic hquic q _ hlt⟩

/-- A group and what is behind it. -/
theorem flatten_group {frames : List Bytes} {start : Nat} (h : start < frames.length) :
    ((frames.take (group frames start h).1).drop start).flatten ++
      (frames.drop (group frames start h).1).flatten = (frames.drop start).flatten := by
  have hlt := lt_group h
  rw [← List.flatten_append]
  congr 1
  have hback : frames.drop (group frames start h).1 =
      (frames.drop start).drop ((group frames start h).1 - start) := by
    rw [List.drop_drop]
    congr 1
    omega
  rw [List.drop_take, hback, List.take_append_drop]

/-- **The groups carry the frames**, whatever the cuts between them. -/
theorem writeWarpFrames_ok (hquic : quic.Lawful) {frames : List Bytes}
    (hsize : ∀ frame ∈ frames, frame.length < 2 ^ 62) (q : τ) (start : Nat) :
    ∃ q' sentFrames, writeWarpFrames quic frames q start = (.ok (), q') ∧
      quic.sent q' = quic.sent q ++ encode sentFrames ∧
      dataOf sentFrames = (frames.drop start).flatten := by
  fun_induction writeWarpFrames quic frames q start with
  | case1 q start h stop total hpos e q' herr =>
    obtain ⟨hlt, q'', hok, -⟩ := writeGroup_ok quic hquic hsize q h
    rw [hok] at herr
    cases herr
  | case2 q start h stop total hpos q' hwrote ih =>
    obtain ⟨hlt, q'', hok, hsent⟩ := writeGroup_ok quic hquic hsize q h
    obtain ⟨-, rfl⟩ := Prod.mk.inj (hwrote.symm.trans hok)
    obtain ⟨t, sentFrames, hrest, hsent', hdata⟩ := ih
    refine ⟨t, dataFrame _ hlt :: sentFrames, hrest, ?_, ?_⟩
    · rw [hsent', hsent, encode_cons, encode_cons, encode_nil]
      simp only [List.append_assoc, List.nil_append]
    · rw [dataOf_cons, hdata]
      exact flatten_group h
  | case3 q start h stop total hzero ih =>
    obtain ⟨t, sentFrames, hrest, hsent', hdata⟩ := ih
    refine ⟨t, sentFrames, hrest, hsent', ?_⟩
    have hnil : ((frames.take stop).drop start).flatten = [] := by
      apply List.eq_nil_of_length_eq_zero
      have htotal : total = ((frames.take stop).drop start).flatten.length := (group_spec h).2
      omega
    rw [hdata, ← flatten_group h]
    show _ = ((frames.take stop).drop start).flatten ++ _
    rw [hnil, List.nil_append]
  | case4 q start h =>
    refine ⟨q, [], rfl, by simp, ?_⟩
    rw [List.drop_of_length_le (Nat.le_of_not_lt h)]
    rfl

end Warp

/-! ## Both variants -/

/-- An upstream in its state. -/
inductive UpstreamWrite (σ τ : Type) where
  | direct (s : σ)
  | warp (q : τ)

section Both

variable {σ τ : Type} (tcp : OwnedWriteHalf σ) (quic : SendStream τ)

/-- `UpstreamWrite::write_frames`. -/
def writeFrames (frames : List Bytes) :
    UpstreamWrite σ τ → Except IoError Unit × UpstreamWrite σ τ
  | .direct s =>
    let (result, s) := writeTcpFrames tcp s frames
    (result, .direct s)
  | .warp q =>
    let (result, q) := writeWarpFrames quic frames q 0
    (result, .warp q)

/-- Both variants return `Ok`, the TCP stream carries the bytes of the frames, and the DATA frames on
    the QUIC stream carry the same bytes. -/
def Agree (frames : List Bytes) (s : σ) (q : τ) : Prop :=
  (∃ s', writeFrames tcp quic frames (.direct s) = (.ok (), .direct s') ∧
    tcp.sent s' = tcp.sent s ++ frames.flatten) ∧
  (∃ q' wire, writeFrames tcp quic frames (.warp q) = (.ok (), .warp q') ∧
    quic.sent q' = quic.sent q ++ wire ∧ decodeData wire = some frames.flatten)

/-- **When both upstreams write the same bytes**, for every pattern of partial writes and every list of
    up to `MAX_WRITE_IOV` frames, which is what `drainLoop` keeps its runs to: exactly when there is at
    most one frame or the last one has a byte.  A frame of `2 ^ 62` bytes fits no varint, and no memory. -/
theorem write_frames_agree_iff (htcp : tcp.Lawful) (hquic : quic.Lawful) {frames : List Bytes}
    (hlen : frames.length ≤ MAX_WRITE_IOV) (hsize : ∀ frame ∈ frames, frame.length < 2 ^ 62)
    (s : σ) (q : τ) :
    Agree tcp quic frames s q ↔ frames.length ≤ 1 ∨ frames.getLast? ≠ some [] := by
  have hdirect : (∃ s', writeFrames tcp quic frames (.direct s) = (.ok (), .direct s') ∧
      tcp.sent s' = tcp.sent s ++ frames.flatten) ↔
      ∃ s', writeTcpFrames tcp s frames = (.ok (), s') ∧
        tcp.sent s' = tcp.sent s ++ frames.flatten := by
    constructor
    · rintro ⟨s', hok, hsent⟩
      obtain ⟨hr, hs⟩ := Prod.mk.inj hok
      exact ⟨s', Prod.ext hr (UpstreamWrite.direct.inj hs), hsent⟩
    · rintro ⟨s', hok, hsent⟩
      refine ⟨s', ?_, hsent⟩
      rw [writeFrames, hok]
  obtain ⟨q', sentFrames, hok, hsent, hdata⟩ := writeWarpFrames_ok quic hquic hsize q 0
  have hwarp : ∃ q' wire, writeFrames tcp quic frames (.warp q) = (.ok (), .warp q') ∧
      quic.sent q' = quic.sent q ++ wire ∧ decodeData wire = some frames.flatten := by
    refine ⟨q', encode sentFrames, ?_, hsent, ?_⟩
    · rw [writeFrames, hok]
    · rw [decodeData_encode, hdata, List.drop_zero]
  rw [Agree, hdirect, ← writeTcpFrames_iff tcp htcp hlen s]
  exact and_iff_left hwarp

end Both

/-! ## A socket and a QUIC stream -/

/-- A socket whose buffer has room for `k + 1` bytes at a vectored write. -/
def socket (k : Nat) : OwnedWriteHalf Bytes where
  sent s := s
  writeAll s b := (.ok (), s ++ b)
  writeVectored s slices :=
    (.ok (min (k + 1) slices.flatten.length), s ++ slices.flatten.take (k + 1))

theorem socket_lawful (k : Nat) : (socket k).Lawful where
  writeAll s b := ⟨s ++ b, rfl, rfl⟩
  writeVectored s slices := by
    refine ⟨_, _, rfl, Nat.min_le_right .., fun hne => ?_, ?_⟩
    · have := List.length_pos_iff.mpr hne
      omega
    · show s ++ slices.flatten.take (k + 1) = _
      rw [List.take_eq_take_min]
      rfl

/-- A QUIC stream without flow control. -/
def openStream : SendStream Bytes where
  sent q := q
  writeAll q b := (.ok (), q ++ b)
  writeAllChunks q chunks := (.ok (), q ++ chunks.flatten)

theorem openStream_lawful : openStream.Lawful where
  writeAll q b := ⟨q ++ b, rfl, rfl⟩
  writeAllChunks q chunks := ⟨q ++ chunks.flatten, rfl, rfl⟩

/-- An empty frame in the middle, and two bytes at a time. -/
theorem write_frames_agree_demo : Agree (socket 1) openStream [[1, 2, 3], [], [4]] [] [] :=
  (write_frames_agree_iff (socket 1) openStream (socket_lawful 1) openStream_lawful (by decide)
    (by decide) [] []).mpr (.inr (by decide))

/-- **The defect.**  Frame 1 is empty and waits for frame 0; the actor hands both over in one run.  The
    direct variant fails after the last byte, the WARP variant does not. -/
theorem empty_last_frame_fails :
    (run (step fun _ => false) (new 0 0) [.recv 1 (.frame 1 []), .recv 2 (.frame 0 [7])]).map
      UploadActor.writes = some [([[7], []], false)] ∧
    writeFrames (socket 8) openStream [[7], []] (.direct []) = (.error .writeZero, .direct [7]) ∧
    writeFrames (socket 8) openStream [[7], []] (.warp []) = (.ok (), .warp [0, 1, 7]) ∧
    ¬ Agree (socket 8) openStream [[7], []] [] [] := by
  have hslices : ioSlices [[7], []] 0 0 = [[7], []] ∧ ioSlices [[7], []] 1 0 = [[]] := by decide
  have hcursor : advance [[7], []] 1 0 0 = (1, 0) := by
    simp [advance]
  have hdirect : writeFrames (socket 8) openStream [[7], []] (.direct []) =
      (.error .writeZero, .direct [7]) := by
    simp [writeFrames, writeTcpFrames, writeVectoredAll, hslices, hcursor, socket]
  have hgroup : groupEnd [[7], []] 0 0 = (2, 1) := by
    simp [groupEnd, MAX_DATA_FRAME]
  have hwarp : writeFrames (socket 8) openStream [[7], []] (.warp []) =
      (.ok (), .warp [0, 1, 7]) := by
    simp [writeFrames, writeWarpFrames, group, hgroup, writeData, openStream, dataHeader,
      putVarintSlice, varintLen, copyFromSlice, FRAME_DATA]
  refine ⟨by decide +kernel, hdirect, hwarp, ?_⟩
  rintro ⟨⟨s', hok, -⟩, -⟩
  rw [hdirect] at hok
  cases hok

end Httproxy.Upstream
