/-
  The rewriting of a request's head as it is done IN PLACE (`strip_proxy_headers`,
  `rewrite_request_line` and `write_request_line` in `src/client/proxy.rs`).

  `Proxy` says what the two functions leave in the buffer.  Here are the moves by which they get it
  there, with every index checked.

  1. **Program** — `stripInPlace` copies the kept lines over the head and moves the body up;
     `rewriteInPlace` either moves the rest of the buffer up and writes the new request line in front
     (`shortLine`, when it is not longer than the old one), or splits the buffer behind the old line
     and joins the new one to the rest (`longLine`).

  2. **Specification** — a header line is kept unless the header it belongs to is one of the proxy's
     (`headerOf`, `keptHeaders`): its own, or for a line that continues others the last header before.

  3. **Refinement** — `stripInPlace_eq` and `rewriteInPlace_eq`: no index is out of range, and the
     buffer is the one that `Proxy` has.  The two ways to write the line are the same
     (`shortLine_eq_longLine`).

  The theorem is `head_rewriting_is_splice`.
-/
import Httproxy.Client.Credentials
import Httproxy.Lib.Slice

namespace Httproxy.Proxy

open Bytes Text Slice

/-! ## Program -/

/-- The loop of `strip_proxy_headers`: the lines from `cursor` on, with what is kept of those before. -/
def stripLoop (head : Bytes) (cursor : Nat) (dropping : Bool) (kept : Bytes) : Bytes :=
  if cursor < head.length then
    let rest := head.drop cursor
    match rest.idxOf? 10 with
    | none => kept ++ rest
    | some rel =>
      let lineEnd := cursor + rel + 1
      let line := slice head cursor lineEnd
      if line.head? = some 32 ∨ line.head? = some 9 then
        stripLoop head lineEnd dropping (if dropping then kept else kept ++ line)
      else
        let dropping := isProxyOnlyHeader line
        stripLoop head lineEnd dropping (if dropping then kept else kept ++ line)
  else kept
termination_by head.length - cursor

/-- `strip_proxy_headers`: its result, and the buffer as it is left. -/
def stripInPlace (buf : Bytes) (headerLen : Nat) : Option (Nat × Bytes) := do
  let head ← range buf 0 (min headerLen buf.length)
  match head.idxOf? 10 with
  | none => some (headerLen, buf)
  | some pos =>
    let kept := stripLoop head (pos + 1) false (head.take (pos + 1))
    if kept.length = head.length then some (headerLen, buf)
    else
      let newLen := kept.length
      let buf ← copyFrom buf 0 kept
      if buf.length > headerLen then
        let buf ← copyWithin buf headerLen buf.length newLen
        let tailLen := buf.length - headerLen
        some (newLen, buf.take (newLen + tailLen))
      else some (newLen, buf.take newLen)

/-- `write_request_line`, into `dst`. -/
def writeRequestLine (dst method originPath version : Bytes) : Option Bytes := do
  let dst ← copyFrom dst 0 method
  let pos := method.length
  let dst ← put dst pos 32
  let pos := pos + 1
  let dst ← copyFrom dst pos originPath
  let pos := pos + originPath.length
  let dst ← put dst pos 32
  let pos := pos + 1
  let dst ← copyFrom dst pos version
  let pos := pos + version.length
  let dst ← put dst pos 13
  put dst (pos + 1) 10

/-- The new request line. -/
def newRequestLine (method originPath version : Bytes) : Bytes :=
  method ++ [32] ++ originPath ++ [32] ++ version ++ [13, 10]

/-- The branch of `rewrite_request_line` for a line that is not longer than the old one. -/
def shortLine (buf : Bytes) (oldLineLen : Nat) (method originPath version : Bytes) :
    Option Bytes := do
  let newLineLen := method.length + 1 + originPath.length + 1 + version.length + 2
  let total := buf.length
  let delta := oldLineLen - newLineLen
  let buf ← copyWithin buf oldLineLen total newLineLen
  let front ← range buf 0 newLineLen
  let front ← writeRequestLine front method originPath version
  let buf := front ++ buf.drop newLineLen
  some (buf.take (total - delta))

/-- The branch for a longer one: `split_off`, `put_slice` and `unsplit`. -/
def longLine (buf : Bytes) (oldLineLen : Nat) (method originPath version : Bytes) :
    Option Bytes := do
  let newLine := newRequestLine method originPath version
  let rest ← range buf oldLineLen buf.length
  some (newLine ++ rest)

/-- `rewrite_request_line`: its result, and the buffer as it is left. -/
def rewriteInPlace (buf : Bytes) (headerLen : Nat) (method originPath : Bytes) :
    Option (Except Anyhow Unit × Bytes) := do
  let scanned ← range buf 0 (min headerLen buf.length)
  match scanned.idxOf? 10 with
  | none => some (.error ⟨"request line has no newline", []⟩, buf)
  | some lineEnd =>
    let oldLineLen := lineEnd + 1
    let firstLine ← range buf 0 lineEnd
    if validUtf8 firstLine = false then
      some (.error ⟨"request line is not valid UTF-8", []⟩, buf)
    else
      let trimmed := firstLine.rdropWhile (· == 13)
      match rsplitOnce 32 trimmed with
      | none => some (.error ⟨"malformed request line: ", trimmed⟩, buf)
      | some (_, version) =>
        if version.length > MAX_VERSION_LEN then
          some (.error ⟨"unsupported HTTP version: ", version⟩, buf)
        else
          let newLineLen := method.length + 1 + originPath.length + 1 + version.length + 2
          let buf ←
            if newLineLen ≤ oldLineLen then shortLine buf oldLineLen method originPath version
            else longLine buf oldLineLen method originPath version
          some (.ok (), buf)

/-! ## Specification -/

/-- The header that the last line of `upTo` belongs to. -/
def headerOf (upTo : List Bytes) : Option Bytes := (upTo.filter fun line => !continues line).getLast?

/-- The line at `i` belongs to one of the proxy's headers. -/
def ofProxy (headers : List Bytes) (i : Nat) : Bool :=
  (headerOf (headers.take (i + 1))).any isProxyOnlyHeader

/-- The header lines, in order, without those of the proxy's headers. -/
def keptHeaders (headers : List Bytes) : List Bytes :=
  (headers.zipIdx.filter fun p => !ofProxy headers p.2).map Prod.fst

/-- The version of a request line: what follows its last space, without the end of the line. -/
def IsVersion (requestLine version : Bytes) : Prop :=
  ∃ text before, requestLine = text ++ [10] ∧ 32 ∉ version ∧
    text.rdropWhile (· == 13) = before ++ 32 :: version

/-! ## The two branches of `rewrite_request_line` -/

theorem length_newRequestLine (method originPath version : Bytes) :
    (newRequestLine method originPath version).length =
      method.length + 1 + originPath.length + 1 + version.length + 2 := by
  unfold newRequestLine
  simp only [List.length_append, List.length_cons, List.length_nil]

/-- `write_request_line` fills its slice, one piece behind the other. -/
theorem writeRequestLine_eq {dst method originPath version : Bytes}
    (h : dst.length = method.length + 1 + originPath.length + 1 + version.length + 2) :
    writeRequestLine dst method originPath version =
      some (newRequestLine method originPath version) := by
  -- at each piece the slice is what is written, and its old bytes behind that
  have piece : ∀ {done src : Bytes} {n : Nat}, n = done.length → n + src.length ≤ dst.length →
      copyFrom (done ++ dst.drop n) n src = some (done ++ src ++ dst.drop (n + src.length)) := by
    intro done src n hn hle
    rw [hn, copyFrom_done (by rw [List.length_drop]; omega), List.drop_drop]
  have byte : ∀ {done : Bytes} {n : Nat} (x : UInt8), n = done.length → n + 1 ≤ dst.length →
      put (done ++ dst.drop n) n x = some (done ++ [x] ++ dst.drop (n + 1)) :=
    fun x hn hle => piece hn hle
  have hmethod := @piece [] method 0 rfl (by omega)
  rw [List.nil_append, List.drop_zero, List.nil_append, Nat.zero_add] at hmethod
  have hsp := @byte method method.length 32 rfl (by omega)
  have hpath := @piece (method ++ [32]) originPath (method.length + 1) (by simp) (by omega)
  have hsp' := @byte (method ++ [32] ++ originPath) (method.length + 1 + originPath.length) 32
    (by simp; omega) (by omega)
  have hversion := @piece (method ++ [32] ++ originPath ++ [32]) version
    (method.length + 1 + originPath.length + 1) (by simp; omega) (by omega)
  have hcr := @byte (method ++ [32] ++ originPath ++ [32] ++ version)
    (method.length + 1 + originPath.length + 1 + version.length) 13 (by simp; omega) (by omega)
  have hlf := @byte (method ++ [32] ++ originPath ++ [32] ++ version ++ [13])
    (method.length + 1 + originPath.length + 1 + version.length + 1) 10 (by simp; omega) (by omega)
  have hfull : dst.drop (method.length + 1 + originPath.length + 1 + version.length + 1 + 1) = [] :=
    List.drop_of_length_le (by omega)
  simp only [writeRequestLine, Option.bind_eq_bind, hmethod, hsp, hpath, hsp', hversion, hcr, hlf,
    hfull, Option.bind_some, List.append_nil, newRequestLine]
  simp

/-- **The long branch is a splice** at the end of the old line. -/
theorem longLine_eq {buf : Bytes} {oldLineLen : Nat} (h : oldLineLen ≤ buf.length)
    (method originPath version : Bytes) :
    longLine buf oldLineLen method originPath version =
      some (newRequestLine method originPath version ++ buf.drop oldLineLen) := by
  rw [longLine, Option.bind_eq_bind, range_length h]
  rfl

/-- **The two branches write the same buffer**, where the short one can be taken. -/
theorem shortLine_eq_longLine {buf : Bytes} {oldLineLen : Nat} {method originPath version : Bytes}
    (hold : oldLineLen ≤ buf.length)
    (hnew : method.length + 1 + originPath.length + 1 + version.length + 2 ≤ oldLineLen) :
    shortLine buf oldLineLen method originPath version =
      longLine buf oldLineLen method originPath version := by
  obtain ⟨n, hn⟩ : ∃ n, method.length + 1 + originPath.length + 1 + version.length + 2 = n := ⟨_, rfl⟩
  obtain ⟨behind, hbehind⟩ : ∃ behind, buf.drop (n + (buf.length - oldLineLen)) = behind := ⟨_, rfl⟩
  rw [hn] at hnew
  -- `copyWithin` leaves `behind` at the end of the buffer; the last `take` cuts it off
  have hfront : (buf.take n).length = n := by
    rw [List.length_take]
    omega
  have hmoved : range (buf.take n ++ buf.drop oldLineLen ++ behind) 0 n = some (buf.take n) := by
    rw [range_zero (by simp only [List.length_append, hfront]; omega), List.append_assoc,
      List.take_left' hfront]
  have hwrite : writeRequestLine (buf.take n) method originPath version =
      some (newRequestLine method originPath version) :=
    writeRequestLine_eq (hfront.trans hn.symm)
  have hrest : (buf.take n ++ buf.drop oldLineLen ++ behind).drop n =
      buf.drop oldLineLen ++ behind := by
    rw [List.append_assoc, List.drop_left' hfront]
  have hcut : (newRequestLine method originPath version ++ (buf.drop oldLineLen ++ behind)).take
      (buf.length - (oldLineLen - n)) =
        newRequestLine method originPath version ++ buf.drop oldLineLen := by
    rw [← List.append_assoc]
    apply List.take_left'
    rw [List.length_append, length_newRequestLine, List.length_drop, hn]
    omega
  rw [longLine_eq hold, shortLine]
  simp only [hn, copyWithin_left hnew hold, hbehind, Option.bind_eq_bind, Option.bind_some, hmoved,
    hwrite, hrest, hcut]

/-- The result with the buffer that is left; a failure leaves it alone. -/
def leaving (buf : Bytes) : Except Anyhow Bytes → Except Anyhow Unit × Bytes
  | .ok buf' => (.ok (), buf')
  | .error e => (.error e, buf)

/-- **`rewriteInPlace` is `rewriteRequestLine`**, and leaves the buffer alone when it fails. -/
theorem rewriteInPlace_eq (buf : Bytes) (headerLen : Nat) (method originPath : Bytes) :
    rewriteInPlace buf headerLen method originPath =
      some (leaving buf (rewriteRequestLine buf headerLen method originPath)) := by
  have hscan : range buf 0 (min headerLen buf.length) = some (buf.take headerLen) := by
    rw [range_zero (Nat.min_le_right _ _), ← List.take_eq_take_min]
  rw [rewriteInPlace, rewriteRequestLine, Option.bind_eq_bind, hscan, Option.bind_some]
  cases hend : (buf.take headerLen).idxOf? 10 with
  | none => rfl
  | some lineEnd =>
    have hlt : lineEnd < buf.length := by
      obtain ⟨hlt, -⟩ := List.idxOf?_eq_some_iff.mp hend
      rw [List.length_take] at hlt
      omega
    dsimp only
    rw [range_zero (Nat.le_of_lt hlt), Option.bind_some]
    split
    · rfl
    · cases rsplitOnce 32 ((buf.take lineEnd).rdropWhile (· == 13)) with
      | none => rfl
      | some parts =>
        obtain ⟨before, version⟩ := parts
        dsimp only
        split
        · rfl
        · split
          · rename_i hshort
            rw [shortLine_eq_longLine hlt hshort, longLine_eq hlt]
            rfl
          · rw [longLine_eq hlt]
            rfl

/-! ## The loop of `strip_proxy_headers` -/

/-- Up to its first newline, a text is one line. -/
theorem isLine_take {s : Bytes} {i : Nat} (h : s.idxOf? 10 = some i) : IsLine (s.take (i + 1)) := by
  obtain ⟨hlt, hi, hbefore⟩ := List.idxOf?_eq_some_iff.mp h
  refine ⟨s.take i, ?_, ?_⟩
  · rw [List.take_succ_eq_append_getElem hlt, hi]
  · intro hmem
    obtain ⟨k, hk, hten⟩ := List.getElem_of_mem hmem
    rw [List.length_take] at hk
    rw [List.getElem_take] at hten
    exact hbefore k (by omega) hten

theorem lines_idxOf? {s : Bytes} {i : Nat} (h : s.idxOf? 10 = some i) :
    lines s = s.take (i + 1) :: lines (s.drop (i + 1)) := by
  conv_lhs => rw [← List.take_append_drop (i + 1) s]
  exact lines_cons (isLine_take h) _

/-- Without a newline, a text is its only line. -/
theorem lines_no_newline {s : Bytes} (hne : s ≠ []) (h : 10 ∉ s) : lines s = [s] := by
  induction s with
  | nil => exact absurd rfl hne
  | cons b s ih =>
    obtain ⟨hb, hs⟩ : (10 : UInt8) ≠ b ∧ 10 ∉ s := by simpa using h
    rw [lines, if_neg hb.symm]
    cases s with
    | nil => rfl
    | cons c s => rw [ih (by simp) hs]

/-- One turn: a line with its newline is kept or not. -/
theorem keepLines_cons {line : Bytes} (h : IsLine line) (dropping : Bool) (more : List Bytes) :
    keepLines dropping (line :: more) =
      (if (if continues line then dropping else isProxyOnlyHeader line) then [] else line) ++
        keepLines (if continues line then dropping else isProxyOnlyHeader line) more := by
  rw [keepLines, if_neg (not_not.mpr h.newline_mem)]
  split <;> rfl

/-- The loop takes one line after the other, up to the end of the head. -/
theorem stripLoop_eq (head : Bytes) (cursor : Nat) (dropping : Bool) (kept : Bytes) :
    stripLoop head cursor dropping kept =
      kept ++ keepLines dropping (lines (head.drop cursor)) := by
  have hline : ∀ {cursor rel : Nat}, slice head cursor (cursor + rel + 1) =
      (head.drop cursor).take (rel + 1) := by
    intro cursor rel
    rw [slice, List.drop_take]
    congr 1
    omega
  have hmore : ∀ {cursor rel : Nat},
      head.drop (cursor + rel + 1) = (head.drop cursor).drop (rel + 1) := by
    intro cursor rel
    rw [List.drop_drop, Nat.add_assoc]
  fun_induction stripLoop head cursor dropping kept with
  | case1 cursor dropping kept hlt rest hnone =>
    have hno : 10 ∉ rest := List.idxOf?_eq_none_iff.mp hnone
    have hne : rest ≠ [] := List.ne_nil_of_length_pos (by rw [List.length_drop]; omega)
    rw [show head.drop cursor = rest from rfl, lines_no_newline hne hno, keepLines, if_pos hno]
  | case2 cursor dropping kept hlt rest rel hrel lineEnd line hcont ih =>
    have hcontinues : continues line = true := by simpa [continues] using hcont
    rw [dite_eq_ite] at ih
    rw [ih, show head.drop cursor = rest from rfl, lines_idxOf? hrel,
      keepLines_cons (isLine_take hrel), show rest.take (rel + 1) = line from hline.symm,
      if_pos hcontinues, show head.drop lineEnd = rest.drop (rel + 1) from hmore]
    cases dropping <;> simp
  | case3 cursor dropping kept hlt rest rel hrel lineEnd line hcont d ih =>
    have hcontinues : ¬ continues line = true := by simpa [continues] using hcont
    rw [dite_eq_ite] at ih
    rw [ih, show head.drop cursor = rest from rfl, lines_idxOf? hrel,
      keepLines_cons (isLine_take hrel), show rest.take (rel + 1) = line from hline.symm,
      if_neg hcontinues, show head.drop lineEnd = rest.drop (rel + 1) from hmore]
    show (if isProxyOnlyHeader line then kept else kept ++ line) ++
      keepLines (isProxyOnlyHeader line) _ = _
    cases isProxyOnlyHeader line <;> simp
  | case4 cursor dropping kept hge =>
    rw [List.drop_of_length_le (Nat.le_of_not_lt hge)]
    exact (List.append_nil _).symm

theorem keepLines_length_le (dropping : Bool) (ls : List Bytes) :
    (keepLines dropping ls).length ≤ ls.flatten.length := by
  induction ls generalizing dropping with
  | nil => exact Nat.le_refl _
  | cons line ls ih =>
    -- a line is kept whole or not at all
    have hkeep : ∀ d : Bool, (if d then [] else line).length ≤ line.length := by
      intro d
      cases d
      · exact Nat.le_refl _
      · exact Nat.zero_le _
    rw [List.flatten_cons, List.length_append]
    unfold keepLines
    split
    · omega
    · split
      · rw [List.length_append]
        have hrest := ih dropping
        have hthis := hkeep dropping
        omega
      · rw [List.length_append]
        have hrest := ih (isProxyOnlyHeader line)
        have hthis := hkeep (isProxyOnlyHeader line)
        omega

/-- The kept lines over the head, and the body moved up to them. -/
theorem overwriteHead {buf kept : Bytes} {headerLen : Nat}
    (h : kept.length ≤ min headerLen buf.length) :
    ((copyFrom buf 0 kept).bind fun buf =>
      if buf.length > headerLen then
        (copyWithin buf headerLen buf.length kept.length).bind fun buf =>
          some (kept.length, buf.take (kept.length + (buf.length - headerLen)))
      else some (kept.length, buf.take kept.length)) =
    some (kept.length, kept ++ buf.drop headerLen) := by
  obtain ⟨copied, hcopied⟩ : ∃ copied, kept ++ buf.drop kept.length = copied := ⟨_, rfl⟩
  have hlen : copied.length = buf.length := by
    rw [← hcopied, List.length_append, List.length_drop]
    omega
  have hfront : copied.take kept.length = kept := by rw [← hcopied, List.take_left]
  -- the kept lines are no longer than the head, so they leave the body alone
  have hbody : copied.drop headerLen = buf.drop headerLen := by
    rw [← hcopied, List.drop_append, List.drop_of_length_le (by omega), List.nil_append,
      List.drop_drop]
    congr 1
    omega
  rw [copyFrom_zero (by omega), hcopied, Option.bind_some]
  split
  · rename_i hmore
    rw [copyWithin_left (by omega) (Nat.le_of_lt hmore), Option.bind_some, hfront, hbody]
    have hcut : (kept ++ buf.drop headerLen ++
        copied.drop (kept.length + (copied.length - headerLen))).length = copied.length := by
      rw [List.length_append, List.length_append, List.length_drop, List.length_drop]
      omega
    rw [hcut, List.take_left' (by rw [List.length_append, List.length_drop]; omega)]
  · rw [hfront, List.drop_of_length_le (show buf.length ≤ headerLen by omega), List.append_nil]

/-- **`stripInPlace` is `stripProxyHeaders`**, for every buffer and every length. -/
theorem stripInPlace_eq (buf : Bytes) (headerLen : Nat) :
    stripInPlace buf headerLen = some (stripProxyHeaders buf headerLen) := by
  have hhead : range buf 0 (min headerLen buf.length) = some (buf.take headerLen) := by
    rw [range_zero (Nat.min_le_right _ _), ← List.take_eq_take_min]
  rw [stripInPlace, stripProxyHeaders, Option.bind_eq_bind, hhead, Option.bind_some]
  obtain ⟨head, hh⟩ : ∃ head, buf.take headerLen = head := ⟨_, rfl⟩
  have hlen : head.length = min headerLen buf.length := by rw [← hh, List.length_take]
  rw [hh]
  dsimp only
  cases hpos : head.idxOf? 10 with
  | none =>
    rw [if_pos (List.idxOf?_eq_none_iff.mp hpos)]
  | some pos =>
    have hmem : ¬ (10 ∉ head) := by
      rw [← List.idxOf?_eq_none_iff, hpos]
      simp
    rw [if_neg hmem, lines_idxOf? hpos]
    dsimp only
    rw [stripLoop_eq]
    obtain ⟨kept, hkept⟩ : ∃ kept,
      head.take (pos + 1) ++ keepLines false (lines (head.drop (pos + 1))) = kept := ⟨_, rfl⟩
    have hle : kept.length ≤ head.length := by
      have hlines := keepLines_length_le false (lines (head.drop (pos + 1)))
      rw [lines_flatten] at hlines
      have hcut := congrArg List.length (List.take_append_drop (pos + 1) head)
      rw [List.length_append] at hcut
      rw [← hkept, List.length_append]
      omega
    rw [hkept]
    split
    · rfl
    · exact overwriteHead (hlen ▸ hle)

/-! ## The lines that are kept -/

theorem headerOf_snoc (upTo : List Bytes) (line : Bytes) :
    headerOf (upTo ++ [line]) = if continues line then headerOf upTo else some line := by
  unfold headerOf
  rw [List.filter_append]
  cases hc : continues line <;> simp [hc]

/-- The loop's `dropping` is that the last header so far is one of the proxy's. -/
theorem keptLines_spec (before headers : List Bytes) :
    keptLines ((headerOf before).any isProxyOnlyHeader) headers =
      ((headers.zipIdx before.length).filter fun p => !ofProxy (before ++ headers) p.2).map
        Prod.fst := by
  induction headers generalizing before with
  | nil => rfl
  | cons line headers ih =>
    -- the next value of `dropping`
    have hdropping : (if continues line then (headerOf before).any isProxyOnlyHeader
        else isProxyOnlyHeader line) = (headerOf (before ++ [line])).any isProxyOnlyHeader := by
      rw [headerOf_snoc]
      cases continues line <;> rfl
    have hall : before ++ line :: headers = before ++ [line] ++ headers := by simp
    -- the line itself belongs to the last header up to it
    have hhere : ofProxy (before ++ line :: headers) before.length =
        (headerOf (before ++ [line])).any isProxyOnlyHeader := by
      rw [ofProxy, hall, List.take_left' (by simp)]
    have hrest := ih (before ++ [line])
    rw [keptLines, List.zipIdx_cons, List.filter_cons]
    dsimp only
    rw [hdropping, hrest, hhere, hall, List.length_append, List.length_singleton]
    cases (headerOf (before ++ [line])).any isProxyOnlyHeader <;> rfl

theorem keptLines_eq (headers : List Bytes) : keptLines false headers = keptHeaders headers :=
  keptLines_spec [] headers

/-! ## The splice -/

/-- The first line of the stripped buffer is still the old request line. -/
theorem rewriteRequestLine_splice {requestLine kept rest method originPath buf' : Bytes}
    (hline : IsLine requestLine)
    (h : rewriteRequestLine (requestLine ++ kept ++ rest) (requestLine ++ kept).length method
      originPath = .ok buf') :
    ∃ version, IsVersion requestLine version ∧
      buf' = newRequestLine method originPath version ++ kept ++ rest := by
  obtain ⟨text, rfl, htext⟩ := hline
  obtain ⟨before, version, hsplit, rfl⟩ := rewriteRequestLine_version htext h
  refine ⟨version, ⟨text, before, rfl, rsplitOnce_not_mem hsplit, rsplitOnce_eq_some hsplit⟩, ?_⟩
  rw [← List.append_assoc]
  rfl

/-- **Head rewriting is an exact splice.**  The head is made of a request line and header lines.
    `strip_proxy_headers` leaves the request line, the header lines that are not the proxy's, and the
    body, and returns the length of the first two; `rewrite_request_line` then puts the new request
    line in the place of the old one, or leaves the buffer alone.  Where it can choose between its two
    branches, they give the same buffer. -/
theorem head_rewriting_is_splice (buf : Bytes) (headerLen : Nat) (method originPath : Bytes)
    (hlen : headerLen ≤ buf.length) (hend : (buf.take headerLen).getLast? = some 10) :
    (∃ requestLine headers, buf.take headerLen = requestLine ++ headers.flatten ∧
      IsLine requestLine ∧ (∀ line ∈ headers, IsLine line) ∧
      ∃ newLen stripped, stripInPlace buf headerLen = some (newLen, stripped) ∧
        newLen = (requestLine ++ (keptHeaders headers).flatten).length ∧
        stripped = requestLine ++ (keptHeaders headers).flatten ++ buf.drop headerLen ∧
        ∃ result left, rewriteInPlace stripped newLen method originPath = some (result, left) ∧
          (result = .ok () → ∃ version, IsVersion requestLine version ∧
            left = newRequestLine method originPath version ++ (keptHeaders headers).flatten ++
              buf.drop headerLen)) ∧
    (∀ buf headerLen e left, rewriteInPlace buf headerLen method originPath = some (.error e, left) →
      left = buf) ∧
    ∀ buf oldLineLen version, oldLineLen ≤ buf.length →
      method.length + 1 + originPath.length + 1 + version.length + 2 ≤ oldLineLen →
      shortLine buf oldLineLen method originPath version =
        longLine buf oldLineLen method originPath version := by
  refine ⟨?_, ?_, fun buf oldLineLen version => shortLine_eq_longLine⟩
  · have hall := isLine_of_mem_lines hend
    have hflat := lines_flatten (buf.take headerLen)
    cases hlines : lines (buf.take headerLen) with
    | nil =>
      rw [hlines] at hflat
      rw [← hflat] at hend
      cases hend
    | cons requestLine headers =>
      rw [hlines] at hall hflat
      have hline := hall requestLine List.mem_cons_self
      have hheaders : ∀ line ∈ headers, IsLine line :=
        fun line hmem => hall line (List.mem_cons_of_mem _ hmem)
      have hkept : keepLines false headers = (keptHeaders headers).flatten := by
        rw [keepLines_eq hheaders, keptLines_eq]
      have hstrip := stripProxyHeaders_eq hlen hlines hline hheaders
      rw [hkept] at hstrip
      refine ⟨requestLine, headers, hflat.symm, hline, hheaders, _, _,
        by rw [stripInPlace_eq, hstrip], rfl, rfl, ?_⟩
      rw [rewriteInPlace_eq]
      cases hrewrite : rewriteRequestLine
        (requestLine ++ (keptHeaders headers).flatten ++ buf.drop headerLen)
        (requestLine ++ (keptHeaders headers).flatten).length method originPath with
      | error e => exact ⟨_, _, rfl, by rintro ⟨⟩⟩
      | ok buf' => exact ⟨_, _, rfl, fun _ => rewriteRequestLine_splice hline hrewrite⟩
  · intro buf headerLen e left h
    rw [rewriteInPlace_eq] at h
    cases hrewrite : rewriteRequestLine buf headerLen method originPath with
    | error e' =>
      rw [hrewrite] at h
      exact (Prod.mk.inj (Option.some.inj h)).2.symm
    | ok buf' =>
      rw [hrewrite] at h
      cases h

/-- The head with credentials and one byte behind it, rewritten for the path `/a/b`. -/
theorem head_rewriting_is_splice_demo :
    stripInPlace (DEMO_HEAD ++ [1]) DEMO_HEAD.length =
        some (26, DEMO_HEAD.take 24 ++ [13, 10] ++ [1]) ∧
      ∃ requestLine headers newLen stripped,
        (DEMO_HEAD ++ [1]).take DEMO_HEAD.length = requestLine ++ headers.flatten ∧
        stripInPlace (DEMO_HEAD ++ [1]) DEMO_HEAD.length = some (newLen, stripped) ∧
        stripped = requestLine ++ (keptHeaders headers).flatten ++
          (DEMO_HEAD ++ [1]).drop DEMO_HEAD.length :=
  let ⟨requestLine, headers, hhead, _, _, newLen, stripped, hstrip, _, hleft, _⟩ :=
    (head_rewriting_is_splice (DEMO_HEAD ++ [1]) DEMO_HEAD.length [71, 69, 84] [47, 97, 47, 98]
      (by decide) (by decide +kernel)).1
  ⟨by decide +kernel, requestLine, headers, newLen, stripped, hhead, hstrip, hleft⟩

end Httproxy.Proxy
