/-
  Which accepted requests are forwarded (`try_parse_head` and `rewrite_request_line` in
  `src/client/proxy.rs`, `ClientConnectionActor::run` in `src/client/actor/connection.rs`).

  `httparse` decides what a request is; the rewriting looks for the request line in the raw bytes again,
  and takes everything up to the FIRST newline for it.

  1. **Grammar** — `RequestHead` is a head as `httparse` accepts it, well formed by its fields.  Empty
     lines may come before the request line, and count for the length (`Parsers.Httparse`).

  2. **A head without them (`runConnection_forwards`)** — the first line is the request line, so its last
     word is the version, and the new line has it.

  3. **The defect** — the first line of any other head is empty, so it has no version, and the request
     that was accepted is dropped with `malformed request line`.  `CONNECT` skips the whole head and does
     not mind.  `forwarded_iff` is the exact condition.
-/
import Httproxy.Client.HeadSplice

namespace Httproxy.Proxy

open Bytes Text

/-! ## Grammar -/

/-- The end of a line, and an empty line. -/
def IsEol (line : Bytes) : Prop := line = [13, 10] ∨ line = [10]

/-- The bytes of `HTTP/1.`. -/
def HTTP_1 : Bytes := [72, 84, 84, 80, 47, 49, 46]

/-- A complete head as `httparse` accepts it. -/
structure RequestHead where
  emptyLines : List Bytes
  method : Bytes
  target : Bytes
  minor : UInt8
  eol : Bytes
  /-- The header lines, and the empty line behind them. -/
  headers : List Bytes
  emptyLines_eol : ∀ line ∈ emptyLines, IsEol line
  method_token : method ≠ [] ∧ ∀ b ∈ method, 33 ≤ b ∧ b ≤ 126
  target_utf8 : validUtf8 target = true
  target_plain : ∀ b ∈ target, b ≠ 32 ∧ b ≠ 10 ∧ b ≠ 13
  minor_digit : minor = 48 ∨ minor = 49
  eol_eol : IsEol eol
  headers_lines : ∀ line ∈ headers, IsLine line

def RequestHead.version (h : RequestHead) : Bytes := HTTP_1 ++ [h.minor]

/-- The request line, up to its end. -/
def RequestHead.words (h : RequestHead) : Bytes :=
  h.method ++ [32] ++ h.target ++ [32] ++ h.version

def RequestHead.lines (h : RequestHead) : List Bytes :=
  h.emptyLines ++ (h.words ++ h.eol) :: h.headers

def RequestHead.bytes (h : RequestHead) : Bytes := h.lines.flatten

/-- What `httparse` promises: it accepts this grammar only, and returns the length of the head with its
    empty lines. -/
structure Parsers.Httparse (parsers : Parsers) : Prop where
  length_le : ∀ {b p}, parsers.head b = .ok (some p) → p.amt ≤ b.length
  grammar : ∀ {b p}, parsers.head b = .ok (some p) →
    ∃ h : RequestHead, b.take p.amt = h.bytes ∧ p.method = some h.method ∧ p.path = some h.target

/-! ## Lines of a head -/

theorem IsEol.isLine {line : Bytes} (h : IsEol line) : IsLine line := by
  rcases h with rfl | rfl
  · exact ⟨[13], rfl, by decide⟩
  · exact ⟨[], rfl, by decide⟩

theorem RequestHead.version_bytes (h : RequestHead) : ∀ b ∈ h.version, 32 < b ∧ b < 128 := by
  intro b hb
  rcases List.mem_append.mp hb with hb | hb
  · have hall : ∀ b ∈ HTTP_1, 32 < b ∧ b < 128 := by decide +kernel
    exact hall b hb
  · rw [List.mem_singleton] at hb
    rcases h.minor_digit with hm | hm
    · rw [hb, hm]
      decide
    · rw [hb, hm]
      decide

/-- No byte of the request line is a newline or a carriage return. -/
theorem RequestHead.words_plain (h : RequestHead) : ∀ b ∈ h.words, b ≠ 10 ∧ b ≠ 13 := by
  intro b hb
  simp only [words, List.mem_append, List.mem_singleton] at hb
  rcases hb with (((hm | rfl) | ht) | rfl) | hv
  · have := (h.method_token.2 b hm).1
    constructor
    · rintro rfl
      exact absurd this (by decide)
    · rintro rfl
      exact absurd this (by decide)
  · decide
  · exact (h.target_plain b ht).2
  · decide
  · have := (h.version_bytes b hv).1
    constructor
    · rintro rfl
      exact absurd this (by decide)
    · rintro rfl
      exact absurd this (by decide)

theorem RequestHead.line_isLine (h : RequestHead) : IsLine (h.words ++ h.eol) := by
  have hno : 10 ∉ h.words := fun hmem => (h.words_plain 10 hmem).1 rfl
  rcases h.eol_eol with he | he
  · exact ⟨h.words ++ [13], by rw [he]; simp, by simp [hno]⟩
  · exact ⟨h.words, by rw [he], hno⟩

theorem RequestHead.lines_isLine (h : RequestHead) : ∀ line ∈ h.lines, IsLine line := by
  intro line hmem
  rcases List.mem_append.mp hmem with hmem | hmem
  · exact (h.emptyLines_eol line hmem).isLine
  · rcases List.mem_cons.mp hmem with rfl | hmem
    · exact h.line_isLine
    · exact h.headers_lines line hmem

theorem RequestHead.words_utf8 (h : RequestHead) : validUtf8 h.words = true := by
  have hmethod : validUtf8 h.method = true := by
    apply validUtf8_ascii
    intro b hb
    exact UInt8.lt_of_le_of_lt (h.method_token.2 b hb).2 (by decide)
  have hversion : validUtf8 h.version = true := validUtf8_ascii fun b hb => (h.version_bytes b hb).2
  have hsp : validUtf8 [32] = true := validUtf8_ascii fun b hb => by
    rw [List.mem_singleton.mp hb]
    decide
  exact validUtf8_append (validUtf8_append (validUtf8_append (validUtf8_append hmethod hsp)
    h.target_utf8) hsp) hversion

/-- The last word of the request line is the version. -/
theorem RequestHead.split_words (h : RequestHead) :
    rsplitOnce 32 h.words = some (h.method ++ [32] ++ h.target, h.version) := by
  have hno : 32 ∉ h.version := fun hmem => absurd (h.version_bytes 32 hmem).1 (by decide)
  rw [words, List.append_assoc _ [32] h.version]
  exact rsplitOnce_append _ hno

/-- The head begins with an empty line, or with the first letter of its method. -/
theorem RequestHead.begins_empty (h : RequestHead) (rest : Bytes) :
    ([13, 10] <+: h.bytes ++ rest ∨ [10] <+: h.bytes ++ rest) ↔ h.emptyLines ≠ [] := by
  have hbytes : h.bytes = h.emptyLines.flatten ++ ((h.words ++ h.eol) ++ h.headers.flatten) := by
    rw [bytes, lines, List.flatten_append, List.flatten_cons]
  constructor
  · rintro hbegin hnil
    obtain ⟨b, m, hm⟩ := List.exists_cons_of_ne_nil h.method_token.1
    obtain ⟨more, hmore⟩ : ∃ more, h.bytes ++ rest = b :: more := by
      rw [hbytes, hnil, words, hm]
      exact ⟨_, rfl⟩
    -- the bytes of a method are above those of an end of line
    have hge : 33 ≤ b := (h.method_token.2 b (hm ▸ List.mem_cons_self)).1
    rw [hmore, List.cons_prefix_cons, List.cons_prefix_cons] at hbegin
    rcases hbegin with ⟨rfl, -⟩ | ⟨rfl, -⟩
    · exact absurd hge (by decide)
    · exact absurd hge (by decide)
  · intro hne
    obtain ⟨line, more, hcons⟩ := List.exists_cons_of_ne_nil hne
    have hfront : line <+: h.bytes ++ rest := by
      rw [hbytes, hcons, List.flatten_cons, List.append_assoc, List.append_assoc]
      exact List.prefix_append _ _
    rcases h.emptyLines_eol line (hcons ▸ List.mem_cons_self) with rfl | rfl
    · exact .inl hfront
    · exact .inr hfront

/-! ## Rewriting -/

/-- An end of a line is its newline behind what is trimmed off the request line. -/
theorem IsEol.split {line : Bytes} (h : IsEol line) :
    ∃ cr, line = cr ++ [10] ∧ (cr = [] ∨ cr = [13]) := by
  rcases h with rfl | rfl
  · exact ⟨[13], rfl, .inr rfl⟩
  · exact ⟨[], rfl, .inl rfl⟩

theorem cr_plain {cr : Bytes} (hcr : cr = [] ∨ cr = [13]) : 10 ∉ cr ∧ validUtf8 cr = true := by
  rcases hcr with rfl | rfl
  · exact ⟨by simp, validUtf8_ascii (by simp)⟩
  · exact ⟨by decide, validUtf8_ascii (by simp)⟩

theorem RequestHead.trim_words (h : RequestHead) {cr : Bytes} (hcr : cr = [] ∨ cr = [13]) :
    (h.words ++ cr).rdropWhile (· == 13) = h.words := by
  have hwords : h.words.rdropWhile (· == 13) = h.words := by
    have hend : h.words = (h.method ++ [32] ++ h.target ++ [32] ++ HTTP_1) ++ [h.minor] := by
      simp only [words, version, List.append_assoc]
    -- the last byte is a digit, and nothing is trimmed
    rw [hend]
    apply List.rdropWhile_concat_neg
    rcases h.minor_digit with hm | hm <;> simp [hm]
  rcases hcr with rfl | rfl
  · rw [List.append_nil, hwords]
  · rw [List.rdropWhile_concat_pos _ _ _ (by decide), hwords]

/-- The new request line in front of what was behind the old one. -/
theorem rewriteRequestLine_head (h : RequestHead) (kept rest method originPath : Bytes) :
    rewriteRequestLine (h.words ++ h.eol ++ kept ++ rest) (h.words ++ h.eol ++ kept).length method
      originPath = .ok (newRequestLine method originPath h.version ++ (kept ++ rest)) := by
  obtain ⟨cr, hcr, hor⟩ := h.eol_eol.split
  have htext : 10 ∉ h.words ++ cr := by
    rw [List.mem_append, not_or]
    exact ⟨fun hmem => (h.words_plain 10 hmem).1 rfl, (cr_plain hor).1⟩
  have hutf8 := validUtf8_append h.words_utf8 (cr_plain hor).2
  have hversion : ¬ h.version.length > MAX_VERSION_LEN := by
    have hlen : h.version.length = 8 := rfl
    rw [hlen]
    decide
  obtain ⟨hend, hfirst, hrest⟩ := first_line htext kept rest
  rw [hcr, ← List.append_assoc, rewriteRequestLine, hend]
  dsimp only
  rw [hfirst, hrest, hutf8, if_neg (by decide), h.trim_words hor, h.split_words]
  dsimp only
  rw [if_neg hversion]
  rfl

/-- An empty first line has no version. -/
theorem rewriteRequestLine_eol {line : Bytes} (hline : IsEol line)
    (kept rest method originPath : Bytes) :
    rewriteRequestLine (line ++ kept ++ rest) (line ++ kept).length method originPath =
      .error ⟨"malformed request line: ", []⟩ := by
  obtain ⟨cr, rfl, hor⟩ := hline.split
  obtain ⟨htext, hutf8⟩ := cr_plain hor
  -- nothing is left of the line, and it has no space to split at
  have htrim : cr.rdropWhile (· == 13) = [] := by
    rcases hor with rfl | rfl <;> rfl
  obtain ⟨hend, hfirst, -⟩ := first_line htext kept rest
  rw [rewriteRequestLine, hend]
  dsimp only
  rw [hfirst, hutf8, if_neg (by decide), htrim]
  rfl

/-! ## The condition -/

/-- The request reaches its target, under a new request line with the version of the old one. -/
def Forwarded (parsers : Parsers) (request : ProxyRequest) (buf early targetHost originPath : Bytes) :
    Prop :=
  ∃ head : RequestHead, buf.take request.headerLen = head.bytes ∧ head.method = request.method ∧
    head.target = request.target ∧ ∃ payload,
      runConnection parsers request buf early = .ok (targetHost, payload) ∧
      newRequestLine request.method originPath head.version <+: payload

/-- **Exactly when an accepted request is forwarded.**  Its head was complete, its method is not
    `CONNECT`, and its URL was resolved: it is forwarded if and only if the buffer does not begin with
    an empty line. -/
theorem forwarded_iff (parsers : Parsers) (hhttp : parsers.Httparse) (expectedAuth : Option Bytes)
    (request : ProxyRequest) (buf early targetHost originPath : Bytes)
    (hparse : tryParseHead parsers buf expectedAuth = .ok (some request))
    (hplain : request.method ≠ CONNECT)
    (hresolve : resolveRequest parsers request.method request.target =
      .ok (targetHost, some originPath)) :
    Forwarded parsers request buf early targetHost originPath ↔
      ¬ ([13, 10] <+: buf ∨ [10] <+: buf) := by
  obtain ⟨p, hp, hm, hpath, hamt⟩ := tryParseHead_ok hparse
  obtain ⟨h, hbytes, hm', hpath'⟩ := hhttp.grammar hp
  have hlen := hhttp.length_le hp
  rw [hamt] at hbytes hlen
  have hlines : Proxy.lines (buf.take request.headerLen) = h.lines := by
    rw [hbytes, RequestHead.bytes, lines_of_isLine h.lines_isLine]
  have hbegins : ([13, 10] <+: buf ∨ [10] <+: buf) ↔ h.emptyLines ≠ [] := by
    rw [← h.begins_empty (buf.drop request.headerLen), ← hbytes, List.take_append_drop]
  rw [hbegins, not_not]
  constructor
  · rintro ⟨-, -, -, -, payload, hrun, -⟩
    by_contra hne
    obtain ⟨line, more, hcons⟩ := List.exists_cons_of_ne_nil hne
    -- the first line is an empty one
    have hfirst : h.lines = line :: (more ++ (h.words ++ h.eol) :: h.headers) := by
      rw [RequestHead.lines, hcons, List.cons_append]
    rw [runConnection_plain hplain hresolve hlen (hlines.trans hfirst) (hfirst ▸ h.lines_isLine),
      rewriteRequestLine_eol (h.emptyLines_eol line (hcons ▸ List.mem_cons_self))] at hrun
    cases hrun
  -- the first line is the request line
  · intro hnil
    have hfirst : h.lines = (h.words ++ h.eol) :: h.headers := by
      rw [RequestHead.lines, hnil, List.nil_append]
    refine ⟨h, hbytes, Option.some.inj (hm'.symm.trans hm), Option.some.inj (hpath'.symm.trans hpath),
      _, ?_, List.prefix_append _ (keepLines false h.headers ++ buf.drop request.headerLen)⟩
    rw [runConnection_plain hplain hresolve hlen (hlines.trans hfirst) (hfirst ▸ h.lines_isLine),
      rewriteRequestLine_head]
    rfl

/-! ## A request behind an empty line -/

/-- `DEMO_HEAD`, behind empty lines. -/
def demoHead (emptyLines : List Bytes) (h : ∀ line ∈ emptyLines, IsEol line) : RequestHead where
  emptyLines := emptyLines
  method := [71, 69, 84]
  target := DEMO_URL
  minor := 49
  eol := [13, 10]
  headers := [(DEMO_HEAD.take 48).drop 24, [13, 10]]
  emptyLines_eol := h
  method_token := ⟨by simp, by decide +kernel⟩
  target_utf8 := by decide +kernel
  target_plain := by decide +kernel
  minor_digit := .inr rfl
  eol_eol := .inl rfl
  headers_lines := by
    intro line hmem
    rcases List.mem_cons.mp hmem with rfl | hmem
    · exact ⟨(DEMO_HEAD.take 47).drop 24, by decide +kernel, by decide +kernel⟩
    · obtain rfl := List.mem_singleton.mp hmem
      exact ⟨[13], rfl, by decide⟩

theorem demoHead_bytes (emptyLines : List Bytes) (h : ∀ line ∈ emptyLines, IsEol line) :
    (demoHead emptyLines h).bytes = emptyLines.flatten ++ DEMO_HEAD := by
  rw [RequestHead.bytes, RequestHead.lines, List.flatten_append]
  congr 1

/-- A parser that knows the request, with or without an empty line before it. -/
def demoHttparse : Parsers where
  head := fun b =>
    if DEMO_HEAD.isPrefixOf b then
      .ok (some ⟨DEMO_HEAD.length, some [71, 69, 84], some DEMO_URL, []⟩)
    else if ([13, 10] ++ DEMO_HEAD).isPrefixOf b then
      .ok (some ⟨DEMO_HEAD.length + 2, some [71, 69, 84], some DEMO_URL, []⟩)
    else .ok none
  authority := demoParsers.authority
  url := demoParsers.url

/-- What it accepts is the request behind some empty lines. -/
theorem demoHttparse_head {b : Bytes} {p : ParsedHead} (h : demoHttparse.head b = .ok (some p)) :
    ∃ emptyLines : List Bytes, (∀ line ∈ emptyLines, IsEol line) ∧ emptyLines.flatten ++ DEMO_HEAD <+: b ∧
      p = ⟨(emptyLines.flatten ++ DEMO_HEAD).length, some [71, 69, 84], some DEMO_URL, []⟩ := by
  rw [demoHttparse] at h
  dsimp only at h
  split at h
  · rename_i hfront
    exact ⟨[], by simp, List.isPrefixOf_iff_prefix.mp hfront,
      (Option.some.inj (Except.ok.inj h)).symm⟩
  · split at h
    · rename_i hfront
      refine ⟨[[13, 10]], ?_, List.isPrefixOf_iff_prefix.mp hfront,
        (Option.some.inj (Except.ok.inj h)).symm⟩
      intro line hmem
      exact .inl (List.mem_singleton.mp hmem)
    · cases h

theorem demoHttparse_httparse : demoHttparse.Httparse where
  length_le := by
    intro b p h
    obtain ⟨emptyLines, -, hfront, rfl⟩ := demoHttparse_head h
    exact hfront.length_le
  grammar := by
    intro b p h
    obtain ⟨emptyLines, heol, ⟨rest, rfl⟩, rfl⟩ := demoHttparse_head h
    refine ⟨demoHead emptyLines heol, ?_, rfl, rfl⟩
    rw [demoHead_bytes]
    exact List.take_left

theorem forwarded_demo :
    tryParseHead demoHttparse DEMO_HEAD none = .ok (some demoRequest) ∧
      (Forwarded demoHttparse demoRequest DEMO_HEAD [] [97, 58, 56, 48] [47] ↔
        ¬ ([13, 10] <+: DEMO_HEAD ∨ [10] <+: DEMO_HEAD)) :=
  ⟨rfl, forwarded_iff demoHttparse demoHttparse_httparse none demoRequest DEMO_HEAD []
    [97, 58, 56, 48] [47] rfl (by decide) rfl⟩

/-- **The defect.**  The same request behind `\r\n` is accepted and its URL is resolved, but it is
    not forwarded. -/
theorem empty_line_not_forwarded :
    demoHttparse.Httparse ∧
    tryParseHead demoHttparse ([13, 10] ++ DEMO_HEAD) none =
      .ok (some { demoRequest with headerLen := DEMO_HEAD.length + 2 }) ∧
    demoRequest.method ≠ CONNECT ∧
    resolveRequest demoHttparse demoRequest.method demoRequest.target =
      .ok ([97, 58, 56, 48], some [47]) ∧
    runConnection demoHttparse { demoRequest with headerLen := DEMO_HEAD.length + 2 }
      ([13, 10] ++ DEMO_HEAD) [] = .error ⟨"malformed request line: ", []⟩ ∧
    ¬ Forwarded demoHttparse { demoRequest with headerLen := DEMO_HEAD.length + 2 }
      ([13, 10] ++ DEMO_HEAD) [] [97, 58, 56, 48] [47] := by
  have hrun : runConnection demoHttparse { demoRequest with headerLen := DEMO_HEAD.length + 2 }
      ([13, 10] ++ DEMO_HEAD) [] = .error ⟨"malformed request line: ", []⟩ := by rfl
  refine ⟨demoHttparse_httparse, rfl, by decide, rfl, hrun, ?_⟩
  rintro ⟨-, -, -, -, payload, hok, -⟩
  rw [hrun] at hok
  cases hok

end Httproxy.Proxy
