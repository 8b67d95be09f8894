/-
  Proxy credentials and the target.

  The client takes `Proxy-Authorization` out of the head of the FIRST request on a connection.  Then the
  connection stays open, and what the local program sends later goes to the target as it is.

  1. **Heads (`Part`)** — what follows the first head is cut into further heads and bodies in some way;
     which way is up to the protocol, and nothing here depends on it.

  2. **The first head is clean (`first_head_clean`)** — `strip_proxy_headers` keeps a sublist of its lines,
     and none of those it keeps is a header of the proxy.  The new request line does not add any, since
     the libraries return methods and paths without a newline (`Parsers.Lawful`).

  3. **The defect** — a later head is forwarded with its credentials.  `no_credentials_iff` is the exact
     condition.
-/
import Httproxy.Client.Proxy

namespace Httproxy.Proxy

open Bytes Text

/-! ## Specification -/

/-- What the libraries promise: a complete head ends with a newline inside the buffer, and neither a
    method nor the path or the query of a URL contains one. -/
structure Parsers.Lawful (parsers : Parsers) : Prop where
  head_length : ∀ {b p}, parsers.head b = .ok (some p) → p.amt ≤ b.length
  head_newline : ∀ {b p}, parsers.head b = .ok (some p) → (b.take p.amt).getLast? = some 10
  method_token : ∀ {b p m}, parsers.head b = .ok (some p) → p.method = some m → 10 ∉ m
  url_path : ∀ {t u}, parsers.url t = some u → 10 ∉ u.path
  url_query : ∀ {t u q}, parsers.url t = some u → u.query = some q → 10 ∉ q

/-- A header line with credentials for the proxy. -/
def isCredential (line : Bytes) : Bool :=
  match line.idxOf? 58 with
  | none => false
  | some colon => eqIgnoreAsciiCase (trimAscii (line.take colon)) PROXY_AUTHORIZATION

/-- The head has a header line with credentials; the request line is none, and neither is a line that
    continues another. -/
def HasCredentials (head : Bytes) : Prop :=
  ∃ line ∈ (lines head).tail, continues line = false ∧ isCredential line = true

/-- A piece of what follows the first head. -/
inductive Part where
  | head (b : Bytes)
  | body (b : Bytes)

def Part.bytes : Part → Bytes
  | .head b => b
  | .body b => b

def allBytes (parts : List Part) : Bytes := (parts.map Part.bytes).flatten

def heads (parts : List Part) : List Bytes :=
  parts.filterMap fun
    | .head b => some b
    | .body _ => none

/-! ## Lines -/

/-- A text with one newline, at its end. -/
def IsLine (line : Bytes) : Prop := ∃ text, line = text ++ [10] ∧ 10 ∉ text

theorem lines_flatten (s : Bytes) : (lines s).flatten = s := by
  induction s with
  | nil => rfl
  | cons b s ih =>
    rw [lines]
    split
    · rename_i hb
      rw [List.flatten_cons, ih, hb]
      rfl
    · split
      · rename_i hnil
        rw [hnil] at ih
        rw [← ih]
        rfl
      · rename_i line more hcons
        rw [hcons, List.flatten_cons] at ih
        rw [List.flatten_cons, List.cons_append, ih]

/-- One line in front. -/
theorem lines_cons {line : Bytes} (h : IsLine line) (s : Bytes) :
    lines (line ++ s) = line :: lines s := by
  obtain ⟨text, rfl, htext⟩ := h
  induction text with
  | nil => rfl
  | cons b text ih =>
    obtain ⟨hb, ht⟩ : (10 : UInt8) ≠ b ∧ 10 ∉ text := by simpa using htext
    rw [List.cons_append, List.cons_append, lines, if_neg hb.symm, ih ht]

theorem lines_of_isLine {ls : List Bytes} (h : ∀ line ∈ ls, IsLine line) : lines ls.flatten = ls := by
  induction ls with
  | nil => rfl
  | cons line ls ih =>
    rw [List.flatten_cons, lines_cons (h line List.mem_cons_self),
      ih fun l hl => h l (List.mem_cons_of_mem _ hl)]

/-- When the text ends with a newline, so does every line. -/
theorem isLine_of_mem_lines {s : Bytes} (h : s.getLast? = some 10) : ∀ line ∈ lines s, IsLine line := by
  induction s with
  | nil => cases h
  | cons b s ih =>
    have hrest : s = [] ∨ s.getLast? = some 10 := by
      cases s with
      | nil => exact .inl rfl
      | cons c s => exact .inr (by rwa [List.getLast?_cons_cons] at h)
    rw [lines]
    by_cases hb : b = 10
    · rw [if_pos hb]
      intro line hline
      rcases List.mem_cons.mp hline with rfl | hline
      · exact ⟨[], rfl, by simp⟩
      · rcases hrest with rfl | hrest
        · cases hline
        · exact ih hrest line hline
    · rw [if_neg hb]
      rcases hrest with rfl | hrest
      · -- the one byte would be the newline
        exact absurd (by simpa using h) hb
      · have hs := ih hrest
        have hne : s ≠ [] := by
          rintro rfl
          cases hrest
        cases hl : lines s with
        | nil =>
          have := lines_flatten s
          rw [hl] at this
          exact absurd this.symm hne
        | cons line more =>
          rw [hl] at hs
          intro l hmem
          rcases List.mem_cons.mp hmem with rfl | hmem
          · obtain ⟨text, rfl, htext⟩ := hs line List.mem_cons_self
            exact ⟨b :: text, rfl, by simpa [Ne.symm hb] using htext⟩
          · exact hs l (List.mem_cons_of_mem _ hmem)

/-! ## Stripping -/

/-- The lines that the loop of `strip_proxy_headers` keeps. -/
def keptLines (dropping : Bool) : List Bytes → List Bytes
  | [] => []
  | line :: more =>
    let dropping := if continues line then dropping else isProxyOnlyHeader line
    (if dropping then [] else [line]) ++ keptLines dropping more

theorem IsLine.newline_mem {line : Bytes} (h : IsLine line) : 10 ∈ line := by
  obtain ⟨text, rfl, -⟩ := h
  simp

theorem keepLines_eq {ls : List Bytes} (h : ∀ line ∈ ls, IsLine line) (dropping : Bool) :
    keepLines dropping ls = (keptLines dropping ls).flatten := by
  induction ls generalizing dropping with
  | nil => rfl
  | cons line ls ih =>
    have hin : ¬ (10 ∉ line) := not_not.mpr (h line List.mem_cons_self).newline_mem
    have htail := ih fun l hl => h l (List.mem_cons_of_mem _ hl)
    rw [keepLines, if_neg hin, keptLines]
    dsimp only
    split
    · rw [htail, List.flatten_append]
      cases dropping <;> simp
    · rw [htail, List.flatten_append]
      cases isProxyOnlyHeader line <;> simp

theorem keptLines_sublist (dropping : Bool) (ls : List Bytes) :
    (keptLines dropping ls).Sublist ls := by
  induction ls generalizing dropping with
  | nil => exact List.Sublist.refl _
  | cons line ls ih =>
    rw [keptLines]
    generalize (if continues line then dropping else isProxyOnlyHeader line) = d
    cases d with
    | true => exact (ih true).cons line
    | false => exact (ih false).cons_cons line

/-- A kept line is a continuation, or no header of the proxy. -/
theorem keptLines_not_proxy {dropping : Bool} {ls : List Bytes} {line : Bytes}
    (h : line ∈ keptLines dropping ls) (hc : continues line = false) :
    isProxyOnlyHeader line = false := by
  induction ls generalizing dropping with
  | nil => cases h
  | cons l ls ih =>
    rw [keptLines] at h
    rcases List.mem_append.mp h with h | h
    · obtain ⟨hkeep, hl⟩ :
          (if continues l then dropping else isProxyOnlyHeader l) = false ∧ line = l := by
        generalize (if continues l then dropping else isProxyOnlyHeader l) = d at h
        cases d with
        | true => cases h
        | false => exact ⟨rfl, List.mem_singleton.mp h⟩
      subst hl
      simpa [hc] using hkeep
    · exact ih h

/-- Credentials are a header of the proxy. -/
theorem isProxyOnlyHeader_of_credential {line : Bytes} (h : isCredential line = true) :
    isProxyOnlyHeader line = true := by
  rw [isCredential] at h
  rw [isProxyOnlyHeader]
  cases hcolon : line.idxOf? 58 with
  | none =>
    rw [hcolon] at h
    cases h
  | some colon =>
    rw [hcolon] at h
    simp only [List.any_cons, h, Bool.true_or]

/-- **The head that is left is clean**, whatever its request line. -/
theorem first_head_clean {requestLine : Bytes} {ls : List Bytes} (hline : IsLine requestLine)
    (hls : ∀ line ∈ ls, IsLine line) :
    ¬ HasCredentials (requestLine ++ keepLines false ls) := by
  rintro ⟨line, hmem, hc, hcred⟩
  have hkept : ∀ line ∈ keptLines false ls, IsLine line :=
    fun line h => hls line ((keptLines_sublist false ls).subset h)
  rw [keepLines_eq hls, lines_cons hline, lines_of_isLine hkept] at hmem
  have hnot := keptLines_not_proxy hmem hc
  rw [isProxyOnlyHeader_of_credential hcred] at hnot
  cases hnot

/-- What `strip_proxy_headers` leaves of a buffer whose head is made of lines. -/
theorem stripProxyHeaders_eq {buf requestLine : Bytes} {n : Nat} {ls : List Bytes}
    (hn : n ≤ buf.length) (hlines : lines (buf.take n) = requestLine :: ls)
    (hline : IsLine requestLine) (hls : ∀ line ∈ ls, IsLine line) :
    stripProxyHeaders buf n = ((requestLine ++ keepLines false ls).length,
      requestLine ++ keepLines false ls ++ buf.drop n) := by
  have hhead : buf.take n = requestLine ++ ls.flatten := by
    rw [← lines_flatten (buf.take n), hlines, List.flatten_cons]
  have hmem : ¬ (10 ∉ buf.take n) := by
    rw [hhead, not_not]
    exact List.mem_append_left _ hline.newline_mem
  rw [stripProxyHeaders, if_neg hmem, hlines]
  dsimp only
  split
  · -- nothing was dropped: a sublist of the same length is the whole
    rename_i hlen
    have hsub : (keepLines false ls).Sublist ls.flatten := by
      rw [keepLines_eq hls]
      exact (keptLines_sublist false ls).flatten
    have hsame : keepLines false ls = ls.flatten := by
      apply hsub.eq_of_length
      rw [hhead, List.length_append, List.length_append] at hlen
      omega
    rw [hsame, ← hhead, List.take_append_drop, List.length_take, Nat.min_eq_left hn]
  · rfl

/-! ## Forwarding -/

/-- What `rewrite_request_line` finds in a buffer whose first line has the text `text`. -/
theorem first_line {text : Bytes} (htext : 10 ∉ text) (kept rest : Bytes) :
    ((text ++ [10] ++ kept ++ rest).take (text ++ [10] ++ kept).length).idxOf? 10 =
        some text.length ∧
      (text ++ [10] ++ kept ++ rest).take text.length = text ∧
      (text ++ [10] ++ kept ++ rest).drop (text.length + 1) = kept ++ rest := by
  refine ⟨?_, ?_, ?_⟩
  · rw [List.take_left, List.append_assoc]
    exact idxOf?_line htext kept
  · rw [List.append_assoc, List.append_assoc, List.take_left]
  · rw [List.append_assoc]
    exact List.drop_left' (by simp)

/-- The new request line takes the place of the old one. -/
theorem rewriteRequestLine_version {text kept rest method originPath buf' : Bytes} (htext : 10 ∉ text)
    (h : rewriteRequestLine (text ++ [10] ++ kept ++ rest) (text ++ [10] ++ kept).length method
      originPath = .ok buf') :
    ∃ before version, rsplitOnce 32 (text.rdropWhile (· == 13)) = some (before, version) ∧
      buf' = method ++ [32] ++ originPath ++ [32] ++ version ++ [13, 10] ++ (kept ++ rest) := by
  obtain ⟨hend, hfirst, hrest⟩ := first_line htext kept rest
  rw [rewriteRequestLine, hend] at h
  dsimp only at h
  rw [hfirst, hrest] at h
  split at h
  · cases h
  · split at h
    · cases h
    · rename_i before version hsplit
      split at h
      · cases h
      · exact ⟨before, version, hsplit, (Except.ok.inj h).symm⟩

/-- The first line of what is left is one line. -/
theorem rewriteRequestLine_ok {requestLine kept rest method originPath buf' : Bytes}
    (hline : IsLine requestLine) (hmethod : 10 ∉ method) (horigin : 10 ∉ originPath)
    (h : rewriteRequestLine (requestLine ++ kept ++ rest) (requestLine ++ kept).length method
      originPath = .ok buf') :
    ∃ newLine, IsLine newLine ∧ buf' = newLine ++ kept ++ rest := by
  obtain ⟨text, rfl, htext⟩ := hline
  obtain ⟨before, version, hsplit, rfl⟩ := rewriteRequestLine_version htext h
  -- the version is a part of the old line
  have hversion : 10 ∉ version := by
    intro hv
    have hmem : 10 ∈ text.rdropWhile (· == 13) := by
      rw [rsplitOnce_eq_some hsplit]
      simp [hv]
    exact htext ((List.rdropWhile_prefix _ _).subset hmem)
  exact ⟨method ++ [32] ++ originPath ++ [32] ++ version ++ [13] ++ [10],
    ⟨_, rfl, by simp [hmethod, horigin, hversion]⟩, by simp⟩

theorem originForm_no_newline {parsers : Parsers} (hlaw : parsers.Lawful) {target : Bytes}
    {url : Url} (h : parsers.url target = some url) : 10 ∉ originForm url := by
  have hpath := hlaw.url_path h
  rw [originForm]
  cases hq : url.query with
  | none =>
    split <;> simp [hpath]
  | some q =>
    have hquery := hlaw.url_query h hq
    split <;> simp [hpath, hquery]

/-- The head of an accepted request, as the libraries returned it. -/
theorem tryParseHead_ok {parsers : Parsers} {buffer : Bytes} {expectedAuth : Option Bytes}
    {request : ProxyRequest} (h : tryParseHead parsers buffer expectedAuth = .ok (some request)) :
    ∃ head, parsers.head buffer = .ok (some head) ∧ head.method = some request.method ∧
      head.path = some request.target ∧ head.amt = request.headerLen := by
  rw [tryParseHead] at h
  split at h
  · cases h
  · cases h
  · rename_i head hhead
    split at h
    · cases h
    · cases h
    · rename_i hmethod hpath
      obtain rfl := Option.some.inj (Except.ok.inj h)
      exact ⟨head, hhead, hmethod, hpath, rfl⟩

/-- An accepted request was found in the buffer that is returned with it. -/
theorem parseProxyRequest_ok {parsers : Parsers} {expectedAuth : Option Bytes}
    {reads later : List Bytes} {buffer buf : Bytes} {request : ProxyRequest}
    (h : parseProxyRequest parsers expectedAuth reads buffer = .ok (request, buf, later)) :
    tryParseHead parsers buf expectedAuth = .ok (some request) := by
  fun_induction parseProxyRequest parsers expectedAuth reads buffer with
  | case1 => cases h
  | case2 reads buffer request' hparse =>
    obtain ⟨rfl, hrest⟩ := Prod.mk.inj (Except.ok.inj h)
    obtain ⟨rfl, rfl⟩ := Prod.mk.inj hrest
    exact hparse
  | case3 => cases h
  | case4 => cases h
  | case5 => cases h
  | case6 _ _ _ _ _ _ ih => exact ih h

theorem resolveRequest_some {parsers : Parsers} {method target host originPath : Bytes}
    (hplain : method ≠ CONNECT)
    (h : resolveRequest parsers method target = .ok (host, some originPath)) :
    ∃ url, parsers.url target = some url ∧ originPath = originForm url := by
  rw [resolveRequest, if_neg hplain] at h
  split at h
  · cases h
  · rename_i url hurl
    refine ⟨url, hurl, ?_⟩
    split at h
    · cases h
    · cases h
    · simpa using (Prod.mk.inj (Except.ok.inj h)).2.symm

theorem resolveRequest_ne_none {parsers : Parsers} {method target host : Bytes}
    (hplain : method ≠ CONNECT) : resolveRequest parsers method target ≠ .ok (host, none) := by
  rw [resolveRequest, if_neg hplain]
  split
  · rintro ⟨⟩
  · split <;> rintro ⟨⟩

/-- What is forwarded of a request with an absolute URL. -/
theorem runConnection_plain {parsers : Parsers} {request : ProxyRequest}
    {buf early targetHost originPath first : Bytes} {ls : List Bytes}
    (hplain : request.method ≠ CONNECT)
    (hresolve : resolveRequest parsers request.method request.target =
      .ok (targetHost, some originPath))
    (hlen : request.headerLen ≤ buf.length)
    (hlines : lines (buf.take request.headerLen) = first :: ls)
    (hall : ∀ line ∈ first :: ls, IsLine line) :
    runConnection parsers request buf early =
      (rewriteRequestLine (first ++ keepLines false ls ++ buf.drop request.headerLen)
        (first ++ keepLines false ls).length request.method originPath).map
          fun payload => (targetHost, payload) := by
  rw [runConnection, if_neg hplain, hresolve]
  dsimp only
  rw [stripProxyHeaders_eq hlen hlines (hall first List.mem_cons_self)
    fun line hmem => hall line (List.mem_cons_of_mem _ hmem)]
  dsimp only
  cases rewriteRequestLine (first ++ keepLines false ls ++ buf.drop request.headerLen)
    (first ++ keepLines false ls).length request.method originPath <;> rfl

/-- What is forwarded of the buffer: a clean head, and what was behind the head. -/
theorem runConnection_ok {parsers : Parsers} (hlaw : parsers.Lawful) {request : ProxyRequest}
    {head : ParsedHead} {buf early targetHost payload : Bytes}
    (hhead : parsers.head buf = .ok (some head)) (hm : head.method = some request.method)
    (hamt : head.amt = request.headerLen) (hconnect : request.method ≠ CONNECT)
    (hrun : runConnection parsers request buf early = .ok (targetHost, payload)) :
    ∃ first, payload = first ++ buf.drop request.headerLen ∧ ¬ HasCredentials first := by
  have hlast := hlaw.head_newline hhead
  have hlen := hlaw.head_length hhead
  rw [hamt] at hlast hlen
  have hall := isLine_of_mem_lines hlast
  cases hlines : lines (buf.take request.headerLen) with
  | nil =>
    have := lines_flatten (buf.take request.headerLen)
    rw [hlines] at this
    rw [← this] at hlast
    cases hlast
  | cons requestLine ls =>
    rw [hlines] at hall
    obtain ⟨hline, hls⟩ := List.forall_mem_cons.mp hall
    cases hresolve : resolveRequest parsers request.method request.target with
    | error e =>
      rw [runConnection, if_neg hconnect, hresolve] at hrun
      cases hrun
    | ok resolved =>
      obtain ⟨host, _ | originPath⟩ := resolved
      · exact absurd hresolve (resolveRequest_ne_none hconnect)
      obtain ⟨url, hurl, rfl⟩ := resolveRequest_some hconnect hresolve
      rw [runConnection_plain hconnect hresolve hlen hlines hall] at hrun
      cases hrewrite : rewriteRequestLine
          (requestLine ++ keepLines false ls ++ buf.drop request.headerLen)
          (requestLine ++ keepLines false ls).length request.method (originForm url) with
      | error e =>
        rw [hrewrite] at hrun
        cases hrun
      | ok buf' =>
        obtain ⟨newLine, hnew, rfl⟩ := rewriteRequestLine_ok hline (hlaw.method_token hhead hm)
          (originForm_no_newline hlaw hurl) hrewrite
        rw [hrewrite] at hrun
        obtain ⟨-, rfl⟩ := Prod.mk.inj (Except.ok.inj hrun)
        exact ⟨newLine ++ keepLines false ls, rfl, first_head_clean hnew hls⟩

/-- **Exactly when no credentials reach the target.**  A request other than `CONNECT` is accepted and
    forwarded.  However the bytes behind its head are cut into heads and bodies, what is forwarded is
    a new first head and those parts, and none of the heads has credentials if and only if none of the
    LATER ones has them. -/
theorem no_credentials_iff (parsers : Parsers) (hlaw : parsers.Lawful) (expectedAuth : Option Bytes)
    (reads later : List Bytes) (request : ProxyRequest) (buf early targetHost payload : Bytes)
    (hparse : parseProxyRequest parsers expectedAuth reads [] = .ok (request, buf, later))
    (hconnect : request.method ≠ CONNECT)
    (hrun : runConnection parsers request buf early = .ok (targetHost, payload))
    (parts : List Part) (hparts : allBytes parts = buf.drop request.headerLen ++ later.flatten) :
    ∃ first, payload ++ later.flatten = first ++ allBytes parts ∧
      ((∀ head ∈ first :: heads parts, ¬ HasCredentials head) ↔
        ∀ head ∈ heads parts, ¬ HasCredentials head) := by
  obtain ⟨head, hhead, hm, -, hamt⟩ := tryParseHead_ok (parseProxyRequest_ok hparse)
  obtain ⟨first, rfl, hclean⟩ := runConnection_ok hlaw hhead hm hamt hconnect hrun
  refine ⟨first, by rw [hparts, List.append_assoc], ?_⟩
  constructor
  · intro h head hmem
    exact h head (List.mem_cons_of_mem _ hmem)
  · intro h head hmem
    rcases List.mem_cons.mp hmem with rfl | hmem
    · exact hclean
    · exact h head hmem

/-! ## Two requests on one connection -/

/-- The bytes of `http://a/`. -/
def DEMO_URL : Bytes := [104, 116, 116, 112, 58, 47, 47, 97, 47]

/-- `GET http://a/ HTTP/1.1` with a `Proxy-Authorization` header. -/
def DEMO_HEAD : Bytes :=
  [71, 69, 84, 32, 104, 116, 116, 112, 58, 47, 47, 97, 47, 32, 72, 84, 84, 80, 47, 49, 46, 49,
   13, 10, 80, 114, 111, 120, 121, 45, 65, 117, 116, 104, 111, 114, 105, 122, 97, 116, 105, 111,
   110, 58, 32, 120, 13, 10, 13, 10]

/-- The same as the target gets it. -/
def DEMO_CLEAN : Bytes :=
  [71, 69, 84, 32, 47, 32, 72, 84, 84, 80, 47, 49, 46, 49, 13, 10, 13, 10]

/-- What the libraries return for this request. -/
def demoParsers : Parsers where
  head := fun b =>
    if DEMO_HEAD.isPrefixOf b then
      .ok (some ⟨DEMO_HEAD.length, some [71, 69, 84], some DEMO_URL, [⟨PROXY_AUTHORIZATION, [120]⟩]⟩)
    else .ok none
  authority := fun _ => none
  url := fun t => if t = DEMO_URL then some ⟨some [97], some 80, [47], none⟩ else none

/-- The request found in a buffer that begins with the head. -/
def demoRequest : ProxyRequest where
  method := [71, 69, 84]
  headerLen := DEMO_HEAD.length
  target := DEMO_URL
  authorized := true

theorem demoParsers_head {b : Bytes} {p : ParsedHead} (h : demoParsers.head b = .ok (some p)) :
    DEMO_HEAD <+: b ∧ p = ⟨DEMO_HEAD.length, some [71, 69, 84], some DEMO_URL,
      [⟨PROXY_AUTHORIZATION, [120]⟩]⟩ := by
  rw [demoParsers] at h
  dsimp only at h
  split at h
  · rename_i hp
    exact ⟨List.isPrefixOf_iff_prefix.mp hp, (Option.some.inj (Except.ok.inj h)).symm⟩
  · cases h

theorem demoParsers_url {t : Bytes} {u : Url} (h : demoParsers.url t = some u) :
    u = ⟨some [97], some 80, [47], none⟩ := by
  rw [demoParsers] at h
  dsimp only at h
  split at h
  · exact (Option.some.inj h).symm
  · cases h

theorem demoParsers_lawful : demoParsers.Lawful where
  head_length := by
    intro b p h
    obtain ⟨hp, rfl⟩ := demoParsers_head h
    exact hp.length_le
  head_newline := by
    intro b p h
    obtain ⟨⟨rest, rfl⟩, rfl⟩ := demoParsers_head h
    rw [List.take_left]
    rfl
  method_token := by
    intro b p m h hm
    obtain ⟨-, rfl⟩ := demoParsers_head h
    obtain rfl := Option.some.inj hm
    decide
  url_path := by
    intro t u h
    obtain rfl := demoParsers_url h
    decide
  url_query := by
    intro t u q h hq
    obtain rfl := demoParsers_url h
    cases hq

theorem no_credentials_demo :
    parseProxyRequest demoParsers none [DEMO_HEAD] [] = .ok (demoRequest, DEMO_HEAD, []) ∧
    ∃ payload, runConnection demoParsers demoRequest DEMO_HEAD [] = .ok ([97, 58, 56, 48], payload) ∧
      ∃ first, payload ++ List.flatten [] = first ++ allBytes [] ∧
        ((∀ head ∈ first :: heads [], ¬ HasCredentials head) ↔
          ∀ head ∈ heads [], ¬ HasCredentials head) :=
  ⟨rfl, DEMO_CLEAN, rfl, no_credentials_iff demoParsers demoParsers_lawful none [DEMO_HEAD] []
    demoRequest DEMO_HEAD [] [97, 58, 56, 48] DEMO_CLEAN rfl (by decide) rfl [] rfl⟩

/-- **The defect.**  The same request twice on one connection: the second head reaches the target with
    its credentials. -/
theorem second_request_leaks :
    parseProxyRequest demoParsers none [DEMO_HEAD ++ DEMO_HEAD] [] =
      .ok (demoRequest, DEMO_HEAD ++ DEMO_HEAD, []) ∧
    runConnection demoParsers demoRequest (DEMO_HEAD ++ DEMO_HEAD) [] =
      .ok ([97, 58, 56, 48], DEMO_CLEAN ++ allBytes [.head DEMO_HEAD]) ∧
    ¬ (∀ head ∈ DEMO_CLEAN :: heads [.head DEMO_HEAD], ¬ HasCredentials head) := by
  refine ⟨rfl, rfl, ?_⟩
  intro h
  exact h DEMO_HEAD (by simp [heads]) ⟨_, List.mem_cons_self, rfl, rfl⟩

end Httproxy.Proxy
