/-
  The client's front: from the first request on a local connection to the bytes that go to the target
  (`src/client/proxy.rs`, and `ClientConnectionActor::run` in `src/client/actor/connection.rs`).

  1. **Head** — `parseProxyRequest` reads until the head of the request is complete and looks at the
     credentials.
  2. **Target** — `resolveRequest` makes `host:port` out of a `CONNECT` authority or an absolute URL,
     and the path of the request in origin form out of the latter.
  3. **Rewriting** — `stripProxyHeaders` takes the proxy's own headers out of the head, and
     `rewriteRequestLine` puts the origin form into the request line.
  4. **Forwarding** — `runConnection` is what the connection then sends to the target: the buffer as it
     was rewritten, and whatever is read from the socket later.

  The parsers of heads, authorities and URLs are libraries, so they are PARAMETERS (`Parsers`).
-/
import Httproxy.Lib.Text

namespace Httproxy.Proxy

open Bytes Text

/-! ## Libraries -/

/-- A header as `httparse` returns it. -/
structure Header where
  name : Bytes
  value : Bytes
  deriving DecidableEq, Repr

/-- `httparse::Request` after a complete parse, with the length of the head. -/
structure ParsedHead where
  amt : Nat
  method : Option Bytes
  path : Option Bytes
  headers : List Header
  deriving DecidableEq, Repr

/-- `http::uri::Authority`. -/
structure Authority where
  host : Bytes
  portU16 : Option Nat
  deriving DecidableEq, Repr

/-- `url::Url`. -/
structure Url where
  hostStr : Option Bytes
  portOrKnownDefault : Option Nat
  path : Bytes
  query : Option Bytes
  deriving DecidableEq, Repr

/-- An error of `anyhow`: its text, and what is formatted behind it. -/
structure Anyhow where
  text : String
  arg : Bytes
  deriving DecidableEq, Repr

structure Parsers where
  /-- `httparse::Request::parse`; `none` is `Partial`. -/
  head : Bytes → Except Anyhow (Option ParsedHead)
  authority : Bytes → Option Authority
  url : Bytes → Option Url

/-! ## Head -/

def MAX_HEADER_LEN : Nat := 16 * 1024
def MAX_VERSION_LEN : Nat := 16

/-- The bytes of `CONNECT`. -/
def CONNECT : Bytes := [67, 79, 78, 78, 69, 67, 84]
/-- The bytes of `proxy-authorization`. -/
def PROXY_AUTHORIZATION : Bytes :=
  [112, 114, 111, 120, 121, 45, 97, 117, 116, 104, 111, 114, 105, 122, 97, 116, 105, 111, 110]
/-- The bytes of `proxy-connection`. -/
def PROXY_CONNECTION : Bytes :=
  [112, 114, 111, 120, 121, 45, 99, 111, 110, 110, 101, 99, 116, 105, 111, 110]

structure ProxyRequest where
  method : Bytes
  headerLen : Nat
  target : Bytes
  authorized : Bool
  deriving DecidableEq, Repr

/-- `u8::is_ascii_whitespace`. -/
def isAsciiWhitespace (b : UInt8) : Bool := b == 32 || b == 9 || b == 10 || b == 12 || b == 13

/-- `trim_ascii`. -/
def trimAscii (b : Bytes) : Bytes := (b.dropWhile isAsciiWhitespace).rdropWhile isAsciiWhitespace

/-- `u8::to_ascii_lowercase`. -/
def toAsciiLowercase (b : UInt8) : UInt8 := if 65 ≤ b ∧ b ≤ 90 then b + 32 else b

/-- `eq_ignore_ascii_case`. -/
def eqIgnoreAsciiCase (a b : Bytes) : Bool := a.map toAsciiLowercase = b.map toAsciiLowercase

/-- `auth_matches`. -/
def authMatches (headers : List Header) (expected : Bytes) : Bool :=
  match headers.find? fun h => eqIgnoreAsciiCase h.name PROXY_AUTHORIZATION with
  | none => false
  | some header => trimAscii header.value = expected

section Program

variable (parsers : Parsers)

/-- `try_parse_head`. -/
def tryParseHead (buffer : Bytes) (expectedAuth : Option Bytes) :
    Except Anyhow (Option ProxyRequest) :=
  match parsers.head buffer with
  | .error e => .error e
  | .ok none => .ok none
  | .ok (some head) =>
    match head.method, head.path with
    | none, _ => .error ⟨"no method", []⟩
    | some _, none => .error ⟨"no path", []⟩
    | some method, some target =>
      .ok (some {
        method
        headerLen := head.amt
        target
        authorized := expectedAuth.all fun expected => authMatches head.headers expected })

/-- `parse_proxy_request`, over what the reads of the socket return (nothing: it is closed): the
    request, the buffer, and the reads that are left. -/
def parseProxyRequest (expectedAuth : Option Bytes) :
    (reads : List Bytes) → (buffer : Bytes) → Except Anyhow (ProxyRequest × Bytes × List Bytes)
  | reads, buffer =>
    match tryParseHead parsers buffer expectedAuth with
    | .error e => .error e
    | .ok (some request) => .ok (request, buffer, reads)
    | .ok none =>
      if buffer.length > MAX_HEADER_LEN then .error ⟨"header too large", []⟩
      else match reads with
        | [] => .error ⟨"connection closed during header parsing", []⟩
        | [] :: _ => .error ⟨"connection closed during header parsing", []⟩
        | data :: reads => parseProxyRequest expectedAuth reads (buffer ++ data)

/-! ## Target -/

/-- `format!("{host}:{port}")`. -/
def hostPort (host : Bytes) (port : Nat) : Bytes := host ++ 58 :: decimal port

/-- The host without a pair of brackets around it. -/
def stripBrackets (host : Bytes) : Bytes := ((dropStart [91] host).bind (dropEnd [93])).getD host

/-- `resolve_connect_host`. -/
def resolveConnectHost (authority : Bytes) : Except Anyhow Bytes :=
  match parsers.authority authority with
  | none => .error ⟨"invalid target: ", authority⟩
  | some auth =>
    match auth.portU16 with
    | none => .error ⟨"port required: ", authority⟩
    | some port => .ok (hostPort (stripBrackets auth.host) port)

/-- `origin_form`. -/
def originForm (url : Url) : Bytes :=
  (if url.path = [] then [47] else url.path) ++
    match url.query with
    | none => []
    | some q => 63 :: q

/-- `resolve_request`: the target, and the origin form of an absolute URL. -/
def resolveRequest (method target : Bytes) : Except Anyhow (Bytes × Option Bytes) :=
  if method = CONNECT then (resolveConnectHost parsers target).map fun host => (host, none)
  else
    match parsers.url target with
    | none => .error ⟨"invalid proxy URL", []⟩
    | some url =>
      match url.hostStr, url.portOrKnownDefault with
      | none, _ => .error ⟨"URL has no host", []⟩
      | some _, none => .error ⟨"port required", []⟩
      | some host, some port => .ok (hostPort host port, some (originForm url))

end Program

/-! ## Rewriting -/

/-- `rewrite_request_line`: the buffer as it is left.  A new line that is not longer is written in
    place, a longer one in front of what is split off; the bytes are the same. -/
def rewriteRequestLine (buf : Bytes) (headerLen : Nat) (method originPath : Bytes) :
    Except Anyhow Bytes :=
  match (buf.take headerLen).idxOf? 10 with
  | none => .error ⟨"request line has no newline", []⟩
  | some lineEnd =>
    let firstLine := buf.take lineEnd
    if validUtf8 firstLine = false then .error ⟨"request line is not valid UTF-8", []⟩
    else
      let trimmed := firstLine.rdropWhile (· == 13)
      match rsplitOnce 32 trimmed with
      | none => .error ⟨"malformed request line: ", trimmed⟩
      | some (_, version) =>
        if version.length > MAX_VERSION_LEN then .error ⟨"unsupported HTTP version: ", version⟩
        else .ok (method ++ [32] ++ originPath ++ [32] ++ version ++ [13, 10] ++
          buf.drop (lineEnd + 1))

/-- `is_proxy_only_header`. -/
def isProxyOnlyHeader (line : Bytes) : Bool :=
  match line.idxOf? 58 with
  | none => false
  | some colon =>
    let name := trimAscii (line.take colon)
    [PROXY_AUTHORIZATION, PROXY_CONNECTION].any fun header => eqIgnoreAsciiCase name header

/-- The lines of a text, each with its newline; the last one may have none. -/
def lines : Bytes → List Bytes
  | [] => []
  | b :: s =>
    if b = 10 then [10] :: lines s
    else match lines s with
      | [] => [[b]]
      | line :: more => (b :: line) :: more

/-- A line that continues the one before it. -/
def continues (line : Bytes) : Bool := line.head? = some 32 || line.head? = some 9

/-- The loop of `strip_proxy_headers`, which takes one line in each turn; a line without a newline
    is the last one, and is kept. -/
def keepLines (dropping : Bool) : List Bytes → Bytes
  | [] => []
  | line :: more =>
    if 10 ∉ line then line
    else if continues line then (if dropping then [] else line) ++ keepLines dropping more
    else
      let dropping := isProxyOnlyHeader line
      (if dropping then [] else line) ++ keepLines dropping more

/-- `strip_proxy_headers`: the length of the head afterwards, and the buffer as it is left. -/
def stripProxyHeaders (buf : Bytes) (headerLen : Nat) : Nat × Bytes :=
  let head := buf.take headerLen
  if 10 ∉ head then (headerLen, buf)
  else
    match lines head with
    | [] => (headerLen, buf)
    | requestLine :: more =>
      let kept := requestLine ++ keepLines false more
      if kept.length = head.length then (headerLen, buf)
      else (kept.length, kept ++ buf.drop headerLen)

/-! ## Forwarding -/

/-- `ClientConnectionActor::run` after the head was read and authorized, up to the tunnel: the target
    and the payload.  `early` is what `read_early_data` reads behind the head of a `CONNECT`. -/
def runConnection (parsers : Parsers) (request : ProxyRequest) (buf early : Bytes) :
    Except Anyhow (Bytes × Bytes) :=
  let buf := if request.method = CONNECT then buf.drop request.headerLen ++ early else buf
  match resolveRequest parsers request.method request.target with
  | .error e => .error e
  | .ok (targetHost, none) => .ok (targetHost, buf)
  | .ok (targetHost, some originPath) =>
    let (headerLen, buf) := stripProxyHeaders buf request.headerLen
    match rewriteRequestLine buf headerLen request.method originPath with
    | .error e => .error e
    | .ok buf => .ok (targetHost, buf)

end Httproxy.Proxy
