/-
  A local connection from end to end: what the client reads on it, whom it connects to, and what it passes on
  (`ClientConnectionActor::run`, `read_early_data` and `reject_unauthorized` in `src/client/actor/connection.rs`,
  `open_tunnel`, `handle_bypass_direct` and the copying loops in `src/client/connection.rs`, `serve` in
  `src/client/redirect.rs`).

  1. **Program** — the head is read in pieces of ANY size, a refused request is answered and drained, a `CONNECT`
     is answered before its target is looked at.  A bypassed target is connected to directly: the payload is
     written first, then each direction copies on its own, with partial writes, and the connection ends when
     both have.  Any read or write may fail or stall.  A redirect starts with the target and nothing read.

  2. **Specification** — `Asked sent target stream answer`: a program that has sent the bytes `sent` wants
     `stream` to reach `target`, and gets `answer` from the proxy itself.  `stream` is what `run` makes of ALL the
     bytes at once, so it does not say in which pieces they came.

  3. **The crux** — what `run` makes of a head does not change when more bytes follow (`runConnection_grows`), so
     each direction is a pump from the wanted bytes to the written ones (`Opened`).

  The theorem is `relays_unchanged`.
-/
import Httproxy.Client.Bypass
import Httproxy.Client.Credentials
import Httproxy.Lib.Machine
import Httproxy.Lib.Pump
import Httproxy.Shaper.Frame

namespace Httproxy.Relay

open Bytes Machine Pump Proxy
open Bypass (Rules Tables shouldBypass)
open Shaper (MAX_RAW_PAYLOAD)

/-! ## Program -/

/-- The bytes of `HTTP/1.1 200 Connection Established` and an empty line. -/
def CONNECT_RESPONSE : Bytes :=
  [72, 84, 84, 80, 47, 49, 46, 49, 32, 50, 48, 48, 32, 67, 111, 110, 110, 101, 99, 116, 105, 111,
   110, 32, 69, 115, 116, 97, 98, 108, 105, 115, 104, 101, 100, 13, 10, 13, 10]

/-- The bytes of `HTTP/1.1 407 Proxy Authentication Required`, of the headers `Proxy-Authenticate`,
    `Proxy-Connection`, `Connection` and `Content-Length`, and of an empty line. -/
def PROXY_AUTH_REQUIRED_RESPONSE : Bytes :=
  [72, 84, 84, 80, 47, 49, 46, 49, 32, 52, 48, 55, 32, 80, 114, 111, 120, 121, 32, 65, 117, 116,
   104, 101, 110, 116, 105, 99, 97, 116, 105, 111, 110, 32, 82, 101, 113, 117, 105, 114, 101, 100,
   13, 10, 80, 114, 111, 120, 121, 45, 65, 117, 116, 104, 101, 110, 116, 105, 99, 97, 116, 101,
   58, 32, 66, 97, 115, 105, 99, 32, 114, 101, 97, 108, 109, 61, 34, 104, 116, 116, 112, 114, 111,
   120, 121, 34, 13, 10, 80, 114, 111, 120, 121, 45, 67, 111, 110, 110, 101, 99, 116, 105, 111,
   110, 58, 32, 99, 108, 111, 115, 101, 13, 10, 67, 111, 110, 110, 101, 99, 116, 105, 111, 110,
   58, 32, 99, 108, 111, 115, 101, 13, 10, 67, 111, 110, 116, 101, 110, 116, 45, 76, 101, 110,
   103, 116, 104, 58, 32, 48, 13, 10, 13, 10]

def COPY_BUF_SIZE : Nat := 64 * 1024

inductive IoError where
  | writeZero
  | timedOut
  /-- What the socket reports. -/
  | socket
  deriving DecidableEq, Repr

/-- The errors of `run`: passed on by `?`, made by `anyhow!`, or put under a context. -/
inductive Failure where
  | io (e : IoError)
  | anyhow (e : Anyhow)
  | context (text : String) (e : IoError)
  /-- `bypass connect to {target} failed`. -/
  | bypassConnect (target : Bytes) (e : IoError)
  deriving DecidableEq, Repr

/-- `write`, and the timeout around it. -/
inductive Write where
  | wrote (n : Nat)
  | failed
  | stalled

/-- A turn of the loop of `write_with_timeout` at `off`: what the writer takes, and the next `off`. -/
def writeTurn (data : Bytes) (off : Nat) : Write → Option (Bytes × Except IoError Nat)
  | .wrote n =>
    if n > data.length - off then none
    else if n = 0 then some ([], .error .writeZero)
    else some ((data.drop off).take n, .ok (off + n))
  | .failed => some ([], .error .socket)
  | .stalled => some ([], .error .timedOut)

/-- One direction of a connection: what the reader has returned, what the writer has taken, and whether the
    writer was shut down. -/
structure Flow where
  read : Bytes
  written : Bytes
  shut : Bool
  deriving DecidableEq, Repr

def Flow.new : Flow := ⟨[], [], false⟩

def Flow.reads (f : Flow) (data : Bytes) : Flow := { f with read := f.read ++ data }

def Flow.writes (f : Flow) (data : Bytes) : Flow := { f with written := f.written ++ data }

def Flow.shutdown (f : Flow) : Flow := { f with shut := true }

/-- Where `copy_with_write_timeout` is. -/
inductive Copy where
  | reading
  | writing (data : Bytes) (off : Nat)
  | ended (r : Except IoError Unit)
  deriving DecidableEq, Repr

inductive CopyEvent where
  /-- Nothing: the reader is at its end. -/
  | read (data : Bytes)
  | readFailed
  | write (w : Write)

/-- A turn of `copy_with_write_timeout`; when it ends, its writer is shut down. -/
def copyTurn (c : Copy) (f : Flow) : CopyEvent → Option (Copy × Flow)
  | .read data =>
    match c with
    | .reading =>
      if data.length > COPY_BUF_SIZE then none
      else if data = [] then some (.ended (.ok ()), f.shutdown)
      else some (.writing data 0, f.reads data)
    | _ => none
  | .readFailed =>
    match c with
    | .reading => some (.ended (.error .socket), f.shutdown)
    | _ => none
  | .write w =>
    match c with
    | .writing data off =>
      match writeTurn data off w with
      | none => none
      | some (out, .error e) => some (.ended (.error e), (f.writes out).shutdown)
      | some (out, .ok off) =>
        if off < data.length then some (.writing data off, f.writes out)
        else some (.reading, f.writes out)
    | _ => none

/-- Where the task of a local connection is. -/
inductive Point where
  /-- `parse_proxy_request`. -/
  | parsing
  /-- `reject_unauthorized`, before and behind the answer. -/
  | rejecting
  | draining
  /-- A `CONNECT`: before the answer, and in `read_early_data`. -/
  | answering (request : ProxyRequest)
  | early (request : ProxyRequest) (early : Bytes)
  /-- `handle_bypass_direct`: the connection, the payload, and both directions. -/
  | connecting (target payload : Bytes)
  | sending (payload : Bytes) (off : Nat)
  | relaying (up down : Copy)
  /-- `ClientPqFsm`. -/
  | tunnelling (target payload : Bytes)
  | ended (r : Except Failure Unit)
  deriving DecidableEq, Repr

structure Actor where
  point : Point
  buf : Bytes
  /-- From the local program to the target. -/
  up : Flow
  /-- From the target to the local program. -/
  down : Flow
  /-- The target that was connected to. -/
  remote : Option Bytes
  deriving DecidableEq, Repr

/-- How a connection comes in: at the proxy's port, or at the port of a redirect to the target. -/
inductive Entry where
  | proxy
  | redirect (target : Bytes)
  deriving DecidableEq, Repr

inductive Connect where
  | connected
  | failed
  /-- Connected, but `set_nodelay` has failed. -/
  | nodelayFailed

inductive Event where
  /-- A read of the local socket before the copying begins; nothing: it is closed. -/
  | read (data : Bytes)
  | readFailed
  /-- `PROXY_REQUEST_PARSE_TIMEOUT`, `EARLY_READ_WINDOW` or `AUTH_REJECT_DRAIN_WINDOW`. -/
  | timeout
  /-- `write_all` of an answer of the proxy: `n` bytes, and an error if these are not all. -/
  | answer (n : Nat)
  | connect (c : Connect)
  | payload (w : Write)
  | up (e : CopyEvent)
  | down (e : CopyEvent)

def Actor.fail (a : Actor) (e : Failure) : Actor := { a with point := .ended (.error e) }

def Actor.finish (a : Actor) : Actor := { a with point := .ended (.ok ()) }

section Program

variable {lib : Tables} (parsers : Parsers) (expectedAuth : Option Bytes) (bypass : Option (Rules lib))

/-- `open_tunnel`. -/
def openTunnel (a : Actor) (target payload : Bytes) : Actor :=
  if bypass.any fun rules => shouldBypass rules target then { a with point := .connecting target payload }
  else { a with point := .tunnelling target payload }

/-- `run` behind the answer: from `resolve_request` to `open_tunnel`. -/
def finishRun (a : Actor) (request : ProxyRequest) (early : Bytes) : Actor :=
  match runConnection parsers request a.buf early with
  | .error e => a.fail (.anyhow e)
  | .ok (target, payload) => openTunnel bypass a target payload

/-- The loop of `parse_proxy_request` up to its next read, and what `run` does with a request. -/
def parseTurn (a : Actor) : Actor :=
  match tryParseHead parsers a.buf expectedAuth with
  | .error e => a.fail (.anyhow e)
  | .ok none =>
    if a.buf.length > MAX_HEADER_LEN then a.fail (.anyhow ⟨"header too large", []⟩)
    else { a with point := .parsing }
  | .ok (some request) =>
    if request.authorized = false then { a with point := .rejecting }
    else if request.method = CONNECT then { a with point := .answering request }
    else finishRun parsers bypass a request []

/-- The loop of `read_early_data` up to its next read. -/
def earlyTurn (a : Actor) (request : ProxyRequest) (early : Bytes) : Actor :=
  let remaining := MAX_RAW_PAYLOAD - (a.buf.drop request.headerLen ++ early).length
  if remaining = 0 then finishRun parsers bypass a request early
  else { a with point := .early request early }

/-- `handle_bypass_direct` when the payload is written. -/
def relay (a : Actor) : Actor := { a with point := .relaying .reading .reading }

/-- `join!`, and the two results. -/
def joined (a : Actor) (up down : Copy) : Actor :=
  match up, down with
  | .ended (.error e), .ended _ => a.fail (.context "bypass client->remote" e)
  | .ended (.ok _), .ended (.error e) => a.fail (.context "bypass remote->client" e)
  | .ended (.ok _), .ended (.ok _) => a.finish
  | up, down => { a with point := .relaying up down }

def step (a : Actor) : Event → Option Actor
  | .read data =>
    let read := { a with up := a.up.reads data }
    match a.point with
    | .parsing =>
      if data = [] then some (a.fail (.anyhow ⟨"connection closed during header parsing", []⟩))
      else some (parseTurn parsers expectedAuth bypass { read with buf := a.buf ++ data })
    | .early request early =>
      if data = [] then some (finishRun parsers bypass a request early)
      else some (earlyTurn parsers bypass read request (early ++ data))
    | .draining => if data = [] then some a.finish else some read
    | _ => none
  | .readFailed =>
    match a.point with
    | .parsing => some (a.fail (.io .socket))
    | .early request early => some (finishRun parsers bypass a request early)
    | .draining => some a.finish
    | _ => none
  | .timeout =>
    match a.point with
    | .parsing => some (a.fail (.anyhow ⟨"proxy request parse timeout", []⟩))
    | .early request early => some (finishRun parsers bypass a request early)
    | .draining => some a.finish
    | _ => none
  | .answer n =>
    match a.point with
    | .rejecting =>
      let a := { a with down := a.down.writes (PROXY_AUTH_REQUIRED_RESPONSE.take n) }
      if n < PROXY_AUTH_REQUIRED_RESPONSE.length then some (a.fail (.io .socket))
      else some { a with down := a.down.shutdown, point := .draining }
    | .answering request =>
      let a := { a with down := a.down.writes (CONNECT_RESPONSE.take n) }
      if n < CONNECT_RESPONSE.length then some (a.fail (.io .socket))
      else some (earlyTurn parsers bypass a request [])
    | _ => none
  | .connect c =>
    match a.point with
    | .connecting target payload =>
      let dialed := { a with remote := some target }
      match c with
      | .connected =>
        if payload = [] then some (relay dialed) else some { dialed with point := .sending payload 0 }
      | .failed => some (a.fail (.bypassConnect target .socket))
      | .nodelayFailed => some (dialed.fail (.io .socket))
    | _ => none
  | .payload w =>
    match a.point with
    | .sending payload off =>
      match writeTurn payload off w with
      | none => none
      | some (out, .error e) => some ({ a with up := a.up.writes out }.fail (.io e))
      | some (out, .ok off) =>
        let a := { a with up := a.up.writes out }
        if off < payload.length then some { a with point := .sending payload off } else some (relay a)
    | _ => none
  | .up e =>
    match a.point with
    | .relaying up down =>
      (copyTurn up a.up e).map fun (up, flow) => joined { a with up := flow } up down
    | _ => none
  | .down e =>
    match a.point with
    | .relaying up down =>
      (copyTurn down a.down e).map fun (down, flow) => joined { a with down := flow } up down
    | _ => none

/-- `ClientConnectionActor::run`, and `serve` of a redirect. -/
def Actor.start : Entry → Actor
  | .proxy => parseTurn parsers expectedAuth bypass ⟨.parsing, [], .new, .new, none⟩
  | .redirect target => openTunnel bypass ⟨.parsing, [], .new, .new, none⟩ target []

end Program

/-! ## Specification -/

/-- What the proxy answers to a request by itself. -/
def answerTo (request : ProxyRequest) : Bytes := if request.method = CONNECT then CONNECT_RESPONSE else []

section Spec

variable {lib : Tables} (parsers : Parsers) (expectedAuth : Option Bytes) (entry : Entry)

/-- A local program that has sent `sent` wants `stream` to reach `target`, and is answered `answer`. -/
inductive Asked (sent : Bytes) : (target stream answer : Bytes) → Prop where
  | proxy {head target stream : Bytes} {request : ProxyRequest} (hentry : entry = .proxy)
      (hfront : head <+: sent) (hparse : tryParseHead parsers head expectedAuth = .ok (some request))
      (hauthorized : request.authorized = true)
      (hrun : runConnection parsers request sent [] = .ok (target, stream)) :
      Asked sent target stream (answerTo request)
  | redirect {target : Bytes} (hentry : entry = .redirect target) : Asked sent target sent []

/-- A local program that has sent `sent` has no right to ask. -/
def Refused (sent : Bytes) : Prop :=
  ∃ head request, head <+: sent ∧ tryParseHead parsers head expectedAuth = .ok (some request) ∧
    request.authorized = false

end Spec

/-! ## A head does not change when more follows -/

variable {parsers : Parsers} {expectedAuth : Option Bytes} {entry : Entry} {request : ProxyRequest}

theorem stripProxyHeaders_grows {buf : Bytes} {n : Nat} (h : n ≤ buf.length) (more : Bytes) :
    stripProxyHeaders (buf ++ more) n =
      ((stripProxyHeaders buf n).1, (stripProxyHeaders buf n).2 ++ more) ∧
    (stripProxyHeaders buf n).1 ≤ (stripProxyHeaders buf n).2.length := by
  unfold stripProxyHeaders
  rw [List.take_append_of_le_length h, List.drop_append_of_le_length h]
  dsimp only
  split
  · exact ⟨rfl, h⟩
  · split
    · exact ⟨rfl, h⟩
    · split
      · exact ⟨rfl, h⟩
      · rename_i requestLine headers _ _
        show (_, requestLine ++ keepLines false headers ++ (buf.drop n ++ more)) =
            (_, requestLine ++ keepLines false headers ++ buf.drop n ++ more) ∧
          (requestLine ++ keepLines false headers).length ≤
            (requestLine ++ keepLines false headers ++ buf.drop n).length
        exact ⟨by simp only [List.append_assoc], (List.prefix_append _ _).length_le⟩

theorem rewriteRequestLine_grows {buf method originPath : Bytes} {n : Nat} (h : n ≤ buf.length)
    (more : Bytes) :
    rewriteRequestLine (buf ++ more) n method originPath =
      (rewriteRequestLine buf n method originPath).map (· ++ more) := by
  unfold rewriteRequestLine
  rw [List.take_append_of_le_length h]
  cases hend : (buf.take n).idxOf? 10 with
  | none => rfl
  | some lineEnd =>
    have hlt : lineEnd < buf.length := by
      obtain ⟨hlt, -, -⟩ := List.idxOf?_eq_some_iff.mp hend
      exact Nat.lt_of_lt_of_le hlt (List.length_take_le' _ _)
    dsimp only
    rw [List.take_append_of_le_length (Nat.le_of_lt hlt), List.drop_append_of_le_length hlt]
    split
    · rfl
    · split
      · rfl
      · split
        · rfl
        · rw [← List.append_assoc]
          rfl

/-- **The crux.**  More bytes behind those that `run` has seen go behind the payload. -/
theorem runConnection_grows {buf early target payload : Bytes} (hlen : request.headerLen ≤ buf.length)
    (hearly : request.method ≠ CONNECT → early = [])
    (h : runConnection parsers request buf early = .ok (target, payload)) (more : Bytes) :
    runConnection parsers request (buf ++ early ++ more) [] = .ok (target, payload ++ more) := by
  unfold runConnection at h ⊢
  by_cases hconnect : request.method = CONNECT
  · rw [if_pos hconnect] at h ⊢
    dsimp only at h ⊢
    rw [resolveRequest, if_pos hconnect] at h ⊢
    cases hresolve : resolveConnectHost parsers request.target with
    | error e =>
      rw [hresolve] at h
      cases h
    | ok host =>
      rw [hresolve] at h
      obtain ⟨rfl, rfl⟩ := Prod.mk.inj (Except.ok.inj h)
      show Except.ok (host, _) = Except.ok (host, _)
      rw [List.append_nil, List.append_assoc, List.drop_append_of_le_length hlen, List.append_assoc]
  · obtain rfl := hearly hconnect
    rw [if_neg hconnect] at h ⊢
    dsimp only at h ⊢
    rw [List.append_nil]
    cases hresolve : resolveRequest parsers request.method request.target with
    | error e =>
      rw [hresolve] at h
      cases h
    | ok resolved =>
      obtain ⟨host, origin⟩ := resolved
      rw [hresolve] at h
      cases origin with
      | none =>
        obtain ⟨rfl, rfl⟩ := Prod.mk.inj (Except.ok.inj h)
        rfl
      | some originPath =>
        obtain ⟨hstrip, hle⟩ := stripProxyHeaders_grows hlen more
        dsimp only at h ⊢
        rw [hstrip]
        dsimp only
        rw [rewriteRequestLine_grows hle]
        cases hrewrite : rewriteRequestLine (stripProxyHeaders buf request.headerLen).2
            (stripProxyHeaders buf request.headerLen).1 request.method originPath with
        | error e =>
          rw [hrewrite] at h
          cases h
        | ok rewritten =>
          rw [hrewrite] at h
          obtain ⟨rfl, rfl⟩ := Prod.mk.inj (Except.ok.inj h)
          rfl

/-! ## Invariants -/

section Invariants

variable {lib : Tables} {bypass : Option (Rules lib)} {a a' : Actor}

/-- `Asked`, and what follows is wanted as well. -/
def Asks (parsers : Parsers) (expectedAuth : Option Bytes) (entry : Entry)
    (sent target stream answer : Bytes) : Prop :=
  ∀ more, Asked parsers expectedAuth entry (sent ++ more) target (stream ++ more) answer

theorem Asks.now {sent target stream answer : Bytes}
    (h : Asks parsers expectedAuth entry sent target stream answer) :
    Asked parsers expectedAuth entry sent target stream answer := by
  have := h []
  rwa [List.append_nil, List.append_nil] at this

theorem Asks.reads {sent target stream answer : Bytes}
    (h : Asks parsers expectedAuth entry sent target stream answer) (data : Bytes) :
    Asks parsers expectedAuth entry (sent ++ data) target (stream ++ data) answer := by
  intro more
  rw [List.append_assoc, List.append_assoc]
  exact h _

/-- Nothing has gone to a target, nothing has come from one, and the program has been told at most what the
    proxy says by itself. -/
structure Alone (up down : Flow) (remote : Option Bytes) : Prop where
  remote : remote = none
  sent : up.written = []
  got : down.read = []
  told : down.written <+: CONNECT_RESPONSE ∨ down.written <+: PROXY_AUTH_REQUIRED_RESPONSE

variable (parsers expectedAuth entry bypass) in
/-- The target is connected to: each direction is a pump, with `heldUp` and `heldDown` under way. -/
structure Opened (up down : Flow) (remote : Option Bytes) (heldUp heldDown : Bytes) : Prop where
  wanted : ∃ target stream answer, remote = some target ∧
    (bypass.any fun rules => shouldBypass rules target) = true ∧
    Asks parsers expectedAuth entry up.read target stream answer ∧
    Carries stream up.written heldUp ∧ Carries (answer ++ down.read) down.written heldDown

/-- What a copying loop has taken and not given yet; of one that has failed, nobody knows. -/
def Copy.Holds (held : Bytes) : Copy → Prop
  | .reading | .ended (.ok _) => held = []
  | .writing data off => held = data.drop off ∧ off < data.length
  | .ended (.error _) => True

def Copy.isEnded : Copy → Bool
  | .ended _ => true
  | _ => false

/-- Which of the two writers have been shut down. -/
def Point.shuts : Point → Option (Bool × Bool)
  | .draining => some (false, true)
  | .relaying up down => some (up.isEnded, down.isEnded)
  | .ended _ => none
  | _ => some (false, false)

variable (parsers expectedAuth entry) in
/-- `parse_proxy_request` has returned the request for the buffer. -/
structure Granted (buf : Bytes) (request : ProxyRequest) : Prop where
  entry : entry = .proxy
  parse : tryParseHead parsers buf expectedAuth = .ok (some request)
  authorized : request.authorized = true

variable (parsers expectedAuth entry bypass) in
/-- What holds while the task is where it is. -/
def Phase (buf : Bytes) (up down : Flow) (remote : Option Bytes) : Point → Prop
  | .parsing => Alone up down remote ∧ entry = .proxy ∧ up.read = buf ∧ down.written = []
  | .rejecting => Alone up down remote ∧ Refused parsers expectedAuth up.read ∧ down.written = []
  | .draining =>
    Alone up down remote ∧ Refused parsers expectedAuth up.read ∧
      down.written = PROXY_AUTH_REQUIRED_RESPONSE
  | .answering request =>
    Alone up down remote ∧ Granted parsers expectedAuth entry buf request ∧ request.method = CONNECT ∧
      up.read = buf ∧ down.written = []
  | .early request early =>
    Alone up down remote ∧ Granted parsers expectedAuth entry buf request ∧ request.method = CONNECT ∧
      up.read = buf ++ early ∧ down.written = CONNECT_RESPONSE
  | .connecting target payload =>
    Alone up down remote ∧ (bypass.any fun rules => shouldBypass rules target) = true ∧
      Asks parsers expectedAuth entry up.read target payload down.written
  | .sending payload off =>
    off < payload.length ∧
      Opened parsers expectedAuth entry bypass up down remote (payload.drop off) []
  | .relaying u d =>
    ∃ heldUp heldDown, u.Holds heldUp ∧ d.Holds heldDown ∧
      Opened parsers expectedAuth entry bypass up down remote heldUp heldDown
  | .tunnelling target payload =>
    Alone up down remote ∧ (bypass.any fun rules => shouldBypass rules target) = false ∧
      Asks parsers expectedAuth entry up.read target payload down.written
  | .ended (.ok _) =>
    (Alone up down remote ∧ Refused parsers expectedAuth up.read ∧
        down.written = PROXY_AUTH_REQUIRED_RESPONSE) ∨
      Opened parsers expectedAuth entry bypass up down remote [] []
  | .ended (.error _) =>
    Alone up down remote ∨
      ∃ heldUp heldDown, Opened parsers expectedAuth entry bypass up down remote heldUp heldDown

variable (parsers expectedAuth entry bypass) in
structure Inv (a : Actor) : Prop where
  phase : Phase parsers expectedAuth entry bypass a.buf a.up a.down a.remote a.point
  shut : ∀ p, a.point.shuts = some p → (a.up.shut, a.down.shut) = p

theorem Alone.inv_fail (h : Alone a.up a.down a.remote) (e : Failure) :
    Inv parsers expectedAuth entry bypass (a.fail e) := ⟨.inl h, by rintro _ ⟨⟩⟩

/-! ## The functions -/

/-- Neither writer has been shut down. -/
def Unshut (a : Actor) : Prop := (a.up.shut, a.down.shut) = (false, false)

theorem inv_openTunnel {target payload : Bytes} (halone : Alone a.up a.down a.remote) (hshut : Unshut a)
    (hasks : Asks parsers expectedAuth entry a.up.read target payload a.down.written) :
    Inv parsers expectedAuth entry bypass (openTunnel bypass a target payload) := by
  unfold openTunnel
  split
  · rename_i hbypass
    exact ⟨⟨halone, hbypass, hasks⟩, by rintro _ ⟨⟩; exact hshut⟩
  · rename_i hbypass
    exact ⟨⟨halone, Bool.eq_false_iff.mpr hbypass, hasks⟩, by rintro _ ⟨⟩; exact hshut⟩

/-- What `httparse` promises: a head is in the buffer. -/
def HeadsWithin (parsers : Parsers) : Prop :=
  ∀ {b p}, parsers.head b = .ok (some p) → p.amt ≤ b.length

theorem Granted.headerLen_le {buf : Bytes} (hlen : HeadsWithin parsers)
    (h : Granted parsers expectedAuth entry buf request) : request.headerLen ≤ buf.length := by
  obtain ⟨head, hhead, -, -, hamt⟩ := tryParseHead_ok h.parse
  exact hamt ▸ hlen hhead

theorem inv_finishRun {early : Bytes} (hlen : HeadsWithin parsers) (halone : Alone a.up a.down a.remote)
    (hshut : Unshut a) (hgranted : Granted parsers expectedAuth entry a.buf request)
    (hearly : request.method ≠ CONNECT → early = []) (hread : a.up.read = a.buf ++ early)
    (hanswer : a.down.written = answerTo request) :
    Inv parsers expectedAuth entry bypass (finishRun parsers bypass a request early) := by
  unfold finishRun
  split
  · exact halone.inv_fail _
  · rename_i target payload hrun
    refine inv_openTunnel halone hshut fun more => ?_
    rw [hanswer]
    refine .proxy hgranted.entry ?_ hgranted.parse hgranted.authorized ?_
    · rw [hread, List.append_assoc]
      exact List.prefix_append _ _
    · rw [hread]
      exact runConnection_grows (hgranted.headerLen_le hlen) hearly hrun more

theorem inv_earlyTurn {early : Bytes} (hlen : HeadsWithin parsers) (halone : Alone a.up a.down a.remote)
    (hshut : Unshut a) (hgranted : Granted parsers expectedAuth entry a.buf request)
    (hconnect : request.method = CONNECT) (hread : a.up.read = a.buf ++ early)
    (hanswer : a.down.written = CONNECT_RESPONSE) :
    Inv parsers expectedAuth entry bypass (earlyTurn parsers bypass a request early) := by
  unfold earlyTurn
  dsimp only
  split
  · exact inv_finishRun hlen halone hshut hgranted (fun h => absurd hconnect h) hread
      (by rw [hanswer, answerTo, if_pos hconnect])
  · exact ⟨⟨halone, hgranted, hconnect, hread, hanswer⟩, by rintro _ ⟨⟩; exact hshut⟩

theorem inv_parseTurn (hlen : HeadsWithin parsers) (halone : Alone a.up a.down a.remote)
    (hshut : Unshut a) (hentry : entry = .proxy) (hread : a.up.read = a.buf)
    (hanswer : a.down.written = []) :
    Inv parsers expectedAuth entry bypass (parseTurn parsers expectedAuth bypass a) := by
  unfold parseTurn
  split
  · exact halone.inv_fail _
  · split
    · exact halone.inv_fail _
    · exact ⟨⟨halone, hentry, hread, hanswer⟩, by rintro _ ⟨⟩; exact hshut⟩
  · rename_i request hparse
    split
    · rename_i hauthorized
      exact ⟨⟨halone, ⟨a.buf, request, by rw [hread], hparse, hauthorized⟩, hanswer⟩,
        by rintro _ ⟨⟩; exact hshut⟩
    · rename_i hauthorized
      have hgranted : Granted parsers expectedAuth entry a.buf request :=
        ⟨hentry, hparse, by simpa using hauthorized⟩
      split
      · rename_i hconnect
        exact ⟨⟨halone, hgranted, hconnect, hread, hanswer⟩, by rintro _ ⟨⟩; exact hshut⟩
      · rename_i hconnect
        exact inv_finishRun hlen halone hshut hgranted (fun _ => rfl) (by rw [hread, List.append_nil])
          (by rw [hanswer, answerTo, if_neg hconnect])

/-! ## The copying loops -/

/-- A write takes a front of what is held, and nothing when it fails. -/
theorem writeTurn_moves {data out : Bytes} {off : Nat} {w : Write} {r : Except IoError Nat}
    (h : writeTurn data off w = some (out, r)) :
    (∃ e, r = .error e ∧ out = []) ∨
      ∃ n, r = .ok (off + n) ∧ out = (data.drop off).take n := by
  cases w with
  | wrote n =>
    rw [writeTurn] at h
    split at h
    · cases h
    · split at h
      · obtain ⟨rfl, rfl⟩ := Prod.mk.inj (Option.some.inj h)
        exact .inl ⟨_, rfl, rfl⟩
      · obtain ⟨rfl, rfl⟩ := Prod.mk.inj (Option.some.inj h)
        exact .inr ⟨n, rfl, rfl⟩
  | failed | stalled =>
    obtain ⟨rfl, rfl⟩ := Prod.mk.inj (Option.some.inj h)
    exact .inl ⟨_, rfl, rfl⟩

/-- A turn of a copying loop is a move of a pump, from what its reader returns to what its writer takes. -/
theorem copyTurn_moves {c c' : Copy} {f f' : Flow} {e : CopyEvent} {held : Bytes}
    (h : copyTurn c f e = some (c', f')) (hheld : c.Holds held) (hshut : f.shut = c.isEnded) :
    f.shut = false ∧ f'.shut = c'.isEnded ∧ ∃ data held', f'.read = f.read ++ data ∧ c'.Holds held' ∧
      ∀ {stream}, Carries stream f.written held → Carries (stream ++ data) f'.written held' := by
  unfold copyTurn at h
  split at h
  · split at h
    · obtain rfl : held = [] := hheld
      split at h
      · cases h
      · split at h
        · obtain ⟨rfl, rfl⟩ := Prod.mk.inj (Option.some.inj h)
          exact ⟨hshut, rfl, [], [], (List.append_nil _).symm, rfl, fun hc => hc.fetch []⟩
        · rename_i hdata
          obtain ⟨rfl, rfl⟩ := Prod.mk.inj (Option.some.inj h)
          exact ⟨hshut, hshut, _, _, rfl, ⟨rfl, List.length_pos_iff.mpr hdata⟩, fun hc => hc.fetch _⟩
    · cases h
  · split at h
    · obtain rfl : held = [] := hheld
      obtain ⟨rfl, rfl⟩ := Prod.mk.inj (Option.some.inj h)
      exact ⟨hshut, rfl, [], [], (List.append_nil _).symm, trivial, fun hc => hc.fetch []⟩
    · cases h
  · split at h
    · rename_i data off
      obtain ⟨rfl, hoff⟩ : held = data.drop off ∧ off < data.length := hheld
      split at h
      · cases h
      · rename_i out err hwrite
        obtain ⟨rfl, rfl⟩ := Prod.mk.inj (Option.some.inj h)
        obtain ⟨_, -, rfl⟩ | ⟨_, hr, -⟩ := writeTurn_moves hwrite
        · refine ⟨hshut, rfl, [], data.drop off ++ [], (List.append_nil _).symm, trivial, fun hc => ?_⟩
          show Carries _ (f.written ++ []) _
          rw [List.append_nil f.written]
          exact hc.fetch []
        · cases hr
      · rename_i out off' hwrite
        obtain ⟨_, hr, -⟩ | ⟨n, hr, rfl⟩ := writeTurn_moves hwrite
        · cases hr
        obtain rfl := Except.ok.inj hr
        have hmoves : ∀ {stream}, Carries stream f.written (data.drop off) →
            Carries (stream ++ []) (f.written ++ (data.drop off).take n) (data.drop (off + n)) := by
          intro stream hc
          rw [List.append_nil]
          exact hc.advance n
        split at h
        · rename_i hmore
          obtain ⟨rfl, rfl⟩ := Prod.mk.inj (Option.some.inj h)
          exact ⟨hshut, hshut, [], _, (List.append_nil _).symm, ⟨rfl, hmore⟩, hmoves⟩
        · rename_i hall
          obtain ⟨rfl, rfl⟩ := Prod.mk.inj (Option.some.inj h)
          refine ⟨hshut, hshut, [], _, (List.append_nil _).symm, ?_, hmoves⟩
          exact List.drop_eq_nil_of_le (Nat.le_of_not_lt hall)
    · cases h

/-! ## Steps -/

theorem inv_joined {u d : Copy} {heldUp heldDown : Bytes} (hu : u.Holds heldUp) (hd : d.Holds heldDown)
    (hshut : (a.up.shut, a.down.shut) = (u.isEnded, d.isEnded))
    (h : Opened parsers expectedAuth entry bypass a.up a.down a.remote heldUp heldDown) :
    Inv parsers expectedAuth entry bypass (joined a u d) := by
  unfold joined
  split
  · exact ⟨.inr ⟨_, _, h⟩, by rintro _ ⟨⟩⟩
  · exact ⟨.inr ⟨_, _, h⟩, by rintro _ ⟨⟩⟩
  · obtain rfl : heldUp = [] := hu
    obtain rfl : heldDown = [] := hd
    exact ⟨.inr h, by rintro _ ⟨⟩⟩
  · exact ⟨⟨_, _, hu, hd, h⟩, by rintro _ ⟨⟩; exact hshut⟩

theorem Refused.reads {sent : Bytes} (h : Refused parsers expectedAuth sent) (data : Bytes) :
    Refused parsers expectedAuth (sent ++ data) := by
  obtain ⟨head, request, hfront, hparse, hauthorized⟩ := h
  exact ⟨head, request, hfront.trans (List.prefix_append _ _), hparse, hauthorized⟩

theorem Alone.reads {up down : Flow} {remote : Option Bytes} (h : Alone up down remote) (data : Bytes) :
    Alone (up.reads data) down remote := ⟨h.remote, h.sent, h.got, h.told⟩

/-- The answer of the proxy is the first that the program is told. -/
theorem Alone.tells {up down : Flow} {remote : Option Bytes} {answer : Bytes} (h : Alone up down remote)
    (hnone : down.written = []) (hanswer : answer = CONNECT_RESPONSE ∨ answer = PROXY_AUTH_REQUIRED_RESPONSE)
    (n : Nat) : Alone up (down.writes (answer.take n)) remote := by
  refine ⟨h.remote, h.sent, h.got, ?_⟩
  show down.written ++ answer.take n <+: _ ∨ down.written ++ answer.take n <+: _
  rw [hnone, List.nil_append]
  rcases hanswer with rfl | rfl
  · exact .inl (List.take_prefix _ _)
  · exact .inr (List.take_prefix _ _)

theorem tells_all {down : Flow} {answer : Bytes} {n : Nat} (hnone : down.written = [])
    (hn : ¬ n < answer.length) : (down.writes (answer.take n)).written = answer := by
  show down.written ++ answer.take n = answer
  rw [hnone, List.nil_append, List.take_of_length_le (Nat.le_of_not_lt hn)]

theorem inv_read {data : Bytes} (hlen : HeadsWithin parsers)
    (h : Inv parsers expectedAuth entry bypass a)
    (hstep : step parsers expectedAuth bypass a (.read data) = some a') :
    Inv parsers expectedAuth entry bypass a' := by
  obtain ⟨hphase, hshut⟩ := h
  unfold step at hstep
  dsimp only at hstep
  split at hstep <;> rename_i hpoint
  · rw [hpoint] at hphase hshut
    obtain ⟨halone, hentry, hread, hanswer⟩ := hphase
    split at hstep <;> obtain rfl := Option.some.inj hstep
    · exact halone.inv_fail _
    · refine inv_parseTurn hlen (halone.reads data) (hshut _ rfl) hentry ?_ hanswer
      show a.up.read ++ data = a.buf ++ data
      rw [hread]
  · rw [hpoint] at hphase hshut
    obtain ⟨halone, hgranted, hconnect, hread, hanswer⟩ := hphase
    split at hstep <;> obtain rfl := Option.some.inj hstep
    · exact inv_finishRun hlen halone (hshut _ rfl) hgranted (fun hne => absurd hconnect hne) hread
        (by rw [hanswer, answerTo, if_pos hconnect])
    · refine inv_earlyTurn hlen (halone.reads data) (hshut _ rfl) hgranted hconnect ?_ hanswer
      show a.up.read ++ data = a.buf ++ (_ ++ data)
      rw [hread, List.append_assoc]
  · rw [hpoint] at hphase hshut
    obtain ⟨halone, hrefused, hanswer⟩ := hphase
    split at hstep <;> obtain rfl := Option.some.inj hstep
    · exact ⟨.inl ⟨halone, hrefused, hanswer⟩, by rintro _ ⟨⟩⟩
    · refine ⟨?_, ?_⟩
      · show Phase parsers expectedAuth entry bypass a.buf (a.up.reads data) a.down a.remote a.point
        rw [hpoint]
        exact ⟨halone.reads data, hrefused.reads data, hanswer⟩
      · show ∀ p, a.point.shuts = some p → _
        rw [hpoint]
        exact hshut
  · cases hstep

/-- A failing read and a timeout end what they interrupt in the same way, but for the error. -/
theorem inv_interrupted {e : Event} (he : e = .readFailed ∨ e = .timeout) (hlen : HeadsWithin parsers)
    (h : Inv parsers expectedAuth entry bypass a)
    (hstep : step parsers expectedAuth bypass a e = some a') :
    Inv parsers expectedAuth entry bypass a' := by
  obtain ⟨hphase, hshut⟩ := h
  have hends : (∃ err, a.point = .parsing ∧ a' = a.fail err) ∨
      (∃ request early, a.point = .early request early ∧ a' = finishRun parsers bypass a request early) ∨
      a.point = .draining ∧ a' = a.finish := by
    rcases he with rfl | rfl <;> unfold step at hstep <;> dsimp only at hstep <;> split at hstep <;>
      rename_i hpoint
    · exact .inl ⟨_, hpoint, (Option.some.inj hstep).symm⟩
    · exact .inr (.inl ⟨_, _, hpoint, (Option.some.inj hstep).symm⟩)
    · exact .inr (.inr ⟨hpoint, (Option.some.inj hstep).symm⟩)
    · cases hstep
    · exact .inl ⟨_, hpoint, (Option.some.inj hstep).symm⟩
    · exact .inr (.inl ⟨_, _, hpoint, (Option.some.inj hstep).symm⟩)
    · exact .inr (.inr ⟨hpoint, (Option.some.inj hstep).symm⟩)
    · cases hstep
  obtain ⟨err, hpoint, rfl⟩ | ⟨request, early, hpoint, rfl⟩ | ⟨hpoint, rfl⟩ := hends
  · rw [hpoint] at hphase
    exact hphase.1.inv_fail err
  · rw [hpoint] at hphase hshut
    obtain ⟨halone, hgranted, hconnect, hread, hanswer⟩ := hphase
    exact inv_finishRun hlen halone (hshut _ rfl) hgranted (fun hne => absurd hconnect hne) hread
      (by rw [hanswer, answerTo, if_pos hconnect])
  · rw [hpoint] at hphase
    exact ⟨.inl hphase, by rintro _ ⟨⟩⟩

theorem inv_answer {n : Nat} (hlen : HeadsWithin parsers) (h : Inv parsers expectedAuth entry bypass a)
    (hstep : step parsers expectedAuth bypass a (.answer n) = some a') :
    Inv parsers expectedAuth entry bypass a' := by
  obtain ⟨hphase, hshut⟩ := h
  unfold step at hstep
  dsimp only at hstep
  split at hstep <;> rename_i hpoint
  · rw [hpoint] at hphase hshut
    obtain ⟨halone, hrefused, hnone⟩ := hphase
    split at hstep <;> rename_i hn <;> obtain rfl := Option.some.inj hstep
    · exact (halone.tells hnone (.inr rfl) n).inv_fail _
    · obtain ⟨hremote, hsent, hgot, htold⟩ := halone.tells hnone (.inr rfl) n
      refine ⟨⟨⟨hremote, hsent, hgot, htold⟩, hrefused, tells_all hnone hn⟩, ?_⟩
      have hup : a.up.shut = false := congrArg Prod.fst (hshut _ rfl)
      rintro _ ⟨⟩
      exact Prod.ext hup rfl
  · rw [hpoint] at hphase hshut
    obtain ⟨halone, hgranted, hconnect, hread, hnone⟩ := hphase
    split at hstep <;> rename_i hn <;> obtain rfl := Option.some.inj hstep
    · exact (halone.tells hnone (.inl rfl) n).inv_fail _
    · exact inv_earlyTurn hlen (halone.tells hnone (.inl rfl) n) (hshut _ rfl) hgranted hconnect
        (by rw [List.append_nil]; exact hread) (tells_all hnone hn)
  · cases hstep

theorem inv_connect {c : Connect} (h : Inv parsers expectedAuth entry bypass a)
    (hstep : step parsers expectedAuth bypass a (.connect c) = some a') :
    Inv parsers expectedAuth entry bypass a' := by
  obtain ⟨hphase, hshut⟩ := h
  unfold step at hstep
  dsimp only at hstep
  split at hstep <;> rename_i hpoint
  · rename_i target payload
    rw [hpoint] at hphase hshut
    obtain ⟨halone, hbypass, hasks⟩ := hphase
    have hopened : Opened parsers expectedAuth entry bypass a.up a.down (some target) payload [] := by
      refine ⟨target, payload, a.down.written, rfl, hbypass, hasks, ?_, ?_⟩
      · rw [halone.sent]
        exact .start payload
      · rw [halone.got, List.append_nil]
        exact List.append_nil _
    cases c with
    | connected =>
      dsimp only at hstep
      split at hstep <;> rename_i hpayload <;> obtain rfl := Option.some.inj hstep
      · obtain rfl : payload = [] := hpayload
        exact ⟨⟨[], [], rfl, rfl, hopened⟩, by rintro _ ⟨⟩; exact hshut _ rfl⟩
      · exact ⟨⟨List.length_pos_iff.mpr hpayload, hopened⟩, by rintro _ ⟨⟩; exact hshut _ rfl⟩
    | failed =>
      obtain rfl := Option.some.inj hstep
      exact halone.inv_fail _
    | nodelayFailed =>
      obtain rfl := Option.some.inj hstep
      exact ⟨.inr ⟨_, _, hopened⟩, by rintro _ ⟨⟩⟩
  · cases hstep

theorem inv_payload {w : Write} (h : Inv parsers expectedAuth entry bypass a)
    (hstep : step parsers expectedAuth bypass a (.payload w) = some a') :
    Inv parsers expectedAuth entry bypass a' := by
  obtain ⟨hphase, hshut⟩ := h
  unfold step at hstep
  dsimp only at hstep
  split at hstep <;> rename_i hpoint
  · rename_i payload off
    rw [hpoint] at hphase hshut
    obtain ⟨-, target, stream, answer, hremote, hbypass, hasks, hup, hdown⟩ := hphase
    split at hstep
    · cases hstep
    · rename_i out err hwrite
      obtain rfl := Option.some.inj hstep
      obtain ⟨_, -, rfl⟩ | ⟨_, hr, -⟩ := writeTurn_moves hwrite
      · refine ⟨.inr ⟨payload.drop off, [], target, stream, answer, hremote, hbypass, hasks, ?_, hdown⟩,
          by rintro _ ⟨⟩⟩
        show Carries stream (a.up.written ++ []) _
        rw [List.append_nil]
        exact hup
      · cases hr
    · rename_i out off' hwrite
      obtain ⟨_, hr, -⟩ | ⟨n, hr, rfl⟩ := writeTurn_moves hwrite
      · cases hr
      obtain rfl := Except.ok.inj hr
      split at hstep <;> rename_i hmore <;> obtain rfl := Option.some.inj hstep
      · exact ⟨⟨hmore, target, stream, answer, hremote, hbypass, hasks, hup.advance n, hdown⟩,
          by rintro _ ⟨⟩; exact hshut _ rfl⟩
      · refine ⟨⟨_, _, ?_, rfl, target, stream, answer, hremote, hbypass, hasks, hup.advance n, hdown⟩,
          by rintro _ ⟨⟩; exact hshut _ rfl⟩
        exact List.drop_eq_nil_of_le (Nat.le_of_not_lt hmore)
  · cases hstep

theorem inv_up {e : CopyEvent} (h : Inv parsers expectedAuth entry bypass a)
    (hstep : step parsers expectedAuth bypass a (.up e) = some a') :
    Inv parsers expectedAuth entry bypass a' := by
  obtain ⟨hphase, hshut⟩ := h
  unfold step at hstep
  dsimp only at hstep
  split at hstep <;> rename_i hpoint
  · rw [hpoint] at hphase hshut
    obtain ⟨heldUp, heldDown, hu, hd, target, stream, answer, hremote, hbypass, hasks, hup, hdown⟩ := hphase
    obtain ⟨⟨c, f⟩, hturn, rfl⟩ := Option.map_eq_some_iff.mp hstep
    obtain ⟨hshutUp, hshutDown⟩ := Prod.mk.inj (hshut _ rfl)
    obtain ⟨-, hshut', data, held, hread, hholds, hmoves⟩ := copyTurn_moves hturn hu hshutUp
    refine inv_joined hholds hd (Prod.ext hshut' hshutDown)
      ⟨target, stream ++ data, answer, hremote, hbypass, ?_, hmoves hup, hdown⟩
    show Asks parsers expectedAuth entry f.read _ _ _
    rw [hread]
    exact hasks.reads data
  · cases hstep

theorem inv_down {e : CopyEvent} (h : Inv parsers expectedAuth entry bypass a)
    (hstep : step parsers expectedAuth bypass a (.down e) = some a') :
    Inv parsers expectedAuth entry bypass a' := by
  obtain ⟨hphase, hshut⟩ := h
  unfold step at hstep
  dsimp only at hstep
  split at hstep <;> rename_i hpoint
  · rw [hpoint] at hphase hshut
    obtain ⟨heldUp, heldDown, hu, hd, target, stream, answer, hremote, hbypass, hasks, hup, hdown⟩ := hphase
    obtain ⟨⟨c, f⟩, hturn, rfl⟩ := Option.map_eq_some_iff.mp hstep
    obtain ⟨hshutUp, hshutDown⟩ := Prod.mk.inj (hshut _ rfl)
    obtain ⟨-, hshut', data, held, hread, hholds, hmoves⟩ := copyTurn_moves hturn hd hshutDown
    refine inv_joined hu hholds (Prod.ext hshutUp hshut')
      ⟨target, stream, answer, hremote, hbypass, hasks, hup, ?_⟩
    show Carries (answer ++ f.read) f.written held
    rw [hread, ← List.append_assoc]
    exact hmoves hdown
  · cases hstep

theorem inv_step {e : Event} (hlen : HeadsWithin parsers) (h : Inv parsers expectedAuth entry bypass a)
    (hstep : step parsers expectedAuth bypass a e = some a') :
    Inv parsers expectedAuth entry bypass a' := by
  cases e with
  | read data => exact inv_read hlen h hstep
  | readFailed => exact inv_interrupted (.inl rfl) hlen h hstep
  | timeout => exact inv_interrupted (.inr rfl) hlen h hstep
  | answer n => exact inv_answer hlen h hstep
  | connect c => exact inv_connect h hstep
  | payload w => exact inv_payload h hstep
  | up e => exact inv_up h hstep
  | down e => exact inv_down h hstep

theorem inv_start (hlen : HeadsWithin parsers) :
    Inv parsers expectedAuth entry bypass (.start parsers expectedAuth bypass entry) := by
  have halone : Alone .new .new none := ⟨rfl, rfl, rfl, .inl (List.nil_prefix)⟩
  cases entry with
  | proxy => exact inv_parseTurn hlen halone rfl rfl rfl rfl
  | redirect target => exact inv_openTunnel halone rfl fun more => .redirect rfl

/-! ## Nothing behind a shutdown -/

def Actor.written (a : Actor) : Bytes × Bytes := (a.up.written, a.down.written)

theorem written_openTunnel (a : Actor) (target payload : Bytes) :
    (openTunnel bypass a target payload).written = a.written := by
  unfold openTunnel
  split <;> rfl

theorem written_finishRun (a : Actor) (request : ProxyRequest) (early : Bytes) :
    (finishRun parsers bypass a request early).written = a.written := by
  unfold finishRun
  split
  · rfl
  · exact written_openTunnel _ _ _

theorem written_earlyTurn (a : Actor) (request : ProxyRequest) (early : Bytes) :
    (earlyTurn parsers bypass a request early).written = a.written := by
  unfold earlyTurn
  dsimp only
  split
  · exact written_finishRun _ _ _
  · rfl

theorem written_parseTurn (a : Actor) :
    (parseTurn parsers expectedAuth bypass a).written = a.written := by
  unfold parseTurn
  split
  · rfl
  · split <;> rfl
  · split
    · rfl
    · split
      · rfl
      · exact written_finishRun _ _ _

theorem written_joined (a : Actor) (u d : Copy) : (joined a u d).written = a.written := by
  unfold joined
  split <;> rfl

/-- A step that writes finds its writer open. -/
theorem writes_unshut {e : Event} (h : Inv parsers expectedAuth entry bypass a)
    (hstep : step parsers expectedAuth bypass a e = some a') :
    (a.up.shut = true → a'.up.written = a.up.written) ∧
      (a.down.shut = true → a'.down.written = a.down.written) := by
  obtain ⟨hphase, hshut⟩ := h
  have hsame : a'.written = a.written → (a.up.shut = true → a'.up.written = a.up.written) ∧
      (a.down.shut = true → a'.down.written = a.down.written) := fun hw =>
    ⟨fun _ => congrArg Prod.fst hw, fun _ => congrArg Prod.snd hw⟩
  have hunshut : Unshut a → (a.up.shut = true → a'.up.written = a.up.written) ∧
      (a.down.shut = true → a'.down.written = a.down.written) := by
    intro hno
    obtain ⟨hup, hdown⟩ := Prod.mk.inj hno
    constructor
    · intro ht
      rw [hup] at ht
      cases ht
    · intro ht
      rw [hdown] at ht
      cases ht
  cases e with
  | read data =>
    unfold step at hstep
    dsimp only at hstep
    split at hstep
    · split at hstep <;> obtain rfl := Option.some.inj hstep
      · exact hsame rfl
      · exact hsame (written_parseTurn _)
    · split at hstep <;> obtain rfl := Option.some.inj hstep
      · exact hsame (written_finishRun _ _ _)
      · exact hsame (written_earlyTurn _ _ _)
    · split at hstep <;> obtain rfl := Option.some.inj hstep <;> exact hsame rfl
    · cases hstep
  | readFailed | timeout =>
    unfold step at hstep
    dsimp only at hstep
    split at hstep
    · obtain rfl := Option.some.inj hstep
      exact hsame rfl
    · obtain rfl := Option.some.inj hstep
      exact hsame (written_finishRun _ _ _)
    · obtain rfl := Option.some.inj hstep
      exact hsame rfl
    · cases hstep
  | answer n =>
    unfold step at hstep
    dsimp only at hstep
    split at hstep <;> rename_i hpoint
    · exact hunshut (hshut _ (by rw [hpoint]; rfl))
    · exact hunshut (hshut _ (by rw [hpoint]; rfl))
    · cases hstep
  | connect c =>
    unfold step at hstep
    dsimp only at hstep
    split at hstep <;> rename_i hpoint
    · exact hunshut (hshut _ (by rw [hpoint]; rfl))
    · cases hstep
  | payload w =>
    unfold step at hstep
    dsimp only at hstep
    split at hstep <;> rename_i hpoint
    · exact hunshut (hshut _ (by rw [hpoint]; rfl))
    · cases hstep
  | up e =>
    unfold step at hstep
    dsimp only at hstep
    split at hstep <;> rename_i hpoint
    · rw [hpoint] at hphase hshut
      obtain ⟨heldUp, heldDown, hu, hd, -⟩ := hphase
      obtain ⟨⟨c, f⟩, hturn, rfl⟩ := Option.map_eq_some_iff.mp hstep
      have hopen := (copyTurn_moves hturn hu (congrArg Prod.fst (hshut _ rfl))).1
      refine ⟨fun ht => ?_, fun _ => congrArg Prod.snd (written_joined { a with up := f } _ _)⟩
      rw [hopen] at ht
      cases ht
    · cases hstep
  | down e =>
    unfold step at hstep
    dsimp only at hstep
    split at hstep <;> rename_i hpoint
    · rw [hpoint] at hphase hshut
      obtain ⟨heldUp, heldDown, hu, hd, -⟩ := hphase
      obtain ⟨⟨c, f⟩, hturn, rfl⟩ := Option.map_eq_some_iff.mp hstep
      have hopen := (copyTurn_moves hturn hd (congrArg Prod.snd (hshut _ rfl))).1
      refine ⟨fun _ => congrArg Prod.fst (written_joined { a with down := f } _ _), fun ht => ?_⟩
      rw [hopen] at ht
      cases ht
    · cases hstep

theorem Inv.alone (h : Inv parsers expectedAuth entry bypass a) (hnone : a.remote = none) :
    Alone a.up a.down a.remote := by
  obtain ⟨hphase, -⟩ := h
  have hopened : ∀ {heldUp heldDown}, ¬ Opened parsers expectedAuth entry bypass a.up a.down a.remote
      heldUp heldDown := by
    rintro _ _ ⟨target, -, -, hsome, -⟩
    rw [hnone] at hsome
    cases hsome
  cases hpoint : a.point with
  | parsing | rejecting | draining | answering | early | connecting | tunnelling =>
    rw [hpoint] at hphase
    exact hphase.1
  | sending payload off =>
    rw [hpoint] at hphase
    exact absurd hphase.2 hopened
  | relaying u d =>
    rw [hpoint] at hphase
    obtain ⟨_, _, -, -, h⟩ := hphase
    exact absurd h hopened
  | ended r =>
    rw [hpoint] at hphase
    cases r with
    | ok _ =>
      rcases hphase with h | h
      · exact h.1
      · exact absurd h hopened
    | error e =>
      rcases hphase with h | ⟨_, _, h⟩
      · exact h
      · exact absurd h hopened

theorem Inv.opened {target : Bytes} (h : Inv parsers expectedAuth entry bypass a)
    (hsome : a.remote = some target) :
    ∃ heldUp heldDown, Opened parsers expectedAuth entry bypass a.up a.down a.remote heldUp heldDown ∧
      (a.point = .ended (.ok ()) → heldUp = [] ∧ heldDown = []) := by
  obtain ⟨hphase, -⟩ := h
  have halone : ¬ Alone a.up a.down a.remote := fun h => by
    have := h.remote
    rw [hsome] at this
    cases this
  cases hpoint : a.point with
  | parsing | rejecting | draining | answering | early | connecting | tunnelling =>
    rw [hpoint] at hphase
    exact absurd hphase.1 halone
  | sending payload off =>
    rw [hpoint] at hphase
    exact ⟨_, _, hphase.2, by rintro ⟨⟩⟩
  | relaying u d =>
    rw [hpoint] at hphase
    obtain ⟨_, _, -, -, h⟩ := hphase
    exact ⟨_, _, h, by rintro ⟨⟩⟩
  | ended r =>
    rw [hpoint] at hphase
    cases r with
    | ok _ =>
      rcases hphase with h | h
      · exact absurd h.1 halone
      · exact ⟨_, _, h, fun _ => ⟨rfl, rfl⟩⟩
    | error e =>
      rcases hphase with h | ⟨_, _, h⟩
      · exact absurd h halone
      · exact ⟨_, _, h, by rintro ⟨⟩⟩

/-- **The client relays bytes unchanged.**  Whatever pieces the bytes come in, however writes are cut, and
    whatever fails: as long as nothing is connected, nothing has left the proxy and the program has been told
    one of the two answers at most.  A target is connected to only when the program asked for it and the rules
    bypass it; it gets a prefix of the wanted bytes, and the program gets a prefix of the answer and the target's
    bytes; all of them when the connection ends well.  What goes through the tunnel instead is handed over
    complete, and what follows belongs behind it.  A connection that ends well without a target was refused.
    Nothing is written behind a shutdown. -/
theorem relays_unchanged (parsers : Parsers) (hlen : HeadsWithin parsers) (expectedAuth : Option Bytes)
    (bypass : Option (Rules lib)) (entry : Entry) (es : List Event) {a : Actor}
    (hrun : run (step parsers expectedAuth bypass) (.start parsers expectedAuth bypass entry) es = some a) :
    (a.remote = none → a.up.written = [] ∧ a.down.read = [] ∧
      (a.down.written <+: CONNECT_RESPONSE ∨ a.down.written <+: PROXY_AUTH_REQUIRED_RESPONSE)) ∧
    (∀ target, a.remote = some target → ∃ stream answer,
      (bypass.any fun rules => shouldBypass rules target) = true ∧
      Asked parsers expectedAuth entry a.up.read target stream answer ∧
      a.up.written <+: stream ∧ a.down.written <+: answer ++ a.down.read ∧
      (a.point = .ended (.ok ()) → a.up.written = stream ∧ a.down.written = answer ++ a.down.read)) ∧
    (∀ target payload, a.point = .tunnelling target payload → a.remote = none ∧
      (bypass.any fun rules => shouldBypass rules target) = false ∧
      ∀ more, Asked parsers expectedAuth entry (a.up.read ++ more) target (payload ++ more)
        a.down.written) ∧
    (a.point = .ended (.ok ()) → a.remote = none →
      Refused parsers expectedAuth a.up.read ∧ a.down.written = PROXY_AUTH_REQUIRED_RESPONSE) ∧
    ∀ e a', step parsers expectedAuth bypass a e = some a' →
      (a.up.shut = true → a'.up.written = a.up.written) ∧
      (a.down.shut = true → a'.down.written = a.down.written) := by
  have h : Inv parsers expectedAuth entry bypass a :=
    run_invariant (fun _ _ _ hinv hstep => inv_step hlen hinv hstep) es _ _ (inv_start hlen) hrun
  refine ⟨fun hnone => ?_, fun target hsome => ?_, fun target payload hpoint => ?_, fun hpoint hnone => ?_,
    fun e a' hstep => writes_unshut h hstep⟩
  · have halone := h.alone hnone
    exact ⟨halone.sent, halone.got, halone.told⟩
  · obtain ⟨heldUp, heldDown, ⟨target', stream, answer, hremote, hbypass, hasks, hup, hdown⟩, hended⟩ :=
      h.opened hsome
    obtain rfl := Option.some.inj (hremote.symm.trans hsome)
    refine ⟨stream, answer, hbypass, hasks.now, hup.front, hdown.front, fun hpoint => ?_⟩
    obtain ⟨rfl, rfl⟩ := hended hpoint
    exact ⟨hup.all, hdown.all⟩
  · have hphase := h.phase
    rw [hpoint] at hphase
    obtain ⟨halone, hbypass, hasks⟩ := hphase
    exact ⟨halone.remote, hbypass, hasks⟩
  · have hphase := h.phase
    rw [hpoint] at hphase
    rcases hphase with ⟨-, hrefused, hanswer⟩ | ⟨target, -, -, hsome, -⟩
    · exact ⟨hrefused, hanswer⟩
    · rw [hnone] at hsome
      cases hsome

end Invariants

/-! ## A tunnel to the loopback address -/

/-- The bytes of `127.0.0.1:80`. -/
def LOCAL : Bytes := [49, 50, 55, 46, 48, 46, 48, 46, 49, 58, 56, 48]

/-- The bytes of `CONNECT 127.0.0.1:80 HTTP/1.1` and an empty line. -/
def CONNECT_HEAD : Bytes :=
  CONNECT ++ [32] ++ LOCAL ++ [32, 72, 84, 84, 80, 47, 49, 46, 49, 13, 10, 13, 10]

/-- A parser that knows the request. -/
def localParsers : Parsers where
  head := fun b =>
    if CONNECT_HEAD.isPrefixOf b then
      .ok (some ⟨CONNECT_HEAD.length, some CONNECT, some LOCAL, []⟩)
    else .ok none
  authority := fun b => if b = LOCAL then some ⟨LOCAL.take 9, some 80⟩ else none
  url := fun _ => none

theorem localParsers_within : HeadsWithin localParsers := by
  intro b p h
  rw [localParsers] at h
  dsimp only at h
  split at h
  · rename_i hfront
    obtain rfl := Option.some.inj (Except.ok.inj h)
    exact (List.isPrefixOf_iff_prefix.mp hfront).length_le
  · cases h

/-- A rule for `127.0.0.1/32`. -/
def localRules : Rules Bypass.listTables := ⟨[], [(.v4 [127, 0, 0, 1], 32)]⟩

/-- The head in two pieces, one byte at once behind the answer and two later, one byte back. -/
def localEvents : List Event :=
  [.read (CONNECT_HEAD.take 5), .read (CONNECT_HEAD.drop 5), .answer 39, .read [1], .timeout,
    .connect .connected, .payload (.wrote 1), .up (.read [2, 3]), .down (.read [9]), .up (.write (.wrote 1)),
    .down (.write (.wrote 1)), .up (.write (.wrote 1)), .up (.read []), .down (.read [])]

theorem relays_unchanged_demo :
    ∃ a, run (step localParsers none (some localRules))
        (.start localParsers none (some localRules) .proxy) localEvents = some a ∧
      a.point = .ended (.ok ()) ∧ a.up.written = [1, 2, 3] ∧ a.down.written = CONNECT_RESPONSE ++ [9] ∧
      ∃ stream answer, Asked localParsers none .proxy a.up.read LOCAL stream answer ∧
        a.up.written = stream ∧ a.down.written = answer ++ a.down.read := by
  have heval : (run (step localParsers none (some localRules))
      (.start localParsers none (some localRules) .proxy) localEvents).map
        (fun a => (a.point, a.remote, a.up.written, a.down.written)) =
      some (.ended (.ok ()), some LOCAL, [1, 2, 3], CONNECT_RESPONSE ++ [9]) := by decide +kernel
  obtain ⟨a, hrun, ha⟩ := Option.map_eq_some_iff.mp heval
  simp only [Prod.mk.injEq] at ha
  obtain ⟨hpoint, hremote, hup, hdown⟩ := ha
  obtain ⟨-, hconnected, -⟩ := relays_unchanged localParsers localParsers_within none (some localRules) .proxy
    localEvents hrun
  obtain ⟨stream, answer, -, hasked, -, -, hall⟩ := hconnected LOCAL hremote
  exact ⟨a, hrun, hpoint, hup, hdown, stream, answer, hasked, hall hpoint⟩

end Httproxy.Relay
