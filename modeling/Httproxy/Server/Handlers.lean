/-
  What the server does with a request (`dispatch`, `handle_fresh_handshake` and `spawn_encrypted_tunnel` in
  `src/server/handlers.rs`).

  1. **Routing (`dispatch`)** — by the cookie that is found FIRST, in the order `stream`, `session`,
     `eph_pk_a`.

  2. **Handshake (`handleFreshHandshake`)** — reads the ClientHello, stores the master under a new session
     id and answers with the ServerHello.

  3. **Tunnel (`spawnEncryptedTunnel`)** — looks the master up, recovers the stream id, claims it in the
     registry, and recovers the target.  `claimStream` is the part up to the claim and `openTarget` the
     one behind it; every failure behind the claim leaves the stream id `Consumed`.

  `validate_token_if_needed`, `dispatch_to_actor` and `setup_tunnel_response` are calls: the result of the
  first is an argument, and the arguments of the others are part of the reply.
-/
import Httproxy.Client.Target
import Httproxy.Cookies
import Httproxy.Crypto.Keys
import Httproxy.Lib.Base64
import Httproxy.Server.FrameDecoder
import Httproxy.Server.StreamRegistry
import Httproxy.Shaper.Traffic

namespace Httproxy.Handlers

open Bytes Text Crypto Shaper Cookies Registry Proxy Decoder

/-! ## Errors (`src/error/mod.rs`) -/

def badRequest (msg : String) : ServerError := ⟨400, msg⟩
def requestTimeout (msg : String) : ServerError := ⟨408, msg⟩
def payloadTooLarge (msg : String) : ServerError := ⟨413, msg⟩
def preconditionRequired (msg : String) : ServerError := ⟨428, msg⟩
def internal (msg : String) : ServerError := ⟨500, msg⟩

/-! ## State -/

structure AppState (prims : Primitives) where
  trafficConfig : ResolvedShaperConfig
  privateKey : prims.StaticSecret
  masterStore : MasterStore
  streamRegistry : StreamRegistry
  /-- Whether `actors` has a handle for the stream. -/
  actors : Uuid → Bool

/-- The body of a request, as the handler will get it. -/
inductive Body where
  | whole (b : Bytes)
  /-- Does not end within `BODY_READ_TIMEOUT`. -/
  | stalls
  | fails (e : String)

/-- `axum::body::to_bytes` under the timeout. -/
def toBytes (limit : Nat) : Body → Except ServerError Bytes
  | .stalls => .error (requestTimeout "request body read timed out")
  | .fails e => .error (payloadTooLarge s!"request body error: {e}")
  | .whole b =>
    if b.length > limit then .error (payloadTooLarge "request body error: length limit exceeded")
    else .ok b

section Program

variable (prims : Primitives) (base122 : Base122Fast)

/-! ## Handshake -/

structure ServerRandom where
  coins : prims.Coins
  ephSk : prims.StaticSecret
  sessionId : Uuid
  frame : Draw

/-- The public keys of a ClientHello. -/
def parseClientHello (data : Bytes) : Except ServerError (prims.EncapsulationKey × Key) :=
  if data.length < 2 then .error (badRequest "ClientHello too short")
  else
    let lenKem := readU16Be data
    let kemEnd := 2 + lenKem
    if data.length < kemEnd then .error (badRequest "ClientHello truncated (KEM part)")
    else
      match bytesToEncapsulationKey prims (slice data 2 kemEnd) with
      | .error e => .error (badRequest s!"invalid mlkem public key: {e}")
      | .ok kemPk =>
        if data.length < kemEnd + 2 then .error (badRequest "ClientHello truncated (no X25519 part)")
        else
          let lenX25519 := readU16Be (data.drop kemEnd)
          let x25519End := kemEnd + 2 + lenX25519
          if data.length < x25519End then .error (badRequest "ClientHello truncated (X25519 part)")
          else
            match keyOf (slice data (kemEnd + 2) x25519End) with
            | none => .error (badRequest "invalid client x25519 pk length")
            | some ephPkB => .ok (kemPk, ephPkB)

/-- The public key in the cookie of a handshake. -/
def readEphPkA (cookie : Option Bytes) : Except ServerError Key :=
  match extractCookieValue cookie EPH_PK_A with
  | none => .error (badRequest "missing eph_pk_a cookie")
  | some ephPkAB64 =>
    match Base64.decode ephPkAB64 with
    | none => .error (badRequest "invalid eph_pk_a base64")
    | some bytes =>
      match keyOf bytes with
      | none => .error (badRequest "eph_pk_a must be 32 bytes")
      | some ephPkA => .ok ephPkA

def serverHello (sessionId ct : Bytes) (serverEphPk : Key) : Bytes :=
  putU16 sessionId.length ++ sessionId ++ ct ++ serverEphPk

/-- The ClientHello of a request: `decode_from_buffer` on the whole body. -/
def readClientHello (s : AppState prims) (key : LessSafeKey) (body : Body) :
    Except ServerError (prims.EncapsulationKey × Key) := do
  let bodyBytes ← toBytes MAX_FRAME_BUF_SIZE body
  match (decodeFromBuffer key base122 bodyBytes s.trafficConfig.encoding).1 with
  | .error e => .error (internal e.message)
  | .ok none => .error (badRequest "invalid ClientHello frame")
  | .ok (some (_, clientHelloData)) => parseClientHello prims clientHelloData

/-- `handle_fresh_handshake`: the body of the response. -/
def handleFreshHandshake (user : Except ServerError Bytes) (cookie : Option Bytes) (body : Body)
    (random : ServerRandom prims) (now : Nat) (s : AppState prims) :
    Except ServerError Bytes × AppState prims :=
  let received := do
    let user ← user
    let ephPkA ← readEphPkA cookie
    let handshakeKey := deriveHandshakeKey prims (prims.diffieHellman s.privateKey ephPkA)
    let (kemPk, ephPkB) ← readClientHello prims base122 s (prims.makeKey handshakeKey) body
    let (ct, ssMlkem) ← (mlkemEncapsulate prims kemPk random.coins).mapError
      fun e => internal s!"ML-KEM encapsulation failed: {e}"
    let master := deriveInitialMaster prims ssMlkem (prims.diffieHellman random.ephSk ephPkB)
    .ok (user, handshakeKey, ct, master)
  match received with
  | .error e => (.error e, s)
  | .ok (user, handshakeKey, ct, master) =>
    let sessionId := random.sessionId.hyphenated
    let s := { s with
      masterStore := Function.update s.masterStore sessionId
        (some { username := user, master, created := now }) }
    match encodeFrame (prims.makeKey handshakeKey) base122 random.frame
        (serverHello sessionId ct (prims.publicKey random.ephSk)) 0 s.trafficConfig.globalThreshold
        s.trafficConfig.globalRange s.trafficConfig.encoding with
    | .error e => (.error (internal s!"encode ServerHello: {e.message}"), s)
    | .ok frame => (.ok frame, s)

/-! ## Tunnel -/

/-- What `spawn_encrypted_tunnel` has when the stream id is claimed. -/
structure Claimed where
  master : Bytes
  streamId : Uuid
  encTargetB64 : Bytes

/-- What `spawn_encrypted_tunnel` recovers. -/
structure Opened where
  streamId : Uuid
  uploadKey : Key
  downloadKey : Key
  target : Bytes

/-- The arguments of `setup_tunnel_response`. -/
structure TunnelCall where
  host : Bytes
  port : Nat
  streamId : Uuid
  uploadKey : Key
  downloadKey : Key

/-- The stream id in a session cookie. -/
def readStreamId (master encStreamIdB64 : Bytes) : Except ServerError Uuid :=
  match Base64.decode encStreamIdB64 with
  | none => .error (preconditionRequired "invalid cookie encoding")
  | some encStreamId =>
    match decryptBytes prims (deriveCookieStreamKey prims master) encStreamId with
    | .error _ => .error (preconditionRequired "failed to decrypt stream ID")
    | .ok streamIdBytes =>
      match Uuid.ofBytes streamIdBytes with
      | none => .error (preconditionRequired "invalid stream ID length")
      | some streamId => .ok streamId

/-- `spawn_encrypted_tunnel`, up to `register`. -/
def claimStream (sessionCookieVal : Bytes) (now : Nat) (s : AppState prims) :
    Except ServerError Claimed × AppState prims :=
  match splitOnce 58 sessionCookieVal with
  | none => (.error (preconditionRequired "invalid session cookie format"), s)
  | some (sessionId, rest) =>
    match splitOnce 58 rest with
    | none => (.error (preconditionRequired "invalid session cookie format"), s)
    | some (encTargetB64, encStreamIdB64) =>
      match Uuid.parseStr sessionId with
      | none => (.error (badRequest "invalid UUID format"), s)
      | some _ =>
        match s.masterStore sessionId with
        | none => (.error (preconditionRequired "session not found"), s)
        | some entry =>
          if now - entry.created > MASTER_EXPIRY then
            (.error (preconditionRequired "master key expired"),
              { s with masterStore := Function.update s.masterStore sessionId none })
          else
            match readStreamId prims entry.master encStreamIdB64 with
            | .error e => (.error e, s)
            | .ok streamId =>
              match register s.streamRegistry streamId now with
              | (false, _) => (.error (preconditionRequired "stream already active"), s)
              | (true, streamRegistry) =>
                (.ok { master := entry.master, streamId, encTargetB64 }, { s with streamRegistry })

/-- The keys of the tunnel and its target. -/
def openTarget (claimed : Claimed) : Except ServerError Opened :=
  let keys := deriveConnectionKeys prims claimed.master claimed.streamId
  match Base64.decode claimed.encTargetB64 with
  | none => .error (preconditionRequired "invalid cookie encoding")
  | some encTarget =>
    match decryptBytes prims keys.target encTarget with
    | .error _ => .error (preconditionRequired "failed to decrypt target")
    | .ok target =>
      if validUtf8 target then
        .ok { streamId := claimed.streamId, uploadKey := keys.upload, downloadKey := keys.download, target }
      else .error (preconditionRequired "invalid target utf8")

/-- The end of `spawn_encrypted_tunnel`, before the call of `setup_tunnel_response`. -/
def tunnelCall (opened : Opened) : Except ServerError TunnelCall := do
  let (host, port) ← splitTarget opened.target
  return {
    host, port
    streamId := opened.streamId
    uploadKey := opened.uploadKey
    downloadKey := opened.downloadKey }

/-- `spawn_encrypted_tunnel`; the guard of the stream id is dropped on a failure. -/
def spawnEncryptedTunnel (sessionCookieVal : Bytes) (now : Nat) (s : AppState prims) :
    Except ServerError TunnelCall × AppState prims :=
  match claimStream prims sessionCookieVal now s with
  | (.error e, s) => (.error e, s)
  | (.ok claimed, s) =>
    match openTarget prims claimed >>= tunnelCall with
    | .error e => (.error e, { s with streamRegistry := markConsumed s.streamRegistry claimed.streamId })
    | .ok call => (.ok call, s)

/-! ## Routing -/

inductive Reply where
  | error (e : ServerError)
  /-- `dispatch_to_actor`. -/
  | toActor (streamId : Uuid)
  /-- `setup_tunnel_response`. -/
  | setupTunnel (call : TunnelCall)
  /-- The response to a handshake. -/
  | handshake (frame : Bytes)

def handleStreamNotFound (s : AppState prims) (streamId : Uuid) : ServerError :=
  match check s.streamRegistry streamId with
  | .consumed => preconditionRequired "stream already consumed"
  | .active => preconditionRequired "stream setup incomplete"
  | .fresh => preconditionRequired "stream not found"

/-- What `dispatch` returns of `spawn_encrypted_tunnel`. -/
def replyTunnel {prims : Primitives} :
    Except ServerError TunnelCall × AppState prims → Reply × AppState prims
  | (.error e, s) => (.error e, s)
  | (.ok call, s) => (.setupTunnel call, s)

/-- What `dispatch` returns of `handle_fresh_handshake`. -/
def replyHandshake {prims : Primitives} :
    Except ServerError Bytes × AppState prims → Reply × AppState prims
  | (.error e, s) => (.error e, s)
  | (.ok frame, s) => (.handshake frame, s)

/-- `dispatch`, on the `Cookie` header and the body; `user` is what `validate_token_if_needed` returns. -/
def dispatch (user : Except ServerError Bytes) (random : ServerRandom prims) (cookie : Option Bytes)
    (body : Body) (now : Nat) (s : AppState prims) : Reply × AppState prims :=
  match extractCookieValue cookie STREAM with
  | some streamCookieVal =>
    match Uuid.parseStr streamCookieVal with
    | none => (.error (preconditionRequired "invalid stream id"), s)
    | some streamId =>
      if s.actors streamId then (.toActor streamId, s)
      else (.error (handleStreamNotFound prims s streamId), s)
  | none =>
    match extractCookieValue cookie SESSION with
    | some sessionVal =>
      if 58 ∉ sessionVal then
        (.error (preconditionRequired "invalid session cookie: encrypted session required"), s)
      else replyTunnel (spawnEncryptedTunnel prims sessionVal now s)
    | none =>
      match extractCookieValue cookie EPH_PK_A with
      | some _ => replyHandshake (handleFreshHandshake prims base122 user cookie body random now s)
      | none => (.error (badRequest "missing required cookies"), s)

end Program

end Httproxy.Handlers
