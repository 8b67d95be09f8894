/-
  The client's side of a session (`perform_pq_handshake` and `try_pq_connect` in `src/client/handshake.rs`).

  1. **Handshake** — `startHandshake` makes the request with the ClientHello, `receiveServerHello` gathers
     the answer chunk by chunk until it is a frame, and `finishHandshake` derives the master from it.

  2. **Tunnel** — `tryPqConnect`, up to the POST: every tunnel gets a new stream id, and the cookie carries
     it and the target, each ENCRYPTED under a key of its own.

  Every random choice (secrets, nonces, paddings, the stream id) comes as an argument.
-/
import Httproxy.Client.UploadLoop
import Httproxy.Cookies
import Httproxy.Crypto.Keys
import Httproxy.Lib.Base64
import Httproxy.Server.FrameDecoder

namespace Httproxy.Handshake

open Bytes Text Crypto Shaper Cookies Decoder

/-- An `anyhow::Error`: a text, or an error of the codec. -/
inductive Failure where
  | anyhow (message : String)
  | io (e : IoError)
  deriving DecidableEq, Repr

structure PqSessionTicket where
  master : Key
  sessionId : Bytes
  deriving DecidableEq

section Program

variable (prims : Primitives) (base122 : Base122Fast) (config : ResolvedShaperConfig)

/-! ## ClientHello -/

structure ClientRandom where
  ephSkA : prims.StaticSecret
  /-- What `DecapsulationKey::generate` returns. -/
  kemSk : Option prims.DecapsulationKey
  ephSkB : prims.StaticSecret
  frame : Draw
  padding : PaddingLen

/-- What is kept while the answer is awaited, and cookie and body of the request. -/
structure Started where
  handshakeKey : Key
  kemSk : prims.DecapsulationKey
  ephSkB : prims.StaticSecret
  cookie : Bytes
  body : Bytes

def clientHello (kemPkBytes ephPkBBytes : Bytes) : Bytes :=
  putU16 kemPkBytes.length ++ kemPkBytes ++ putU16 ephPkBBytes.length ++ ephPkBBytes

def handshakeCookie (ephPkA : Key) (paddingLen : PaddingLen) : Bytes :=
  EPH_PK_A ++ [61] ++ Base64.encode ephPkA ++ [59, 32] ++ PADDING_POOL.take paddingLen

/-- `perform_pq_handshake`, up to its POST. -/
def startHandshake (serverPk : Key) (random : ClientRandom prims) : Except Failure (Started prims) := do
  let ephPkA := prims.publicKey random.ephSkA
  let handshakeKey := deriveHandshakeKey prims (prims.diffieHellman random.ephSkA serverPk)
  let (kemSk, kemPk) ← (generateMlkemKeypair prims random.kemSk).mapError .anyhow
  let kemPkBytes ← (mlkemPublicKeyBytes prims kemPk).mapError .anyhow
  let ephPkB := prims.publicKey random.ephSkB
  let frame ← (encodeFrame (prims.makeKey handshakeKey) base122 random.frame
    (clientHello kemPkBytes ephPkB) 0 config.globalThreshold config.globalRange
    config.encoding).mapError .io
  return {
    handshakeKey, kemSk
    ephSkB := random.ephSkB
    cookie := handshakeCookie ephPkA random.padding
    body := frame }

/-! ## ServerHello -/

/-- The loop that awaits the ServerHello; `bodyBuf` is what has come so far. -/
def receiveServerHello (key : LessSafeKey) (bodyBuf : Bytes) : List Feed → Except Failure Bytes
  | [] => .error (.anyhow "ServerHello not received")
  | .pending :: stream => receiveServerHello key bodyBuf stream
  | .failed e :: _ => .error (.io e)
  | .chunk chunk :: stream =>
    match decodeFromBuffer key base122 (bodyBuf ++ chunk) config.encoding with
    | (.error e, _) => .error (.io e)
    | (.ok (some (_, data)), _) => .ok data
    | (.ok none, bodyBuf) => receiveServerHello key bodyBuf stream

/-- Session id, ciphertext and public key of a ServerHello. -/
def parseServerHello (data : Bytes) : Except Failure (Bytes × Bytes × Key) :=
  if data.length < 2 then .error (.anyhow "ServerHello too short")
  else
    let sidLen := readU16Be data
    let ctStart := 2 + sidLen
    let ctEnd := ctStart + 1088
    if h : data.length < ctEnd + 32 then .error (.anyhow "ServerHello truncated")
    else
      let sessionId := slice data 2 (2 + sidLen)
      if validUtf8 sessionId then
        .ok (sessionId, slice data ctStart ctEnd,
          ⟨slice data ctEnd (ctEnd + 32), by simp only [slice, List.length_drop, List.length_take]; omega⟩)
      else .error (.anyhow "invalid session_id")

/-- The end of `perform_pq_handshake`: the ticket, which is also what `initial_master` is set to.
    `response` is what the POST and `check_response_status` return. -/
def finishHandshake (started : Started prims) (response : Except Failure (List Feed)) :
    Except Failure PqSessionTicket := do
  let stream ← response
  let data ← receiveServerHello base122 config (prims.makeKey started.handshakeKey) [] stream
  let (sessionId, ctBytes, serverEphPk) ← parseServerHello data
  let ssMlkem ← (mlkemDecapsulate prims started.kemSk ctBytes).mapError .anyhow
  let ssX25519 := prims.diffieHellman started.ephSkB serverEphPk
  return { master := deriveInitialMaster prims ssMlkem ssX25519, sessionId }

/-! ## Tunnel -/

structure ConnectRandom where
  streamId : Uuid
  targetNonce : Nonce
  streamIdNonce : Nonce
  earlyData : UInt64 → Draw
  padding : PaddingLen

/-- What the tunnel goes on with after the POST, and cookie and body of the request. -/
structure Connecting where
  streamId : Uuid
  uploadKey : Key
  downloadKey : Key
  cookie : Bytes
  body : Bytes
  remainingPayload : Bytes
  framesSent : UInt64

def sessionCookieVal (sessionId encTarget encStreamId : Bytes) : Bytes :=
  sessionId ++ [58] ++ Base64.encode encTarget ++ [58] ++ Base64.encode encStreamId

/-- `try_pq_connect`, up to its POST. -/
def tryPqConnect (ticket : PqSessionTicket) (targetHost initialPayload : Bytes)
    (random : ConnectRandom) : Except Failure Connecting := do
  let keys := deriveConnectionKeys prims ticket.master random.streamId
  let encTarget ← (encryptBytes prims keys.target random.targetNonce targetHost).mapError .anyhow
  let cookieStreamKey := deriveCookieStreamKey prims ticket.master
  let encStreamId ←
    (encryptBytes prims cookieStreamKey random.streamIdNonce random.streamId.asBytes).mapError .anyhow
  let cookieVal := sessionCookieVal ticket.sessionId encTarget encStreamId
  let (earlyData, remainingPayload, framesSent) ←
    (UploadLoop.encodeInitialPayload (prims.makeKey keys.upload) base122 config random.earlyData
      initialPayload MAX_RAW_PAYLOAD).mapError .io
  return {
    streamId := random.streamId
    uploadKey := keys.upload
    downloadKey := keys.download
    cookie := buildTunnelCookie cookieVal random.padding
    body := earlyData
    remainingPayload, framesSent }

end Program

/-! ## Any cut of the answer -/

/-- **The loop ends with the data of the frame**, however the network cuts it. -/
theorem receiveServerHello_carries {key : LessSafeKey} {base122 : Base122Fast}
    {config : ResolvedShaperConfig} {f data : Bytes} {seq : UInt64} {padding : Nat} (hkey : key.Lawful)
    (hb : base122.Lawful) (hf : Carries key base122 config.encoding f seq data padding)
    (stream : List Feed) (hstream : ∀ e, Feed.failed e ∉ stream) (bodyBuf : Bytes)
    (hfed : bodyBuf ++ fed stream = f) (hmore : fed stream ≠ []) :
    receiveServerHello base122 config key bodyBuf stream = .ok data := by
  induction stream generalizing bodyBuf with
  | nil => exact absurd rfl hmore
  | cons feed stream ih =>
    have htail : ∀ e, Feed.failed e ∉ stream := fun e he => hstream e (List.mem_cons_of_mem _ he)
    cases feed with
    | pending => exact ih htail bodyBuf hfed hmore
    | failed e => exact absurd List.mem_cons_self (hstream e)
    | chunk chunk =>
      have hsplit : (bodyBuf ++ chunk) ++ fed stream = f := by
        rw [List.append_assoc]
        exact hfed
      rw [receiveServerHello, decodeFromBuffer_eq]
      by_cases hlast : fed stream = []
      · -- the last byte has come
        rw [hlast, List.append_nil] at hsplit
        have hwhole := (decodeFrame_carries hkey hb hf [] ⟨[], 0⟩).1
        rw [List.append_nil] at hwhole
        rw [hsplit, hwhole]
      · rw [← hsplit] at hf
        rw [decodeFrame_short hkey hb hf hlast]
        exact ih htail (bodyBuf ++ chunk) hsplit hlast

end Httproxy.Handshake
