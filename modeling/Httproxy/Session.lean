/-
  Client and server agree on every session.

  Five encodings are written on one side and read on the other: two hellos with lengths, a value with
  colons, a cookie header with padding, and keys that are one string cut in three.

  1. **Hellos** — each is read back by the other side's parser (`parseClientHello_clientHello`,
     `parseServerHello_serverHello`), in the frame the cipher of the handshake seals.

  2. **Cookies** — base64 and the text of a UUID have no semicolon, no colon and no space, so the header is
     searched and the value is split where the client put them together.

  3. **Keys** — X25519 gives both sides one handshake key; then X25519 and ML-KEM give both one master;
     then the stream id, which the cookie carries, gives both the keys of the tunnel.

  The theorem is `session_agreement`.
-/
import Httproxy.Client.Handshake
import Httproxy.Lib.Hkdf
import Httproxy.Server.Handlers

namespace Httproxy.Session

open Bytes Text Crypto Shaper Cookies Registry Proxy Decoder Handshake Handlers

/-! ## Hellos -/

/-- **The server reads a ClientHello back.** -/
theorem parseClientHello_clientHello {prims : Primitives} {kemPk : prims.EncapsulationKey} {bytes : Bytes}
    (himport : prims.newEncapsulationKey bytes = some kemPk) (hlen : bytes.length < 2 ^ 16)
    (ephPkB : Key) : parseClientHello prims (clientHello bytes ephPkB) = .ok (kemPk, ephPkB) := by
  have hpk := ephPkB.property
  have htotal : (clientHello bytes ephPkB).length = 2 + bytes.length + 2 + 32 := by
    simp only [clientHello, List.length_append, length_putU16, hpk]
  have hkem : readU16Be (clientHello bytes ephPkB) = bytes.length := by
    rw [clientHello, List.append_assoc, List.append_assoc]
    exact readU16Be_putU16 hlen _
  have hbytes : slice (clientHello bytes ephPkB) 2 (2 + bytes.length) = bytes := by
    rw [clientHello, List.append_assoc]
    exact slice_append (putU16 bytes.length) bytes _
  have hx25519 : readU16Be ((clientHello bytes ephPkB).drop (2 + bytes.length)) = 32 := by
    rw [clientHello, List.append_assoc, List.drop_left' (by simp), hpk]
    exact readU16Be_putU16 (by decide) _
  have hkey : slice (clientHello bytes ephPkB) (2 + bytes.length + 2) (2 + bytes.length + 2 + 32) =
      ephPkB := by
    have := slice_append (putU16 bytes.length ++ bytes ++ putU16 ephPkB.val.length) ephPkB.val []
    simpa [clientHello, hpk, Nat.add_assoc] using this
  simp only [parseClientHello, htotal, hkem, hbytes, hx25519, hkey]
  rw [if_neg (by omega), if_neg (by omega), bytesToEncapsulationKey, himport]
  dsimp only
  rw [if_neg (by omega), if_neg (by omega), keyOf_val]

/-- **The client reads a ServerHello back.** -/
theorem parseServerHello_serverHello {sessionId ct : Bytes} (hsid : validUtf8 sessionId = true)
    (hlen : sessionId.length < 2 ^ 16) (hct : ct.length = 1088) (serverEphPk : Key) :
    parseServerHello (serverHello sessionId ct serverEphPk) = .ok (sessionId, ct, serverEphPk) := by
  have hpk := serverEphPk.property
  have htotal : (serverHello sessionId ct serverEphPk).length = 2 + sessionId.length + 1088 + 32 := by
    simp only [serverHello, List.length_append, length_putU16, hct, hpk]
  have hread : readU16Be (serverHello sessionId ct serverEphPk) = sessionId.length := by
    rw [serverHello, List.append_assoc, List.append_assoc]
    exact readU16Be_putU16 hlen _
  have hid : slice (serverHello sessionId ct serverEphPk) 2 (2 + sessionId.length) = sessionId := by
    rw [serverHello, List.append_assoc]
    exact slice_append (putU16 sessionId.length) sessionId _
  have hcipher : slice (serverHello sessionId ct serverEphPk) (2 + sessionId.length)
      (2 + sessionId.length + 1088) = ct := by
    have := slice_append (putU16 sessionId.length ++ sessionId) ct serverEphPk
    simpa [serverHello, hct] using this
  have hkey : slice (serverHello sessionId ct serverEphPk) (2 + sessionId.length + 1088)
      (2 + sessionId.length + 1088 + 32) = serverEphPk := by
    have := slice_append (putU16 sessionId.length ++ sessionId ++ ct) serverEphPk []
    simpa [serverHello, hct, hpk, Nat.add_assoc] using this
  simp only [parseServerHello, htotal, hread, hid, hcipher, hkey]
  rw [if_neg (by omega), dif_neg (by omega), if_pos hsid]

/-! ## Cookies -/

theorem urlSafe_plain {c : UInt8} (h : Base64.isUrlSafe c = true) :
    isGraphic c = true ∧ c ≠ 58 ∧ c ≠ 59 := by
  simp only [Base64.isUrlSafe, isGraphic, Bool.or_eq_true, Bool.and_eq_true, decide_eq_true_eq,
    beq_iff_eq] at h ⊢
  grind

theorem isUrlSafe_hyphenated (u : Uuid) : ∀ c ∈ u.hyphenated, Base64.isUrlSafe c = true := by
  intro c hc
  have htext := Uuid.isTextByte_hyphenated u c hc
  simp only [Uuid.isTextByte, Base64.isUrlSafe, Bool.or_eq_true, Bool.and_eq_true,
    decide_eq_true_eq, beq_iff_eq] at htext ⊢
  grind

theorem colon_not_mem {text : Bytes} (h : ∀ c ∈ text, Base64.isUrlSafe c = true) : 58 ∉ text :=
  fun hmem => (urlSafe_plain (h 58 hmem)).2.1 rfl

theorem isValue_urlSafe {text : Bytes} (h : ∀ c ∈ text, Base64.isUrlSafe c = true) : IsValue text := by
  intro c hc
  obtain ⟨hgraphic, -, hsemi⟩ := urlSafe_plain (h c hc)
  exact ⟨hgraphic, hsemi⟩

theorem isValue_sessionCookieVal {sessionId : Bytes} (h : ∀ c ∈ sessionId, Base64.isUrlSafe c = true)
    (encTarget encStreamId : Bytes) : IsValue (sessionCookieVal sessionId encTarget encStreamId) := by
  intro c hc
  simp only [sessionCookieVal, List.mem_append, List.mem_singleton] at hc
  rcases hc with (((hc | rfl) | hc) | rfl) | hc
  · exact isValue_urlSafe h c hc
  · decide
  · exact isValue_urlSafe (Base64.isUrlSafe_encode encTarget) c hc
  · decide
  · exact isValue_urlSafe (Base64.isUrlSafe_encode encStreamId) c hc

/-- The header of a handshake has the public key, and neither of the names that are looked for first. -/
theorem extract_handshakeCookie (ephPkA : Key) (paddingLen : PaddingLen) :
    extractCookieValue (some (handshakeCookie ephPkA paddingLen)) STREAM = none ∧
    extractCookieValue (some (handshakeCookie ephPkA paddingLen)) SESSION = none ∧
    extractCookieValue (some (handshakeCookie ephPkA paddingLen)) EPH_PK_A =
      some (Base64.encode ephPkA) := by
  have hvalue := isValue_urlSafe (Base64.isUrlSafe_encode ephPkA)
  have hname : IsName EPH_PK_A := by decide +kernel
  have hascii : ∀ b ∈ EPH_PK_A, b < 128 := by decide +kernel
  have hextract {key : Bytes} (hkey : 61 ∉ key) (hother : key ≠ PADDING) :=
    extractCookieValue_buildCookieInto hkey hother hname hascii hvalue paddingLen
  refine ⟨?_, ?_, ?_⟩
  · exact (hextract (by decide) (by decide)).trans (if_neg (by decide))
  · exact (hextract (by decide) (by decide)).trans (if_neg (by decide))
  · exact (hextract (by decide) (by decide)).trans (if_pos rfl)

theorem extract_tunnelCookie {sessionVal : Bytes} (hvalue : IsValue sessionVal) (paddingLen : PaddingLen) :
    extractCookieValue (some (buildTunnelCookie sessionVal paddingLen)) STREAM = none ∧
    extractCookieValue (some (buildTunnelCookie sessionVal paddingLen)) SESSION = some sessionVal := by
  have hname : IsName SESSION := by decide +kernel
  have hascii : ∀ b ∈ SESSION, b < 128 := by decide +kernel
  have hextract {key : Bytes} (hkey : 61 ∉ key) (hother : key ≠ PADDING) :=
    extractCookieValue_buildCookieInto hkey hother hname hascii hvalue paddingLen
  constructor
  · exact (hextract (by decide) (by decide)).trans (if_neg (by decide))
  · exact (hextract (by decide) (by decide)).trans (if_pos rfl)

/-! ## The handshake -/

@[simp] theorem ok_bind {ε α β : Type} (a : α) (f : α → Except ε β) : (Except.ok a >>= f) = f a := rfl

@[simp] theorem mapError_ok {ε ε' α : Type} (f : ε → ε') (a : α) :
    (Except.ok a : Except ε α).mapError f = .ok a := rfl

/-- A handshake between `client` and `server`: the key `kemPk` of the client's pair, what the client keeps
    of its request, the frame of the answer, and the ticket. -/
structure HandshakeAgrees (prims : Primitives) (base122 : Base122Fast) (config : ResolvedShaperConfig)
    (s : AppState prims) (client : ClientRandom prims) (server : ServerRandom prims) (user : Bytes)
    (now : Nat) (kemPk : prims.EncapsulationKey) (started : Started prims) (frame : Bytes)
    (ticket : PqSessionTicket) : Prop where
  sends : startHandshake prims base122 config (prims.publicKey s.privateKey) client = .ok started
  /-- The server has the same handshake key. -/
  handshakeKey : deriveHandshakeKey prims
    (prims.diffieHellman s.privateKey (prims.publicKey client.ephSkA)) = started.handshakeKey
  /-- In the body of the request the server finds the two public keys. -/
  clientHello : readClientHello prims base122 s (prims.makeKey started.handshakeKey)
    (.whole started.body) = .ok (kemPk, prims.publicKey client.ephSkB)
  /-- The request is answered, and the master is stored. -/
  answers : dispatch prims base122 (.ok user) server (some started.cookie) (.whole started.body) now s =
    (.handshake frame, { s with
      masterStore := Function.update s.masterStore ticket.sessionId
        (some { username := user, master := ticket.master, created := now }) })
  /-- In every cut of the answer the client finds the session id, the ciphertext and the public key. -/
  serverHello : ∃ ct ss, prims.encapsulate kemPk server.coins = some (ct, ss) ∧
    ∀ stream, Cuts stream frame → ∃ data,
      receiveServerHello base122 config (prims.makeKey started.handshakeKey) [] stream = .ok data ∧
      parseServerHello data = .ok (ticket.sessionId, ct, prims.publicKey server.ephSk)
  /-- Its master is the one that was stored. -/
  finishes : ∀ stream, Cuts stream frame →
    finishHandshake prims base122 config started (.ok stream) = .ok ticket
  sessionId : ticket.sessionId = server.sessionId.hyphenated

section Agreement

variable {prims : Primitives} {base122 : Base122Fast} {config : ResolvedShaperConfig}

/-- Both hellos fit into a frame. -/
theorem hello_fits (encoding : EncodingType) : 1220 ≤ frameRawLimit encoding := by
  cases encoding <;> decide

theorem length_clientHello {bytes : Bytes} (h : bytes.length = 1184) (ephPkB : Key) :
    (clientHello bytes ephPkB).length = 1220 := by
  simp only [clientHello, List.length_append, length_putU16, h, ephPkB.property]

theorem length_serverHello (u : Uuid) {ct : Bytes} (h : ct.length = 1088) (serverEphPk : Key) :
    (serverHello u.hyphenated ct serverEphPk).length = 1158 := by
  simp only [serverHello, List.length_append, length_putU16, Uuid.length_hyphenated, h,
    serverEphPk.property]

theorem startHandshake_ok (hprims : prims.Lawful) {kemSk : prims.DecapsulationKey}
    {kemPk : prims.EncapsulationKey} {bytes : Bytes} (hpair : prims.KeyPair kemSk kemPk bytes)
    (serverPk : Key) {client : ClientRandom prims} (hgen : client.kemSk = some kemSk) :
    ∃ frame padding,
      startHandshake prims base122 config serverPk client = .ok {
        handshakeKey := deriveHandshakeKey prims (prims.diffieHellman client.ephSkA serverPk)
        kemSk
        ephSkB := client.ephSkB
        cookie := handshakeCookie (prims.publicKey client.ephSkA) client.padding
        body := frame } ∧
      Carries (prims.makeKey (deriveHandshakeKey prims (prims.diffieHellman client.ephSkA serverPk)))
        base122 config.encoding frame 0 (clientHello bytes (prims.publicKey client.ephSkB)) padding := by
  obtain ⟨frame, padding, hframe, hcarries⟩ := encodeFrame_carries
    (hprims.aead (deriveHandshakeKey prims (prims.diffieHellman client.ephSkA serverPk))).2
    ((length_clientHello hpair.length (prims.publicKey client.ephSkB)).trans_le
      (hello_fits config.encoding)) client.frame 0 config.globalThreshold config.globalRange
  refine ⟨frame, padding, ?_, hcarries⟩
  simp only [startHandshake, hgen, generateMlkemKeypair, hpair.ours, mlkemPublicKeyBytes, hpair.exported,
    hframe, ok_bind, mapError_ok]
  rfl

theorem readEphPkA_handshakeCookie (ephPkA : Key) (paddingLen : PaddingLen) :
    readEphPkA (some (handshakeCookie ephPkA paddingLen)) = .ok ephPkA := by
  rw [readEphPkA, (extract_handshakeCookie ephPkA paddingLen).2.2]
  dsimp only
  rw [Base64.decode_encode]
  dsimp only
  rw [keyOf_val]

theorem readClientHello_carries (hb : base122.Lawful) {s : AppState prims} {key : LessSafeKey}
    (hkey : key.Lawful) {frame data : Bytes} {seq : UInt64} {padding : Nat}
    (hf : Carries key base122 s.trafficConfig.encoding frame seq data padding) :
    readClientHello prims base122 s key (.whole frame) = parseClientHello prims data := by
  have hlen := (hf.length_le hkey hb).2
  have hmax : maxEncodedFrameLen s.trafficConfig.encoding ≤ MAX_FRAME_BUF_SIZE := by
    cases s.trafficConfig.encoding <;> decide
  have hdecode := (decodeFrame_carries hkey hb hf [] ⟨[], 0⟩).1
  rw [List.append_nil] at hdecode
  have hbytes : toBytes MAX_FRAME_BUF_SIZE (.whole frame) = .ok frame := if_neg (by omega)
  simp only [readClientHello, hbytes, ok_bind, decodeFromBuffer_eq, hdecode]

/-- **Both sides come out of a handshake with the same master.** -/
theorem handshake_agrees (hprims : prims.Lawful) (hb : base122.Lawful) (s : AppState prims)
    (hencoding : s.trafficConfig.encoding = config.encoding) (client : ClientRandom prims)
    {kemSk : prims.DecapsulationKey} (hgen : client.kemSk = some kemSk) (server : ServerRandom prims)
    (user : Bytes) (now : Nat) :
    ∃ kemPk started frame ticket, prims.encapsulationKey kemSk = some kemPk ∧
      HandshakeAgrees prims base122 config s client server user now kemPk started frame ticket := by
  obtain ⟨kemPk, bytes, hpair⟩ := hprims.keyPair kemSk
  obtain ⟨ct, ss, hencaps, hct, hdecaps⟩ := hpair.inverts server.coins
  obtain ⟨body, padding, hstart, hbody⟩ := startHandshake_ok hprims hpair
    (prims.publicKey s.privateKey) hgen
  rw [← hencoding] at hbody
  -- the handshake key, and the master
  have hshared := hprims.commutes s.privateKey client.ephSkA
  have hmaster := hprims.commutes server.ephSk client.ephSkB
  generalize hk : deriveHandshakeKey prims
    (prims.diffieHellman client.ephSkA (prims.publicKey s.privateKey)) = key at hstart hbody
  have hkey := (hprims.aead key).1
  obtain ⟨frame, padding', hframe, hcarries⟩ := encodeFrame_carries (hprims.aead key).2
    ((length_serverHello server.sessionId hct (prims.publicKey server.ephSk)).trans_le
      ((by decide : 1158 ≤ 1220).trans (hello_fits s.trafficConfig.encoding))) server.frame 0
    s.trafficConfig.globalThreshold s.trafficConfig.globalRange
  have hreceived : readClientHello prims base122 s (prims.makeKey key) (.whole body) =
      .ok (kemPk, prims.publicKey client.ephSkB) := by
    rw [readClientHello_carries hb hkey hbody]
    exact parseClientHello_clientHello hpair.imported (by rw [hpair.length]; decide) _
  have hserver : deriveHandshakeKey prims
      (prims.diffieHellman s.privateKey (prims.publicKey client.ephSkA)) = key := by rw [hshared, hk]
  have hsid : validUtf8 server.sessionId.hyphenated = true := validUtf8_ascii fun c hc => by
    have := (urlSafe_plain (isUrlSafe_hyphenated server.sessionId c hc)).1
    simp only [isGraphic, Bool.and_eq_true, decide_eq_true_eq] at this
    exact UInt8.lt_of_le_of_lt this.2 (by decide)
  have hparsed := parseServerHello_serverHello hsid (by simp) hct (prims.publicKey server.ephSk)
  have hreceives : ∀ stream, Cuts stream frame → receiveServerHello base122 config (prims.makeKey key) []
      stream = .ok (serverHello server.sessionId.hyphenated ct (prims.publicKey server.ephSk)) := by
    rintro stream ⟨hfine, hfed⟩
    have hmore : fed stream ≠ [] := by
      rw [hfed]
      exact List.length_pos_iff.mp (hcarries.length_le hkey hb).1
    rw [hencoding] at hcarries
    exact receiveServerHello_carries hkey hb hcarries stream hfine [] hfed hmore
  refine ⟨kemPk, _, frame, ⟨deriveInitialMaster prims ss (prims.diffieHellman server.ephSk
    (prims.publicKey client.ephSkB)), server.sessionId.hyphenated⟩, hpair.ours, hstart, hserver, hreceived,
    ?_, ⟨ct, ss, hencaps, fun stream hcuts => ⟨_, hreceives stream hcuts, hparsed⟩⟩, ?_, rfl⟩
  · obtain ⟨hno_stream, hno_session, hfound⟩ :=
      extract_handshakeCookie (prims.publicKey client.ephSkA) client.padding
    have hpk := readEphPkA_handshakeCookie (prims.publicKey client.ephSkA) client.padding
    simp only [dispatch, hno_stream, hno_session, hfound, handleFreshHandshake, hpk, hserver, hreceived,
      mlkemEncapsulate, hencaps, hframe, ok_bind, mapError_ok, replyHandshake]
  · intro stream hcuts
    simp only [finishHandshake, hreceives stream hcuts, hparsed, mlkemDecapsulate, hdecaps, ok_bind,
      mapError_ok, hmaster]
    rfl

/-! ## The tunnel -/

/-- A tunnel that the client opens with `ticket` at a server in state `s`. -/
structure TunnelAgrees (prims : Primitives) (base122 : Base122Fast) (config : ResolvedShaperConfig)
    (s : AppState prims) (now : Nat) (ticket : PqSessionTicket) (target initialPayload : Bytes)
    (random : ConnectRandom) (connecting : Connecting) (sessionVal : Bytes) (claimed : Claimed) : Prop where
  sends : tryPqConnect prims base122 config ticket target initialPayload random = .ok connecting
  streamId : connecting.streamId = random.streamId
  /-- Whatever the server's random choices are and whoever the token is from, the cookie is a session's. -/
  routed : ∀ user server body,
    dispatch prims base122 user server (some connecting.cookie) body now s =
      replyTunnel (spawnEncryptedTunnel prims sessionVal now s)
  /-- The stream id is recovered, and claimed if it is free. -/
  claims : claimStream prims sessionVal now s =
    match s.streamRegistry connecting.streamId with
    | some _ => (.error (preconditionRequired "stream already active"), s)
    | none => (.ok claimed, { s with
        streamRegistry := Function.update s.streamRegistry connecting.streamId (some (.active, now)) })
  /-- The target and both keys are the client's. -/
  opens : openTarget prims claimed = .ok {
    streamId := connecting.streamId
    uploadKey := connecting.uploadKey
    downloadKey := connecting.downloadKey
    target }
  /-- So a tunnel to a host and a port is set up with them. -/
  setsUp : s.streamRegistry connecting.streamId = none → ∀ host port,
    splitTarget target = .ok (host, port) → ∀ user server body,
    dispatch prims base122 user server (some connecting.cookie) body now s =
      (.setupTunnel {
        host, port
        streamId := connecting.streamId
        uploadKey := connecting.uploadKey
        downloadKey := connecting.downloadKey }, { s with
        streamRegistry := Function.update s.streamRegistry connecting.streamId (some (.active, now)) })

theorem claimStream_sessionCookieVal {s : AppState prims} {now : Nat} {sessionId : Uuid}
    {entry : MasterStoreEntry} (hentry : s.masterStore sessionId.hyphenated = some entry)
    (hfresh : now - entry.created ≤ MASTER_EXPIRY) (encTarget : Bytes) {encStreamId : Bytes}
    {streamId : Uuid}
    (hid : decryptBytes prims (deriveCookieStreamKey prims entry.master) encStreamId =
      .ok streamId.asBytes) :
    claimStream prims (sessionCookieVal sessionId.hyphenated encTarget encStreamId) now s =
      match s.streamRegistry streamId with
      | some _ => (.error (preconditionRequired "stream already active"), s)
      | none => (.ok ⟨entry.master, streamId, Base64.encode encTarget⟩, { s with
          streamRegistry := Function.update s.streamRegistry streamId (some (.active, now)) }) := by
  have hshape : sessionCookieVal sessionId.hyphenated encTarget encStreamId =
      sessionId.hyphenated ++ 58 :: (Base64.encode encTarget ++ 58 :: Base64.encode encStreamId) := by
    simp [sessionCookieVal]
  have hfirst := splitOnce_append (colon_not_mem (isUrlSafe_hyphenated sessionId))
    (Base64.encode encTarget ++ 58 :: Base64.encode encStreamId)
  have hsecond := splitOnce_append (colon_not_mem (Base64.isUrlSafe_encode encTarget))
    (Base64.encode encStreamId)
  have hread : readStreamId prims entry.master (Base64.encode encStreamId) = .ok streamId := by
    simp only [readStreamId, Base64.decode_encode, hid, Uuid.ofBytes_asBytes]
  rw [hshape]
  simp only [claimStream, hfirst, hsecond, Uuid.parseStr_hyphenated, hentry, hread,
    if_neg (Nat.not_lt.mpr hfresh), register]
  cases s.streamRegistry streamId <;> rfl

/-- **A tunnel of the session has the same stream id, target and keys on both sides.** -/
theorem tunnel_agrees (hprims : prims.Lawful) (config : ResolvedShaperConfig) (s : AppState prims)
    (now : Nat) {ticket : PqSessionTicket} {sessionId : Uuid}
    (hsid : ticket.sessionId = sessionId.hyphenated) {entry : MasterStoreEntry}
    (hentry : s.masterStore ticket.sessionId = some entry) (hmaster : entry.master = ticket.master)
    (hfresh : now - entry.created ≤ MASTER_EXPIRY) {target : Bytes} (htarget : validUtf8 target = true)
    (initialPayload : Bytes) (random : ConnectRandom) :
    ∃ connecting sessionVal claimed, TunnelAgrees prims base122 config s now ticket target initialPayload
      random connecting sessionVal claimed := by
  rw [hsid] at hentry
  obtain ⟨encTarget, hboxed, -, hunboxed⟩ := decryptBytes_encryptBytes hprims
    (deriveConnectionKeys prims ticket.master random.streamId).target random.targetNonce target
  obtain ⟨encStreamId, hsealed, -, hunsealed⟩ := decryptBytes_encryptBytes hprims
    (deriveCookieStreamKey prims ticket.master) random.streamIdNonce random.streamId.asBytes
  obtain ⟨fs, remaining, hearly, -⟩ := @UploadLoop.encodeInitialPayload_spec _ base122 config
    random.earlyData (hprims.aead (deriveConnectionKeys prims ticket.master random.streamId).upload).2
    initialPayload MAX_RAW_PAYLOAD
  rw [← hmaster] at hunsealed hunboxed
  have hclaim := claimStream_sessionCookieVal hentry hfresh encTarget hunsealed
  have hvalue := isValue_sessionCookieVal (isUrlSafe_hyphenated sessionId) encTarget encStreamId
  obtain ⟨hno_stream, hfound⟩ := extract_tunnelCookie hvalue random.padding
  have hcolon : 58 ∈ sessionCookieVal sessionId.hyphenated encTarget encStreamId := by
    simp [sessionCookieVal]
  have hroute (user : Except ServerError Bytes) (server : ServerRandom prims) (body : Body) :
      dispatch prims base122 user server (some (buildTunnelCookie
        (sessionCookieVal sessionId.hyphenated encTarget encStreamId) random.padding)) body now s =
      replyTunnel (spawnEncryptedTunnel prims
        (sessionCookieVal sessionId.hyphenated encTarget encStreamId) now s) := by
    simp only [dispatch, hno_stream, hfound]
    exact if_neg (not_not.mpr hcolon)
  have hopen : openTarget prims ⟨entry.master, random.streamId, Base64.encode encTarget⟩ = .ok {
      streamId := random.streamId
      uploadKey := (deriveConnectionKeys prims entry.master random.streamId).upload
      downloadKey := (deriveConnectionKeys prims entry.master random.streamId).download
      target } := by
    simp only [openTarget, Base64.decode_encode, hunboxed]
    exact if_pos htarget
  refine ⟨{
    streamId := random.streamId
    uploadKey := (deriveConnectionKeys prims entry.master random.streamId).upload
    downloadKey := (deriveConnectionKeys prims entry.master random.streamId).download
    cookie := buildTunnelCookie (sessionCookieVal sessionId.hyphenated encTarget encStreamId)
      random.padding
    body := UploadLoop.bytesOf fs
    remainingPayload := remaining
    framesSent := Seq.seqAt 0 fs.length }, sessionCookieVal sessionId.hyphenated encTarget encStreamId,
    ⟨entry.master, random.streamId, Base64.encode encTarget⟩, ?_, rfl, hroute, hclaim, hopen, ?_⟩
  · simp only [tryPqConnect, hboxed, hsealed, hearly, ok_bind, mapError_ok, hmaster, hsid]
    rfl
  · intro hfree host port hsplit user server body
    have hcall : openTarget prims ⟨entry.master, random.streamId, Base64.encode encTarget⟩ >>= tunnelCall =
        .ok {
          host, port
          streamId := random.streamId
          uploadKey := (deriveConnectionKeys prims entry.master random.streamId).upload
          downloadKey := (deriveConnectionKeys prims entry.master random.streamId).download } := by
      rw [hopen, ok_bind, tunnelCall, hsplit]
      rfl
    rw [hfree] at hclaim
    rw [hroute, spawnEncryptedTunnel, hclaim]
    dsimp only
    rw [hcall]
    rfl

end Agreement

/-- **Client and server agree on every session.**

    For all secrets, coins, session ids, nonces and paddings: the server reads the two public keys out of
    the client's request and stores a master; the client reads session id, ciphertext and public key out
    of the answer, however it is cut, and its ticket has the SAME master.  From then on, while the server
    has the master and it has not expired: for every stream id, target and payload the cookie of
    `try_pq_connect` goes to `spawn_encrypted_tunnel`, which recovers the stream id, the target and the
    client's keys, the one for the upload and the one for the download. -/
theorem session_agreement (prims : Primitives) (hprims : prims.Lawful) (base122 : Base122Fast)
    (hb : base122.Lawful) (config : ResolvedShaperConfig) (s : AppState prims)
    (hencoding : s.trafficConfig.encoding = config.encoding) (client : ClientRandom prims)
    (kemSk : prims.DecapsulationKey) (hgen : client.kemSk = some kemSk) (server : ServerRandom prims)
    (user : Bytes) (now : Nat) :
    ∃ kemPk started frame ticket, prims.encapsulationKey kemSk = some kemPk ∧
      HandshakeAgrees prims base122 config s client server user now kemPk started frame ticket ∧
      ∀ (later : AppState prims) (t : Nat) (target initialPayload : Bytes) (random : ConnectRandom),
        later.masterStore ticket.sessionId =
          some { username := user, master := ticket.master, created := now } →
        t - now ≤ MASTER_EXPIRY → validUtf8 target = true →
        ∃ connecting sessionVal claimed, TunnelAgrees prims base122 config later t ticket target
          initialPayload random connecting sessionVal claimed := by
  obtain ⟨kemPk, started, frame, ticket, hours, hagrees⟩ :=
    handshake_agrees hprims hb s hencoding client hgen server user now
  refine ⟨kemPk, started, frame, ticket, hours, hagrees, ?_⟩
  intro later t target initialPayload random hentry hfresh htarget
  exact tunnel_agrees hprims config later t hagrees.sessionId hentry rfl hfresh htarget initialPayload
    random

/-! ## One session

  The libraries on the inputs of one session.  AES-GCM and HKDF are the real ones; of X25519 there are the
  secrets with 32 times the byte 1, 2, 3 or 4, and of ML-KEM the key pair of the seeds 0, 1, …, 63 and
  the encapsulation of the bytes 64, …, 95. -/

inductive DemoSecret where
  | server
  | ephA
  | ephB
  | serverEph
  deriving DecidableEq

def key32 (v : Nat) : Key := ⟨putBe 32 v, length_putBe 32 v⟩

def demoPublic : DemoSecret → Key
  | .server => key32 0xa4e09292b651c278b9772c569f5fa9bb13d906b46ab68c9df9dc2b4409f8a209
  | .ephA => key32 0xce8d3ad1ccb633ec7b70c17814a5c76ecd029685050d344745ba05870e587d59
  | .ephB => key32 0x5dfedd3b6bd47f6fa28ee15d969d5bb0ea53774d488bdaf9df1c6e0124b3ef22
  | .serverEph => key32 0xac01b2209e86354fb853237b5de0f4fab13c7fcbf433a61c019369617fecf10b

def demoShared : DemoSecret → DemoSecret → Key
  | .server, .server =>
    key32 0xf311d440a5f15fac9cbdc78fbb90b63a6c6880148e79159dd258f036bf2f792c
  | .server, .ephA | .ephA, .server =>
    key32 0x2ed76ab549b1e73c031eb49c9448f0798aea81b698279a0c3dc3e49fbfc4b953
  | .server, .ephB | .ephB, .server =>
    key32 0xb0190541a2abb8bc163b6eef0fae7ba0179004b444326f73809563164d47c521
  | .server, .serverEph | .serverEph, .server =>
    key32 0x64bb28fb502743e6560d2330e0cebe95fa555a09a575e5fff1e34c5f6fd4d43c
  | .ephA, .ephA =>
    key32 0xacb1f256815afb1d7c1bc0db3aa6727aab4215ca4cd116e1f88be1a8a4b5507a
  | .ephA, .ephB | .ephB, .ephA =>
    key32 0x7c425a51f6a7f2e60012b0a34dd6511017807708b502ee66a2a247f171fda96c
  | .ephA, .serverEph | .serverEph, .ephA =>
    key32 0x09bb974ce3799959096660bdece3bb89ca106e6df31c2f701b7b8b9977047c34
  | .ephB, .ephB =>
    key32 0x072a93413650c6f912dbcc425a957c0be31d27778175c3bf293293a37c888c6c
  | .ephB, .serverEph | .serverEph, .ephB =>
    key32 0x40e47a3f525bdcac491d418978d7db5af623ac7afe7623c6d78a5d4fce9d0f63
  | .serverEph, .serverEph =>
    key32 0x1efaf5406115543cedeade6523086e3a1b0e7f3ac44743675ec2ca9430d6d939

def demoDiffieHellman (secret : DemoSecret) (pk : Key) : Key :=
  match [DemoSecret.server, .ephA, .ephB, .serverEph].find? (demoPublic · = pk) with
  | some other => demoShared secret other
  | none => key32 0

def DEMO_KEM_PK : Bytes :=
  [0x298aa10d423c8dda069d02bc59e6cdf03a096b8b3da4cab9b80ca4a14907672c,
    0xcef1ec4faf234a0bc5b7e9d473f2b3133b3b26a1d175cb67a7805919699c02f7,
    0x6531b99c5f89180704bb4ca4535c5b8972679c660a07c5e514b87009c862eb8f,
    0x5157695efb3fc40a9def6b81c1cc02a249ae4f094ad0d9bd3485c1c1c6808052,
    0x0a7c8c632032cee738154e5c5176c07da56024776a430fe76eacf665a3f7b832,
    0x102215bc82f10939c8355704336a8fac1d81e4bb0485aa5d7c74d6b59bbe5c5e,
    0x972a0d8bac411b55b5d5557cd680a1a8f71b4eb86bc48c9a0509731a54bd9d72,
    0x90b27963e4372dc9b199cfdcac0b01acd28a62395112e4c43648d622c48c8234,
    0xd01440e8cc376c927f23a5afc9ac0474c662274e424525c8552ece3b3fe26516,
    0xde901bc7d515bde89558e626c95c80b93342f8010004f39e6c6c94871c5e344c,
    0xab3966c835f9a96a59afd31c40286b38b1c1a78470bab947518934453ce86736,
    0xa919f1f5a6d510a86f5454fc3980cb5c765bd2bd5f7b36b1410d6635c8ceb47c,
    0x4dda0d76a28eac939c71c3024804866c71626658442163c2c22117e50acefce6,
    0x378a985652302a4ef0c2ce0cc716b7796e2b6b2e3777dfa1ac3da259a31b5a9b,
    0x530f8cb638a81a62ac301849abaf95a7301bda30068909bfdb7e67dbccbb38a5,
    0x551a25b1a3a0f685748ad5753d8880f0016c627486166384c5571fe236590036,
    0x4d038311e2d875db366686932b5ec602430a369e87a6ef5c338786657825bd4c,
    0x057aceb923eb0935e6905e63b4ced7f80857a773dd64b150d26612ea9ac12052,
    0xdb2017bf1843ccb4b3281b690dc728adfa85c00281b8e3c09287335f856b4fc2,
    0x892f69a2f57921ada01914c40988662d57769662a786351b9b66493dab79594d,
    0x986de2100d65ba0ff4ea58b81538d24a4435a258fac25404aa7f41f658b13850,
    0x65e158dcb60115732720f40459aaac15e406953a90ac52997d1ccd070060efc6,
    0x5db9e653354467fad56ec713c86e7540c423acf2669f52fa6f4ac6888d871ef3,
    0xe847c029a8aafbb92e17b24aa079b1f419ba6175b442afb11909d4a56b70a033,
    0x5b28739218aa7c9348e2c3c2f3eb3d15a41e6417c0dd94bfeb21419b311a7bb1,
    0x3a180bbe833218a9a6b17447cc85f225859587a73077049acbcfd44d0f025438,
    0xe15d1538270d586e1bf83192a9459cf63c0e972f85297679831ecf121509851c,
    0xb8340f6f107b0fa1a0efd1b36a8189bc085c4f5cb784e553f41b918f80397ce1,
    0x956f785bee377ca9aa8be6998ada30c26b7c3d8c6b55254cc96203b20c42aee0,
    0xac4e1ebb408e49a9e3f879d0ab0785eb7025425d1305a2299c015e120d163b0e,
    0x19494ce57253d0246d182745cb8197ab7438b3c1bb7972bec5a306eba3567855,
    0xc014699fef65ae54c770a0d85c18400cf642aedc660777ba4b138502bd5a7812,
    0xf621f84a48296b98dd4322b6f15828b8a8f0e00a8ba44a53c3a8b143571b0740,
    0xabd567daf1cde9c79c204b6d5e259d1766a31bbbcb4e6a05cf4502176b301c1c,
    0x2f41247750157bcec85e809b30a4d60d7747cdd0f5b99aa8c826987517793aaa,
    0x8080a0b124a8558df72bbe37b75f4edbb6be8216d6c633fb2b2280e25113d869,
    0x5e43481c3eeb397eb192505229b67a201ea893c3e2cb32da8bc342fa4dea0578].flatMap (putBe 32)

def DEMO_CT : Bytes :=
  [0x695a60d9c79f08343ed9ff5802582063c2ca3a648e543d924affbb39ef4de656,
    0x591f0d7689e6626be7ea7fedaf134e2c27c6797c73a5edaf16808f141c8afcf3,
    0x1614e8ab665379573e4d0a2037cbf776048167ba53576001a2596402cf24b5d4,
    0x5362bc893ceaef3599f76b10812e626002e66db5c5b0f2b9a7080e32db68dcc8,
    0xd04c24f8461a58bb7e47efe670d740ad8af9820033845ef5f880f26f0e00adb2,
    0xabef876f5270477ebbb02de6787ce72ca8785fb181f46c3ff7ae3787c25c68cc,
    0xceefb3551875b9d77c4d439b6050eb382aacf9e744227e8c46e0a9a55838ea70,
    0x34f5b4bcb61f1023a80186e795f4b3d8ae93988994224fa2d83e21711670da01,
    0xe2b3e272f81616c0bc88cc46f641d16e0d0c0924cf4a4a5c1a9128c226d4918a,
    0xa39bef94199dfffa33876ef0bfa0d9560d25f5ba08068d5271f32d2f9d88bcf5,
    0x3c7dcf811a8d5efe617f5e05700d3478d3cb7932528d1bceb240198a4cf8752c,
    0xaea3d387f00759a1356b7a5bf1838d26c3573e92e69f0f57c06e8c25459eb83e,
    0x12cdd75f541a81ce710eafce2984783f30e37b327ff93b72297c6cd8c78c185a,
    0xd53864952069d7d6c3bc633ae5e1a5925855df0b7e714bbde245f68822e0950c,
    0x23c96d6111753a6ed0c46cce437f53b6bb708c1a3e25979733198d9879e3237e,
    0x769471f922e579f37cfd641d29bdcfdbaa81edae09aeb046366e0376d04282d1,
    0x7778a8d54774e8c9be3c822b1e90cd8895abc1db8951b7687f63fee50ec43faf,
    0x23730b15189e7c982b22d896a972da3c2ee529bb5fe63630c9c2ddfb9d1e4263,
    0xa3d49af2832053d97efa2bd1782f25d7b864d6fb3708bfb9d4bc6c2cc6458d4f,
    0x1459995db387e8b503825a4496c735252aa630a1bcaa7a2674727396dcaf6703,
    0x0b53473951651dc26c22476bfd11d33206af0ff035ed035e34716c905e8ddf04,
    0x3a4cdae145238d8f612dbcb75e879653bb9e2657dab58b944ff34f977fe15ce9,
    0x07f6814a5f92338774e6f2ab5257d24917decdd158c6d4594189f42a9b7fa915,
    0x9a8af6aa825ba904654e08c894901298ffb27239ddea8283dd45b876036c0aec,
    0xf03583ba444529757444c857fff6e4f8ed48f8a180adea54979a678f16dc6ac8,
    0xedcc8e72ed08e96082f0ff4520dc635d4a846a3026fd86a48b1297e0cdfc0600,
    0x8793e783bde1c3fc6a71871e66b1feb560495817aabbdc59f0149f3e76add9b5,
    0xbd6ce34734de7593ed607efb84c6e732960c744c908a9cb8947375a55b55fa2f,
    0x0cd6742b75c10f65522d3844bed9b05bd441bbbea17cfbabdaef9847a0edd9c8,
    0x329a762e34e5396014d88b4d344f250aaddefd917bb2120d1169c79cb09f59ba,
    0xd21850752c1099fff98b71bcdaab76f7063323e78faa521cd243f74ddc7f7775,
    0xaa79960622e13580a6831e69bb7f2321d141d35da88317719078d4db319f3085,
    0x94c26836503f62362c40005022937c1298a928c040879661349a7b5362d0a75f,
    0x2893b97a2600d5337239a70a6b64a457e6dfd5c74d462e7e790bb9ef3cee1461].flatMap (putBe 32)

def DEMO_SS : Bytes := putBe 32 0x9cddd089ffe70e3996e76f7c8d06746df34d07e8657bc0fcf2bb0e1c3084aea1

def demoImport (bytes : Bytes) : Option Unit := if bytes = DEMO_KEM_PK then some () else none

def demoDecapsulate (ct : Bytes) : Option Bytes := if ct = DEMO_CT then some DEMO_SS else none

def demoPrimitives : Primitives where
  StaticSecret := DemoSecret
  publicKey := demoPublic
  diffieHellman := demoDiffieHellman
  DecapsulationKey := Unit
  EncapsulationKey := Unit
  encapsulationKey _ := some ()
  keyBytes _ := some DEMO_KEM_PK
  newEncapsulationKey := demoImport
  Coins := Unit
  encapsulate _ _ := some (DEMO_CT, DEMO_SS)
  decapsulate _ := demoDecapsulate
  hkdf := Hkdf.derive
  makeKey := aes256Gcm

theorem demoDiffieHellman_public (a b : DemoSecret) :
    demoDiffieHellman a (demoPublic b) = demoShared a b := by
  have hfound : [DemoSecret.server, .ephA, .ephB, .serverEph].find? (demoPublic · = demoPublic b) =
      some b := by
    cases b <;> decide +kernel
  rw [demoDiffieHellman, hfound]

theorem demoShared_comm (a b : DemoSecret) : demoShared a b = demoShared b a := by
  cases a <;> cases b <;> rfl

theorem length_demoKemPk : DEMO_KEM_PK.length = 1184 := by
  decide +kernel

theorem length_demoCt : DEMO_CT.length = 1088 := by
  decide +kernel

theorem demoPrimitives_import : demoPrimitives.newEncapsulationKey = demoImport := rfl

theorem demoPrimitives_decapsulate : demoPrimitives.decapsulate () = demoDecapsulate := rfl

theorem demoPrimitives_keyPair : demoPrimitives.KeyPair () () DEMO_KEM_PK where
  ours := rfl
  exported := rfl
  imported := by
    rw [demoPrimitives_import, demoImport, if_pos rfl]
    rfl
  length := length_demoKemPk
  inverts _ := by
    refine ⟨DEMO_CT, DEMO_SS, rfl, length_demoCt, ?_⟩
    rw [demoPrimitives_decapsulate, demoDecapsulate, if_pos rfl]

theorem demoPrimitives_lawful : demoPrimitives.Lawful where
  commutes := fun (a b : DemoSecret) => by
    show demoDiffieHellman a (demoPublic b) = demoDiffieHellman b (demoPublic a)
    rw [demoDiffieHellman_public, demoDiffieHellman_public, demoShared_comm]
  keyPair _ := ⟨(), DEMO_KEM_PK, demoPrimitives_keyPair⟩
  aead key := ⟨aes256Gcm_lawful key, aes256Gcm_neverFails key⟩

def demoConfig : ResolvedShaperConfig where
  stages := []
  globalThreshold := 600
  globalRange := ⟨40, 80, by decide⟩
  encoding := .json

def demoState : AppState demoPrimitives where
  trafficConfig := demoConfig
  privateKey := .server
  masterStore _ := none
  streamRegistry := StreamRegistry.new
  actors _ := false

def demoPadding : PaddingLen := ⟨20, by decide, by decide⟩

def demoClient : ClientRandom demoPrimitives where
  ephSkA := .ephA
  kemSk := some ()
  ephSkB := .ephB
  frame := demoDraw
  padding := demoPadding

def demoServer : ServerRandom demoPrimitives where
  coins := ()
  ephSk := .serverEph
  sessionId := ⟨.replicate 16 9, rfl⟩
  frame := demoDraw

/-- The session of a user whose name is the byte `u`, in second 1000. -/
theorem session_agreement_demo :
    ∃ kemPk started frame ticket, demoPrimitives.encapsulationKey () = some kemPk ∧
      HandshakeAgrees demoPrimitives publishedBase122 demoConfig demoState demoClient demoServer [117] 1000
        kemPk started frame ticket ∧
      ∀ (later : AppState demoPrimitives) (t : Nat) (target initialPayload : Bytes)
        (random : ConnectRandom),
        later.masterStore ticket.sessionId =
          some { username := [117], master := ticket.master, created := 1000 } →
        t - 1000 ≤ MASTER_EXPIRY → validUtf8 target = true →
        ∃ connecting sessionVal claimed, TunnelAgrees demoPrimitives publishedBase122 demoConfig later t
          ticket target initialPayload random connecting sessionVal claimed :=
  session_agreement demoPrimitives demoPrimitives_lawful publishedBase122 publishedBase122_lawful
    demoConfig demoState rfl demoClient () rfl demoServer [117] 1000

end Httproxy.Session
