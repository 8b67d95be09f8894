/-
  Keys and how they are derived (`src/crypto/keys.rs`, `src/crypto/handshake.rs`, and `encrypt_bytes` and
  `decrypt_bytes` in `src/crypto/cipher.rs`).

  1. **Libraries (`Primitives`)** — X25519, ML-KEM-768, HKDF-SHA256 and AES-256-GCM are PARAMETERS.
     `Primitives.Lawful` is what they promise: both sides of X25519 agree, what is encapsulated under a
     public key is decapsulated with its secret key, and AES-GCM opens what it sealed.

  2. **Derivations** — each has its own label, and the keys of a connection are 96 bytes cut in three: for
     the upload, for the download and for the target, IN THIS ORDER.
-/
import Httproxy.Crypto.Cipher
import Httproxy.Lib.AesGcm
import Httproxy.Lib.Uuid

namespace Httproxy.Crypto

/-- `[u8; 32]`. -/
abbrev Key := { b : Bytes // b.length = 32 }

/-- `<[u8; 32]>::try_from`. -/
def keyOf (b : Bytes) : Option Key := if h : b.length = 32 then some ⟨b, h⟩ else none

@[simp] theorem keyOf_val (k : Key) : keyOf k.val = some k := dif_pos k.property

/-! ## Libraries -/

structure Primitives where
  /-- `x25519_dalek::StaticSecret`. -/
  StaticSecret : Type
  publicKey : StaticSecret → Key
  diffieHellman : StaticSecret → Key → Key
  /-- The keys of `aws_lc_rs::kem`. -/
  DecapsulationKey : Type
  EncapsulationKey : Type
  encapsulationKey : DecapsulationKey → Option EncapsulationKey
  keyBytes : EncapsulationKey → Option Bytes
  newEncapsulationKey : Bytes → Option EncapsulationKey
  /-- The random bits that `encapsulate` takes. -/
  Coins : Type
  /-- `encapsulate`: the ciphertext and the shared secret. -/
  encapsulate : EncapsulationKey → Coins → Option (Bytes × Bytes)
  decapsulate : DecapsulationKey → Bytes → Option Bytes
  /-- `Hkdf::<Sha256>::new(salt, ikm)` and `expand(info, ..)` into this many bytes. -/
  hkdf : Option Bytes → Bytes → Bytes → (len : Nat) → { b : Bytes // b.length = len }
  /-- `make_key`. -/
  makeKey : Key → LessSafeKey

/-- What an ML-KEM key pair promises. -/
structure Primitives.KeyPair (prims : Primitives) (sk : prims.DecapsulationKey)
    (pk : prims.EncapsulationKey) (bytes : Bytes) : Prop where
  ours : prims.encapsulationKey sk = some pk
  exported : prims.keyBytes pk = some bytes
  imported : prims.newEncapsulationKey bytes = some pk
  length : bytes.length = 1184
  inverts : ∀ coins, ∃ ct ss, prims.encapsulate pk coins = some (ct, ss) ∧ ct.length = 1088 ∧
    prims.decapsulate sk ct = some ss

/-- What the libraries promise. -/
structure Primitives.Lawful (prims : Primitives) : Prop where
  commutes : ∀ a b, prims.diffieHellman a (prims.publicKey b) = prims.diffieHellman b (prims.publicKey a)
  keyPair : ∀ sk, ∃ pk bytes, prims.KeyPair sk pk bytes
  aead : ∀ key, (prims.makeKey key).Lawful ∧ (prims.makeKey key).NeverFails

section Encapsulation

variable (prims : Primitives)

/-- `generate_mlkem_keypair`, on what `DecapsulationKey::generate` returned. -/
def generateMlkemKeypair (generated : Option prims.DecapsulationKey) :
    Except String (prims.DecapsulationKey × prims.EncapsulationKey) :=
  match generated with
  | none => .error "ML-KEM key generation failed"
  | some sk =>
    match prims.encapsulationKey sk with
    | none => .error "ML-KEM encapsulation key unavailable"
    | some pk => .ok (sk, pk)

def mlkemPublicKeyBytes (pk : prims.EncapsulationKey) : Except String Bytes :=
  match prims.keyBytes pk with
  | none => .error "ML-KEM public key export failed"
  | some bytes => .ok bytes

def bytesToEncapsulationKey (bytes : Bytes) : Except String prims.EncapsulationKey :=
  match prims.newEncapsulationKey bytes with
  | none => .error "invalid encapsulation key"
  | some pk => .ok pk

def mlkemEncapsulate (pk : prims.EncapsulationKey) (coins : prims.Coins) :
    Except String (Bytes × Bytes) :=
  match prims.encapsulate pk coins with
  | none => .error "ML-KEM encapsulation failed"
  | some (ct, ss) => .ok (ct, ss)

def mlkemDecapsulate (sk : prims.DecapsulationKey) (ct : Bytes) : Except String Bytes :=
  match prims.decapsulate sk ct with
  | none => .error "ML-KEM decapsulation failed"
  | some ss => .ok ss

end Encapsulation

/-! ## Derivations -/

section Derivations

variable (prims : Primitives)

/-- The bytes of `mlkem_handshake_key`. -/
def MLKEM_HANDSHAKE_KEY : Bytes :=
  [109, 108, 107, 101, 109, 95, 104, 97, 110, 100, 115, 104, 97, 107, 101, 95, 107, 101, 121]
/-- The bytes of `initial_master_salt`. -/
def INITIAL_MASTER_SALT : Bytes :=
  [105, 110, 105, 116, 105, 97, 108, 95, 109, 97, 115, 116, 101, 114, 95, 115, 97, 108, 116]
/-- The bytes of `cookie_stream_key`. -/
def COOKIE_STREAM_KEY : Bytes :=
  [99, 111, 111, 107, 105, 101, 95, 115, 116, 114, 101, 97, 109, 95, 107, 101, 121]
/-- The bytes of `connection_keys`. -/
def CONNECTION_KEYS : Bytes :=
  [99, 111, 110, 110, 101, 99, 116, 105, 111, 110, 95, 107, 101, 121, 115]

def deriveHandshakeKey (shared : Key) : Key := prims.hkdf none shared MLKEM_HANDSHAKE_KEY 32

def deriveInitialMaster (mlkemSs : Bytes) (x25519Ss : Key) : Key :=
  prims.hkdf (some INITIAL_MASTER_SALT) (mlkemSs ++ x25519Ss) [] 32

def deriveCookieStreamKey (master : Bytes) : Key := prims.hkdf none master COOKIE_STREAM_KEY 32

structure ConnectionKeys where
  upload : Key
  download : Key
  target : Key
  deriving DecidableEq

def deriveConnectionKeys (master : Bytes) (streamId : Uuid) : ConnectionKeys :=
  let buf := prims.hkdf none master (streamId.asBytes ++ CONNECTION_KEYS) 96
  { upload := ⟨buf.val.take 32, by simp [buf.property]⟩
    download := ⟨Bytes.slice buf.val 32 64, by simp [Bytes.slice, buf.property]⟩
    target := ⟨buf.val.drop 64, by simp [buf.property]⟩ }

end Derivations

/-! ## Texts under a key -/

/-- `encrypt_with_cipher`. -/
def encryptWithCipher (cipher : LessSafeKey) (nonce : Nonce) (plaintext : Bytes) : Except String Bytes :=
  match cipher.sealSeparateTag nonce plaintext with
  | none => .error "encryption error"
  | some (ct, tag) => .ok (nonce ++ ct ++ tag)

theorem length_take_nonce {data : Bytes} (h : ¬ data.length < NONCE_LEN + TAG_LEN) :
    (data.take NONCE_LEN).length = NONCE_LEN := by
  rw [List.length_take]
  omega

/-- `decrypt_with_cipher`. -/
def decryptWithCipher (cipher : LessSafeKey) (data : Bytes) : Except String Bytes :=
  if h : data.length < NONCE_LEN + TAG_LEN then .error "ciphertext too short"
  else
    let nonce : Nonce := ⟨data.take NONCE_LEN, length_take_nonce h⟩
    match cipher.openInPlace nonce (data.drop NONCE_LEN) with
    | (_, none) => .error "decryption error"
    | (plaintext, some len) => .ok (plaintext.take len)

def encryptBytes (prims : Primitives) (key : Key) (nonce : Nonce) (data : Bytes) : Except String Bytes :=
  encryptWithCipher (prims.makeKey key) nonce data

def decryptBytes (prims : Primitives) (key : Key) (data : Bytes) : Except String Bytes :=
  decryptWithCipher (prims.makeKey key) data

/-- The AES-256-GCM key with these bytes. -/
def aes256Gcm (key : Key) : LessSafeKey where
  sealSeparateTag nonce plain :=
    let ct := AesGcm.crypt (AesGcm.expandKey key) nonce plain
    some (ct, AesGcm.tag (AesGcm.expandKey key) nonce ct)
  openInPlace nonce buf :=
    let len := buf.length - TAG_LEN
    let ct := buf.take len
    let tag := AesGcm.tag (AesGcm.expandKey key) nonce ct
    if buf.drop len = tag then (AesGcm.crypt (AesGcm.expandKey key) nonce ct ++ tag, some len)
    else (buf, none)

theorem aes256Gcm_lawful (key : Key) : (aes256Gcm key).Lawful where
  ct_length := by
    intro nonce plain ct tag h
    obtain ⟨rfl, -⟩ := Prod.mk.inj (Option.some.inj h)
    exact AesGcm.length_crypt ..
  tag_length := by
    intro nonce plain ct tag h
    obtain ⟨-, rfl⟩ := Prod.mk.inj (Option.some.inj h)
    exact AesGcm.length_tag ..
  open_seal := by
    intro nonce plain ct tag h
    obtain ⟨rfl, rfl⟩ := Prod.mk.inj (Option.some.inj h)
    have hlen (ct tag : Bytes) (htag : tag.length = TAG_LEN) : (ct ++ tag).length - TAG_LEN = ct.length := by
      rw [List.length_append, htag]
      exact Nat.add_sub_cancel _ _
    refine ⟨AesGcm.tag (AesGcm.expandKey key) nonce (AesGcm.crypt (AesGcm.expandKey key) nonce plain), ?_⟩
    show (if _ then _ else _) = _
    rw [hlen _ _ (AesGcm.length_tag ..), List.drop_left, List.take_left, AesGcm.crypt_crypt, if_pos rfl,
      AesGcm.length_crypt]

theorem aes256Gcm_neverFails (key : Key) : (aes256Gcm key).NeverFails := fun _ _ h => nomatch h

/-- **What is encrypted is decrypted** under the same key. -/
theorem decryptBytes_encryptBytes {prims : Primitives} (hprims : prims.Lawful) (key : Key) (nonce : Nonce)
    (data : Bytes) :
    ∃ box, encryptBytes prims key nonce data = .ok box ∧ box ≠ [] ∧ decryptBytes prims key box = .ok data := by
  obtain ⟨hkey, hseal⟩ := hprims.aead key
  obtain ⟨⟨ct, tag⟩, hbox⟩ := Option.ne_none_iff_exists'.mp (hseal nonce data)
  obtain ⟨left, hopen⟩ := hkey.open_seal hbox
  have hlen : (nonce.1 ++ ct ++ tag).length = NONCE_LEN + ct.length + TAG_LEN := by
    rw [List.length_append, List.length_append, nonce.2, hkey.tag_length hbox]
  have htake : (nonce.1 ++ ct ++ tag).take NONCE_LEN = nonce.1 := by
    rw [List.append_assoc, List.take_left' nonce.2]
  have hdrop : (nonce.1 ++ ct ++ tag).drop NONCE_LEN = ct ++ tag := by
    rw [List.append_assoc, List.drop_left' nonce.2]
  refine ⟨nonce ++ ct ++ tag, by rw [encryptBytes, encryptWithCipher, hbox], ?_, ?_⟩
  · have htag : TAG_LEN = 16 := rfl
    exact List.length_pos_iff.mp (by omega)
  · rw [decryptBytes, decryptWithCipher, dif_neg (by omega)]
    simp only [htake, hdrop, hopen, List.take_left]

end Httproxy.Crypto
