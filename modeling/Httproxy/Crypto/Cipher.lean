/-
  The frame cipher (`AesFrameCipher` in `src/crypto/cipher.rs`).

  1. **Program** — `sealInPlace`, `encryptInto` and `decryptInPlace` put the nonce in front of the
     ciphertext and the tag behind it.  The AES-256-GCM key under them (`LessSafeKey`) is a library:
     it is a PARAMETER here, and `LessSafeKey.Lawful` is what its documentation promises.

  2. **Specification** — a sealed box `nonce ++ ct ++ tag`, opened where it lies, shows the plaintext
     right behind the nonce (`decryptInPlace_sealed`), whatever bytes are left where the tag was.
-/
import Httproxy.Lib.Bytes

namespace Httproxy

/-- The kinds of `std::io::Error` the shaper and the cipher make. -/
inductive ErrorKind where
  | invalidData
  | invalidInput
  | other
  deriving DecidableEq, Repr

structure IoError where
  kind : ErrorKind
  message : String
  deriving DecidableEq, Repr

namespace Crypto

/-! ## Program -/

def NONCE_LEN : Nat := 12
def TAG_LEN : Nat := 16

/-- What `random_nonce` can return. -/
abbrev Nonce := { n : Bytes // n.length = NONCE_LEN }

/-- An AES-256-GCM key of the library. -/
structure LessSafeKey where
  /-- `seal_in_place_separate_tag`: the ciphertext and the tag. -/
  sealSeparateTag : Nonce → Bytes → Option (Bytes × Bytes)
  /-- `open_in_place`: the buffer as it is left, and how many bytes of plaintext it starts with. -/
  openInPlace : Nonce → Bytes → Bytes × Option Nat

/-- `seal_in_place`: the nonce goes to `out[nonce_start..ct_start]`, and what follows is sealed. -/
def sealInPlace (key : LessSafeKey) (nonce : Nonce) (out : Bytes) (nonceStart ctStart : Nat) :
    Bytes × Except IoError Unit :=
  match key.sealSeparateTag nonce (out.drop ctStart) with
  | none => (out.take nonceStart ++ nonce ++ out.drop ctStart, .error ⟨.other, "encryption error"⟩)
  | some (ct, tag) => (out.take nonceStart ++ nonce ++ ct ++ tag, .ok ())

/-- `encrypt_into`: the sealed `data` is appended to `out`. -/
def encryptInto (key : LessSafeKey) (nonce : Nonce) (data out : Bytes) :
    Bytes × Except IoError Unit :=
  match key.sealSeparateTag nonce data with
  | none => (out ++ nonce ++ data, .error ⟨.other, "encryption error"⟩)
  | some (ct, tag) => (out ++ nonce ++ ct ++ tag, .ok ())

/-- `decrypt_in_place`: the buffer as it is left, and the range of the plaintext in it. -/
def decryptInPlace (key : LessSafeKey) (buf : Bytes) : Bytes × Except IoError (Nat × Nat) :=
  if h : buf.length < NONCE_LEN + TAG_LEN then (buf, .error ⟨.invalidData, "ciphertext too short"⟩)
  else
    let nonce : Nonce := ⟨buf.take NONCE_LEN, by rw [List.length_take]; omega⟩
    match key.openInPlace nonce (buf.drop NONCE_LEN) with
    | (body, none) => (buf.take NONCE_LEN ++ body, .error ⟨.invalidData, "decryption error"⟩)
    | (body, some len) => (buf.take NONCE_LEN ++ body, .ok (NONCE_LEN, NONCE_LEN + len))

/-- Sealing in place succeeds when the key seals what follows the gap for the nonce. -/
theorem sealInPlace_ok {key : LessSafeKey} {nonce : Nonce} {out out' : Bytes} {ns cs : Nat}
    (h : sealInPlace key nonce out ns cs = (out', .ok ())) :
    ∃ ct tag, key.sealSeparateTag nonce (out.drop cs) = some (ct, tag) ∧
      out' = out.take ns ++ (nonce ++ ct ++ tag) := by
  unfold sealInPlace at h
  split at h
  · exact absurd (congrArg Prod.snd h) nofun
  · rename_i ct tag hseal
    exact ⟨ct, tag, hseal, by simpa using (congrArg Prod.fst h).symm⟩

/-- A key that never refuses to seal. -/
def LessSafeKey.NeverFails (key : LessSafeKey) : Prop :=
  ∀ nonce plain, key.sealSeparateTag nonce plain ≠ none

theorem LessSafeKey.NeverFails.sealInPlace {key : LessSafeKey} (hkey : key.NeverFails)
    (nonce : Nonce) (out : Bytes) (ns cs : Nat) :
    (sealInPlace key nonce out ns cs).2 = .ok () := by
  unfold Crypto.sealInPlace
  split
  · rename_i hnone
    exact absurd hnone (hkey nonce _)
  · rfl

theorem LessSafeKey.NeverFails.encryptInto {key : LessSafeKey} (hkey : key.NeverFails)
    (nonce : Nonce) (data out : Bytes) : (encryptInto key nonce data out).2 = .ok () := by
  rw [Crypto.encryptInto]
  split
  · rename_i hnone
    exact absurd hnone (hkey nonce data)
  · rfl

theorem encryptInto_ok {key : LessSafeKey} {nonce : Nonce} {data out out' : Bytes}
    (h : encryptInto key nonce data out = (out', .ok ())) :
    ∃ ct tag, key.sealSeparateTag nonce data = some (ct, tag) ∧
      out' = out ++ (nonce ++ ct ++ tag) := by
  unfold encryptInto at h
  split at h
  · exact absurd (congrArg Prod.snd h) nofun
  · rename_i ct tag hseal
    exact ⟨ct, tag, hseal, by simpa using (congrArg Prod.fst h).symm⟩

/-! ## Specification -/

/-- What the library promises: the ciphertext is as long as the plaintext, the tag has 16 bytes, and
    opening a ciphertext with its tag leaves the plaintext at the front of the buffer. -/
structure LessSafeKey.Lawful (key : LessSafeKey) : Prop where
  ct_length : ∀ {nonce plain ct tag}, key.sealSeparateTag nonce plain = some (ct, tag) →
    ct.length = plain.length
  tag_length : ∀ {nonce plain ct tag}, key.sealSeparateTag nonce plain = some (ct, tag) →
    tag.length = TAG_LEN
  open_seal : ∀ {nonce plain ct tag}, key.sealSeparateTag nonce plain = some (ct, tag) →
    ∃ left, key.openInPlace nonce (ct ++ tag) = (plain ++ left, some plain.length)

theorem decryptInPlace_sealed {key : LessSafeKey} (hkey : key.Lawful) {nonce : Nonce}
    {plain ct tag : Bytes} (hseal : key.sealSeparateTag nonce plain = some (ct, tag)) :
    ∃ left, decryptInPlace key (nonce ++ ct ++ tag) =
      (nonce ++ plain ++ left, .ok (NONCE_LEN, NONCE_LEN + plain.length)) := by
  obtain ⟨left, hopen⟩ := hkey.open_seal hseal
  have hlong : ¬ (nonce.1 ++ ct ++ tag).length < NONCE_LEN + TAG_LEN := by
    rw [List.length_append, List.length_append, nonce.2, hkey.tag_length hseal]
    omega
  have htake : (nonce.1 ++ ct ++ tag).take NONCE_LEN = nonce.1 := by
    rw [List.append_assoc, List.take_left' nonce.2]
  have hdrop : (nonce.1 ++ ct ++ tag).drop NONCE_LEN = ct ++ tag := by
    rw [List.append_assoc, List.drop_left' nonce.2]
  refine ⟨left, ?_⟩
  simp only [decryptInPlace, dif_neg hlong, htake, hdrop, hopen]
  rw [List.append_assoc]

/-! ## The key of 32 zero bytes

  Under that key and the nonce of 12 zero bytes AES-256-GCM adds the key stream below to the first 16
  bytes, and gives the plaintexts of `zeroKeyTags` the tags there.  `zeroKey` is a lawful key that
  agrees with it so far; for other plaintexts and nonces it goes on with the same stream and the
  first of the tags. -/

def zeroKeyStream : Bytes :=
  [0xce, 0xa7, 0x40, 0x3d, 0x4d, 0x60, 0x6b, 0x6e, 0x07, 0x4e, 0xc5, 0xd3, 0xba, 0xf3, 0x9d, 0x18]

def zeroKeyTag : Bytes :=
  [0xd0, 0xd1, 0xc8, 0xa7, 0x99, 0x99, 0x6b, 0xf0, 0x26, 0x5b, 0x98, 0xb5, 0xd4, 0x8a, 0xb9, 0x19]

def zeroKeyTags : List (Bytes × Bytes) :=
  [(.replicate 16 0, zeroKeyTag),
    ([0, 0, 0, 0, 0, 0, 0, 7, 0, 3, 1, 2, 3],
      [0x63, 0x3b, 0xc5, 0x13, 0xf5, 0x9f, 0xad, 0x76, 0x3f, 0x67, 0x05, 0xa0, 0x3a, 0xa7, 0x93, 0x82]),
    ([0, 0, 0, 0, 0, 0, 0, 8, 0, 2, 4, 5],
      [0x8c, 0x56, 0xa4, 0x31, 0x71, 0xfd, 0xa5, 0x7e, 0x5a, 0xfc, 0x10, 0xf5, 0x80, 0x86, 0x29, 0x4d])]

/-- Add the key stream to a text: this both encrypts and decrypts. -/
def addStream (text : Bytes) : Bytes :=
  text.mapIdx fun i b => b ^^^ zeroKeyStream.getD (i % TAG_LEN) 0

def tagOf (plain : Bytes) : Bytes := (zeroKeyTags.lookup plain).getD zeroKeyTag

def zeroKey : LessSafeKey where
  sealSeparateTag _ plain := some (addStream plain, tagOf plain)
  openInPlace _ buf :=
    let len := buf.length - TAG_LEN
    let plain := addStream (buf.take len)
    if buf.drop len = tagOf plain then (plain ++ tagOf plain, some len) else (buf, none)

theorem addStream_addStream (text : Bytes) : addStream (addStream text) = text := by
  have hid : text.mapIdx (fun _ b => b) = text := List.ext_getElem (by simp) (by simp)
  simpa [addStream, List.mapIdx_mapIdx, Function.comp_def, UInt8.xor_assoc] using hid

/-- A key as `zeroKey`, with the tags of other plaintexts. -/
def streamKey (tags : List (Bytes × Bytes)) : LessSafeKey where
  sealSeparateTag _ plain := some (addStream plain, (tags.lookup plain).getD zeroKeyTag)
  openInPlace _ buf :=
    let len := buf.length - TAG_LEN
    let plain := addStream (buf.take len)
    if buf.drop len = (tags.lookup plain).getD zeroKeyTag then
      (plain ++ (tags.lookup plain).getD zeroKeyTag, some len)
    else (buf, none)

theorem length_lookup_getD {tags : List (Bytes × Bytes)} (htags : ∀ t ∈ tags, t.2.length = TAG_LEN)
    (plain : Bytes) : ((tags.lookup plain).getD zeroKeyTag).length = TAG_LEN := by
  cases hl : tags.lookup plain with
  | none => rfl
  | some tag =>
    obtain ⟨before, after, rfl, _⟩ := List.lookup_eq_some_iff.mp hl
    exact htags (plain, tag) (by simp)

theorem streamKey_lawful {tags : List (Bytes × Bytes)} (htags : ∀ t ∈ tags, t.2.length = TAG_LEN) :
    (streamKey tags).Lawful where
  ct_length := by
    intro nonce plain ct tag h
    obtain ⟨rfl, -⟩ := Prod.mk.inj (Option.some.inj h)
    exact List.length_mapIdx
  tag_length := by
    intro nonce plain ct tag h
    obtain ⟨-, rfl⟩ := Prod.mk.inj (Option.some.inj h)
    exact length_lookup_getD htags plain
  open_seal := by
    intro nonce plain ct tag h
    obtain ⟨rfl, rfl⟩ := Prod.mk.inj (Option.some.inj h)
    have hlen : (addStream plain ++ (tags.lookup plain).getD zeroKeyTag).length - TAG_LEN =
        (addStream plain).length := by
      rw [List.length_append, length_lookup_getD htags]
      exact Nat.add_sub_cancel _ _
    refine ⟨(tags.lookup plain).getD zeroKeyTag, ?_⟩
    show (if _ then _ else _) = _
    rw [hlen, List.drop_left, List.take_left, addStream_addStream, if_pos rfl]
    simp [addStream]

theorem streamKey_neverFails (tags : List (Bytes × Bytes)) : (streamKey tags).NeverFails :=
  fun _ _ h => nomatch h

theorem zeroKey_lawful : zeroKey.Lawful := by
  have htags : ∀ t ∈ zeroKeyTags, t.2.length = TAG_LEN := by decide
  exact streamKey_lawful htags

end Crypto

end Httproxy
