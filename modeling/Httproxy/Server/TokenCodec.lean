/-
  The two directions of an access token (`issue` and `open` in `src/server/token.rs`).

  1. **Program** — `issue` seals a body behind a random nonce.  It has no check of the subject's length and
     writes it in 16 bits.  `openChecked` is `open` over its buffer of 1024 bytes, with EVERY index checked:
     it has no result where an index would be out of range.

  2. **Libraries** — the key is a PARAMETER; it opens what it sealed (`Lawful`) and nothing else
     (`OpensOnlySealed`).

  3. **Round trip** — a token is 4/3 of what it carries.  `open` refuses more than 1024 characters, which
     leaves 729 bytes for the subject; the 16 bits are never short below that.

  4. **Soundness** — what is opened was sealed, the body is the claims with nothing left over, and the text
     is the ONLY encoding of the box (`Base64.encode_of_decode`).
-/
import Httproxy.Lib.Slice
import Httproxy.Server.Token

namespace Httproxy.Token

open Bytes Text Crypto Shaper

/-! ## Program -/

/-- `issue` with this nonce; no result where its `expect` would panic. -/
def issue (key : LessSafeKey) (nonce : Nonce) (claims : Claims) : Option Bytes :=
  let raw := nonce.val ++ VERSION ::
    (putU64 claims.exp ++ (putU16 (claims.sub.length % 2 ^ 16) ++ claims.sub))
  (key.sealSeparateTag nonce (raw.drop NONCE_LEN)).map fun sealed =>
    Base64.encode (raw.take NONCE_LEN ++ sealed.1 ++ sealed.2)

/-- `decode_slice`: the buffer, and how much of it is used. -/
def decodeSlice (token out : Bytes) : Option (Bytes × Nat) :=
  match Base64.decode token with
  | none => none
  | some bytes => (Slice.copyFrom out 0 bytes).map fun out => (out, bytes.length)

/-- `readBody` with its indices checked. -/
def readBodyChecked (now : Nat) (body : Bytes) : Option (Except String Claims) := do
  let version ← body[0]?
  if version ≠ VERSION then some (.error "unsupported version")
  else do
    let exp ← Slice.range body 1 9
    let subLen ← Slice.range body 9 11
    if body.length ≠ BODY_LEN + readU16Be subLen then some (.error "bad payload length")
    else do
      let sub ← Slice.range body BODY_LEN body.length
      if ¬ validUtf8 sub then some (.error "bad subject")
      else if (readU64Be exp).toNat ≤ now then some (.error "expired")
      else some (.ok ⟨sub, readU64Be exp⟩)

/-- `open`, with its indices checked. -/
def openChecked (key : LessSafeKey) (now : Nat) (token : Bytes) : Option (Except String Claims) :=
  if token.length > MAX_TOKEN_LEN then some (.error "token too long")
  else
    match decodeSlice token (.replicate MAX_TOKEN_LEN 0) with
    | none => some (.error "invalid encoding")
    | some (raw, len) =>
      if len < NONCE_LEN + BODY_LEN + TAG_LEN then some (.error "token too short")
      else do
        let nonce ← Slice.range raw 0 NONCE_LEN
        if h : nonce.length = NONCE_LEN then do
          let box ← Slice.range raw NONCE_LEN len
          match key.openInPlace ⟨nonce, h⟩ box with
          | (_, none) => some (.error "bad tag")
          | (left, some plain) => readBodyChecked now (left.take plain)
        else some (.error "invalid nonce")

/-! ## The key -/

/-- What is opened was sealed by the key. -/
def OpensOnlySealed (key : LessSafeKey) : Prop :=
  ∀ {nonce box left len}, key.openInPlace nonce box = (left, some len) →
    ∃ ct tag, key.sealSeparateTag nonce (left.take len) = some (ct, tag) ∧ box = ct ++ tag

/-- The plaintext is as long as the box, less the tag. -/
theorem OpensOnlySealed.length {key : LessSafeKey} (h : OpensOnlySealed key) (hkey : key.Lawful)
    {nonce : Nonce} {box left : Bytes} {len : Nat} (hopen : key.openInPlace nonce box = (left, some len)) :
    (left.take len).length + TAG_LEN = box.length := by
  obtain ⟨ct, tag, hseal, rfl⟩ := h hopen
  rw [List.length_append, hkey.ct_length hseal, hkey.tag_length hseal]

/-! ## Round trip -/

theorem putU16_mod (v : Nat) : putU16 (v % 2 ^ 16) = putU16 v := by
  have hread : readBe (putU16 v) = v % 2 ^ 16 := readBe_putBe 2 v
  have hwrite := putBe_readBe (putU16 v)
  rwa [hread, length_putU16] at hwrite

theorem length_tokenBody (claims : Claims) : (tokenBody claims).length = BODY_LEN + claims.sub.length := by
  simp only [tokenBody, List.length_cons, List.length_append, length_putU64, length_putU16]
  show 8 + (2 + _) + 1 = 11 + _
  omega

/-- **What a token carries**: nonce, sealed body and tag. -/
theorem issue_sealed {key : LessSafeKey} {nonce : Nonce} {claims : Claims} {ct tag : Bytes}
    (h : key.sealSeparateTag nonce (tokenBody claims) = some (ct, tag)) :
    issue key nonce claims = some (Base64.encode (nonce ++ ct ++ tag)) := by
  have hraw : nonce.val ++ VERSION :: (putU64 claims.exp ++ (putU16 claims.sub.length ++ claims.sub)) =
      nonce.val ++ tokenBody claims := rfl
  rw [issue, putU16_mod, hraw]
  rw [List.drop_left' nonce.2, List.take_left' nonce.2, h]
  rfl

theorem readBody_tokenBody {claims : Claims} (hsub : validUtf8 claims.sub = true)
    (hlen : claims.sub.length < 2 ^ 16) (now : Nat) :
    readBody now (tokenBody claims) =
      if claims.exp.toNat ≤ now then .error "expired" else .ok claims := by
  have hexp : slice (tokenBody claims) 1 9 = putU64 claims.exp := by
    show ((putU64 claims.exp ++ _).take 8) = _
    exact List.take_left' (length_putU64 _)
  have hsublen : slice (tokenBody claims) 9 11 = putU16 claims.sub.length := by
    show (((putU64 claims.exp ++ (putU16 claims.sub.length ++ claims.sub)).take 10).drop 8) = _
    rw [List.drop_take, List.drop_left' (length_putU64 _)]
    exact List.take_left' (length_putU16 _)
  have hrest : (tokenBody claims).drop BODY_LEN = claims.sub := by
    show ((putU64 claims.exp ++ (putU16 claims.sub.length ++ claims.sub)).drop (8 + 2)) = _
    rw [← List.drop_drop, List.drop_left' (length_putU64 _), List.drop_left' (length_putU16 _)]
  have hread64 : readU64Be (putU64 claims.exp) = claims.exp := by
    simpa using readU64Be_putU64 claims.exp []
  have hread16 : readU16Be (putU16 claims.sub.length) = claims.sub.length := by
    simpa using readU16Be_putU16 hlen []
  have hversion : (tokenBody claims).head? = some VERSION := rfl
  rw [readBody, if_neg (not_not.mpr hversion)]
  dsimp only
  rw [hexp, hsublen, hrest, hread64, hread16, length_tokenBody, if_neg (not_not.mpr rfl),
    if_neg (not_not.mpr hsub)]

/-- **Opening what was sealed**, when the text is not too long. -/
theorem openToken_sealed {key : LessSafeKey} (hkey : key.Lawful) {nonce : Nonce} {plain ct tag : Bytes}
    (hseal : key.sealSeparateTag nonce plain = some (ct, tag)) (hplain : BODY_LEN ≤ plain.length)
    (hlong : (Base64.encode (nonce ++ ct ++ tag)).length ≤ MAX_TOKEN_LEN) (now : Nat) :
    openToken key now (Base64.encode (nonce ++ ct ++ tag)) = readBody now plain := by
  obtain ⟨left, hopen⟩ := hkey.open_seal hseal
  have hshort : ¬ (nonce.val ++ ct ++ tag).length < NONCE_LEN + BODY_LEN + TAG_LEN := by
    rw [List.length_append, List.length_append, nonce.2, hkey.ct_length hseal, hkey.tag_length hseal]
    omega
  have htake : (nonce.val ++ ct ++ tag).take NONCE_LEN = nonce.val := by
    rw [List.append_assoc, List.take_left' nonce.2]
  have hdrop : (nonce.val ++ ct ++ tag).drop NONCE_LEN = ct ++ tag := by
    rw [List.append_assoc, List.drop_left' nonce.2]
  rw [openToken, if_neg (Nat.not_lt.mpr hlong), Base64.decode_encode]
  simp only [dif_neg hshort, htake, hdrop, hopen]
  rw [List.take_left]

/-- The longest subject whose token is not too long. -/
theorem length_token_le {nonce ct tag : Bytes} {n : Nat} (hn : nonce.length = NONCE_LEN)
    (hct : ct.length = BODY_LEN + n) (htag : tag.length = TAG_LEN) :
    (Base64.encode (nonce ++ ct ++ tag)).length ≤ MAX_TOKEN_LEN ↔ n ≤ 729 := by
  rw [Base64.length_encode, List.length_append, List.length_append, hn, hct, htag]
  show (4 * (12 + (11 + n) + 16) + 2) / 3 ≤ 1024 ↔ n ≤ 729
  omega

/-- **The round trip.** -/
theorem openToken_issue {key : LessSafeKey} (hkey : key.Lawful) (hseals : key.NeverFails)
    (nonce : Nonce) (now : Nat) {claims : Claims} (hsub : validUtf8 claims.sub = true) :
    ∃ token, issue key nonce claims = some token ∧ (openToken key now token = .ok claims ↔
      now < claims.exp.toNat ∧ claims.sub.length ≤ 729) := by
  obtain ⟨⟨ct, tag⟩, hseal⟩ := Option.ne_none_iff_exists'.mp (hseals nonce (tokenBody claims))
  have hct : ct.length = BODY_LEN + claims.sub.length := by
    rw [hkey.ct_length hseal, length_tokenBody]
  have hlen := length_token_le nonce.2 hct (hkey.tag_length hseal)
  refine ⟨_, issue_sealed hseal, ?_⟩
  by_cases hlong : claims.sub.length ≤ 729
  · have hbody : BODY_LEN ≤ (tokenBody claims).length := by
      rw [length_tokenBody]
      omega
    rw [openToken_sealed hkey hseal hbody (hlen.mpr hlong), readBody_tokenBody hsub (by omega)]
    split
    · rename_i hexpired
      constructor
      · rintro ⟨⟩
      · rintro ⟨hexp, -⟩
        omega
    · rename_i hfresh
      exact ⟨fun _ => ⟨Nat.lt_of_not_le hfresh, hlong⟩, fun _ => rfl⟩
  · rw [openToken, if_pos (Nat.lt_of_not_le fun hle => hlong (hlen.mp hle))]
    constructor
    · rintro ⟨⟩
    · rintro ⟨-, hle⟩
      exact absurd hle hlong

/-! ## Soundness -/

/-- **What is opened was issued.** -/
theorem openToken_issued {key : LessSafeKey} (hopens : OpensOnlySealed key) {now : Nat} {token : Bytes}
    {claims : Claims} (h : openToken key now token = .ok claims) :
    ∃ (nonce : Nonce) (ct tag : Bytes), key.sealSeparateTag nonce (tokenBody claims) = some (ct, tag) ∧
      token = Base64.encode (nonce ++ ct ++ tag) ∧ validUtf8 claims.sub = true := by
  -- the four parts that `open` reads make up the plaintext
  obtain ⟨⟨nonce, box, left, len, hdecode, hopen, hbody, hsub⟩, -⟩ := openToken_ok h
  obtain ⟨ct, tag, hseal, rfl⟩ := hopens hopen
  rw [hbody] at hseal
  refine ⟨nonce, ct, tag, hseal, ?_, hsub⟩
  rw [List.append_assoc]
  exact (Base64.encode_of_decode hdecode).symm

/-! ## Indices -/

theorem readBodyChecked_eq {now : Nat} {body : Bytes} (h : BODY_LEN ≤ body.length) :
    readBodyChecked now body = some (readBody now body) := by
  have hlen : 11 ≤ body.length := h
  have hexp : Slice.range body 1 9 = some (slice body 1 9) := Slice.range_of_le (by omega) (by omega)
  have hsublen : Slice.range body 9 11 = some (slice body 9 11) := Slice.range_of_le (by omega) hlen
  have hsub : Slice.range body BODY_LEN body.length = some (body.drop BODY_LEN) := Slice.range_length h
  obtain ⟨version, hversion⟩ : ∃ version, body.head? = some version := by
    cases body with
    | nil => cases hlen
    | cons version rest => exact ⟨version, rfl⟩
  have hget : body[0]? = some version := by rw [← List.head?_eq_getElem?, hversion]
  unfold readBodyChecked readBody
  simp only [hget, hversion, hexp, hsublen, hsub, Option.bind_eq_bind, Option.bind_some, ne_eq,
    Option.some.injEq, apply_ite some]

/-- The buffer has room for what a token of at most 1024 characters carries. -/
theorem decodeSlice_eq {token raw : Bytes} (hlong : token.length ≤ MAX_TOKEN_LEN)
    (h : Base64.decode token = some raw) :
    decodeSlice token (.replicate MAX_TOKEN_LEN 0) =
      some (raw ++ (List.replicate MAX_TOKEN_LEN 0).drop raw.length, raw.length) := by
  have hroom : raw.length ≤ (List.replicate MAX_TOKEN_LEN (0 : UInt8)).length := by
    -- the text is the only encoding of `raw`, and longer than it
    have hlen := Base64.length_encode raw
    rw [Base64.encode_of_decode h] at hlen
    rw [List.length_replicate]
    omega
  rw [decodeSlice, h]
  dsimp only
  rw [Slice.copyFrom_zero hroom]
  rfl

/-- **No index of `open` is out of range.** -/
theorem openChecked_eq {key : LessSafeKey} (hkey : key.Lawful) (hopens : OpensOnlySealed key)
    (now : Nat) (token : Bytes) : openChecked key now token = some (openToken key now token) := by
  unfold openChecked openToken
  split
  · rfl
  rename_i hlong
  cases hdecode : Base64.decode token with
  | none =>
    rw [decodeSlice, hdecode]
  | some raw =>
    rw [decodeSlice_eq (Nat.le_of_not_lt hlong) hdecode]
    dsimp only
    split
    · rfl
    · rename_i hshort
      have hmin : 39 ≤ raw.length := Nat.le_of_not_lt hshort
      -- the decoded bytes are the front of the buffer
      have hnonce : Slice.range (raw ++ (List.replicate MAX_TOKEN_LEN 0).drop raw.length) 0 NONCE_LEN =
          some (raw.take NONCE_LEN) := by
        rw [Slice.range_zero (by rw [List.length_append]; show 12 ≤ _; omega),
          List.take_append_of_le_length (by show 12 ≤ _; omega)]
      have hbox : Slice.range (raw ++ (List.replicate MAX_TOKEN_LEN 0).drop raw.length) NONCE_LEN
          raw.length = some (raw.drop NONCE_LEN) := by
        rw [Slice.range_of_le (by show 12 ≤ _; omega) (by rw [List.length_append]; omega),
          List.take_left]
      simp only [hnonce, hbox, Option.bind_eq_bind, Option.bind_some,
        dif_pos (length_take_token_nonce hshort)]
      cases hopen : key.openInPlace ⟨raw.take NONCE_LEN, length_take_token_nonce hshort⟩
          (raw.drop NONCE_LEN) with
      | mk left plain =>
        cases plain with
        | none => rfl
        | some plain =>
          -- nonce and tag are off, and at least 11 bytes are left
          apply readBodyChecked_eq
          have hplain := hopens.length hkey hopen
          rw [List.length_drop] at hplain
          have htag : TAG_LEN = 16 := rfl
          have hn : NONCE_LEN = 12 := rfl
          show 11 ≤ _
          omega

/-- **The token codec.**  A token that is issued opens to its claims if and only if they have not expired
    and the subject has at most 729 bytes; only tokens that were issued open, and their body is exactly
    the claims; and no index is ever out of range. -/
theorem token_codec (key : LessSafeKey) (hkey : key.Lawful) (hseals : key.NeverFails)
    (hopens : OpensOnlySealed key) :
    (∀ (nonce : Nonce) (now : Nat) (claims : Claims), validUtf8 claims.sub = true →
      ∃ token, issue key nonce claims = some token ∧ (openToken key now token = .ok claims ↔
        now < claims.exp.toNat ∧ claims.sub.length ≤ 729)) ∧
    (∀ (now : Nat) (token : Bytes) (claims : Claims), openToken key now token = .ok claims →
      ∃ (nonce : Nonce) (ct tag : Bytes), key.sealSeparateTag nonce (tokenBody claims) = some (ct, tag) ∧
        token = Base64.encode (nonce ++ ct ++ tag) ∧ validUtf8 claims.sub = true) ∧
    ∀ (now : Nat) (token : Bytes), openChecked key now token = some (openToken key now token) :=
  ⟨fun nonce now _ hsub => openToken_issue hkey hseals nonce now hsub,
    fun _ _ _ h => openToken_issued hopens h, openChecked_eq hkey hopens⟩

/-! ## A token of one letter -/

theorem streamKey_opensOnlySealed (tags : List (Bytes × Bytes)) : OpensOnlySealed (streamKey tags) := by
  intro nonce box left len h
  dsimp only [streamKey] at h
  split at h
  · rename_i htag
    obtain ⟨rfl, hlen⟩ := Prod.mk.inj h
    obtain rfl := Option.some.inj hlen
    have hplain : (addStream (box.take (box.length - TAG_LEN))).length = box.length - TAG_LEN := by
      rw [addStream, List.length_mapIdx, List.length_take]
      omega
    rw [List.take_left' hplain]
    refine ⟨_, _, rfl, ?_⟩
    rw [addStream_addStream, ← htag, List.take_append_drop]
  · cases (Prod.mk.inj h).2

theorem tokenKey_lawful : tokenKey.Lawful := streamKey_lawful (by decide)

/-- The nonce of `demoToken`. -/
def zeroNonce : Nonce := ⟨.replicate 12 0, List.length_replicate⟩

theorem token_codec_demo :
    issue tokenKey zeroNonce ⟨[97], 200⟩ = some demoToken ∧
    (openToken tokenKey 10 demoToken = .ok ⟨[97], 200⟩ ↔ 10 < (200 : UInt64).toNat ∧ 1 ≤ 729) ∧
    openChecked tokenKey 10 demoToken = some (openToken tokenKey 10 demoToken) := by
  obtain ⟨hround, -, hindex⟩ := token_codec tokenKey tokenKey_lawful (streamKey_neverFails _)
    (streamKey_opensOnlySealed _)
  have hissue : issue tokenKey zeroNonce ⟨[97], 200⟩ = some demoToken := by decide +kernel
  obtain ⟨token, htoken, hiff⟩ := hround zeroNonce 10 ⟨[97], 200⟩ (by decide)
  obtain rfl := Option.some.inj (htoken.symm.trans hissue)
  exact ⟨hissue, hiff, hindex 10 _⟩

end Httproxy.Token
