/-
  Access tokens and their cache (`open` in `src/server/token.rs`, `validate_token_if_needed` in
  `src/server/handlers.rs`).

  A token is a sealed box around a subject and the second it expires in.  A token that has been opened
  goes to a cache, and as long as the cache has it NOTHING is checked again.

  1. **Program** — `openToken` and `validateTokenIfNeeded`, with the texts of their errors.  The cache is a
     library: `TokenCache.get` answers with an entry only before its time to live is over, `insert`
     replaces, and before every call it may drop what it likes (`Call.kept`).  One clock, in milliseconds,
     serves both the cache and `unix_now_secs`.

  2. **Specification** — `Decrypts key token claims`: the token is the text of a nonce and a box, and the
     key opens the box to a body that is exactly the claims.

  3. **The crux (`Sound.insert`, `Sound.get`)** — a token is only inserted if it expires MORE than 60 s
     after the second of the insertion, and an entry is only returned LESS than 60 s after the insertion.
     Both comparisons are strict, so even with the second rounded down there is no moment between.

  The theorem is `cached_tokens_unexpired`, over every sequence of calls.
-/
import Httproxy.Client.Target
import Httproxy.Crypto.Keys
import Httproxy.Lib.Base64
import Httproxy.Lib.Machine
import Httproxy.Shaper.Frame

namespace Httproxy.Token

open Bytes Text Crypto Shaper Proxy Machine

/-! ## Tokens (`src/server/token.rs`) -/

def VERSION : UInt8 := 1
def BODY_LEN : Nat := 1 + 8 + 2
def MAX_TOKEN_LEN : Nat := 1024

/-- `Claims`: a subject in UTF-8, and the second it expires in. -/
structure Claims where
  sub : Bytes
  exp : UInt64
  deriving DecidableEq, Repr

theorem length_take_token_nonce {raw : Bytes} (h : ¬ raw.length < NONCE_LEN + BODY_LEN + TAG_LEN) :
    (raw.take NONCE_LEN).length = NONCE_LEN := by
  rw [List.length_take]
  omega

/-- What `open` does with the body it has decrypted, in the second `now`. -/
def readBody (now : Nat) (body : Bytes) : Except String Claims :=
  if body.head? ≠ some VERSION then .error "unsupported version"
  else
    let exp := readU64Be (slice body 1 9)
    let subLen := readU16Be (slice body 9 11)
    if body.length ≠ BODY_LEN + subLen then .error "bad payload length"
    else
      let sub := body.drop BODY_LEN
      if ¬ validUtf8 sub then .error "bad subject"
      else if exp.toNat ≤ now then .error "expired"
      else .ok ⟨sub, exp⟩

/-- `open`, in the second `now`. -/
def openToken (key : LessSafeKey) (now : Nat) (token : Bytes) : Except String Claims :=
  if token.length > MAX_TOKEN_LEN then .error "token too long"
  else
    match Base64.decode token with
    | none => .error "invalid encoding"
    | some raw =>
      if h : raw.length < NONCE_LEN + BODY_LEN + TAG_LEN then .error "token too short"
      else
        let nonce : Nonce := ⟨raw.take NONCE_LEN, length_take_token_nonce h⟩
        match key.openInPlace nonce (raw.drop NONCE_LEN) with
        | (_, none) => .error "bad tag"
        | (left, some len) => readBody now (left.take len)

/-! ## The cache -/

/-- `TOKEN_CACHE_TTL`, in seconds. -/
def TOKEN_CACHE_TTL : Nat := 60

/-- A cached user, and the millisecond of the insertion. -/
structure Entry where
  token : Bytes
  user : Bytes
  inserted : Nat
  deriving DecidableEq, Repr

/-- `moka::future::Cache`. -/
abbrev TokenCache := List Entry

/-- An entry is returned only before its time to live is over. -/
def TokenCache.get (cache : TokenCache) (token : Bytes) (now : Nat) : Option Bytes :=
  (cache.find? fun e => e.token == token && decide (now < e.inserted + 1000 * TOKEN_CACHE_TTL)).map
    Entry.user

def TokenCache.insert (cache : TokenCache) (token user : Bytes) (now : Nat) : TokenCache :=
  ⟨token, user, now⟩ :: cache.filter fun e => e.token != token

/-! ## The check of a request (`src/server/handlers.rs`) -/

def unauthorized (msg : String) : ServerError := ⟨401, msg⟩

/-- `unix_now_secs`. -/
def unixNowSecs (now : Nat) : Nat := now / 1000

/-- `HeaderValue::to_str`: visible ASCII, spaces and tabs. -/
def toStr (value : Bytes) : Option Bytes :=
  if value.all fun b => (32 ≤ b && b < 127) || b == 9 then some value else none

/-- The bytes of `Bearer `. -/
def BEARER : Bytes := [66, 101, 97, 114, 101, 114, 32]

/-- The token of a request, from its header `Authorization`. -/
def bearerToken (authorization : Option Bytes) : Except ServerError Bytes :=
  match authorization.bind toStr with
  | none => .error (unauthorized "invalid header")
  | some authHeader =>
    match dropStart BEARER authHeader with
    | none => .error (unauthorized "invalid header")
    | some token => .ok token

/-- `validate_token_if_needed` at the millisecond `now`: the user, and the cache as it is left. -/
def validateTokenIfNeeded (key : LessSafeKey) (authorization : Option Bytes) (cache : TokenCache)
    (now : Nat) : Except ServerError Bytes × TokenCache :=
  match bearerToken authorization with
  | .error e => (.error e, cache)
  | .ok token =>
    match cache.get token now with
    | some user => (.ok user, cache)
    | none =>
      match openToken key (unixNowSecs now) token with
      | .error _ => (.error (unauthorized "invalid token"), cache)
      | .ok claims =>
        let user := claims.sub
        -- `saturating_add` on the `u64` of the clock
        if claims.exp.toNat > min (unixNowSecs now + TOKEN_CACHE_TTL) (2 ^ 64 - 1) then
          (.ok user, cache.insert token user now)
        else (.ok user, cache)

/-! ## Calls in a row -/

/-- A call at a millisecond, with what the cache still has of its entries by then. -/
structure Call where
  now : Nat
  authorization : Option Bytes
  kept : Entry → Bool

/-- The cache, and the log of the calls. -/
structure State where
  cache : TokenCache
  log : List (Call × Except ServerError Bytes)

def start : State := ⟨[], []⟩

def step (key : LessSafeKey) (s : State) (c : Call) : Option State :=
  let (result, cache) := validateTokenIfNeeded key c.authorization (s.cache.filter c.kept) c.now
  some ⟨cache, s.log ++ [(c, result)]⟩

/-! ## Specification -/

/-- The body of a token. -/
def tokenBody (claims : Claims) : Bytes :=
  VERSION :: (putU64 claims.exp ++ (putU16 claims.sub.length ++ claims.sub))

/-- The token is a nonce and a box that the key opens to the claims, and to nothing else. -/
def Decrypts (key : LessSafeKey) (token : Bytes) (claims : Claims) : Prop :=
  ∃ (nonce : Nonce) (box left : Bytes) (len : Nat), Base64.decode token = some (nonce ++ box) ∧
    key.openInPlace nonce box = (left, some len) ∧ left.take len = tokenBody claims ∧
    validUtf8 claims.sub = true

/-- An entry of the cache: its token decrypts, and expires more than the time to live after the second
    of the insertion. -/
def Entry.Sound (key : LessSafeKey) (e : Entry) : Prop :=
  ∃ claims, Decrypts key e.token claims ∧ claims.sub = e.user ∧
    unixNowSecs e.inserted + TOKEN_CACHE_TTL < claims.exp.toNat

/-- What a call may answer with. -/
def Valid (key : LessSafeKey) (c : Call) (user : Bytes) : Prop :=
  ∃ token claims, bearerToken c.authorization = .ok token ∧ Decrypts key token claims ∧
    claims.sub = user ∧ unixNowSecs c.now < claims.exp.toNat

/-! ## What `open` accepts -/

theorem putU64_readU64Be {b : Bytes} (h : b.length = 8) : putU64 (readU64Be b) = b := by
  have hread : readBe b < 2 ^ 64 := by
    have hlt := readBe_lt b
    rwa [h] at hlt
  rw [readU64Be, List.take_of_length_le (Nat.le_of_eq h), putU64, UInt64.toNat_ofNat',
    Nat.mod_eq_of_lt hread]
  have hwrite := putBe_readBe b
  rwa [h] at hwrite

theorem putU16_readU16Be {b : Bytes} (h : b.length = 2) : putU16 (readU16Be b) = b := by
  have hwrite := putBe_readBe b
  rw [readU16Be, List.take_of_length_le (Nat.le_of_eq h), putU16]
  rwa [h] at hwrite

/-- **The body is the claims, with nothing left over**, and they have not expired. -/
theorem readBody_ok {now : Nat} {body : Bytes} {claims : Claims} (h : readBody now body = .ok claims) :
    body = tokenBody claims ∧ validUtf8 claims.sub = true ∧ now < claims.exp.toNat := by
  unfold readBody at h
  dsimp only at h
  split at h
  · cases h
  rename_i hversion
  split at h
  · cases h
  rename_i hlen
  split at h
  · cases h
  rename_i hutf8
  split at h
  · cases h
  rename_i hexp
  obtain rfl := Except.ok.inj h
  refine ⟨?_, by simpa using hutf8, Nat.lt_of_not_le hexp⟩
  have hlong : body.length = 11 + readU16Be (slice body 9 11) := Decidable.not_not.mp hlen
  have hexplen : (slice body 1 9).length = 8 := by
    rw [slice, List.length_drop, List.length_take]
    omega
  have hsublen : (slice body 9 11).length = 2 := by
    rw [slice, List.length_drop, List.length_take]
    omega
  have hsub : (body.drop BODY_LEN).length = readU16Be (slice body 9 11) := by
    rw [List.length_drop, hlong]
    exact Nat.add_sub_cancel_left ..
  have hcut : body = body.take 1 ++ (slice body 1 9 ++ (slice body 9 11 ++ body.drop 11)) := by
    have hrest : slice body 9 11 ++ body.drop 11 = body.drop 9 := by
      rw [slice, List.drop_take, ← List.drop_drop (i := 2) (j := 9), List.take_append_drop]
    have hrest' : slice body 1 9 ++ body.drop 9 = body.drop 1 := by
      rw [slice, List.drop_take, ← List.drop_drop (i := 8) (j := 1), List.take_append_drop]
    rw [hrest, hrest', List.take_append_drop]
  have hfirst : body.take 1 = [VERSION] := by
    have hhead := Decidable.not_not.mp hversion
    cases body with
    | nil => cases hhead
    | cons b bs => exact congrArg List.singleton (Option.some.inj hhead)
  rw [tokenBody, hsub, putU64_readU64Be hexplen, putU16_readU16Be hsublen]
  nth_rewrite 1 [hcut]
  rw [hfirst]
  rfl

/-- **What `open` accepts decrypts, and has not expired.** -/
theorem openToken_ok {key : LessSafeKey} {now : Nat} {token : Bytes} {claims : Claims}
    (h : openToken key now token = .ok claims) :
    Decrypts key token claims ∧ now < claims.exp.toNat := by
  unfold openToken at h
  split at h
  · cases h
  split at h
  · cases h
  rename_i raw hraw
  split at h
  · cases h
  rename_i hlong
  dsimp only at h
  split at h
  · cases h
  rename_i left len hopen
  obtain ⟨hbody, hutf8, hexp⟩ := readBody_ok h
  refine ⟨⟨_, raw.drop NONCE_LEN, left, len, ?_, hopen, hbody, hutf8⟩, hexp⟩
  rw [hraw]
  exact congrArg some (List.take_append_drop NONCE_LEN raw).symm

/-! ## What the cache answers -/

theorem get_eq_some {cache : TokenCache} {token user : Bytes} {now : Nat}
    (h : cache.get token now = some user) :
    ∃ e ∈ cache, e.token = token ∧ e.user = user ∧ now < e.inserted + 1000 * TOKEN_CACHE_TTL := by
  obtain ⟨e, hfind, rfl⟩ := Option.map_eq_some_iff.mp h
  have hmatch := List.find?_some hfind
  rw [Bool.and_eq_true, beq_iff_eq, decide_eq_true_eq] at hmatch
  exact ⟨e, List.mem_of_find?_eq_some hfind, hmatch.1, rfl, hmatch.2⟩

/-- **The hit**: less than the time to live after the insertion the token has not expired. -/
theorem Entry.Sound.get {key : LessSafeKey} {e : Entry} (h : e.Sound key) {now : Nat}
    (hlive : now < e.inserted + 1000 * TOKEN_CACHE_TTL) :
    ∃ claims, Decrypts key e.token claims ∧ claims.sub = e.user ∧
      unixNowSecs now < claims.exp.toNat := by
  obtain ⟨claims, hdecrypts, huser, hexp⟩ := h
  refine ⟨claims, hdecrypts, huser, ?_⟩
  unfold unixNowSecs TOKEN_CACHE_TTL at *
  omega

/-- **The insertion**: saturating does no harm, since no token expires after the last second of all. -/
theorem Entry.Sound.insert {key : LessSafeKey} {token : Bytes} {claims : Claims} {now : Nat}
    (hdecrypts : Decrypts key token claims)
    (hlong : claims.exp.toNat > min (unixNowSecs now + TOKEN_CACHE_TTL) (2 ^ 64 - 1)) :
    (⟨token, claims.sub, now⟩ : Entry).Sound key := by
  refine ⟨claims, hdecrypts, rfl, ?_⟩
  have hmax := claims.exp.toNat_lt
  show unixNowSecs now + TOKEN_CACHE_TTL < claims.exp.toNat
  omega

/-! ## Every sequence of calls -/

/-- Every entry is sound, and every answer was valid when it was given. -/
structure Inv (key : LessSafeKey) (s : State) : Prop where
  cache : ∀ e ∈ s.cache, e.Sound key
  log : ∀ c user, (c, .ok user) ∈ s.log → Valid key c user

/-- **One call**, from the cache or from `open`. -/
theorem validate_sound {key : LessSafeKey} {authorization : Option Bytes} {cache : TokenCache}
    (h : ∀ e ∈ cache, e.Sound key) (now : Nat) (kept : Entry → Bool) :
    (∀ e ∈ (validateTokenIfNeeded key authorization cache now).2, e.Sound key) ∧
    ∀ user, (validateTokenIfNeeded key authorization cache now).1 = .ok user →
      Valid key ⟨now, authorization, kept⟩ user := by
  unfold validateTokenIfNeeded
  cases hbearer : bearerToken authorization with
  | error e =>
    refine ⟨h, ?_⟩
    rintro user ⟨⟩
  | ok token =>
    dsimp only
    cases hget : cache.get token now with
    | some user =>
      refine ⟨h, ?_⟩
      rintro _ ⟨⟩
      obtain ⟨e, he, rfl, rfl, hlive⟩ := get_eq_some hget
      obtain ⟨claims, hdecrypts, huser, hexp⟩ := (h e he).get hlive
      exact ⟨e.token, claims, hbearer, hdecrypts, huser, hexp⟩
    | none =>
      dsimp only
      cases hopen : openToken key (unixNowSecs now) token with
      | error e =>
        refine ⟨h, ?_⟩
        rintro user ⟨⟩
      | ok claims =>
        obtain ⟨hdecrypts, hexp⟩ := openToken_ok hopen
        have hvalid : Valid key ⟨now, authorization, kept⟩ claims.sub :=
          ⟨token, claims, hbearer, hdecrypts, rfl, hexp⟩
        dsimp only
        split
        · rename_i hlong
          constructor
          · intro e he
            rcases List.mem_cons.mp he with rfl | hold
            · exact Entry.Sound.insert hdecrypts hlong
            · exact h e (List.mem_of_mem_filter hold)
          · rintro user ⟨⟩
            exact hvalid
        · refine ⟨h, ?_⟩
          rintro user ⟨⟩
          exact hvalid

theorem inv_step {key : LessSafeKey} {s s' : State} {c : Call} (h : Inv key s)
    (hstep : step key s c = some s') : Inv key s' := by
  have hkept : ∀ e ∈ s.cache.filter c.kept, e.Sound key := by
    intro e he
    exact h.cache e (List.mem_of_mem_filter he)
  obtain ⟨hcache, hvalid⟩ := @validate_sound key c.authorization _ hkept c.now c.kept
  obtain rfl := Option.some.inj hstep
  constructor
  · exact hcache
  · intro call user hmem
    rcases List.mem_append.mp hmem with hold | hnew
    · exact h.log call user hold
    · obtain ⟨rfl, hresult⟩ := Prod.mk.inj (List.mem_singleton.mp hnew)
      exact hvalid user hresult.symm

/-- **Cached tokens do not outlive their expiry.**

    After every sequence of calls, at any times and with any entries evicted between them: each call that
    answered with a user was given a token that decrypts under the key to claims with that subject, and
    they had not expired at the second of the call. -/
theorem cached_tokens_unexpired (key : LessSafeKey) (calls : List Call) (s : State)
    (h : run (step key) start calls = some s) (c : Call) (user : Bytes)
    (hc : (c, .ok user) ∈ s.log) :
    ∃ token claims, bearerToken c.authorization = .ok token ∧ Decrypts key token claims ∧
      claims.sub = user ∧ unixNowSecs c.now < claims.exp.toNat := by
  have hstart : Inv key start := by
    constructor
    · rintro e ⟨⟩
    · rintro c user ⟨⟩
  exact (run_invariant (fun _ _ _ hs hstep => inv_step hs hstep) calls _ _ hstart h).log c user hc

/-- `zeroKey`, with the tag of the body below. -/
def tokenKey : LessSafeKey :=
  streamKey [([1, 0, 0, 0, 0, 0, 0, 0, 200, 0, 1, 97],
    [0xb6, 0x5f, 0xac, 0x0e, 0x9b, 0xa7, 0xfd, 0xd6, 0x3e, 0x55, 0x51, 0x04, 0x6e, 0x2f, 0x6d, 0x8d])]

/-- The token of the subject `a` that expires in second 200, under a nonce of zeros. -/
def demoToken : Bytes :=
  [65, 65, 65, 65, 65, 65, 65, 65, 65, 65, 65, 65, 65, 65, 65, 65, 122, 54, 100, 65, 80, 85,
   49, 103, 97, 50, 55, 80, 84, 115, 83, 121, 116, 108, 45, 115, 68, 112, 117, 110, 95, 100,
   89, 45, 86, 86, 69, 69, 98, 105, 57, 116, 106, 81]

/-- It is opened in second 10 and, from the cache, one millisecond before its time to live is over. -/
def demoCalls : List Call :=
  [⟨10000, some (BEARER ++ demoToken), fun _ => true⟩, ⟨69999, some (BEARER ++ demoToken), fun _ => true⟩]

theorem cached_tokens_unexpired_demo :
    ∃ s, run (step tokenKey) start demoCalls = some s ∧ s.cache = [⟨demoToken, [97], 10000⟩] ∧
      s.log.map Prod.snd = [.ok [97], .ok [97]] ∧
      ∀ c user, (c, .ok user) ∈ s.log → ∃ token claims, bearerToken c.authorization = .ok token ∧
        Decrypts tokenKey token claims ∧ claims.sub = user ∧ unixNowSecs c.now < claims.exp.toNat := by
  have heval : (run (step tokenKey) start demoCalls).map (fun s => (s.cache, s.log.map Prod.snd)) =
      some ([⟨demoToken, [97], 10000⟩], [.ok [97], .ok [97]]) := by decide +kernel
  obtain ⟨s, hrun, hs⟩ := Option.map_eq_some_iff.mp heval
  obtain ⟨hcache, hlog⟩ := Prod.mk.inj hs
  refine ⟨s, hrun, hcache, hlog, ?_⟩
  intro c user hc
  exact cached_tokens_unexpired tokenKey demoCalls s hrun c user hc

end Httproxy.Token
