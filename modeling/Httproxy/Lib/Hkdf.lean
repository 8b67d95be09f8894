/-
  SHA-256, the message authentication code made of it, and the key derivation made of that (HKDF).

  A block of the hash is sixty-four bytes; its sixteen words are extended to sixty-four, one for each
  round.  HKDF first condenses its input under the salt and then expands it, block by block, under
  a label.
-/
import Httproxy.Lib.Bytes

namespace Hkdf

open Bytes

/-! ## SHA-256 -/

def INITIAL : List UInt32 :=
  [0x6a09e667, 0xbb67ae85, 0x3c6ef372, 0xa54ff53a, 0x510e527f, 0x9b05688c, 0x1f83d9ab, 0x5be0cd19]

def ROUND : List UInt32 :=
  [0x428a2f98, 0x71374491, 0xb5c0fbcf, 0xe9b5dba5, 0x3956c25b, 0x59f111f1, 0x923f82a4, 0xab1c5ed5,
   0xd807aa98, 0x12835b01, 0x243185be, 0x550c7dc3, 0x72be5d74, 0x80deb1fe, 0x9bdc06a7, 0xc19bf174,
   0xe49b69c1, 0xefbe4786, 0x0fc19dc6, 0x240ca1cc, 0x2de92c6f, 0x4a7484aa, 0x5cb0a9dc, 0x76f988da,
   0x983e5152, 0xa831c66d, 0xb00327c8, 0xbf597fc7, 0xc6e00bf3, 0xd5a79147, 0x06ca6351, 0x14292967,
   0x27b70a85, 0x2e1b2138, 0x4d2c6dfc, 0x53380d13, 0x650a7354, 0x766a0abb, 0x81c2c92e, 0x92722c85,
   0xa2bfe8a1, 0xa81a664b, 0xc24b8b70, 0xc76c51a3, 0xd192e819, 0xd6990624, 0xf40e3585, 0x106aa070,
   0x19a4c116, 0x1e376c08, 0x2748774c, 0x34b0bcb5, 0x391c0cb3, 0x4ed8aa4a, 0x5b9cca4f, 0x682e6ff3,
   0x748f82ee, 0x78a5636f, 0x84c87814, 0x8cc70208, 0x90befffa, 0xa4506ceb, 0xbef9a3f7, 0xc67178f2]

def rotate (x : UInt32) (n : UInt32) : UInt32 := (x >>> n) ||| (x <<< (32 - n))

/-- The word behind these, which are newest first. -/
def nextWord (words : List UInt32) : UInt32 :=
  let x := words.getD 14 0
  let y := words.getD 1 0
  words.getD 15 0 + (rotate x 7 ^^^ rotate x 18 ^^^ (x >>> 3)) + words.getD 6 0 +
    (rotate y 17 ^^^ rotate y 19 ^^^ (y >>> 10))

/-- The sixty-four words of a block. -/
def schedule (block : Bytes) : List UInt32 :=
  let words := (List.range 16).map fun i => UInt32.ofNat (readBe (slice block (4 * i) (4 * i + 4)))
  (Nat.repeat (fun words => nextWord words :: words) 48 words.reverse).reverse

/-- One round on the eight words of the state. -/
def round (state : List UInt32) (w k : UInt32) : List UInt32 :=
  match state with
  | [a, b, c, d, e, f, g, h] =>
    let t := h + (rotate e 6 ^^^ rotate e 11 ^^^ rotate e 25) + ((e &&& f) ^^^ (~~~e &&& g)) + k + w
    let u := (rotate a 2 ^^^ rotate a 13 ^^^ rotate a 22) + ((a &&& b) ^^^ (a &&& c) ^^^ (b &&& c))
    [t + u, a, b, c, d + t, e, f, g]
  | _ => state

def compress (state : List UInt32) (block : Bytes) : List UInt32 :=
  let after := ((schedule block).zip ROUND).foldl (fun s wk => round s wk.1 wk.2) state
  state.zipWith (· + ·) after

def sha256 (text : Bytes) : Bytes :=
  let zeros := (119 - text.length % 64) % 64
  let padded := text ++ [0x80] ++ .replicate zeros 0 ++ putBe 8 (8 * text.length)
  let state := (List.range (padded.length / 64)).foldl
    (fun s i => compress s (slice padded (64 * i) (64 * i + 64))) INITIAL
  state.flatMap fun w => putBe 4 w.toNat

/-! ## HMAC and HKDF -/

def hmac (key text : Bytes) : Bytes :=
  let key := if key.length > 64 then sha256 key else key
  let padded := key ++ .replicate (64 - key.length) 0
  sha256 (padded.map (· ^^^ 0x5c) ++ sha256 (padded.map (· ^^^ 0x36) ++ text))

def extract (salt : Option Bytes) (ikm : Bytes) : Bytes := hmac (salt.getD (.replicate 32 0)) ikm

/-- The first `n` blocks, numbered from `i` on, behind the block `last`. -/
def blocks (prk info : Bytes) : Nat → Nat → Bytes → Bytes
  | 0, _, _ => []
  | n + 1, i, last =>
    let block := hmac prk (last ++ info ++ putBe 1 i)
    block ++ blocks prk info n (i + 1) block

/-- `len` bytes of HKDF; a block has thirty-two, so the zeros are never reached. -/
def derive (salt : Option Bytes) (ikm info : Bytes) (len : Nat) : { b : Bytes // b.length = len } :=
  ⟨(blocks (extract salt ikm) info ((len + 31) / 32) 1 [] ++ .replicate len 0).take len, by simp⟩

end Hkdf
