/-
  AES-256 in Galois/Counter mode, with nonces of twelve bytes and no associated data.

  1. **Block cipher** — a state is sixteen bytes, column by column; `encryptBlock` runs fourteen rounds.

  2. **Mode** — the text is added to the encryptions of successive counters, so that `crypt` is its own
     inverse (`crypt_crypt`); the tag is the polynomial `ghash` of the ciphertext, added to the encryption
     of the first counter.
-/
import Httproxy.Lib.Bytes

namespace AesGcm

open Bytes

/-! ## Block cipher -/

def SBOX : List UInt8 :=
  [0x63, 0x7c, 0x77, 0x7b, 0xf2, 0x6b, 0x6f, 0xc5, 0x30, 0x01, 0x67, 0x2b, 0xfe, 0xd7, 0xab, 0x76,
   0xca, 0x82, 0xc9, 0x7d, 0xfa, 0x59, 0x47, 0xf0, 0xad, 0xd4, 0xa2, 0xaf, 0x9c, 0xa4, 0x72, 0xc0,
   0xb7, 0xfd, 0x93, 0x26, 0x36, 0x3f, 0xf7, 0xcc, 0x34, 0xa5, 0xe5, 0xf1, 0x71, 0xd8, 0x31, 0x15,
   0x04, 0xc7, 0x23, 0xc3, 0x18, 0x96, 0x05, 0x9a, 0x07, 0x12, 0x80, 0xe2, 0xeb, 0x27, 0xb2, 0x75,
   0x09, 0x83, 0x2c, 0x1a, 0x1b, 0x6e, 0x5a, 0xa0, 0x52, 0x3b, 0xd6, 0xb3, 0x29, 0xe3, 0x2f, 0x84,
   0x53, 0xd1, 0x00, 0xed, 0x20, 0xfc, 0xb1, 0x5b, 0x6a, 0xcb, 0xbe, 0x39, 0x4a, 0x4c, 0x58, 0xcf,
   0xd0, 0xef, 0xaa, 0xfb, 0x43, 0x4d, 0x33, 0x85, 0x45, 0xf9, 0x02, 0x7f, 0x50, 0x3c, 0x9f, 0xa8,
   0x51, 0xa3, 0x40, 0x8f, 0x92, 0x9d, 0x38, 0xf5, 0xbc, 0xb6, 0xda, 0x21, 0x10, 0xff, 0xf3, 0xd2,
   0xcd, 0x0c, 0x13, 0xec, 0x5f, 0x97, 0x44, 0x17, 0xc4, 0xa7, 0x7e, 0x3d, 0x64, 0x5d, 0x19, 0x73,
   0x60, 0x81, 0x4f, 0xdc, 0x22, 0x2a, 0x90, 0x88, 0x46, 0xee, 0xb8, 0x14, 0xde, 0x5e, 0x0b, 0xdb,
   0xe0, 0x32, 0x3a, 0x0a, 0x49, 0x06, 0x24, 0x5c, 0xc2, 0xd3, 0xac, 0x62, 0x91, 0x95, 0xe4, 0x79,
   0xe7, 0xc8, 0x37, 0x6d, 0x8d, 0xd5, 0x4e, 0xa9, 0x6c, 0x56, 0xf4, 0xea, 0x65, 0x7a, 0xae, 0x08,
   0xba, 0x78, 0x25, 0x2e, 0x1c, 0xa6, 0xb4, 0xc6, 0xe8, 0xdd, 0x74, 0x1f, 0x4b, 0xbd, 0x8b, 0x8a,
   0x70, 0x3e, 0xb5, 0x66, 0x48, 0x03, 0xf6, 0x0e, 0x61, 0x35, 0x57, 0xb9, 0x86, 0xc1, 0x1d, 0x9e,
   0xe1, 0xf8, 0x98, 0x11, 0x69, 0xd9, 0x8e, 0x94, 0x9b, 0x1e, 0x87, 0xe9, 0xce, 0x55, 0x28, 0xdf,
   0x8c, 0xa1, 0x89, 0x0d, 0xbf, 0xe6, 0x42, 0x68, 0x41, 0x99, 0x2d, 0x0f, 0xb0, 0x54, 0xbb, 0x16]

def sub (b : UInt8) : UInt8 := SBOX.getD b.toNat 0

/-- Twice a byte, in the field of 256 elements. -/
def double (b : UInt8) : UInt8 := if b < 128 then b <<< 1 else (b <<< 1) ^^^ 0x1b

def xor (x y : Bytes) : Bytes := x.zipWith (· ^^^ ·) y

/-- Byte `i` stands in row `i % 4`, and a row is rotated by its number. -/
def shiftRows (s : Bytes) : Bytes := (List.range 16).map fun i => s.getD ((i + 4 * (i % 4)) % 16) 0

def mixColumns : Bytes → Bytes
  | a :: b :: c :: d :: s =>
    let t := a ^^^ b ^^^ c ^^^ d
    (a ^^^ t ^^^ double (a ^^^ b)) :: (b ^^^ t ^^^ double (b ^^^ c)) ::
      (c ^^^ t ^^^ double (c ^^^ d)) :: (d ^^^ t ^^^ double (d ^^^ a)) :: mixColumns s
  | s => s

/-- The word of the key schedule behind these, which are newest first. -/
def nextWord (words : List Bytes) : Bytes :=
  let i := words.length
  let last := words.getD 0 []
  let mixed :=
    if i % 8 = 0 then xor ((last.rotate 1).map sub) [1 <<< UInt8.ofNat (i / 8 - 1), 0, 0, 0]
    else if i % 8 = 4 then last.map sub
    else last
  xor (words.getD 7 []) mixed

/-- The sixty words of the key schedule. -/
def expandKey (key : Bytes) : List Bytes :=
  let words := (List.range 8).map fun i => slice key (4 * i) (4 * i + 4)
  (Nat.repeat (fun words => nextWord words :: words) 52 words.reverse).reverse

def encryptBlock (words : List Bytes) (block : Bytes) : Bytes :=
  let roundKey (r : Nat) : Bytes := ((words.drop (4 * r)).take 4).flatten
  let s := (List.range 13).foldl
    (fun s r => xor (mixColumns (shiftRows (s.map sub))) (roundKey (r + 1)))
    (xor block (roundKey 0))
  xor (shiftRows (s.map sub)) (roundKey 14)

/-! ## Mode -/

/-- The encryption of a counter. -/
def counterBlock (words : List Bytes) (nonce : Bytes) (i : Nat) : Bytes :=
  encryptBlock words (nonce ++ putBe 4 i)

/-- Add the key stream to a text: this both encrypts and decrypts. -/
def crypt (words : List Bytes) (nonce text : Bytes) : Bytes :=
  let stream := (List.range ((text.length + 15) / 16)).flatMap fun i => counterBlock words nonce (i + 2)
  text.mapIdx fun i b => b ^^^ stream.getD i 0

/-- Half an element of the field with 2^128 elements; the first bit is the lowest power. -/
def halve (v : Nat) : Nat := if v % 2 = 0 then v / 2 else (v / 2) ^^^ (0xe1 <<< 120)

def mulField (x y : Nat) : Nat :=
  ((List.range 128).foldl
    (fun (z, v) i => (if x.testBit (127 - i) then z ^^^ v else z, halve v)) (0, y)).1

/-- The polynomial with these blocks at the point `h`. -/
def ghash (h : Nat) (text : Bytes) : Nat :=
  (List.range (text.length / 16)).foldl
    (fun acc i => mulField (acc ^^^ readBe (slice text (16 * i) (16 * i + 16))) h) 0

def tag (words : List Bytes) (nonce ct : Bytes) : Bytes :=
  let h := readBe (encryptBlock words (.replicate 16 0))
  let padded := ct ++ .replicate ((16 - ct.length % 16) % 16) 0
  putBe 16 (ghash h (padded ++ putBe 8 0 ++ putBe 8 (8 * ct.length)) ^^^
    readBe (counterBlock words nonce 1))

@[simp] theorem length_crypt (words : List Bytes) (nonce text : Bytes) :
    (crypt words nonce text).length = text.length := List.length_mapIdx

@[simp] theorem length_tag (words : List Bytes) (nonce ct : Bytes) : (tag words nonce ct).length = 16 :=
  length_putBe 16 _

theorem crypt_crypt (words : List Bytes) (nonce text : Bytes) :
    crypt words nonce (crypt words nonce text) = text := by
  have hid : text.mapIdx (fun _ b => b) = text := List.ext_getElem (by simp) (by simp)
  rw [crypt, length_crypt]
  simpa [crypt, List.mapIdx_mapIdx, Function.comp_def, UInt8.xor_assoc] using hid

end AesGcm
