/-
  The pinned key of the WARP endpoint (`extract_spki` and `SpkiPinVerifier` in `src/warp/masque.rs`).

  The key is found by walking over the elements of a certificate in DER.  An element is a tag, a length
  and as many bytes; what the walk is given comes from the peer, and need not be a certificate.

  1. **Program** — `readDerLen`, `readTlv` and `extractSpki`.  What returns `None` and what would PANIC
     are told apart (`Slice.Stop`); numbers are those of a 64-bit `usize`.

  2. **Specification** — `Certificate cert` takes `cert` apart into its elements.  A length may be longer
     than it has to be (`LengthForm`).

  3. **On a certificate** — every element is read to its end, whatever follows it (`readTlv_element`), so
     the walk stands at the key after five elements, or six with a version.

  4. **On anything** — what `readTlv` returns is part of what it was given (`readTlv_ok`), and no step
     panics.
-/
import Httproxy.Lib.Bytes
import Httproxy.Lib.Slice

namespace Httproxy.Spki

open Bytes Slice

/-! ## Program -/

/-- `read_der_len`: the length, and the bytes it takes. -/
def readDerLen (buf : Bytes) : Except Stop (Nat × Nat) := do
  let first ← question buf.head?
  if first &&& 0x80 = 0 then .ok (first.toNat, 1)
  else
    let count := (first &&& 0x7F).toNat
    if count = 0 ∨ count > 4 then .error .nothing
    else do
      let stop ← orPanic (addUsize 1 count)
      let bytes ← question (range buf 1 stop)
      let len := bytes.foldl (fun len byte => (len <<< 8) % 2 ^ 64 ||| byte.toNat) 0
      let lenBytes ← orPanic (addUsize 1 count)
      .ok (len, lenBytes)

/-- `read_tlv`: the content of the first element, and what follows the element. -/
def readTlv (buf : Bytes) : Except Stop (Bytes × Bytes) := do
  let first ← question buf.head?
  if first &&& 0x1F = 0x1F then .error .nothing
  else do
    let behind ← question (range buf 1 buf.length)
    let (len, lenBytes) ← readDerLen behind
    let header ← orPanic (addUsize 1 lenBytes)
    let stop ← question (addUsize header len)
    let content ← question (range buf header stop)
    let rest ← question (range buf stop buf.length)
    .ok (content, rest)

/-- `for _ in 0..n`: skip `n` elements. -/
def skip : Nat → Bytes → Except Stop Bytes
  | 0, cursor => .ok cursor
  | n + 1, cursor => do
    let (_, rest) ← readTlv cursor
    skip n rest

/-- `if cursor.first() == Some(&0xA0)`. -/
def skipVersion (cursor : Bytes) : Except Stop Bytes :=
  if cursor.head? = some 0xA0 then skip 1 cursor else .ok cursor

/-- `extract_spki`. -/
def extractSpki (cert : Bytes) : Except Stop Bytes := do
  let (certBody, _) ← readTlv cert
  let (tbs, _) ← readTlv certBody
  let cursor ← skipVersion tbs
  let cursor ← skip 5 cursor
  let (_, rest) ← readTlv cursor
  let stop ← orPanic (subUsize cursor.length rest.length)
  orPanic (range cursor 0 stop)

inductive CertificateError where
  | badEncoding
  | unknownIssuer
  deriving DecidableEq, Repr

/-- `verify_server_cert` of `SpkiPinVerifier`; `extract_spki` does not panic (`extractSpki_noPanic`). -/
def verifyServerCert (expected endEntity : Bytes) : Except CertificateError Unit :=
  match extractSpki endEntity with
  | .error _ => .error .badEncoding
  | .ok spki => if spki = expected then .ok () else .error .unknownIssuer

/-! ## Specification -/

/-- A length below 2^32: one byte, or up to four behind a byte that counts them. -/
inductive LengthForm (n : Nat) : Bytes → Prop
  | short (h : n < 128) : LengthForm n [UInt8.ofNat n]
  | long (k : Nat) (hk : 1 ≤ k) (hk4 : k ≤ 4) (h : n < 256 ^ k) :
      LengthForm n (UInt8.ofNat (128 + k) :: putBe k n)

/-- `enc` is the element with this tag of one byte and this content. -/
def Encodes (tag : UInt8) (content enc : Bytes) : Prop :=
  tag &&& 0x1F ≠ 0x1F ∧ ∃ len, LengthForm content.length len ∧ enc = tag :: (len ++ content)

def Element (enc : Bytes) : Prop := ∃ tag content, Encodes tag content enc

def SEQUENCE : UInt8 := 0x30

/-- The elements of a certificate, each with its tag and its length. -/
structure Certificate (cert : Bytes) where
  version : Option Bytes
  serial : Bytes
  algorithm : Bytes
  issuer : Bytes
  validity : Bytes
  subject : Bytes
  spki : Bytes
  /-- The elements behind the key. -/
  more : Bytes
  tbs : Bytes
  /-- The elements behind the first one. -/
  after : Bytes
  version_element : ∀ v, version = some v → ∃ content, Encodes 0xA0 content v
  serial_element : ∃ tag content, tag ≠ 0xA0 ∧ Encodes tag content serial
  algorithm_element : Element algorithm
  issuer_element : Element issuer
  validity_element : Element validity
  subject_element : Element subject
  spki_element : Element spki
  tbs_encodes : Encodes SEQUENCE (version.getD [] ++ ([serial, algorithm, issuer, validity, subject].flatten ++
    (spki ++ more))) tbs
  cert_encodes : Encodes SEQUENCE (tbs ++ after) cert

/-! ## On a certificate -/

/-- The bytes of a length are added up to a number. -/
theorem foldl_shift_mod {b : Bytes} (h : b.length ≤ 8) :
    b.foldl (fun len byte => (len <<< 8) % 2 ^ 64 ||| byte.toNat) 0 = readBe b := by
  induction b using List.reverseRecOn with
  | nil => rfl
  | append_singleton b x ih =>
    rw [List.length_append, List.length_singleton] at h
    -- fewer than eight bytes so far: the shift loses nothing
    have hlt := readBe_lt b
    have hpow : 256 ^ b.length ≤ 256 ^ 7 := Nat.pow_le_pow_right (by omega) (by omega)
    have hx := x.toNat_lt
    have hshift : readBe b <<< 8 = readBe b * 256 := Nat.shiftLeft_eq _ 8
    rw [List.foldl_concat, ih (by omega), readBe_concat, hshift, Nat.mod_eq_of_lt (by omega), ← hshift]
    exact (Nat.shiftLeft_add_eq_or_of_lt hx _).symm

theorem readDerLen_form {n : Nat} {len : Bytes} (h : LengthForm n len) (rest : Bytes) :
    readDerLen (len ++ rest) = .ok (n, len.length) := by
  cases h with
  | short h =>
    have hlow : ∀ n : Fin 128, UInt8.ofNat n &&& 0x80 = 0 := by decide
    have hnat : (UInt8.ofNat n).toNat = n := UInt8.toNat_ofNat_of_lt' (by show n < 256; omega)
    unfold readDerLen
    rw [List.cons_append, List.head?_cons, question_some]
    show (if UInt8.ofNat n &&& 0x80 = 0 then _ else _) = _
    rw [if_pos (hlow ⟨n, h⟩), hnat]
    rfl
  | long k hk hk4 h =>
    have hhigh : ∀ k : Fin 5, UInt8.ofNat (128 + k) &&& 0x80 ≠ 0 ∧
        (UInt8.ofNat (128 + k) &&& 0x7F).toNat = k := by decide
    obtain ⟨hlong, hcount⟩ := hhigh ⟨k, by omega⟩
    have hbytes : range (UInt8.ofNat (128 + k) :: (putBe k n ++ rest)) 1 (1 + k) = some (putBe k n) := by
      rw [range_of_le (by omega) (by simp; omega), Nat.add_comm 1 k, List.take_succ_cons,
        List.drop_succ_cons, List.drop_zero, List.take_left' (length_putBe k n)]
    have hnumber : (putBe k n).foldl (fun len byte => (len <<< 8) % 2 ^ 64 ||| byte.toNat) 0 = n := by
      rw [foldl_shift_mod (by rw [length_putBe]; omega), readBe_putBe, Nat.mod_eq_of_lt h]
    have hadd : addUsize 1 k = some (1 + k) := addUsize_of_lt (by omega)
    unfold readDerLen
    rw [List.cons_append, List.head?_cons, question_some]
    show (if UInt8.ofNat (128 + k) &&& 0x80 = 0 then _ else _) = _
    rw [if_neg hlong]
    dsimp only at hcount ⊢
    rw [hcount, if_neg (by omega), hadd, orPanic_some]
    show (question (range _ 1 (1 + k)) >>= _) = _
    rw [hbytes, question_some]
    show Except.ok ((putBe k n).foldl _ 0, 1 + k) = _
    rw [hnumber, List.length_cons, length_putBe, Nat.add_comm]

theorem LengthForm.length_le {n : Nat} {len : Bytes} (h : LengthForm n len) : len.length ≤ 5 := by
  cases h with
  | short h => exact Nat.le_add_left 1 4
  | long k hk hk4 h =>
    rw [List.length_cons, length_putBe]
    omega

theorem LengthForm.lt {n : Nat} {len : Bytes} (h : LengthForm n len) : n < 2 ^ 32 := by
  cases h with
  | short h => omega
  | long k hk hk4 h =>
    have hpow : 256 ^ k ≤ 256 ^ 4 := Nat.pow_le_pow_right (by omega) hk4
    omega

/-- **An element is read to its end**, whatever follows it. -/
theorem readTlv_element {tag : UInt8} {content enc : Bytes} (h : Encodes tag content enc)
    (rest : Bytes) : readTlv (enc ++ rest) = .ok (content, rest) := by
  obtain ⟨htag, len, hlen, rfl⟩ := h
  have hshort := hlen.length_le
  have hlt := hlen.lt
  have hbuf : tag :: (len ++ content) ++ rest = tag :: (len ++ (content ++ rest)) := by simp
  have hbehind : range (tag :: (len ++ (content ++ rest))) 1 (tag :: (len ++ (content ++ rest))).length =
      some (len ++ (content ++ rest)) := range_length (by simp)
  have hfront : (tag :: len).length = 1 + len.length := by rw [List.length_cons, Nat.add_comm]
  have hstop : (tag :: (len ++ content)).length = 1 + len.length + content.length := by
    simp
    omega
  have hcontent : range (tag :: (len ++ (content ++ rest))) (1 + len.length)
      (1 + len.length + content.length) = some content := by
    have htake : (tag :: (len ++ (content ++ rest))).take (1 + len.length + content.length) =
        tag :: len ++ content := by
      rw [← hbuf]
      exact List.take_left' hstop
    rw [range_of_le (by omega) (by simp; omega), htake, List.drop_left' hfront]
  have hrest : range (tag :: (len ++ (content ++ rest))) (1 + len.length + content.length)
      (tag :: (len ++ (content ++ rest))).length = some rest := by
    rw [range_length (by simp; omega), ← hbuf]
    exact congrArg some (List.drop_left' hstop)
  unfold readTlv
  rw [hbuf, List.head?_cons, question_some]
  show (if tag &&& 0x1F = 0x1F then _ else _) = _
  rw [if_neg htag, hbehind, question_some]
  show (readDerLen (len ++ (content ++ rest)) >>= _) = _
  rw [readDerLen_form hlen]
  show (orPanic (addUsize 1 len.length) >>= _) = _
  rw [addUsize_of_lt (by omega), orPanic_some]
  show (question (addUsize (1 + len.length) content.length) >>= _) = _
  rw [addUsize_of_lt (by omega), question_some]
  show (question (range _ (1 + len.length) (1 + len.length + content.length)) >>= _) = _
  rw [hcontent, question_some]
  show (question (range _ (1 + len.length + content.length) _) >>= _) = _
  rw [hrest, question_some]
  rfl

theorem skip_elements {elements : List Bytes} (h : ∀ e ∈ elements, Element e) (rest : Bytes) :
    skip elements.length (elements.flatten ++ rest) = .ok rest := by
  induction elements with
  | nil => rfl
  | cons e elements ih =>
    obtain ⟨⟨tag, content, he⟩, hmore⟩ := List.forall_mem_cons.mp h
    rw [List.length_cons, List.flatten_cons, List.append_assoc, skip, readTlv_element he]
    exact ih hmore

theorem Encodes.head {tag : UInt8} {content enc : Bytes} (h : Encodes tag content enc) (rest : Bytes) :
    (enc ++ rest).head? = some tag := by
  obtain ⟨-, len, -, rfl⟩ := h
  rfl

section Certificate

variable {cert : Bytes} (c : Certificate cert)

/-- With and without a version, the walk goes on at the serial number. -/
theorem skipVersion_certificate (rest : Bytes) :
    skipVersion (c.version.getD [] ++ (c.serial ++ rest)) = .ok (c.serial ++ rest) := by
  cases hv : c.version with
  | none =>
    obtain ⟨tag, content, htag, hserial⟩ := c.serial_element
    show skipVersion (c.serial ++ rest) = _
    rw [skipVersion, if_neg]
    rw [hserial.head, Option.some.injEq]
    exact htag
  | some v =>
    obtain ⟨content, hversion⟩ := c.version_element v hv
    show skipVersion (v ++ (c.serial ++ rest)) = _
    have hskip := @skip_elements [v] (List.forall_mem_singleton.mpr ⟨_, _, hversion⟩)
      (c.serial ++ rest)
    rw [List.flatten_singleton] at hskip
    rw [skipVersion, if_pos (hversion.head _)]
    exact hskip

theorem skip_five : skip 5 ([c.serial, c.algorithm, c.issuer, c.validity, c.subject].flatten ++
    (c.spki ++ c.more)) = .ok (c.spki ++ c.more) := by
  obtain ⟨tag, content, -, hserial⟩ := c.serial_element
  have hall : ∀ e ∈ [c.serial, c.algorithm, c.issuer, c.validity, c.subject], Element e := by
    rw [List.forall_mem_cons, List.forall_mem_cons, List.forall_mem_cons, List.forall_mem_cons,
      List.forall_mem_singleton]
    exact ⟨⟨_, _, hserial⟩, c.algorithm_element, c.issuer_element, c.validity_element,
      c.subject_element⟩
  exact skip_elements hall _

/-- **The walk finds the key.** -/
theorem extractSpki_certificate : extractSpki cert = .ok c.spki := by
  obtain ⟨tag, content, hspki⟩ := c.spki_element
  have hcert : readTlv cert = .ok (c.tbs ++ c.after, []) := by
    have hread := readTlv_element c.cert_encodes []
    rwa [List.append_nil] at hread
  have hserial : [c.serial, c.algorithm, c.issuer, c.validity, c.subject].flatten ++ (c.spki ++ c.more) =
      c.serial ++ ([c.algorithm, c.issuer, c.validity, c.subject].flatten ++ (c.spki ++ c.more)) := by
    rw [List.flatten_cons, List.append_assoc]
  have hlen : (c.spki ++ c.more).length - c.more.length = c.spki.length := by
    rw [List.length_append, Nat.add_sub_cancel]
  have hsub : subUsize (c.spki ++ c.more).length c.more.length = some c.spki.length := by
    rw [subUsize_of_le (by rw [List.length_append]; omega), hlen]
  have hrange : range (c.spki ++ c.more) 0 c.spki.length = some c.spki := by
    rw [range_zero (by rw [List.length_append]; omega), List.take_left]
  unfold extractSpki
  rw [hcert]
  show (readTlv (c.tbs ++ c.after) >>= _) = _
  rw [readTlv_element c.tbs_encodes]
  show (skipVersion (c.version.getD [] ++ _) >>= _) = _
  rw [hserial, skipVersion_certificate, ← hserial]
  show (skip 5 _ >>= _) = _
  rw [skip_five]
  show (readTlv (c.spki ++ c.more) >>= _) = _
  rw [readTlv_element hspki]
  show (orPanic (subUsize _ _) >>= _) = _
  rw [hsub]
  show orPanic (range _ 0 c.spki.length) = _
  rw [hrange]
  rfl

end Certificate

/-! ## On anything -/

theorem readDerLen_ok {buf : Bytes} {len lenBytes : Nat} (h : readDerLen buf = .ok (len, lenBytes)) :
    lenBytes ≤ 5 := by
  unfold readDerLen at h
  obtain ⟨first, -, h⟩ := bind_eq_ok.mp h
  split at h
  · cases h
    omega
  · dsimp only at h
    split at h
    · cases h
    · rename_i hcount
      obtain ⟨stop, -, h⟩ := bind_eq_ok.mp h
      obtain ⟨bytes, -, h⟩ := bind_eq_ok.mp h
      obtain ⟨n, hn, h⟩ := bind_eq_ok.mp h
      have hadd := orPanic_eq_ok.mp hn
      cases h
      rw [addUsize_of_lt (by omega)] at hadd
      obtain rfl := Option.some.inj hadd
      omega

theorem readDerLen_noPanic (buf : Bytes) : NoPanic (readDerLen buf) := by
  unfold readDerLen
  refine .bind (.question _) fun first _ => ?_
  split
  · exact .ok _
  · dsimp only
    split
    · exact .nothing
    · rename_i hcount
      have hadd : addUsize 1 (first &&& 0x7F).toNat = some (1 + (first &&& 0x7F).toNat) :=
        addUsize_of_lt (by omega)
      rw [hadd, orPanic_some]
      exact .bind (.ok _) fun _ _ => .bind (.question _) fun _ _ => .bind (.ok _) fun _ _ => .ok _

/-- **What an element is read from**: its header, its content and the rest. -/
theorem readTlv_ok {buf content rest : Bytes} (h : readTlv buf = .ok (content, rest)) :
    ∃ header, buf = header ++ (content ++ rest) := by
  unfold readTlv at h
  obtain ⟨first, -, h⟩ := bind_eq_ok.mp h
  split at h
  · cases h
  · obtain ⟨behind, -, h⟩ := bind_eq_ok.mp h
    obtain ⟨⟨len, lenBytes⟩, -, h⟩ := bind_eq_ok.mp h
    obtain ⟨header, -, h⟩ := bind_eq_ok.mp h
    obtain ⟨stop, -, h⟩ := bind_eq_ok.mp h
    obtain ⟨content', hcontent, h⟩ := bind_eq_ok.mp h
    obtain ⟨rest', hrest, h⟩ := bind_eq_ok.mp h
    cases h
    exact ⟨_, range_range (question_eq_ok.mp hcontent) (question_eq_ok.mp hrest)⟩

theorem readTlv_noPanic (buf : Bytes) : NoPanic (readTlv buf) := by
  unfold readTlv
  refine .bind (.question _) fun first _ => ?_
  split
  · exact .nothing
  · refine .bind (.question _) fun behind _ => .bind (readDerLen_noPanic _) fun ⟨len, lenBytes⟩ hlen => ?_
    have hle := readDerLen_ok hlen
    show NoPanic (orPanic (addUsize 1 lenBytes) >>= _)
    -- the only sum that is not checked is that of the tag and a short length
    rw [addUsize_of_lt (by omega), orPanic_some]
    exact .bind (.ok _) fun _ _ => .bind (.question _) fun _ _ => .bind (.question _) fun _ _ =>
      .bind (.question _) fun _ _ => .ok _

theorem skip_ok {n : Nat} {cursor rest : Bytes} (h : skip n cursor = .ok rest) : rest <:+ cursor := by
  induction n generalizing cursor with
  | zero =>
    cases h
    exact List.suffix_refl _
  | succ n ih =>
    obtain ⟨⟨content, behind⟩, hread, hskip⟩ := bind_eq_ok.mp h
    obtain ⟨header, rfl⟩ := readTlv_ok hread
    exact (ih hskip).trans ((List.suffix_append _ _).trans (List.suffix_append _ _))

theorem skip_noPanic (n : Nat) (cursor : Bytes) : NoPanic (skip n cursor) := by
  induction n generalizing cursor with
  | zero => exact .ok _
  | succ n ih => exact .bind (readTlv_noPanic _) fun ⟨_, rest⟩ _ => ih rest

theorem skipVersion_ok {cursor rest : Bytes} (h : skipVersion cursor = .ok rest) :
    rest <:+ cursor := by
  unfold skipVersion at h
  split at h
  · exact skip_ok h
  · cases h
    exact List.suffix_refl _

theorem skipVersion_noPanic (cursor : Bytes) : NoPanic (skipVersion cursor) := by
  unfold skipVersion
  split
  · exact skip_noPanic 1 cursor
  · exact .ok _

/-- **The walk stays inside the certificate.** -/
theorem extractSpki_ok {cert spki : Bytes} (h : extractSpki cert = .ok spki) : spki <:+: cert := by
  obtain ⟨⟨certBody, after⟩, hcert, h⟩ := bind_eq_ok.mp h
  obtain ⟨⟨tbs, behind⟩, htbs, h⟩ := bind_eq_ok.mp h
  obtain ⟨cursor, hversion, h⟩ := bind_eq_ok.mp h
  obtain ⟨cursor', hskip, h⟩ := bind_eq_ok.mp h
  obtain ⟨⟨content, rest⟩, -, h⟩ := bind_eq_ok.mp h
  obtain ⟨stop, -, h⟩ := bind_eq_ok.mp h
  have hrange := range_infix (orPanic_eq_ok.mp h)
  obtain ⟨header, rfl⟩ := readTlv_ok hcert
  obtain ⟨header', rfl⟩ := readTlv_ok htbs
  have hcursor := ((skip_ok hskip).trans (skipVersion_ok hversion)).isInfix
  have htbs : tbs <:+: header ++ (header' ++ (tbs ++ behind) ++ after) :=
    ⟨header ++ header', behind ++ after, by simp only [List.append_assoc]⟩
  exact hrange.trans (hcursor.trans htbs)

theorem extractSpki_noPanic (cert : Bytes) : NoPanic (extractSpki cert) := by
  unfold extractSpki
  refine .bind (readTlv_noPanic _) fun ⟨certBody, _⟩ _ => ?_
  refine .bind (readTlv_noPanic _) fun ⟨tbs, _⟩ _ => ?_
  refine .bind (skipVersion_noPanic _) fun cursor _ => ?_
  refine .bind (skip_noPanic _ _) fun cursor _ => ?_
  refine .bind (readTlv_noPanic _) fun ⟨content, rest⟩ hread => ?_
  -- what is left of the element is not longer than it was
  obtain ⟨header, rfl⟩ := readTlv_ok hread
  have hle : rest.length ≤ (header ++ (content ++ rest)).length := by
    rw [List.length_append, List.length_append]
    omega
  show NoPanic (orPanic (subUsize _ rest.length) >>= _)
  rw [subUsize_of_le hle, orPanic_some]
  show NoPanic (orPanic (range _ 0 _))
  rw [range_zero (Nat.sub_le _ _)]
  exact .ok _

/-! ## The pin -/

theorem verifyServerCert_iff {cert spki : Bytes} (h : extractSpki cert = .ok spki) (expected : Bytes) :
    verifyServerCert expected cert = .ok () ↔ expected = spki := by
  rw [verifyServerCert, h]
  dsimp only
  split
  · rename_i heq
    exact ⟨fun _ => heq.symm, fun _ => rfl⟩
  · rename_i hne
    constructor
    · rintro ⟨⟩
    · intro heq
      exact absurd heq.symm hne

/-- **The pinned key is the key of the certificate.**  From a certificate the full encoding of its key is
    extracted, and nothing else is accepted for the pin; on any bytes at all the functions return `None`
    or parts of them, and do not panic. -/
theorem pinned_key :
    (∀ (cert : Bytes) (c : Certificate cert), extractSpki cert = .ok c.spki ∧
      ∀ expected, verifyServerCert expected cert = .ok () ↔ expected = c.spki) ∧
    (∀ buf : Bytes, NoPanic (readTlv buf) ∧ ∀ content rest, readTlv buf = .ok (content, rest) →
      ∃ header, buf = header ++ (content ++ rest)) ∧
    ∀ cert : Bytes, NoPanic (extractSpki cert) ∧ ∀ spki, extractSpki cert = .ok spki → spki <:+: cert :=
  ⟨fun _ c => ⟨extractSpki_certificate c, verifyServerCert_iff (extractSpki_certificate c)⟩,
    fun buf => ⟨readTlv_noPanic buf, fun _ _ h => readTlv_ok h⟩,
    fun cert => ⟨extractSpki_noPanic cert, fun _ h => extractSpki_ok h⟩⟩

/-! ## A certificate -/

/-- An element with a length of one byte. -/
theorem encodes_short {tag : UInt8} {content : Bytes} (htag : tag &&& 0x1F ≠ 0x1F)
    (h : content.length < 128) : Encodes tag content (tag :: ([UInt8.ofNat content.length] ++ content)) :=
  ⟨htag, _, .short h, rfl⟩

def DEMO_VERSION : Bytes := [0xA0, 3, 2, 1, 2]
def DEMO_SERIAL : Bytes := [2, 1, 5]
def EMPTY_SEQUENCE : Bytes := [0x30, 0]

/-- The length has a byte more than it has to. -/
def DEMO_SPKI : Bytes := [0x30, 0x81, 2, 0xAB, 0xCD]

def DEMO_TBS : Bytes :=
  [0x30, 23] ++ DEMO_VERSION ++ DEMO_SERIAL ++ EMPTY_SEQUENCE ++ EMPTY_SEQUENCE ++ EMPTY_SEQUENCE ++
    EMPTY_SEQUENCE ++ DEMO_SPKI ++ [0xA3, 0]

def DEMO_CERT : Bytes := [0x30, 27] ++ DEMO_TBS ++ EMPTY_SEQUENCE

theorem empty_element : Element EMPTY_SEQUENCE := ⟨0x30, [], encodes_short (by decide) (by decide)⟩

def demoCertificate : Certificate DEMO_CERT where
  version := some DEMO_VERSION
  serial := DEMO_SERIAL
  algorithm := EMPTY_SEQUENCE
  issuer := EMPTY_SEQUENCE
  validity := EMPTY_SEQUENCE
  subject := EMPTY_SEQUENCE
  spki := DEMO_SPKI
  more := [0xA3, 0]
  tbs := DEMO_TBS
  after := EMPTY_SEQUENCE
  version_element := by
    rintro v ⟨⟩
    exact ⟨[2, 1, 2], encodes_short (by decide) (by decide)⟩
  serial_element := ⟨2, [5], by decide, encodes_short (by decide) (by decide)⟩
  algorithm_element := empty_element
  issuer_element := empty_element
  validity_element := empty_element
  subject_element := empty_element
  spki_element := ⟨0x30, [0xAB, 0xCD], by decide, _, .long 1 (by decide) (by decide) (by decide), rfl⟩
  tbs_encodes := encodes_short (by decide) (by decide)
  cert_encodes := encodes_short (by decide) (by decide)

theorem pinned_key_demo :
    extractSpki DEMO_CERT = .ok DEMO_SPKI ∧
    (verifyServerCert DEMO_SPKI DEMO_CERT = .ok () ↔ DEMO_SPKI = DEMO_SPKI) ∧ DEMO_SPKI <:+: DEMO_CERT ∧
    ∃ header, DEMO_CERT = header ++ (DEMO_TBS ++ EMPTY_SEQUENCE ++ []) := by
  obtain ⟨hcert, hread, hany⟩ := pinned_key
  obtain ⟨hspki, hpin⟩ := hcert DEMO_CERT demoCertificate
  have htlv : readTlv DEMO_CERT = .ok (DEMO_TBS ++ EMPTY_SEQUENCE, []) := by rfl
  exact ⟨hspki, hpin DEMO_SPKI, (hany DEMO_CERT).2 _ hspki, (hread DEMO_CERT).2 _ _ htlv⟩

end Httproxy.Spki
