/-
  Base64 with the URL-safe alphabet and without padding (`URL_SAFE_NO_PAD`).

  Three bytes are four groups of six bits.  What is left at the end is written with as many characters
  as it takes, and the bits that are left over in the last one must be ZERO for the text to be read.
  So each is the inverse of the other: `decode_encode`, `encode_of_decode`.
-/
import Httproxy.Lib.Bytes

namespace Base64

/-! ## The alphabet -/

/-- `A`–`Z`, `a`–`z`, `0`–`9`, `-` and `_`. -/
def char (i : Nat) : UInt8 :=
  if i < 26 then UInt8.ofNat (65 + i)
  else if i < 52 then UInt8.ofNat (97 + (i - 26))
  else if i < 62 then UInt8.ofNat (48 + (i - 52))
  else if i = 62 then 45
  else 95

def value (c : UInt8) : Option Nat :=
  if 65 ≤ c ∧ c ≤ 90 then some (c.toNat - 65)
  else if 97 ≤ c ∧ c ≤ 122 then some (c.toNat - 97 + 26)
  else if 48 ≤ c ∧ c ≤ 57 then some (c.toNat - 48 + 52)
  else if c = 45 then some 62
  else if c = 95 then some 63
  else none

theorem value_char {i : Nat} (h : i < 64) : value (char i) = some i := by
  revert i
  decide

/-- A character is that of its value. -/
theorem char_value {c : UInt8} {i : Nat} (h : value c = some i) : char i = c ∧ i < 64 := by
  have hall : ∀ n : Fin 256, (value (UInt8.ofNat n)).all fun i =>
      char i = UInt8.ofNat n ∧ i < 64 := by decide +kernel
  have hc := hall ⟨c.toNat, c.toNat_lt⟩
  rw [UInt8.ofNat_toNat, h] at hc
  exact of_decide_eq_true hc

/-- The characters are letters, digits, `-` and `_`. -/
def isUrlSafe (c : UInt8) : Bool :=
  (65 ≤ c && c ≤ 90) || (97 ≤ c && c ≤ 122) || (48 ≤ c && c ≤ 57) || c == 45 || c == 95

theorem isUrlSafe_char {i : Nat} (h : i < 64) : isUrlSafe (char i) = true := by
  revert i
  decide

/-! ## Texts -/

def encode : Bytes → Bytes
  | [] => []
  | [a] => [char (a.toNat / 4), char (a.toNat % 4 * 16)]
  | [a, b] =>
    [char (a.toNat / 4), char (a.toNat % 4 * 16 + b.toNat / 16), char (b.toNat % 16 * 4)]
  | a :: b :: c :: rest =>
    char (a.toNat / 4) :: char (a.toNat % 4 * 16 + b.toNat / 16) ::
      char (b.toNat % 16 * 4 + c.toNat / 64) :: char (c.toNat % 64) :: encode rest

/-- The bytes of a text; one character can not be left over, and no bits that are not zero. -/
def decode : Bytes → Option Bytes
  | [] => some []
  | [_] => none
  | [x, y] => do
    let i ← value x
    let j ← value y
    if j % 16 = 0 then some [UInt8.ofNat (i * 4 + j / 16)] else none
  | [x, y, z] => do
    let i ← value x
    let j ← value y
    let k ← value z
    if k % 4 = 0 then some [UInt8.ofNat (i * 4 + j / 16), UInt8.ofNat (j % 16 * 16 + k / 4)] else none
  | x :: y :: z :: w :: rest => do
    let i ← value x
    let j ← value y
    let k ← value z
    let l ← value w
    let more ← decode rest
    some (UInt8.ofNat (i * 4 + j / 16) :: UInt8.ofNat (j % 16 * 16 + k / 4) ::
      UInt8.ofNat (k % 4 * 64 + l) :: more)

/-- A number below 256 that is a byte's. -/
theorem ofNat_eq {n : Nat} {b : UInt8} (h : n = b.toNat) : UInt8.ofNat n = b := by
  rw [h, UInt8.ofNat_toNat]

/-- **What is encoded is decoded.** -/
theorem decode_encode (b : Bytes) : decode (encode b) = some b := by
  fun_induction encode b with
  | case1 => rfl
  | case2 a =>
    have ha := a.toNat_lt
    rw [decode, value_char (by omega), value_char (by omega)]
    have hzero : a.toNat % 4 * 16 % 16 = 0 := by omega
    have hfirst : UInt8.ofNat (a.toNat / 4 * 4 + a.toNat % 4 * 16 / 16) = a := ofNat_eq (by omega)
    simp only [Option.bind_eq_bind, Option.bind_some, hzero, hfirst, if_true]
  | case3 a b =>
    have ha := a.toNat_lt
    have hb := b.toNat_lt
    rw [decode, value_char (by omega), value_char (by omega), value_char (by omega)]
    have hzero : b.toNat % 16 * 4 % 4 = 0 := by omega
    have hfirst : UInt8.ofNat (a.toNat / 4 * 4 + (a.toNat % 4 * 16 + b.toNat / 16) / 16) = a :=
      ofNat_eq (by omega)
    have hsecond : UInt8.ofNat ((a.toNat % 4 * 16 + b.toNat / 16) % 16 * 16 + b.toNat % 16 * 4 / 4) = b :=
      ofNat_eq (by omega)
    simp only [Option.bind_eq_bind, Option.bind_some, hzero, hfirst, hsecond, if_true]
  | case4 a b c rest ih =>
    have ha := a.toNat_lt
    have hb := b.toNat_lt
    have hc := c.toNat_lt
    rw [decode, value_char (by omega), value_char (by omega), value_char (by omega),
      value_char (by omega), ih]
    have hfirst : UInt8.ofNat (a.toNat / 4 * 4 + (a.toNat % 4 * 16 + b.toNat / 16) / 16) = a :=
      ofNat_eq (by omega)
    have hsecond : UInt8.ofNat ((a.toNat % 4 * 16 + b.toNat / 16) % 16 * 16 +
        (b.toNat % 16 * 4 + c.toNat / 64) / 4) = b := ofNat_eq (by omega)
    have hthird : UInt8.ofNat ((b.toNat % 16 * 4 + c.toNat / 64) % 4 * 64 + c.toNat % 64) = c :=
      ofNat_eq (by omega)
    simp only [Option.bind_eq_bind, Option.bind_some, hfirst, hsecond, hthird]

theorem toNat_ofNat {n : Nat} (h : n < 256) : (UInt8.ofNat n).toNat = n :=
  UInt8.toNat_ofNat_of_lt' h

/-- **What is decoded is the encoding of it**: every text has bytes of its own. -/
theorem encode_of_decode {t b : Bytes} (h : decode t = some b) : encode b = t := by
  have hchar : ∀ {x : UInt8} {i j : Nat}, value x = some i → j = i → char j = x := by
    rintro x i j hx rfl
    exact (char_value hx).1
  fun_induction decode t generalizing b with
  | case1 =>
    obtain rfl := Option.some.inj h
    rfl
  | case2 => cases h
  | case3 x y =>
    simp only [Option.bind_eq_bind, Option.bind_eq_some_iff, Option.ite_none_right_eq_some,
      Option.some.injEq] at h
    obtain ⟨i, hi, j, hj, hzero, rfl⟩ := h
    have hi64 := (char_value hi).2
    have hj64 := (char_value hj).2
    rw [encode, toNat_ofNat (by omega), hchar hi (by omega), hchar hj (by omega)]
  | case4 x y z =>
    simp only [Option.bind_eq_bind, Option.bind_eq_some_iff, Option.ite_none_right_eq_some,
      Option.some.injEq] at h
    obtain ⟨i, hi, j, hj, k, hk, hzero, rfl⟩ := h
    have hi64 := (char_value hi).2
    have hj64 := (char_value hj).2
    have hk64 := (char_value hk).2
    rw [encode, toNat_ofNat (by omega), toNat_ofNat (by omega), hchar hi (by omega),
      hchar hj (by omega), hchar hk (by omega)]
  | case5 x y z w rest ih =>
    simp only [Option.bind_eq_bind, Option.bind_eq_some_iff, Option.some.injEq] at h
    obtain ⟨i, hi, j, hj, k, hk, l, hl, more, hmore, rfl⟩ := h
    have hi64 := (char_value hi).2
    have hj64 := (char_value hj).2
    have hk64 := (char_value hk).2
    have hl64 := (char_value hl).2
    rw [encode, toNat_ofNat (by omega), toNat_ofNat (by omega), toNat_ofNat (by omega),
      hchar hi (by omega), hchar hj (by omega), hchar hk (by omega), hchar hl (by omega), ih hmore]

theorem length_encode (b : Bytes) : (encode b).length = (4 * b.length + 2) / 3 := by
  fun_induction encode b with
  | case1 => rfl
  | case2 a =>
    show 2 = (4 * 1 + 2) / 3
    omega
  | case3 a b =>
    show 3 = (4 * 2 + 2) / 3
    omega
  | case4 a b c rest ih =>
    simp only [List.length_cons, ih]
    omega

theorem isUrlSafe_encode (b : Bytes) : ∀ c ∈ encode b, isUrlSafe c = true := by
  fun_induction encode b with
  | case1 => exact fun c h => absurd h List.not_mem_nil
  | case2 a =>
    have ha := a.toNat_lt
    rw [List.forall_mem_cons, List.forall_mem_singleton]
    exact ⟨isUrlSafe_char (by omega), isUrlSafe_char (by omega)⟩
  | case3 a b =>
    have ha := a.toNat_lt
    have hb := b.toNat_lt
    rw [List.forall_mem_cons, List.forall_mem_cons, List.forall_mem_singleton]
    exact ⟨isUrlSafe_char (by omega), isUrlSafe_char (by omega), isUrlSafe_char (by omega)⟩
  | case4 a b c rest ih =>
    have ha := a.toNat_lt
    have hb := b.toNat_lt
    have hc := c.toNat_lt
    rw [List.forall_mem_cons, List.forall_mem_cons, List.forall_mem_cons, List.forall_mem_cons]
    exact ⟨isUrlSafe_char (by omega), isUrlSafe_char (by omega), isUrlSafe_char (by omega),
      isUrlSafe_char (by omega), ih⟩

end Base64
