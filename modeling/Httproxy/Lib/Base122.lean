/-
  Base-122, the text coding of bytes, as it was published.

  1. **Bits** — a byte string is a string of bits, cut into groups of SEVEN; the last group is
     filled with zeros (`groups`).  Putting the groups' bits in a row again gives the bits and fewer
     than seven zeros, so the whole bytes among them are the input (`bytesOf_groups`).

  2. **Characters** — a group is its own ASCII character, except six that would break the text
     around it (NUL, newline, carriage return, double quote, ampersand, backslash).  Such a group
     becomes a two-byte character that names it by its index and carries the NEXT group as well; the
     index 7 says that there was no next group and that the group itself is carried.

  So `encode` loses nothing (`decode_encode`), never writes one of the six
  (`legal_encodeGroups`), and needs one byte a group (`length_le_encode`) and at most one more
  (`length_encode_le`).
-/
import Mathlib
import Httproxy.Lib.Bytes

namespace Base122

/-! ## Bits -/

/-- The `k` low bits of `n`, most significant first. -/
def bits : Nat → Nat → List Bool
  | 0, _ => []
  | k + 1, n => bits k (n / 2) ++ [n % 2 == 1]

/-- Cut bits into numbers of `w` bits each.  `acc` is the number begun, of `k` bits so far; what is
    begun at the end is filled with zeros. -/
def pack (w : Nat) : Nat → Nat → List Bool → List Nat
  | acc, k, [] => if k = 0 then [] else [acc * 2 ^ (w - k)]
  | acc, k, b :: bs =>
    if k + 1 = w then (2 * acc + b.toNat) :: pack w 0 0 bs else pack w (2 * acc + b.toNat) (k + 1) bs

@[simp] theorem length_bits (k n : Nat) : (bits k n).length = k := by
  induction k generalizing n with
  | zero => rfl
  | succ k ih => rw [bits, List.length_append, ih]; rfl

theorem bits_push (k acc : Nat) (b : Bool) :
    bits (k + 1) (2 * acc + b.toNat) = bits k acc ++ [b] := by
  have hhigh : (2 * acc + b.toNat) / 2 = acc := by cases b <;> simp; omega
  have hlow : ((2 * acc + b.toNat) % 2 == 1) = b := by cases b <;> simp
  rw [bits, hhigh, hlow]

theorem bits_shift (k acc z : Nat) :
    bits (k + z) (acc * 2 ^ z) = bits k acc ++ .replicate z false := by
  induction z with
  | zero => simp
  | succ z ih =>
    have hdouble : acc * 2 ^ (z + 1) = 2 * (acc * 2 ^ z) + false.toNat := by
      rw [Nat.pow_succ, Bool.toNat_false]; ring
    rw [← Nat.add_assoc, hdouble, bits_push, ih, List.replicate_succ', List.append_assoc]

/-- The numbers' bits in a row are the bits that were cut, and fewer than `w` zeros behind them. -/
theorem bits_pack {w : Nat} : ∀ (bs : List Bool) (acc k : Nat), k < w →
    ∃ z < w, (pack w acc k bs).flatMap (bits w) = bits k acc ++ bs ++ .replicate z false
  | [], acc, k, hk => by
    by_cases h0 : k = 0
    · exact ⟨0, by omega, by simp [pack, h0, bits]⟩
    · refine ⟨w - k, by omega, ?_⟩
      have hw := bits_shift k acc (w - k)
      rw [Nat.add_sub_cancel' (Nat.le_of_lt hk)] at hw
      simp [pack, h0, hw]
  | b :: bs, acc, k, hk => by
    by_cases hfull : k + 1 = w
    · obtain ⟨z, hz, ih⟩ := bits_pack bs 0 0 (show 0 < w by omega)
      refine ⟨z, hz, ?_⟩
      rw [pack, if_pos hfull, List.flatMap_cons, ih, ← hfull, bits_push]
      simp [bits]
    · obtain ⟨z, hz, ih⟩ := bits_pack bs (2 * acc + b.toNat) (k + 1) (show k + 1 < w by omega)
      refine ⟨z, hz, ?_⟩
      rw [pack, if_neg hfull, ih, bits_push]
      simp

/-- Cutting may skip over the bits of a number that leaves the begun one unfinished. -/
theorem pack_bits {w : Nat} (j n acc k : Nat) (rest : List Bool) (hk : k + j < w) :
    pack w acc k (bits j n ++ rest) = pack w (acc * 2 ^ j + n % 2 ^ j) (k + j) rest := by
  induction j generalizing n rest with
  | zero => simp [bits, Nat.mod_one]
  | succ j ih =>
    have hbit : (n % 2 == 1).toNat = n % 2 := by
      rcases Nat.mod_two_eq_zero_or_one n with h | h <;> simp [h]
    have hmod := Nat.mod_mul (x := n) (a := 2) (b := 2 ^ j)
    have hnumber : 2 * (acc * 2 ^ j + n / 2 % 2 ^ j) + n % 2 = acc * 2 ^ (j + 1) + n % 2 ^ (j + 1) := by
      rw [Nat.pow_succ', hmod]; ring
    rw [bits, List.append_assoc, ih (n / 2) _ (by omega), List.singleton_append, pack,
      if_neg (by omega), hbit, hnumber, Nat.add_assoc]

/-- A number whose bits come next is cut off as it is. -/
theorem pack_bits_full {w n : Nat} (hn : n < 2 ^ (w + 1)) (rest : List Bool) :
    pack (w + 1) 0 0 (bits (w + 1) n ++ rest) = n :: pack (w + 1) 0 0 rest := by
  have hbit : (n % 2 == 1).toNat = n % 2 := by
    rcases Nat.mod_two_eq_zero_or_one n with h | h <;> simp [h]
  have hhigh : n / 2 % 2 ^ w = n / 2 := Nat.mod_eq_of_lt (by rw [Nat.pow_succ] at hn; omega)
  have hnumber : 2 * (n / 2) + n % 2 = n := by omega
  rw [bits, List.append_assoc, pack_bits w (n / 2) 0 0 _ (by omega), List.singleton_append, pack,
    if_pos (by omega), Nat.zero_mul, Nat.zero_add, hhigh, hbit, hnumber]

theorem length_flatMap_bits (w : Nat) (ns : List Nat) :
    (ns.flatMap (bits w)).length = ns.length * w := by
  induction ns with
  | nil => simp
  | cons n ns ih =>
    rw [List.flatMap_cons, List.length_append, length_bits, ih, List.length_cons, Nat.add_mul]
    omega

theorem pack_lt {w : Nat} : ∀ (bs : List Bool) (acc k : Nat), k < w → acc < 2 ^ k →
    ∀ n ∈ pack w acc k bs, n < 2 ^ w
  | [], acc, k, hk, hacc, n, hn => by
    by_cases h0 : k = 0
    · simp [pack, h0] at hn
    · obtain rfl : n = acc * 2 ^ (w - k) := by simpa [pack, h0] using hn
      calc acc * 2 ^ (w - k) < 2 ^ k * 2 ^ (w - k) :=
            Nat.mul_lt_mul_of_pos_right hacc (Nat.two_pow_pos _)
        _ = 2 ^ w := by rw [← Nat.pow_add, Nat.add_sub_cancel' (Nat.le_of_lt hk)]
  | b :: bs, acc, k, hk, hacc, n, hn => by
    have hnext : 2 * acc + b.toNat < 2 ^ (k + 1) := by
      have := b.toNat_le
      rw [Nat.pow_succ]
      omega
    by_cases hfull : k + 1 = w
    · rw [pack, if_pos hfull] at hn
      rcases List.mem_cons.mp hn with rfl | hn
      · rwa [← hfull]
      · exact pack_lt bs 0 0 (by omega) Nat.one_pos n hn
    · rw [pack, if_neg hfull] at hn
      exact pack_lt bs _ (k + 1) (by omega) hnext n hn

/-- The seven-bit groups of a byte string. -/
def groups (x : Bytes) : List Nat := pack 7 0 0 (x.flatMap fun b => bits 8 b.toNat)

/-- The whole bytes among the groups' bits. -/
def bytesOf (gs : List Nat) : Bytes :=
  let bs := gs.flatMap (bits 7)
  (pack 8 0 0 (bs.take (8 * (bs.length / 8)))).map UInt8.ofNat

theorem pack_bytes (x : Bytes) :
    (pack 8 0 0 (x.flatMap fun b => bits 8 b.toNat)).map UInt8.ofNat = x := by
  induction x with
  | nil => rfl
  | cons b x ih =>
    rw [List.flatMap_cons, pack_bits_full b.toNat_lt, List.map_cons, ih, UInt8.ofNat_toNat]

theorem length_bits_bytes (x : Bytes) : (x.flatMap fun b => bits 8 b.toNat).length = 8 * x.length := by
  induction x with
  | nil => rfl
  | cons b x ih =>
    rw [List.flatMap_cons, List.length_append, length_bits, ih, List.length_cons]
    omega

theorem bytesOf_groups (x : Bytes) : bytesOf (groups x) = x := by
  obtain ⟨z, hz, h⟩ := bits_pack (w := 7) (x.flatMap fun b => bits 8 b.toNat) 0 0 (by omega)
  have hbits : (groups x).flatMap (bits 7) =
      (x.flatMap fun b => bits 8 b.toNat) ++ .replicate z false := by
    rw [groups, h, bits, List.nil_append]
  have hlen : 8 * (((x.flatMap fun b => bits 8 b.toNat) ++ List.replicate z false).length / 8) =
      (x.flatMap fun b => bits 8 b.toNat).length := by
    rw [List.length_append, length_bits_bytes, List.length_replicate]
    omega
  unfold bytesOf
  dsimp only
  rw [hbits, hlen, List.take_left, pack_bytes]

theorem length_groups (x : Bytes) :
    8 * x.length ≤ 7 * (groups x).length ∧ (groups x).length ≤ (8 * x.length + 6) / 7 := by
  obtain ⟨z, hz, h⟩ := bits_pack (w := 7) (x.flatMap fun b => bits 8 b.toNat) 0 0 (by omega)
  have hlen := congrArg List.length h
  rw [length_flatMap_bits, List.length_append, List.length_append, length_bits, length_bits_bytes,
    List.length_replicate] at hlen
  rw [groups]
  omega

/-! ## Characters -/

/-- The groups that are not written as they are. -/
def illegals : List Nat := [0, 10, 13, 34, 38, 92]

/-- The index that says: the carried group is the last one, and it stands for itself. -/
def shortened : Nat := 7

/-- A two-byte character `110iii1d 10dddddd` with index `i` and the group `d`. -/
def twoBytes (i d : Nat) : Bytes := [UInt8.ofNat (194 + 4 * i + d / 64), UInt8.ofNat (128 + d % 64)]

def encodeGroups : List Nat → Bytes
  | [] => []
  | g :: gs =>
    match illegals.idxOf? g, gs with
    | none, gs => UInt8.ofNat g :: encodeGroups gs
    | some _, [] => twoBytes shortened g
    | some i, d :: gs => twoBytes i d ++ encodeGroups gs

/-- The groups of a text; a two-byte character cut short or with an index without meaning is an
    error. -/
def decodeGroups : Bytes → Option (List Nat)
  | [] => some []
  | [b] => if b.toNat < 128 then some [b.toNat] else none
  | b :: c :: rest =>
    if b.toNat < 128 then (decodeGroups (c :: rest)).map (b.toNat :: ·)
    else
      let i := b.toNat / 4 % 8
      let d := b.toNat % 2 * 64 + c.toNat % 64
      if i = shortened then (decodeGroups rest).map (d :: ·)
      else
        match illegals[i]? with
        | none => none
        | some g => (decodeGroups rest).map (g :: d :: ·)

def encode (x : Bytes) : Bytes := encodeGroups (groups x)

def decode (text : Bytes) : Option Bytes := (decodeGroups text).map bytesOf

/-! ## Nothing is lost -/

theorem illegals_getElem {g i : Nat} (h : illegals.idxOf? g = some i) : illegals[i]? = some g := by
  obtain ⟨hi, hg, -⟩ := List.idxOf?_eq_some_iff.mp h
  rw [List.getElem?_eq_getElem hi, hg]

theorem toNat_ofNat {n : Nat} (h : n < 256) : (UInt8.ofNat n).toNat = n :=
  UInt8.toNat_ofNat_of_lt' h

theorem decodeGroups_ascii {g : Nat} (hg : g < 128) (rest : Bytes) :
    decodeGroups (UInt8.ofNat g :: rest) = (decodeGroups rest).map (g :: ·) := by
  have hval : (UInt8.ofNat g).toNat = g := toNat_ofNat (by omega)
  cases rest with
  | nil => simp [decodeGroups, hval, hg]
  | cons c rest => rw [decodeGroups, hval, if_pos hg]

/-- Reading a two-byte character gives back its index and the group it carries. -/
theorem decodeGroups_twoBytes {i d : Nat} (hi : i < 8) (hd : d < 128) (rest : Bytes) :
    decodeGroups (twoBytes i d ++ rest) =
      if i = shortened then (decodeGroups rest).map (d :: ·)
      else
        match illegals[i]? with
        | none => none
        | some g => (decodeGroups rest).map (g :: d :: ·) := by
  have hfirst : (UInt8.ofNat (194 + 4 * i + d / 64)).toNat = 194 + 4 * i + d / 64 :=
    toNat_ofNat (by omega)
  have hsecond : (UInt8.ofNat (128 + d % 64)).toNat = 128 + d % 64 :=
    toNat_ofNat (by omega)
  have hindex : (194 + 4 * i + d / 64) / 4 % 8 = i := by omega
  have hcarried : (194 + 4 * i + d / 64) % 2 * 64 + (128 + d % 64) % 64 = d := by omega
  rw [twoBytes, List.cons_append, List.singleton_append, decodeGroups, hfirst, hsecond,
    if_neg (by omega)]
  dsimp only
  rw [hindex, hcarried]

theorem decodeGroups_encodeGroups (gs : List Nat) (h : ∀ g ∈ gs, g < 128) :
    decodeGroups (encodeGroups gs) = some gs := by
  fun_induction encodeGroups gs with
  | case1 => rfl
  | case2 g gs hlegal ih =>
    rw [decodeGroups_ascii (h g List.mem_cons_self), ih fun x hx => h x (List.mem_cons_of_mem g hx)]
    rfl
  | case3 g i hillegal =>
    have htwo := decodeGroups_twoBytes (i := shortened) (by decide) (h g List.mem_cons_self) []
    rw [List.append_nil, if_pos rfl] at htwo
    exact htwo
  | case4 g i d gs hillegal ih =>
    have hentry := illegals_getElem hillegal
    have hi : i < 6 := (List.getElem?_eq_some_iff.mp hentry).1
    have hne : i ≠ shortened := by
      intro hshort
      rw [hshort] at hi
      exact absurd hi (by decide)
    have hd : d < 128 := h d (by simp)
    rw [decodeGroups_twoBytes (by omega) hd, if_neg hne, hentry, ih fun x hx => h x (by simp [hx])]
    rfl

theorem decode_encode (x : Bytes) : decode (encode x) = some x := by
  have hlt : ∀ g ∈ groups x, g < 128 := pack_lt _ 0 0 (by omega) Nat.one_pos
  rw [decode, encode, decodeGroups_encodeGroups (groups x) hlt, Option.map_some, bytesOf_groups]

/-! ## What the text looks like -/

theorem length_encodeGroups_le (gs : List Nat) : (encodeGroups gs).length ≤ gs.length + 1 := by
  fun_induction encodeGroups gs with
  | case1 => simp
  | case2 g gs hlegal ih => simpa using ih
  | case3 g i hillegal => simp [twoBytes]
  | case4 g i d gs hillegal ih => simpa [twoBytes] using ih

theorem length_encode_le (x : Bytes) : (encode x).length ≤ (8 * x.length + 6) / 7 + 1 :=
  (length_encodeGroups_le (groups x)).trans (Nat.succ_le_succ (length_groups x).2)

/-- No group is left out. -/
theorem length_le_encodeGroups (gs : List Nat) : gs.length ≤ (encodeGroups gs).length := by
  fun_induction encodeGroups gs with
  | case1 => simp
  | case2 g gs hlegal ih => simpa using ih
  | case3 g i hillegal => simp [twoBytes]
  | case4 g i d gs hillegal ih => simpa [twoBytes] using ih

theorem length_le_encode (x : Bytes) : 8 * x.length ≤ 7 * (encode x).length := by
  have hgroups := (length_groups x).1
  have hchars := length_le_encodeGroups (groups x)
  rw [encode]
  omega

/-- No character of the text is one that would break the text around it. -/
theorem legal_encodeGroups (gs : List Nat) (h : ∀ g ∈ gs, g < 128) :
    ∀ b ∈ encodeGroups gs, b.toNat ∉ illegals := by
  have hhigh : ∀ {v : Nat}, 128 ≤ v → v ∉ illegals := by
    intro v hv hmem
    have hsmall : ∀ w ∈ illegals, w < 128 := by decide
    exact absurd (hsmall v hmem) (by omega)
  have htwo : ∀ {i d : Nat}, i < 8 → d < 128 → ∀ b ∈ twoBytes i d, b.toNat ∉ illegals := by
    intro i d hi hd b hb
    rcases List.mem_pair.mp hb with rfl | rfl
    · rw [toNat_ofNat (by omega)]
      exact hhigh (by omega)
    · rw [toNat_ofNat (by omega)]
      exact hhigh (by omega)
  fun_induction encodeGroups gs with
  | case1 => simp
  | case2 g gs hlegal ih =>
    intro b hb
    rcases List.mem_cons.mp hb with rfl | hb
    · rw [toNat_ofNat (by have := h g List.mem_cons_self; omega)]
      exact List.idxOf?_eq_none_iff.mp hlegal
    · exact ih (fun x hx => h x (List.mem_cons_of_mem g hx)) b hb
  | case3 g i hillegal => exact htwo (by decide) (h g List.mem_cons_self)
  | case4 g i d gs hillegal ih =>
    have hi : i < 6 := (List.getElem?_eq_some_iff.mp (illegals_getElem hillegal)).1
    intro b hb
    rcases List.mem_append.mp hb with hb | hb
    · exact htwo (by omega) (h d (by simp)) b hb
    · exact ih (fun x hx => h x (by simp [hx])) b hb

theorem newline_not_mem_encode (x : Bytes) : 10 ∉ encode x := by
  intro hmem
  have hlt : ∀ g ∈ groups x, g < 128 := pack_lt _ 0 0 (by omega) Nat.one_pos
  exact legal_encodeGroups (groups x) hlt 10 hmem (by decide)

end Base122
