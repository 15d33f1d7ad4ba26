import EspcanBr.Base.Text

/-!
# Base64

A text in base64 denotes bytes: the bits of its digits, six each, are those of the bytes, eight each,
up to a rest that fills no byte (`Base64`). `bitsOf` is the bits of a number; `bitsOf_push` and
`bitsOf_shift` are the steps of a decoder that shifts digits into a word and bytes out of it.
-/

namespace EspcanBr.Base

/-- The low `k` bits of a number, the most significant one first. -/
def bitsOf : ℕ → ℕ → List Bool
  | 0, _ => []
  | k + 1, n => bitsOf k (n / 2) ++ [n.testBit 0]

@[simp] lemma length_bitsOf (k n : ℕ) : (bitsOf k n).length = k := by
  induction k generalizing n with
  | zero => rfl
  | succ k ih => simp [bitsOf, ih]

/-- The high bits, and then the low ones. -/
lemma bitsOf_add (j k n : ℕ) : bitsOf (j + k) n = bitsOf j (n / 2 ^ k) ++ bitsOf k n := by
  induction k generalizing n with
  | zero => simp [bitsOf]
  | succ k ih =>
    have next : n / 2 / 2 ^ k = n / 2 ^ (k + 1) := by
      rw [Nat.div_div_eq_div_mul, pow_succ, Nat.mul_comm]
    rw [← Nat.add_assoc, bitsOf, bitsOf, ih, next, List.append_assoc]

/-- Only the low bits count. -/
lemma bitsOf_mod (k n : ℕ) : bitsOf k (n % 2 ^ k) = bitsOf k n := by
  induction k generalizing n with
  | zero => rfl
  | succ k ih =>
    have low : (n % 2 ^ (k + 1)).testBit 0 = n.testBit 0 := by
      simp
    have high : n % 2 ^ (k + 1) / 2 = n / 2 % 2 ^ k := by
      rw [pow_succ, Nat.mul_comm, Nat.mod_mul_right_div_self]
    rw [bitsOf, bitsOf, low, high, ih]

lemma bitsOf_congr {k m n : ℕ} (same : m % 2 ^ k = n % 2 ^ k) : bitsOf k m = bitsOf k n := by
  rw [← bitsOf_mod, same, bitsOf_mod]

/-- The bits of a word with one more digit of six bits shifted in, as long as none of them is lost. -/
lemma bitsOf_push (acc : UInt32) {v : UInt32} (lt : v.toNat < 64) {k : ℕ} (le : k ≤ 26) :
    bitsOf (k + 6) (acc <<< 6 ||| v).toNat = bitsOf k acc.toNat ++ bitsOf 6 v.toNat := by
  have shifted : (acc <<< 6 ||| v).toNat = 64 * (acc.toNat % 2 ^ 26) + v.toNat := by
    have width : (acc <<< 6).toNat = 2 ^ 6 * (acc.toNat % 2 ^ 26) := by
      simp only [UInt32.toNat_shiftLeft, UInt32.reduceToNat, Nat.shiftLeft_eq, Nat.reduceMod]
      omega
    rw [UInt32.toNat_or, width]
    exact (Nat.two_pow_add_eq_or_of_lt lt _).symm
  have high : (64 * (acc.toNat % 2 ^ 26) + v.toNat) / 2 ^ 6 = acc.toNat % 2 ^ 26 := by omega
  have low : bitsOf 6 (64 * (acc.toNat % 2 ^ 26) + v.toNat) = bitsOf 6 v.toNat := by
    apply bitsOf_congr
    omega
  have kept : bitsOf k (acc.toNat % 2 ^ 26) = bitsOf k acc.toNat := by
    apply bitsOf_congr
    exact Nat.mod_mod_of_dvd _ (Nat.pow_dvd_pow 2 le)
  rw [shifted, bitsOf_add, high, low, kept]

/-- A byte goes out above the low bits of a word. -/
lemma bitsOf_shift (acc : UInt32) {s : UInt32} (lt : s.toNat < 32) :
    bitsOf 8 (acc >>> s).toUInt8.toNat ++ bitsOf s.toNat acc.toNat = bitsOf (8 + s.toNat) acc.toNat := by
  have byte : bitsOf 8 (acc >>> s).toUInt8.toNat = bitsOf 8 (acc.toNat / 2 ^ s.toNat) := by
    rw [UInt32.toNat_toUInt8, UInt32.toNat_shiftRight, Nat.shiftRight_eq_div_pow, Nat.mod_eq_of_lt lt]
    exact bitsOf_mod 8 _
  rw [bitsOf_add, byte]

/-- There is room in a byte for the number of bits held and those of a digit. -/
lemma toNat_add_six {bits : UInt8} (few : bits.toNat < 8) : (bits + 6).toNat = bits.toNat + 6 := by
  have sum := UInt8.toNat_add bits 6
  simp only [UInt8.reduceToNat] at sum
  omega

lemma toNat_sub_eight {bits : UInt8} (ge : 8 ≤ bits) : (bits - 8).toNat + 8 = bits.toNat := by
  have diff := UInt8.toNat_sub_of_le bits 8 ge
  have le := UInt8.le_iff_toNat_le.mp ge
  simp only [UInt8.reduceToNat] at diff le
  omega

/-- A digit goes into a word that holds `bits` bits. -/
lemma held_push (acc : UInt32) {bits v : UInt8} (few : bits.toNat < 8) (lt : v.toNat < 64) :
    bitsOf (bits + 6).toNat (acc <<< 6 ||| v.toUInt32).toNat =
      bitsOf bits.toNat acc.toNat ++ bitsOf 6 v.toNat := by
  have more := toNat_add_six few
  have wide : v.toUInt32.toNat < 64 := by
    rw [UInt8.toNat_toUInt32]
    exact lt
  have pushed := bitsOf_push acc wide (k := bits.toNat) (by omega)
  rwa [UInt8.toNat_toUInt32, ← more] at pushed

/-- A byte goes out of a word that holds `bits` bits. -/
lemma held_shift (acc : UInt32) {bits : UInt8} (ge : 8 ≤ bits) (few : bits.toNat < 32) :
    bitsOf 8 (acc >>> (bits - 8).toUInt32).toUInt8.toNat ++ bitsOf (bits - 8).toNat acc.toNat =
      bitsOf bits.toNat acc.toNat := by
  have left : 8 + (bits - 8).toNat = bits.toNat := by
    rw [Nat.add_comm]
    exact toNat_sub_eight ge
  have narrow : (bits - 8).toUInt32.toNat < 32 := by
    rw [UInt8.toNat_toUInt32]
    omega
  have moved := bitsOf_shift acc narrow
  rwa [UInt8.toNat_toUInt32, left] at moved

/-- The digits of base64, in the order of their values. -/
def alphabet : List UInt8 := ascii "ABCDEFGHIJKLMNOPQRSTUVWXYZabcdefghijklmnopqrstuvwxyz0123456789+/"

/-- The bits of a sequence of bytes. -/
def byteBits (bytes : List UInt8) : List Bool := bytes.flatMap fun b => bitsOf 8 b.toNat

/-- The bits of a sequence of digit values. -/
def digitBits (values : List ℕ) : List Bool := values.flatMap (bitsOf 6)

@[simp] lemma byteBits_concat (bytes : List UInt8) (b : UInt8) :
    byteBits (bytes ++ [b]) = byteBits bytes ++ bitsOf 8 b.toNat := by
  simp [byteBits]

@[simp] lemma digitBits_cons (v : ℕ) (values : List ℕ) :
    digitBits (v :: values) = bitsOf 6 v ++ digitBits values := by
  simp [digitBits]

/-- The text starts with digits that have the given values, and ends there or goes on with padding. -/
def Digits (text : List UInt8) (values : List ℕ) : Prop :=
  ∃ digits, List.Forall₂ (fun c v => (alphabet)[v]? = some c) digits values ∧
    (text = digits ∨ ∃ padding, text = digits ++ 0x3D :: padding)

/-- The text is base64 for the bytes. -/
def Base64 (text bytes : List UInt8) : Prop :=
  ∃ values rest, Digits text values ∧ digitBits values = byteBits bytes ++ rest ∧ rest.length < 8

/-- A digit in front of the text. -/
lemma Digits.cons {c : UInt8} {v : ℕ} {text : List UInt8} {values : List ℕ}
    (digit : (alphabet)[v]? = some c) (digits : Digits text values) : Digits (c :: text) (v :: values) := by
  obtain ⟨cs, all, whole | ⟨padding, padded⟩⟩ := digits
  · exact ⟨c :: cs, .cons digit all, .inl (congrArg (c :: ·) whole)⟩
  · exact ⟨c :: cs, .cons digit all, .inr ⟨padding, congrArg (c :: ·) padded⟩⟩

/-- The `k` digits of a number, the most significant one first. -/
def digitsOf : ℕ → ℕ → List ℕ
  | 0, _ => []
  | k + 1, n => digitsOf k (n / 64) ++ [n % 64]

/-- The digit with a value. -/
def digit (v : ℕ) : UInt8 := (alphabet)[v]?.getD 0x41

/-- The values of the digits for some bytes: four for every three bytes, and for one or two bytes that
are left as many as hold them. -/
def encodeValues : List UInt8 → List ℕ
  | [] => []
  | [a] => digitsOf 2 (a.toNat * 2 ^ 4)
  | [a, b] => digitsOf 3 ((a.toNat * 2 ^ 8 + b.toNat) * 2 ^ 2)
  | a :: b :: c :: rest => digitsOf 4 ((a.toNat * 2 ^ 8 + b.toNat) * 2 ^ 8 + c.toNat) ++ encodeValues rest

/-- The text for some bytes, without padding. -/
def base64Encode (bytes : List UInt8) : List UInt8 := (encodeValues bytes).map digit

/-- The padding of the text for so many bytes. -/
def padding (n : ℕ) : List UInt8 := List.replicate ((3 - n % 3) % 3) 0x3D

lemma digitsOf_lt {k n v : ℕ} (mem : v ∈ digitsOf k n) : v < 64 := by
  induction k generalizing n with
  | zero => cases mem
  | succ k ih =>
    rcases List.mem_append.mp mem with high | low
    · exact ih high
    · rw [List.mem_singleton.mp low]
      exact Nat.mod_lt _ (by decide)

@[simp] lemma length_digitsOf (k n : ℕ) : (digitsOf k n).length = k := by
  induction k generalizing n with
  | zero => rfl
  | succ k ih => simp [digitsOf, ih]

/-- The bits of the digits of a number are its own. -/
lemma digitBits_digitsOf (k n : ℕ) : digitBits (digitsOf k n) = bitsOf (6 * k) n := by
  induction k generalizing n with
  | zero => rfl
  | succ k ih =>
    have last : digitBits [n % 64] = bitsOf 6 n := by
      rw [digitBits, List.flatMap_singleton]
      exact bitsOf_mod 6 n
    have append : digitBits (digitsOf k (n / 64) ++ [n % 64]) =
        digitBits (digitsOf k (n / 64)) ++ digitBits [n % 64] := List.flatMap_append
    rw [digitsOf, append, ih, last, Nat.mul_succ, bitsOf_add]
    rfl

/-- A number that consists of a high part and of `k` low bits. -/
lemma bitsOf_mul_add (j k : ℕ) {m : ℕ} (n : ℕ) (lt : m < 2 ^ k) :
    bitsOf (j + k) (n * 2 ^ k + m) = bitsOf j n ++ bitsOf k m := by
  have high : (n * 2 ^ k + m) / 2 ^ k = n := by
    rw [Nat.mul_comm, Nat.mul_add_div (Nat.two_pow_pos k), Nat.div_eq_of_lt lt, Nat.add_zero]
  have low : bitsOf k (n * 2 ^ k + m) = bitsOf k m := by
    apply bitsOf_congr
    rw [Nat.mul_comm, Nat.mul_add_mod]
  rw [bitsOf_add, high, low]

lemma bitsOf_byte (j n : ℕ) (b : UInt8) :
    bitsOf (j + 8) (n * 2 ^ 8 + b.toNat) = bitsOf j n ++ bitsOf 8 b.toNat :=
  bitsOf_mul_add j 8 n b.toNat_lt

/-- The digits hold the bytes, and less than a digit more. -/
lemma digitBits_encodeValues (bytes : List UInt8) :
    ∃ rest, digitBits (encodeValues bytes) = byteBits bytes ++ rest ∧ rest.length < 6 := by
  match bytes with
  | [] => exact ⟨[], rfl, by decide⟩
  | [a] =>
    refine ⟨bitsOf 4 0, ?_, by decide⟩
    rw [encodeValues, digitBits_digitsOf]
    have parts := bitsOf_mul_add 8 4 a.toNat (show 0 < 2 ^ 4 by decide)
    simpa [byteBits] using parts
  | [a, b] =>
    refine ⟨bitsOf 2 0, ?_, by decide⟩
    rw [encodeValues, digitBits_digitsOf]
    have bytes := bitsOf_byte 8 a.toNat b
    have parts := bitsOf_mul_add 16 2 (a.toNat * 2 ^ 8 + b.toNat) (show 0 < 2 ^ 2 by decide)
    rw [bytes] at parts
    simpa [byteBits] using parts
  | a :: b :: c :: bytes =>
    obtain ⟨rest, eq, short⟩ := digitBits_encodeValues bytes
    refine ⟨rest, ?_, short⟩
    have append : digitBits (encodeValues (a :: b :: c :: bytes)) =
        digitBits (digitsOf 4 ((a.toNat * 2 ^ 8 + b.toNat) * 2 ^ 8 + c.toNat)) ++
          digitBits (encodeValues bytes) := List.flatMap_append
    have pair := bitsOf_byte 8 a.toNat b
    have parts := bitsOf_byte 16 (a.toNat * 2 ^ 8 + b.toNat) c
    have group : bitsOf (6 * 4) ((a.toNat * 2 ^ 8 + b.toNat) * 2 ^ 8 + c.toNat) =
        bitsOf 8 a.toNat ++ bitsOf 8 b.toNat ++ bitsOf 8 c.toNat := by
      rw [← pair]
      exact parts
    rw [append, eq, digitBits_digitsOf, group]
    simp [byteBits]

lemma encodeValues_lt {bytes : List UInt8} {v : ℕ} (mem : v ∈ encodeValues bytes) : v < 64 := by
  match bytes with
  | [] => cases mem
  | [_] => exact digitsOf_lt mem
  | [_, _] => exact digitsOf_lt mem
  | _ :: _ :: _ :: rest =>
    rcases List.mem_append.mp mem with here | later
    · exact digitsOf_lt here
    · exact encodeValues_lt later

/-- The text is the standard one for the bytes, with or without padding. -/
def Encoded (bytes text : List UInt8) : Prop :=
  text = base64Encode bytes ∨ text = base64Encode bytes ++ padding bytes.length

lemma alphabet_digit {v : ℕ} (lt : v < 64) : (alphabet)[v]? = some (digit v) := by
  have all : ∀ v < 64, (alphabet)[v]? = some (digit v) := by decide +kernel
  exact all v lt

/-- What ends a text: nothing, or padding. -/
def Ends64 (tail : List UInt8) : Prop := tail = [] ∨ ∃ more, tail = 0x3D :: more

lemma Encoded.exists_tail {bytes text : List UInt8} (encoded : Encoded bytes text) :
    ∃ tail, Ends64 tail ∧ text = (encodeValues bytes).map digit ++ tail := by
  rcases encoded with bare | padded
  · exact ⟨[], .inl rfl, by rw [bare, List.append_nil, base64Encode]⟩
  · refine ⟨padding bytes.length, ?_, by rw [padded, base64Encode]⟩
    rw [padding]
    cases (3 - bytes.length % 3) % 3 with
    | zero => exact .inl rfl
    | succ k => exact .inr ⟨_, rfl⟩

/-- The standard text denotes the bytes. -/
lemma Encoded.base64 {bytes text : List UInt8} (encoded : Encoded bytes text) : Base64 text bytes := by
  obtain ⟨tail, ends, rfl⟩ := encoded.exists_tail
  obtain ⟨rest, bits, short⟩ := digitBits_encodeValues bytes
  refine ⟨encodeValues bytes, rest, ⟨(encodeValues bytes).map digit, ?_, ?_⟩, bits, by omega⟩
  · rw [List.forall₂_map_left_iff, List.forall₂_same]
    exact fun v mem => alphabet_digit (encodeValues_lt mem)
  · rcases ends with rfl | ⟨more, rfl⟩
    · exact .inl (List.append_nil _)
    · exact .inr ⟨more, rfl⟩

/-- The text of base64 is printable. -/
lemma Encoded.graph {bytes text : List UInt8} (encoded : Encoded bytes text) :
    ∀ c ∈ text, isGraph c = true := by
  have digits : ∀ c ∈ (encodeValues bytes).map digit, isGraph c = true := by
    intro c mem
    obtain ⟨v, among, rfl⟩ := List.mem_map.mp mem
    have all : ∀ v < 64, isGraph (digit v) = true := by decide +kernel
    exact all v (encodeValues_lt among)
  rcases encoded with rfl | rfl
  · exact digits
  · intro c mem
    rcases List.mem_append.mp mem with digit | padded
    · exact digits c digit
    · rw [List.eq_of_mem_replicate padded]
      decide

/-- A text has one sequence of values. -/
lemma Digits.unique {text : List UInt8} {values values' : List ℕ} (digits : Digits text values)
    (digits' : Digits text values') : values = values' := by
  have front : ∀ {values}, Digits text values →
      List.Forall₂ (fun c v => (alphabet)[v]? = some c) (text.takeWhile (· ≠ 0x3D)) values := by
    rintro values ⟨digits, all, ends⟩
    -- the padding character is no digit
    have no : ∀ c ∈ digits, c ≠ 0x3D := by
      have both := all.imp (S := fun c v => c ≠ 0x3D ∧ (alphabet)[v]? = some c) fun c v digit => by
        refine ⟨?_, digit⟩
        rintro rfl
        have among := List.mem_of_getElem? digit
        revert among
        decide +kernel
      exact ((List.forall₂_and_left _ _).mp both).1
    have whole : digits.takeWhile (· ≠ 0x3D) = digits := List.takeWhile_eq_self_iff.mpr (by simpa using no)
    rcases ends with rfl | ⟨padding, rfl⟩
    · rwa [whole]
    · rwa [takeWhile_stop _ _ (by decide), whole]
  refine List.right_unique_forall₂' ?_ (front digits) (front digits')
  intro c v w digit digit'
  obtain ⟨lt, -⟩ := List.getElem?_eq_some_iff.mp digit
  exact (List.getElem?_inj lt (by decide +kernel)).mp (digit.trans digit'.symm)

/-- The bits of a number below `2 ^ k` are those of no other. -/
lemma bitsOf_inj {k m n : ℕ} (ltm : m < 2 ^ k) (ltn : n < 2 ^ k) (eq : bitsOf k m = bitsOf k n) :
    m = n := by
  induction k generalizing m n with
  | zero => omega
  | succ k ih =>
    obtain ⟨high, low⟩ := List.append_inj' eq rfl
    have half := ih (by omega) (by omega) high
    have parity : m % 2 = 1 ↔ n % 2 = 1 := by
      simpa [Nat.testBit_zero] using low
    omega

@[simp] lemma byteBits_cons (b : UInt8) (bytes : List UInt8) :
    byteBits (b :: bytes) = bitsOf 8 b.toNat ++ byteBits bytes := by
  simp [byteBits]

@[simp] lemma length_byteBits (bytes : List UInt8) : (byteBits bytes).length = 8 * bytes.length := by
  induction bytes with
  | nil => rfl
  | cons b bytes ih =>
    rw [byteBits_cons, List.length_append, length_bitsOf, ih, List.length_cons]
    omega

@[simp] lemma length_digitBits (values : List ℕ) : (digitBits values).length = 6 * values.length := by
  induction values with
  | nil => rfl
  | cons v values ih =>
    rw [digitBits_cons, List.length_append, length_bitsOf, ih, List.length_cons]
    omega

/-- The bits of some bytes, up to a rest that fills no byte, are those of no others. -/
lemma byteBits_unique {xs ys : List UInt8} {r s : List Bool} (short : r.length < 8) (short' : s.length < 8)
    (eq : byteBits xs ++ r = byteBits ys ++ s) : xs = ys := by
  have len := congrArg List.length eq
  simp only [List.length_append, length_byteBits] at len
  induction xs generalizing ys with
  | nil =>
    rw [List.length_nil] at len
    exact (List.length_eq_zero_iff.mp (by omega)).symm
  | cons x xs ih =>
    cases ys with
    | nil =>
      simp only [List.length_cons, List.length_nil] at len
      omega
    | cons y ys =>
      rw [byteBits_cons, byteBits_cons, List.append_assoc, List.append_assoc] at eq
      obtain ⟨first, rest⟩ := List.append_inj eq (by simp)
      simp only [List.length_cons] at len
      rw [UInt8.toNat_inj.mp (bitsOf_inj x.toNat_lt y.toNat_lt first), ih rest (by omega)]

/-- A text denotes one sequence of bytes. -/
theorem Base64.unique {text bytes bytes' : List UInt8} (denotes : Base64 text bytes)
    (denotes' : Base64 text bytes') : bytes = bytes' := by
  obtain ⟨values, rest, digits, eq, short⟩ := denotes
  obtain ⟨values', rest', digits', eq', short'⟩ := denotes'
  rw [digits.unique digits'] at eq
  exact byteBits_unique short short' (eq.symm.trans eq')

end EspcanBr.Base
