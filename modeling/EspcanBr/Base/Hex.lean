import Mathlib

/-!
# Hexadecimal text

A hex digit and its value (`hexVal`, either case), the digit of a value (`hexChar`, upper case), the
number a digit string denotes (`hexNum`, big-endian) and the bytes it denotes (`hexBytes`, two digits
a byte). `hexDigits k n` is the `k`-digit string of `n`; `hexNum_hexDigits` and `hexBytes_hexPairs`
read back what was written. `hexNumeral n` is the digits of `n` without zeros in front.
-/

namespace EspcanBr.Base

/-- A property of bytes that holds of all 256 of them. -/
lemma all_bytes {p : UInt8 → Prop} (h : ∀ n : Fin 256, p (UInt8.ofNat n)) (v : UInt8) : p v := by
  have hv := h ⟨v.toNat, v.toNat_lt⟩
  simpa using hv

/-- The value of a hex digit. -/
def hexVal (c : UInt8) : Option UInt8 :=
  if 0x30 ≤ c ∧ c ≤ 0x39 then some (c - 0x30)
  else if 0x61 ≤ c ∧ c ≤ 0x66 then some (c - 0x61 + 10)
  else if 0x41 ≤ c ∧ c ≤ 0x46 then some (c - 0x41 + 10)
  else none

/-- The hex digit of the low nibble. -/
def hexChar (v : UInt8) : UInt8 :=
  let v := v &&& 0x0f
  if v < 10 then 0x30 + v else 0x41 + (v - 10)

/-- A digit that was written reads back. -/
lemma hexVal_hexChar (v : UInt8) : hexVal (hexChar v) = some (v &&& 0x0f) := by
  revert v
  exact all_bytes (by decide +kernel)

/-- An upper-case hex digit. -/
def isUpperHex (c : UInt8) : Bool := 0x30 ≤ c ∧ c ≤ 0x39 ∨ 0x41 ≤ c ∧ c ≤ 0x46

/-- Digits are written in upper case. -/
lemma isUpperHex_hexChar (v : UInt8) : isUpperHex (hexChar v) = true := by
  revert v
  exact all_bytes (by decide +kernel)

lemma isSome_of_isUpperHex {c : UInt8} (upper : isUpperHex c = true) : (hexVal c).isSome := by
  have all : ∀ c, isUpperHex c = true → (hexVal c).isSome := all_bytes (by decide +kernel)
  exact all c upper

/-- A digit's value is below 16. -/
lemma hexVal_lt {c d : UInt8} (h : hexVal c = some d) : d.toNat < 16 := by
  have all : ∀ c, (hexVal c).all (·.toNat < 16) := all_bytes (by decide +kernel)
  have lt := all c
  simpa [h] using lt

/-- The low nibble as a number. -/
lemma toNat_low_nibble (v : UInt8) : (v &&& 0x0f).toNat = v.toNat % 16 := by
  rw [UInt8.toNat_and]
  exact Nat.and_two_pow_sub_one_eq_mod v.toNat 4

/-- The digits after `v` was read. -/
def hexNumFrom (v : ℕ) : List UInt8 → Option ℕ
  | [] => some v
  | c :: cs =>
    match hexVal c with
    | none => none
    | some d => hexNumFrom (16 * v + d.toNat) cs

/-- The number a string of hex digits denotes. -/
def hexNum (cs : List UInt8) : Option ℕ := hexNumFrom 0 cs

/-- Reading goes on from the number read so far. -/
lemma hexNumFrom_append (v : ℕ) (cs ds : List UInt8) :
    hexNumFrom v (cs ++ ds) = (hexNumFrom v cs).bind (hexNumFrom · ds) := by
  induction cs generalizing v with
  | nil => rfl
  | cons c cs ih =>
    rw [List.cons_append, hexNumFrom, hexNumFrom]
    cases hexVal c with
    | none => rfl
    | some d => exact ih _

/-- `k` digits denote a number below `16 ^ k`. -/
lemma hexNumFrom_lt {v n : ℕ} {cs : List UInt8} (h : hexNumFrom v cs = some n) :
    n < (v + 1) * 16 ^ cs.length := by
  induction cs generalizing v with
  | nil =>
    cases h
    simp
  | cons c cs ih =>
    rw [hexNumFrom] at h
    cases hc : hexVal c with
    | none => simp [hc] at h
    | some d =>
      simp only [hc] at h
      have lt := ih h
      have hd := hexVal_lt hc
      calc n < (16 * v + d.toNat + 1) * 16 ^ cs.length := lt
        _ ≤ ((v + 1) * 16) * 16 ^ cs.length := Nat.mul_le_mul_right _ (by omega)
        _ = (v + 1) * 16 ^ (c :: cs).length := by rw [List.length_cons, pow_succ]; ring

lemma hexNum_lt {n : ℕ} {cs : List UInt8} (h : hexNum cs = some n) : n < 16 ^ cs.length := by
  have lt := hexNumFrom_lt h
  simpa using lt

/-- The last `k` hex digits of `n`, most significant first. -/
def hexDigits : ℕ → ℕ → List UInt8
  | 0, _ => []
  | k + 1, n => hexDigits k (n / 16) ++ [hexChar (UInt8.ofNat n)]

@[simp] lemma length_hexDigits (k n : ℕ) : (hexDigits k n).length = k := by
  induction k generalizing n with
  | zero => rfl
  | succ k ih => simp [hexDigits, ih]

/-- The digits written denote the number's last `k` digits. -/
lemma hexNum_hexDigits (k n : ℕ) : hexNum (hexDigits k n) = some (n % 16 ^ k) := by
  induction k generalizing n with
  | zero => simp [hexDigits, hexNum, hexNumFrom, Nat.mod_one]
  | succ k ih =>
    have low : (UInt8.ofNat n &&& 0x0f).toNat = n % 16 := by
      rw [toNat_low_nibble, UInt8.toNat_ofNat']
      omega
    have ih := ih (n / 16)
    rw [hexNum] at ih
    rw [hexDigits, hexNum, hexNumFrom_append, ih, Option.bind_some, hexNumFrom, hexVal_hexChar]
    simp only [hexNumFrom, low, Option.some.injEq]
    rw [pow_succ, Nat.mul_comm (16 ^ k) 16, Nat.mod_mul]
    omega

/-- The bytes a string of hex digit pairs denotes. -/
def hexBytes : List UInt8 → Option (List UInt8)
  | [] => some []
  | [_] => none
  | c :: d :: cs =>
    match hexVal c, hexVal d with
    | some hi, some lo => (hexBytes cs).map ((hi <<< 4 ||| lo) :: ·)
    | _, _ => none

/-- The two digits of every byte. -/
def hexPairs (bs : List UInt8) : List UInt8 := bs.flatMap fun (b : UInt8) => [hexChar (b >>> 4), hexChar b]

@[simp] lemma length_hexPairs (bs : List UInt8) : (hexPairs bs).length = 2 * bs.length := by
  induction bs with
  | nil => rfl
  | cons b bs ih =>
    have eq : hexPairs (b :: bs) = hexChar (b >>> 4) :: hexChar b :: hexPairs bs := rfl
    rw [eq, List.length_cons, List.length_cons, List.length_cons, ih]
    ring

/-- A byte is its two nibbles. -/
lemma nibbles_eq (b : UInt8) : (b >>> 4 &&& 0x0f) <<< 4 ||| (b &&& 0x0f) = b := by
  revert b
  exact all_bytes (by decide +kernel)

/-- The pairs written denote the bytes. -/
lemma hexBytes_hexPairs (bs : List UInt8) : hexBytes (hexPairs bs) = some bs := by
  induction bs with
  | nil => rfl
  | cons b bs ih =>
    have eq : hexPairs (b :: bs) = hexChar (b >>> 4) :: hexChar b :: hexPairs bs := rfl
    rw [eq, hexBytes, hexVal_hexChar, hexVal_hexChar]
    simp only [ih, Option.map_some, nibbles_eq]

/-- Digit pairs denote one byte each. -/
lemma hexBytes_length {cs bs : List UInt8} (h : hexBytes cs = some bs) :
    cs.length = 2 * bs.length := by
  induction cs using hexBytes.induct generalizing bs with
  | case1 =>
    cases h
    rfl
  | case2 => cases h
  | case3 c d cs hi lo hc hd ih =>
    simp only [hexBytes, hc, hd, Option.map_eq_some_iff] at h
    obtain ⟨bs', h, rfl⟩ := h
    have len := ih h
    simp only [List.length_cons]
    omega
  | case4 c d cs no =>
    rw [hexBytes] at h
    split at h
    · exact (no _ _ ‹_› ‹_›).elim
    · cases h

lemma isSome_hexChar (v : UInt8) : (hexVal (hexChar v)).isSome := by
  rw [hexVal_hexChar]
  rfl

lemma isSome_hexDigits (k n : ℕ) : ∀ c ∈ hexDigits k n, (hexVal c).isSome := by
  induction k generalizing n with
  | zero =>
    intro c mem
    cases mem
  | succ k ih =>
    intro c mem
    rw [hexDigits] at mem
    rcases List.mem_append.mp mem with mem | mem
    · exact ih _ c mem
    · rw [List.mem_singleton.mp mem]
      exact isSome_hexChar _

lemma isUpperHex_hexPairs (bs : List UInt8) : ∀ c ∈ hexPairs bs, isUpperHex c = true := by
  intro c mem
  obtain ⟨b, -, mem⟩ := List.mem_flatMap.mp mem
  rcases List.mem_cons.mp mem with rfl | mem
  · exact isUpperHex_hexChar _
  · rw [List.mem_singleton.mp mem]
    exact isUpperHex_hexChar _

lemma isSome_hexPairs (bs : List UInt8) : ∀ c ∈ hexPairs bs, (hexVal c).isSome :=
  fun c mem => isSome_of_isUpperHex (isUpperHex_hexPairs bs c mem)

/-- An even number of digits denotes bytes. -/
lemma hexBytes_isSome {cs : List UInt8} (digits : ∀ c ∈ cs, (hexVal c).isSome) {n : ℕ}
    (even : cs.length = 2 * n) : ∃ bs, hexBytes cs = some bs := by
  induction n generalizing cs with
  | zero =>
    rw [List.eq_nil_of_length_eq_zero even]
    exact ⟨[], rfl⟩
  | succ n ih =>
    match cs with
    | [] => cases even
    | [_] =>
      simp only [List.length_singleton] at even
      omega
    | c :: d :: cs =>
      obtain ⟨hi, first⟩ := Option.isSome_iff_exists.mp (digits c List.mem_cons_self)
      obtain ⟨lo, second⟩ :=
        Option.isSome_iff_exists.mp (digits d (List.mem_cons_of_mem _ List.mem_cons_self))
      have rest : cs.length = 2 * n := by
        simp only [List.length_cons] at even
        omega
      obtain ⟨bs, eq⟩ :=
        ih (fun c mem => digits c (List.mem_cons_of_mem _ (List.mem_cons_of_mem _ mem))) rest
      refine ⟨(hi <<< 4 ||| lo) :: bs, ?_⟩
      rw [hexBytes, first, second, eq]
      rfl

/-- The first of the digits. -/
lemma hexDigits_cons (k n : ℕ) :
    hexDigits (k + 1) n = hexChar (UInt8.ofNat (n / 16 ^ k)) :: hexDigits k n := by
  induction k generalizing n with
  | zero => simp [hexDigits]
  | succ k ih =>
    have next : n / 16 / 16 ^ k = n / 16 ^ (k + 1) := by
      rw [Nat.div_div_eq_div_mul, pow_succ, Nat.mul_comm]
    rw [hexDigits, ih, next]
    rfl

/-- The digits of a number, without zeros in front. -/
def hexNumeral (n : ℕ) : List UInt8 := hexDigits (Nat.log 16 n + 1) n

/-- Digits with zeros in front, up to a width. -/
def zeroPad (width : ℕ) (cs : List UInt8) : List UInt8 := List.replicate (width - cs.length) 0x30 ++ cs

/-- More digits than a number has are zeros in front. -/
lemma hexDigits_zeros {k n : ℕ} (lt : n < 16 ^ k) (j : ℕ) :
    hexDigits (j + k) n = List.replicate j 0x30 ++ hexDigits k n := by
  induction j with
  | zero => simp
  | succ j ih =>
    have le : 16 ^ k ≤ 16 ^ (j + k) := Nat.pow_le_pow_right (by decide) (Nat.le_add_left k j)
    have zero : hexChar (UInt8.ofNat (n / 16 ^ (j + k))) = 0x30 := by
      rw [Nat.div_eq_of_lt (lt.trans_le le)]
      rfl
    rw [Nat.add_right_comm, hexDigits_cons, zero, ih]
    rfl

lemma zeroPad_hexNumeral {width n : ℕ} (pos : 0 < width) (lt : n < 16 ^ width) :
    zeroPad width (hexNumeral n) = hexDigits width n := by
  have short : Nat.log 16 n < width := by
    rcases Nat.eq_zero_or_pos n with rfl | ne
    · rw [Nat.log_zero_right]
      exact pos
    · exact (Nat.log_lt_iff_lt_pow (by decide) ne.ne').mpr lt
  have fits : n < 16 ^ (Nat.log 16 n + 1) := Nat.lt_pow_succ_log_self (by decide) n
  have width' : width = width - (Nat.log 16 n + 1) + (Nat.log 16 n + 1) := by omega
  rw [zeroPad, hexNumeral, length_hexDigits, ← hexDigits_zeros fits, ← width']

/-- The digit of a small number denotes it. -/
lemma hexVal_digit {n : ℕ} (lt : n < 16) : (hexVal (hexChar (UInt8.ofNat n))).map UInt8.toNat = some n := by
  rw [hexVal_hexChar, Option.map_some, toNat_low_nibble, UInt8.toNat_ofNat']
  congr 1
  omega

/-- The leading digit of a numeral. -/
def leadingDigit (n : ℕ) : ℕ := n / 16 ^ Nat.log 16 n

lemma leadingDigit_lt (n : ℕ) : leadingDigit n < 16 := by
  apply Nat.div_lt_of_lt_mul
  have fits : n < 16 ^ (Nat.log 16 n + 1) := Nat.lt_pow_succ_log_self (by decide) n
  rwa [pow_succ] at fits

lemma leadingDigit_of_lt {n : ℕ} (lt : n < 16) : leadingDigit n = n := by
  rw [leadingDigit, Nat.log_of_lt lt, pow_zero, Nat.div_one]

lemma hexNumeral_eq (n : ℕ) :
    hexNumeral n = hexChar (UInt8.ofNat (leadingDigit n)) :: hexDigits (Nat.log 16 n) n :=
  hexDigits_cons _ n

end EspcanBr.Base
