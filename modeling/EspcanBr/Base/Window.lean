import Mathlib

/-!
# Sliding windows

A ring of `n` slots holds the last `n` values that were written to it, one slot after the other. Each
value takes the place of the oldest one (`getElem?_ring`), so the sum over the slots is that of the last
`n` values (`sum_ring`). Where the values are the differences of a counter, this is how much the counter
grew since (`sum_ring_counter`); the differences of its readings in 32 bits are the true ones, as long as
they fit (`toNat_sub_counter`).
-/

namespace EspcanBr.Base
open Finset

variable {α : Type*}

/-- The slots after so many values of a sequence, from slots that all hold `a`. -/
def ring (n : ℕ) (a : α) (v : ℕ → α) : ℕ → List α
  | 0 => List.replicate n a
  | t + 1 => (ring n a v t).set (t % n) (v t)

@[simp] lemma length_ring (n : ℕ) (a : α) (v : ℕ → α) (t : ℕ) : (ring n a v t).length = n := by
  induction t with
  | zero => simp [ring]
  | succ t ih => simp [ring, ih]

/-- The slots in order, from the oldest one. -/
lemma getElem?_ring {n : ℕ} (a : α) (v : ℕ → α) (t : ℕ) {i : ℕ} (lt : i < n) :
    (ring n a v t)[(t + i) % n]? = some (if t + i < n then a else v (t + i - n)) := by
  have pos : 0 < n := Nat.zero_lt_of_lt lt
  induction t generalizing i with
  | zero => simp [ring, Nat.mod_eq_of_lt lt, lt]
  | succ t ih =>
    rw [ring, List.getElem?_set, length_ring]
    by_cases last : i + 1 = n
    · -- the value that was written just now
      have slot : (t + 1 + i) % n = t % n := by
        rw [Nat.add_assoc, Nat.add_comm 1, last, Nat.add_mod_right]
      rw [slot, if_pos rfl, if_pos (Nat.mod_lt t pos), if_neg (by omega)]
      congr 2
      omega
    · have other : t % n ≠ (t + 1 + i) % n := by
        intro same
        have zero : (1 + i) % n = 0 := by
          have shift : (t + 0) % n = (t + (1 + i)) % n := by rw [Nat.add_zero, same, Nat.add_assoc]
          have cancel : 0 % n = (1 + i) % n := Nat.ModEq.add_left_cancel' t shift
          rw [← cancel, Nat.zero_mod]
        rw [Nat.mod_eq_of_lt (by omega)] at zero
        omega
      have shift : t + 1 + i = t + (i + 1) := by omega
      rw [if_neg other, shift]
      exact ih (by omega)

/-- One value takes the place of another in a sum. -/
lemma sum_set {l : List α} (w : α → ℕ) {i : ℕ} {old : α} (here : (l)[i]? = some old) (new : α) :
    ((l.set i new).map w).sum + w old = (l.map w).sum + w new := by
  induction l generalizing i with
  | nil => cases here
  | cons b l ih =>
    cases i with
    | zero =>
      cases here
      simp only [List.set_cons_zero, List.map_cons, List.sum_cons]
      omega
    | succ i =>
      have rest := ih here
      simp only [List.set_cons_succ, List.map_cons, List.sum_cons]
      omega

/-- The sum over the slots is that of the last values. -/
theorem sum_ring {n : ℕ} (pos : 0 < n) {a : α} (v : ℕ → α) {w : α → ℕ} (zero : w a = 0) (t : ℕ) :
    ((ring n a v t).map w).sum = ∑ k ∈ Ico (t - n) t, w (v k) := by
  induction t with
  | zero => simp [ring, zero]
  | succ t ih =>
    have oldest := getElem?_ring a v t pos
    rw [Nat.add_zero] at oldest
    have swap := sum_set w oldest (v t)
    rw [ih] at swap
    rw [ring]
    by_cases filling : t < n
    · -- the slot was not written before
      have first : t - n = 0 := by omega
      have first' : t + 1 - n = 0 := by omega
      rw [if_pos filling, zero, first, Nat.add_zero] at swap
      rw [swap, first', sum_Ico_succ_top (Nat.zero_le t)]
    · have next : t + 1 - n = t - n + 1 := by omega
      have window : ∑ k ∈ Ico (t - n) (t + 1), w (v k) =
          w (v (t - n)) + ∑ k ∈ Ico (t - n + 1) (t + 1), w (v k) :=
        sum_eq_sum_Ico_succ_bot (by omega) _
      rw [sum_Ico_succ_top (Nat.sub_le t n)] at window
      rw [if_neg filling] at swap
      rw [next]
      omega

/-- With the differences of a counter for values it is how much the counter grew. -/
theorem sum_ring_counter {n : ℕ} (pos : 0 < n) {a : α} {v : ℕ → α} {w : α → ℕ} (zero : w a = 0)
    {count : ℕ → ℕ} (mono : Monotone count) (diff : ∀ k, w (v k) = count (k + 1) - count k) (t : ℕ) :
    ((ring n a v t).map w).sum = count t - count (t - n) := by
  have shifted : Monotone fun k => count (t - n + k) := fun i j le => mono (Nat.add_le_add_left le _)
  rw [sum_ring pos v zero, sum_Ico_eq_sum_range]
  calc ∑ k ∈ range (t - (t - n)), w (v (t - n + k))
      = ∑ k ∈ range (t - (t - n)), (count (t - n + (k + 1)) - count (t - n + k)) :=
        sum_congr rfl fun k _ => diff _
    _ = count (t - n + (t - (t - n))) - count (t - n + 0) := sum_range_tsub shifted _
    _ = count t - count (t - n) := by
        rw [Nat.add_zero, Nat.add_sub_cancel' (Nat.sub_le t n)]

/-- The difference of two readings of a counter in 32 bits. -/
lemma toNat_sub_counter {m n : ℕ} (le : m ≤ n) (lt : n < m + 2 ^ 32) :
    (UInt32.ofNat n - UInt32.ofNat m).toNat = n - m := by
  rw [UInt32.toNat_sub, UInt32.toNat_ofNat', UInt32.toNat_ofNat']
  omega

end EspcanBr.Base
