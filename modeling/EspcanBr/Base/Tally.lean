import EspcanBr.Base.Tasks

/-!
# Counting the tasks in a section

Tasks enter and leave a section, and a shared counter goes up and down with them. `Tally` says what one
step does to both; the counter, a natural number or a machine word that does not overflow, then changes
as the number of tasks in the section does (`inside_update`).
-/

namespace EspcanBr.Base
variable {ι π : Type*}

/-- Whether a task is in the section before and after a step, with the counter. -/
inductive Tally {N : Type*} [Add N] [Sub N] [One N] : Bool → N → Bool → N → Prop where
  | stay {b n} :
    Tally b n b n
  | enter {n} :
    Tally false n true (n + 1)
  | leave {n} :
    Tally true n false (n - 1)

/-- The counter follows the task, if it counts the task before the step. -/
lemma Tally.nat {b b' : Bool} {n n' : ℕ} (tally : Tally b n b' n') (counted : b.toNat ≤ n) :
    n' + b.toNat = n + b'.toNat := by
  cases tally with
  | stay => rfl
  | enter => rfl
  | leave => exact Nat.sub_add_cancel counted

/-- So does a counter of 32 bits, where there is room for one more. -/
lemma Tally.uint32 {b b' : Bool} {n n' : UInt32} (tally : Tally b n b' n') (counted : b.toNat ≤ n.toNat)
    (room : n.toNat + 1 < 2 ^ 32) : n'.toNat + b.toNat = n.toNat + b'.toNat := by
  cases tally with
  | stay => rfl
  | enter =>
    rw [UInt32.toNat_add, UInt32.toNat_one, Nat.mod_eq_of_lt room]
    rfl
  | leave =>
    have le : 1 ≤ n := UInt32.le_iff_toNat_le.mpr counted
    rw [UInt32.toNat_sub_of_le n 1 le]
    exact Nat.sub_add_cancel counted

variable [Fintype ι]

/-- The number of tasks in a section. -/
def inside (within : π → Bool) (task : ι → π) : ℕ :=
  (Finset.univ.filter fun i => within (task i) = true).card

variable {within : π → Bool} {task : ι → π}

lemma inside_eq_sum : inside within task = ∑ i, (within (task i)).toNat := by
  rw [inside, Finset.card_filter]
  refine Finset.sum_congr rfl fun i _ => ?_
  cases within (task i) <;> rfl

variable (within task) in
/-- The number changes with the task that moves. -/
lemma inside_update [DecidableEq ι] (i : ι) (p : π) :
    inside within (Function.update task i p) + (within (task i)).toNat =
      inside within task + (within p).toNat := by
  rw [inside_eq_sum, inside_eq_sum]
  exact sum_update (fun p => (within p).toNat) task i p

/-- A task in the section is counted. -/
lemma toNat_le_inside (i : ι) : (within (task i)).toNat ≤ inside within task := by
  rw [inside_eq_sum]
  exact Finset.single_le_sum (f := fun i => (within (task i)).toNat) (fun _ _ => Nat.zero_le _)
    (Finset.mem_univ i)

lemma inside_le_card : inside within task ≤ Fintype.card ι := Finset.card_filter_le _ _

/-- A task outside of the section leaves room for one more. -/
lemma inside_lt_card {i : ι} (out : within (task i) = false) : inside within task < Fintype.card ι := by
  refine Finset.card_lt_card ⟨Finset.filter_subset _ _, fun all => ?_⟩
  have mem := (Finset.mem_filter.mp (all (Finset.mem_univ i))).2
  rw [out] at mem
  cases mem

/-- The number is zero if and only if no task is in the section. -/
lemma inside_eq_zero : inside within task = 0 ↔ ∀ i, within (task i) = false := by
  rw [inside, Finset.card_eq_zero, Finset.filter_eq_empty_iff]
  simp

end EspcanBr.Base
