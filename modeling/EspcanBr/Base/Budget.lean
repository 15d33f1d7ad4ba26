import EspcanBr.Base.Machine

/-!
# Budgets

The steps that a machine's own program takes use up a budget, which only some of the inputs refill; then no list
of inputs has more of them than it started with and was given (`Budget.exec`).
-/

namespace EspcanBr.Base
namespace Machine
variable {σ ε ο : Type*}

/-- Where `Q` holds, an input that meets `C` keeps it, refills the budget, and costs one of it if it is
`own`. -/
structure Budget (M : Machine σ ε ο) (Q : σ → Prop) (C : ε → Prop) (own : ε → Bool) (refill : ε → ℕ)
    (budget : σ → ℕ) : Prop where
  step : ∀ {s e t os}, Q s → C e → M.step s e = some (t, os) →
    Q t ∧ budget t + (if own e then 1 else 0) ≤ budget s + refill e

/-- A list of inputs costs as much as it has inputs that are `own`. -/
theorem Budget.exec {M : Machine σ ε ο} {Q : σ → Prop} {C : ε → Prop} {own : ε → Bool} {refill : ε → ℕ}
    {budget : σ → ℕ} (b : Budget M Q C own refill budget) {es s t os} (q : Q s) (c : ∀ e ∈ es, C e)
    (run : M.exec (fun _ _ => True) s es = some (t, os)) :
    Q t ∧ budget t + es.countP own ≤ budget s + (es.map refill).sum := by
  induction es generalizing s os with
  | nil =>
    cases run
    exact ⟨q, Nat.le_refl _⟩
  | cons e es ih =>
    rw [List.forall_mem_cons] at c
    rw [Machine.exec, if_pos trivial] at run
    cases st : M.step s e with
    | none => simp [st] at run
    | some r =>
      obtain ⟨u, here⟩ := r
      simp only [st, Option.map_eq_some_iff] at run
      obtain ⟨⟨v, there⟩, rest, eq⟩ := run
      cases eq
      obtain ⟨q, one⟩ := b.step q c.1 st
      obtain ⟨q, more⟩ := ih q c.2 rest
      refine ⟨q, ?_⟩
      rw [List.countP_cons, List.map_cons, List.sum_cons]
      omega

end Machine
end EspcanBr.Base
