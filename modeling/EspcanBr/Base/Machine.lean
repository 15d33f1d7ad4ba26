import Mathlib

/-!
# Machines and their runs

A machine moves on inputs chosen by its environment and shows a list of observations at every step;
an input that is not enabled has no step. `Steps` is a run of such steps, each of which meets a
condition `C` on the state before it and its input, together with everything it showed; `Reach` is a
run from the initial state without a condition. Histories grow at the right end, so that an invariant
relating a state to what was shown so far is preserved step by step (`Steps.invariant`). A run is
also computed from a list of inputs by `exec`.
-/

namespace EspcanBr.Base

/-- A deterministic machine with inputs `ε` and observations `ο`. -/
structure Machine (σ ε ο : Type*) where
  init : σ
  step : σ → ε → Option (σ × List ο)

namespace Machine
variable {σ ε ο : Type*}

/-- `M.Steps C s os t`: steps that all meet `C` lead from `s` to `t` and show `os`. -/
inductive Steps (M : Machine σ ε ο) (C : σ → ε → Prop) : σ → List ο → σ → Prop where
  | refl (s) :
    Steps M C s [] s
  | snoc {s t u os os' e} :
    Steps M C s os t →
    C t e →
    M.step t e = some (u, os') →
    Steps M C s (os ++ os') u

/-- A run from the initial state whose steps all meet `C`. -/
abbrev Run (M : Machine σ ε ο) (C : σ → ε → Prop) (s : σ) (tr : List ο) : Prop :=
  M.Steps C M.init tr s

/-- A run from the initial state. -/
abbrev Reach (M : Machine σ ε ο) (s : σ) (tr : List ο) : Prop :=
  M.Run (fun _ _ => True) s tr

/-- Runs the machine on a list of inputs, each of which must meet `C`. -/
def exec (M : Machine σ ε ο) (C : σ → ε → Prop) [∀ s e, Decidable (C s e)] :
    σ → List ε → Option (σ × List ο)
  | s, [] => some (s, [])
  | s, e :: es =>
    if C s e then
      match M.step s e with
      | none => none
      | some (t, os) => (M.exec C t es).map fun (u, os') => (u, os ++ os')
    else none

variable {M : Machine σ ε ο} {C D : σ → ε → Prop}

/-- A single step is a run. -/
lemma Steps.single {s t os e} (c : C s e) (st : M.step s e = some (t, os)) :
    M.Steps C s os t := by
  have run := Steps.snoc (.refl s) c st
  simpa using run

/-- Runs compose. -/
lemma Steps.trans {s t u os os'} (run1 : M.Steps C s os t) (run2 : M.Steps C t os' u) :
    M.Steps C s (os ++ os') u := by
  induction run2 with
  | refl => simpa using run1
  | snoc _ c st ih =>
    rw [← List.append_assoc]
    exact .snoc ih c st

/-- A weaker condition keeps a run. -/
lemma Steps.mono {s t os} (run : M.Steps C s os t) (h : ∀ s e, C s e → D s e) :
    M.Steps D s os t := by
  induction run with
  | refl => exact .refl _
  | snoc _ c st ih => exact .snoc ih (h _ _ c) st

/-- Every run is a run without a condition. -/
lemma Steps.free {s t os} (run : M.Steps C s os t) : M.Steps (fun _ _ => True) s os t :=
  run.mono fun _ _ _ => trivial

/-- The invariant rule: what every step preserves holds at the end of every run. -/
theorem Steps.invariant {P : σ → List ο → Prop} {s t os} (run : M.Steps C s os t) (init : P s [])
    (pres : ∀ {t os u os' e}, M.Steps C s os t → P t os → C t e →
      M.step t e = some (u, os') → P u (os ++ os')) : P t os := by
  induction run with
  | refl => exact init
  | snoc run c st ih => exact pres run ih c st

section Exec
variable [∀ s e, Decidable (C s e)]

/-- An executed list of inputs is a run. -/
lemma Steps.of_exec {s t es os} (h : M.exec C s es = some (t, os)) : M.Steps C s os t := by
  induction es generalizing s os with
  | nil =>
    cases h
    exact .refl _
  | cons e es ih =>
    rw [exec] at h
    split at h
    · rename_i c
      cases st : M.step s e with
      | none => simp [st] at h
      | some r =>
        obtain ⟨u, os1⟩ := r
        cases rest : M.exec C u es with
        | none => simp [st, rest] at h
        | some r' =>
          obtain ⟨v, os2⟩ := r'
          simp only [st, rest, Option.map_some, Option.some.injEq, Prod.mk.injEq] at h
          obtain ⟨rfl, rfl⟩ := h
          exact (Steps.single c st).trans (ih rest)
    · cases h

/-- A state that a list of inputs leads to, with what it and its history satisfy. -/
lemma steps_exec (M : Machine σ ε ο) (C : σ → ε → Prop) [∀ s e, Decidable (C s e)] (s : σ) (es : List ε)
    (P : σ → List ο → Prop) [∀ s os, Decidable (P s os)]
    (h : (M.exec C s es).any (fun r => decide (P r.1 r.2)) = true) :
    ∃ t os, M.Steps C s os t ∧ P t os := by
  obtain ⟨⟨t, os⟩, eq, holds⟩ := (Option.any_eq_true _ _).mp h
  exact ⟨t, os, .of_exec eq, of_decide_eq_true holds⟩

/-- The same from the initial state. -/
lemma run_exec (M : Machine σ ε ο) (C : σ → ε → Prop) [∀ s e, Decidable (C s e)] (es : List ε)
    (P : σ → List ο → Prop) [∀ s os, Decidable (P s os)]
    (h : (M.exec C M.init es).any (fun r => decide (P r.1 r.2)) = true) :
    ∃ s tr, M.Run C s tr ∧ P s tr :=
  M.steps_exec C M.init es P h

/-- A run, one more step, and a run from there. -/
lemma run_step_exec (M : Machine σ ε ο) (C : σ → ε → Prop) [∀ s e, Decidable (C s e)] (es : List ε)
    (e : ε) (es' : List ε) (P : σ → σ → σ → List ο → Prop) [∀ s t u os, Decidable (P s t u os)]
    (h : (M.exec (fun _ _ => True) M.init es).any (fun r => (M.step r.1 e).any fun r' =>
      (M.exec C r'.1 es').any fun r'' => decide (P r.1 r'.1 r''.1 r''.2)) = true) :
    ∃ s tr s' os' t os, M.Reach s tr ∧ M.step s e = some (s', os') ∧ M.Steps C s' os t ∧
      P s s' t os := by
  obtain ⟨⟨s, tr⟩, run, h⟩ := (Option.any_eq_true _ _).mp h
  obtain ⟨⟨s', os'⟩, st, h⟩ := (Option.any_eq_true _ _).mp h
  obtain ⟨t, os, run', holds⟩ := M.steps_exec C s' es' (P s s') h
  exact ⟨s, tr, s', os', t, os, .of_exec run, st, run', holds⟩

end Exec

end Machine
end EspcanBr.Base
