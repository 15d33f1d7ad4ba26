import EspcanBr.Base.Machine

/-!
# Tasks over shared state

A cooperative executor: tasks indexed by `ι` run one at a time between their suspension points, each
on its own locals `π` and on the state `σ` they share, while an environment acts on the shared state
alone. `Tasks.machine` interleaves them arbitrarily. A task's own observations and those of the
environment are read off a history by `taskTrace` and `envTrace`; `Steps.task_invariant` proves a
property of one task from its own steps (which may break nothing), the steps of the others and those
of the environment (which must leave it alone). Sums over all tasks change at one task only
(`sum_update`).
-/

namespace EspcanBr.Base

/-- The shared state and every task's locals. -/
structure World (σ π ι : Type*) where
  shared : σ
  task : ι → π

/-- What happens next: a step of one task or of the environment. -/
inductive Input (ι ε δ : Type*) where
  | task (i : ι) (e : ε)
  | env (d : δ)

/-- An observation, with the task that showed it. -/
inductive Shown (ι ο ω : Type*) where
  | task (i : ι) (o : ο)
  | env (o : ω)
  deriving DecidableEq

/-- Tasks `ι` with locals `π` and an environment, over the shared state `σ`. -/
structure Tasks (σ π ε ο δ ω ι : Type*) where
  shared : σ
  start : ι → π
  step : σ → π → ε → Option (σ × π × List ο)
  env : σ → δ → Option (σ × List ω)

/-- What task `i` showed. -/
def taskTrace {ι ο ω : Type*} [DecidableEq ι] (i : ι) (tr : List (Shown ι ο ω)) : List ο :=
  tr.filterMap fun
    | .task j o => if j = i then some o else none
    | .env _ => none

/-- What the environment showed. -/
def envTrace {ι ο ω : Type*} (tr : List (Shown ι ο ω)) : List ω :=
  tr.filterMap fun
    | .task _ _ => none
    | .env o => some o

section Traces
variable {ι ο ω : Type*}

@[simp] lemma envTrace_nil : envTrace ([] : List (Shown ι ο ω)) = [] := rfl

@[simp] lemma envTrace_append (tr tr' : List (Shown ι ο ω)) :
    envTrace (tr ++ tr') = envTrace tr ++ envTrace tr' := by
  simp [envTrace]

@[simp] lemma envTrace_task (i : ι) (os : List ο) :
    envTrace (os.map (.task i) : List (Shown ι ο ω)) = [] := by
  simp [envTrace]

@[simp] lemma envTrace_env (os : List ω) :
    envTrace (os.map .env : List (Shown ι ο ω)) = os := by
  simp [envTrace]

variable [DecidableEq ι]

@[simp] lemma taskTrace_nil (i : ι) : taskTrace i ([] : List (Shown ι ο ω)) = [] := rfl

@[simp] lemma taskTrace_append (i : ι) (tr tr' : List (Shown ι ο ω)) :
    taskTrace i (tr ++ tr') = taskTrace i tr ++ taskTrace i tr' := by
  simp [taskTrace]

@[simp] lemma taskTrace_task (i : ι) (os : List ο) :
    taskTrace i (os.map (.task i) : List (Shown ι ο ω)) = os := by
  simp [taskTrace]

lemma taskTrace_ne {i j : ι} (ne : j ≠ i) (os : List ο) :
    taskTrace i (os.map (.task j) : List (Shown ι ο ω)) = [] := by
  simp [taskTrace, ne]

@[simp] lemma taskTrace_env (i : ι) (os : List ω) :
    taskTrace i (os.map .env : List (Shown ι ο ω)) = [] := by
  simp [taskTrace]

/-- A count over every task's observations grows by that of the task that moved. -/
lemma sum_taskTrace [Fintype ι] {F : ι → List ο → ℕ} (add : ∀ j a b, F j (a ++ b) = F j a + F j b)
    (tr : List (Shown ι ο ω)) (i : ι) (os : List ο) :
    ∑ j, F j (taskTrace j (tr ++ os.map (.task i))) = ∑ j, F j (taskTrace j tr) + F i os := by
  have nil : ∀ j, F j [] = 0 := by
    intro j
    have twice := add j [] []
    simpa using twice
  have own : ∀ j, F j (taskTrace j (tr ++ os.map (.task i))) =
      F j (taskTrace j tr) + if j = i then F i os else 0 := by
    intro j
    rw [taskTrace_append, add]
    rcases eq_or_ne j i with rfl | ne
    · rw [taskTrace_task, if_pos rfl]
    · rw [taskTrace_ne ne.symm, nil, if_neg ne]
  rw [Finset.sum_congr rfl fun j _ => own j, Finset.sum_add_distrib, Finset.sum_ite_eq']
  simp

end Traces

namespace Tasks
variable {σ π ε ο δ ω ι : Type*} [DecidableEq ι]

/-- Every interleaving of the tasks and the environment. -/
def machine (T : Tasks σ π ε ο δ ω ι) :
    Machine (World σ π ι) (Input ι ε δ) (Shown ι ο ω) where
  init := ⟨T.shared, T.start⟩
  step w
    | .task i e =>
      (T.step w.shared (w.task i) e).map fun (sh, p, os) =>
        (⟨sh, Function.update w.task i p⟩, os.map (.task i))
    | .env d =>
      (T.env w.shared d).map fun (sh, os) => (⟨sh, w.task⟩, os.map .env)

variable {T : Tasks σ π ε ο δ ω ι} {C : World σ π ι → Input ι ε δ → Prop}

/-- A step of task `i`. -/
lemma machine_task {w i e w' os} (st : T.machine.step w (.task i e) = some (w', os)) :
    ∃ sh p os', T.step w.shared (w.task i) e = some (sh, p, os') ∧
      w' = ⟨sh, Function.update w.task i p⟩ ∧ os = os'.map (.task i) := by
  simp only [machine, Option.map_eq_some_iff] at st
  obtain ⟨⟨sh, p, os'⟩, st, eq⟩ := st
  cases eq
  exact ⟨sh, p, os', st, rfl, rfl⟩

/-- A step of the environment. -/
lemma machine_env {w d w' os} (st : T.machine.step w (.env d) = some (w', os)) :
    ∃ sh os', T.env w.shared d = some (sh, os') ∧ w' = ⟨sh, w.task⟩ ∧ os = os'.map .env := by
  simp only [machine, Option.map_eq_some_iff] at st
  obtain ⟨⟨sh, os'⟩, st, eq⟩ := st
  cases eq
  exact ⟨sh, os', st, rfl, rfl⟩

/-- A property of one task, preserved by its own steps, is kept by every run in which the other
tasks and the environment leave it alone. -/
theorem task_invariant {J : σ → π → List ο → List ω → Prop} {w w' tr} (i : ι)
    (run : T.machine.Steps C w tr w') (init : J w.shared (w.task i) [] [])
    (own : ∀ {v os e sh p os'}, T.machine.Steps C w os v → C v (.task i e) →
      T.step v.shared (v.task i) e = some (sh, p, os') →
      J v.shared (v.task i) (taskTrace i os) (envTrace os) →
      J sh p (taskTrace i os ++ os') (envTrace os))
    (other : ∀ {v os j e sh p os'}, j ≠ i → T.machine.Steps C w os v → C v (.task j e) →
      T.step v.shared (v.task j) e = some (sh, p, os') →
      J v.shared (v.task i) (taskTrace i os) (envTrace os) →
      J sh (v.task i) (taskTrace i os) (envTrace os))
    (env : ∀ {v os d sh os'}, T.machine.Steps C w os v → C v (.env d) →
      T.env v.shared d = some (sh, os') →
      J v.shared (v.task i) (taskTrace i os) (envTrace os) →
      J sh (v.task i) (taskTrace i os) (envTrace os ++ os')) :
    J w'.shared (w'.task i) (taskTrace i tr) (envTrace tr) := by
  induction run with
  | refl => exact init
  | @snoc v u os os' e run c st inv =>
    cases e with
    | task j e =>
      obtain ⟨sh, p, os1, own_st, rfl, rfl⟩ := machine_task st
      by_cases eq : j = i
      · subst eq
        simpa using own run c own_st inv
      · have keep := other eq run c own_st inv
        simpa [taskTrace_ne eq, Function.update_of_ne (Ne.symm eq)] using keep
    | env d =>
      obtain ⟨sh, os1, env_st, rfl, rfl⟩ := machine_env st
      simpa using env run c env_st inv

end Tasks

/-- A sum over all tasks changes by what the updated task contributes. -/
lemma sum_update {ι π : Type*} [Fintype ι] [DecidableEq ι] (F : π → ℕ) (task : ι → π) (i : ι) (p : π) :
    ∑ j, F (Function.update task i p j) + F (task i) = ∑ j, F (task j) + F p := by
  have rest : ∑ j ∈ Finset.univ.erase i, F (Function.update task i p j) =
      ∑ j ∈ Finset.univ.erase i, F (task j) := by
    refine Finset.sum_congr rfl fun j mem => ?_
    rw [Function.update_of_ne (Finset.ne_of_mem_erase mem)]
  have new := Finset.add_sum_erase Finset.univ (fun j => F (Function.update task i p j))
    (Finset.mem_univ i)
  have old := Finset.add_sum_erase Finset.univ (fun j => F (task j)) (Finset.mem_univ i)
  simp only [Function.update_self] at new
  omega

end EspcanBr.Base
