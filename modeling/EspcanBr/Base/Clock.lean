import EspcanBr.Base.Machine

/-!
# Machines with a clock

A machine runs against a clock: time passes between its steps, an input is not enabled before the wait that
its state asks for is over, and what is shown carries the time. A bound on the time until something is shown,
which no step lowers by more than the step waited, holds of whole runs (`Delays.later`), and where it is
restored with every other thing that is shown, the two are that far apart (`Delays.apart`); so there are
not many of them (`countP_apart`).
-/

namespace EspcanBr.Base

/-- A state, the time, and when the machine came to that state. -/
structure Clocked (σ : Type*) where
  state : σ
  now : ℕ
  since : ℕ

/-- Time passes, or an input comes. -/
inductive Timed (ε : Type*) where
  | pass (d : ℕ)
  | input (e : ε)

/-- Of two stamped things, where the first is an `a` and the second a `b`, the second is at least `d` later. -/
def Apart {ο : Type*} (a b : ο → Prop) (d : ℕ) (x y : ℕ × ο) : Prop := a x.2 → b y.2 → x.1 + d ≤ y.1

namespace Machine
variable {σ ε ο : Type*}

/-- The machine with a clock. -/
def timed (M : Machine σ ε ο) (wait : σ → ε → ℕ) : Machine (Clocked σ) (Timed ε) (ℕ × ο) where
  init := ⟨M.init, 0, 0⟩
  step c
    | .pass d => some ({ c with now := c.now + d }, [])
    | .input e =>
      if c.since + wait c.state e ≤ c.now then
        (M.step c.state e).map fun r => (⟨r.1, c.now, c.now⟩, r.2.map (c.now, ·))
      else none

/-- The inputs meet a condition. -/
def Timely (C : σ → ε → Prop) (c : Clocked σ) (e : Timed ε) : Prop := ∀ i, e = .input i → C c.state i

variable {M : Machine σ ε ο} {C : σ → ε → Prop} {wait : σ → ε → ℕ} {a b : ο → Prop} {d : ℕ} {delay : σ → ℕ}

/-- What a step with a clock does. -/
lemma timed_cases {c c' : Clocked σ} {e : Timed ε} {os : List (ℕ × ο)}
    (st : (M.timed wait).step c e = some (c', os)) :
    (∃ d, e = .pass d ∧ c' = { c with now := c.now + d } ∧ os = []) ∨
    ∃ i s shown, e = .input i ∧ c.since + wait c.state i ≤ c.now ∧ M.step c.state i = some (s, shown) ∧
      c' = ⟨s, c.now, c.now⟩ ∧ os = shown.map (c.now, ·) := by
  cases e with
  | pass d =>
    cases st
    exact .inl ⟨d, rfl, rfl, rfl⟩
  | input i =>
    simp only [timed, Option.ite_none_right_eq_some] at st
    obtain ⟨due, stepped⟩ := st
    obtain ⟨⟨s, shown⟩, inner, eq⟩ := Option.map_eq_some_iff.mp stepped
    cases eq
    exact .inr ⟨i, s, shown, rfl, due, inner, rfl, rfl⟩

/-- `delay` bounds the time until a `b` is shown: a step lowers it at most by its wait, and has waited for
all of it if it shows one. -/
structure Delays (M : Machine σ ε ο) (C : σ → ε → Prop) (wait : σ → ε → ℕ) (b : ο → Prop) (delay : σ → ℕ) :
    Prop where
  lowers : ∀ {s e t os}, C s e → M.step s e = some (t, os) → delay s ≤ wait s e + delay t
  shows : ∀ {s e t os}, C s e → M.step s e = some (t, os) → ∀ o ∈ os, b o → delay s ≤ wait s e

/-- In a run every `b` comes as late as the delay says where the run starts. -/
theorem Delays.later (delays : Delays M C wait b delay) {c c' : Clocked σ} {tr : List (ℕ × ο)}
    (run : (M.timed wait).Steps (Timely C) c tr c') :
    ∀ y ∈ tr, b y.2 → c.since + delay c.state ≤ y.1 := by
  let owed := c.since + delay c.state
  have all : (owed ≤ c'.since + delay c'.state ∨ owed ≤ c'.now) ∧ ∀ y ∈ tr, b y.2 → owed ≤ y.1 := by
    refine run.invariant (P := fun c' tr => (owed ≤ c'.since + delay c'.state ∨ owed ≤ c'.now) ∧
      ∀ y ∈ tr, b y.2 → owed ≤ y.1) ?_ ?_
    · refine ⟨.inl (Nat.le_refl _), fun y mem => ?_⟩
      cases mem
    · intro c tr c' os e _ inv timely st
      obtain ⟨bound, before⟩ := inv
      rcases timed_cases st with ⟨d, rfl, rfl, rfl⟩ | ⟨i, s, shown, rfl, due, inner, rfl, rfl⟩
      · rw [List.append_nil]
        refine ⟨bound.imp_right fun le => ?_, before⟩
        exact le.trans (Nat.le_add_right _ _)
      · have lowers := delays.lowers (timely i rfl) inner
        refine ⟨?_, fun y mem shows => ?_⟩
        · simp only
          omega
        · rcases List.mem_append.mp mem with old | new
          · exact before y old shows
          · obtain ⟨o, here, rfl⟩ := List.mem_map.mp new
            have waited := delays.shows (timely i rfl) inner o here shows
            simp only
            omega
  exact all.2

/-- Where an `a` leaves a delay of `d` behind, and no `b` is shown behind it in the same step, the `b`s of a run
are `d` behind the `a`s before them. -/
theorem Delays.apart (delays : Delays M C wait b delay)
    (restores : ∀ {s e t os}, C s e → M.step s e = some (t, os) → ∀ o ∈ os, a o → d ≤ delay t)
    (once : ∀ {s e t os}, C s e → M.step s e = some (t, os) → os.Pairwise fun x y => a x → ¬ b y)
    {c c' : Clocked σ} {tr : List (ℕ × ο)} (run : (M.timed wait).Steps (Timely C) c tr c') :
    tr.Pairwise (Apart a b d) := by
  have all : (∀ x ∈ tr, a x.2 → x.1 + d ≤ c'.since + delay c'.state ∨ x.1 + d ≤ c'.now) ∧
      tr.Pairwise (Apart a b d) := by
    refine run.invariant (P := fun c' tr =>
      (∀ x ∈ tr, a x.2 → x.1 + d ≤ c'.since + delay c'.state ∨ x.1 + d ≤ c'.now) ∧
        tr.Pairwise (Apart a b d)) ?_ ?_
    · refine ⟨fun x mem => ?_, .nil⟩
      cases mem
    · intro c tr c' os e _ inv timely st
      obtain ⟨bound, before⟩ := inv
      rcases timed_cases st with ⟨k, rfl, rfl, rfl⟩ | ⟨i, s, shown, rfl, due, inner, rfl, rfl⟩
      · rw [List.append_nil]
        refine ⟨fun x mem ax => (bound x mem ax).imp_right fun le => ?_, before⟩
        exact le.trans (Nat.le_add_right _ _)
      · have lowers := delays.lowers (timely i rfl) inner
        refine ⟨fun x mem ax => ?_, List.pairwise_append.mpr ⟨before, ?_, fun x mem y new => ?_⟩⟩
        · rcases List.mem_append.mp mem with old | new
          · have le := bound x old ax
            simp only
            omega
          · obtain ⟨o, here, rfl⟩ := List.mem_map.mp new
            have le := restores (timely i rfl) inner o here ax
            simp only
            omega
        · refine List.pairwise_map.mpr ((once (timely i rfl) inner).imp ?_)
          intro x y none ax by_
          exact absurd by_ (none ax)
        · intro ax by_
          obtain ⟨o, here, rfl⟩ := List.mem_map.mp new
          have le := bound x mem ax
          have waited := delays.shows (timely i rfl) inner o here by_
          simp only
          omega
  exact all.2

/-- The stamps of a run are not later than its clock. -/
lemma stamp_le {c : Clocked σ} {tr : List (ℕ × ο)} {C : Clocked σ → Timed ε → Prop}
    (run : (M.timed wait).Run C c tr) : ∀ x ∈ tr, x.1 ≤ c.now := by
  refine run.invariant (P := fun c tr => ∀ x ∈ tr, x.1 ≤ c.now) ?_ ?_
  · intro x mem
    cases mem
  · intro c tr c' os e _ before _ st x mem
    rcases timed_cases st with ⟨k, rfl, rfl, rfl⟩ | ⟨i, s, shown, rfl, due, inner, rfl, rfl⟩
    · rw [List.append_nil] at mem
      exact (before x mem).trans (Nat.le_add_right _ _)
    · rcases List.mem_append.mp mem with old | new
      · exact before x old
      · obtain ⟨o, here, rfl⟩ := List.mem_map.mp new
        exact Nat.le_refl _

/-- What is `d` apart does not happen often. -/
lemma countP_apart {p : ο → Bool} {l : List (ℕ × ο)} {now : ℕ} (apart : l.Pairwise (Apart (p ·) (p ·) d))
    (le : ∀ x ∈ l, x.1 ≤ now) : l.countP (p ·.2) * d ≤ now + d := by
  -- counted from any time that is not later than the stamps
  have from_ : ∀ (l : List (ℕ × ο)) (start : ℕ), l.Pairwise (Apart (p ·) (p ·) d) →
      (∀ x ∈ l, p x.2 = true → start ≤ x.1 ∧ x.1 ≤ now) → start ≤ now + d →
      start + l.countP (p ·.2) * d ≤ now + d := by
    intro l
    induction l with
    | nil =>
      intro start _ _ le
      simpa using le
    | cons x l ih =>
      intro start apart within le
      obtain ⟨first, rest⟩ := List.pairwise_cons.mp apart
      rw [List.forall_mem_cons] at within
      rw [List.countP_cons]
      by_cases counts : p x.2 = true
      · obtain ⟨low, high⟩ := within.1 counts
        have more := ih (x.1 + d) rest (fun y mem py => ⟨first y mem counts py, (within.2 y mem py).2⟩) (by omega)
        rw [if_pos counts, Nat.add_mul]
        omega
      · rw [if_neg counts]
        exact ih start rest within.2 le
  have all := from_ l 0 apart (fun x mem _ => ⟨Nat.zero_le _, le x mem⟩) (Nat.zero_le _)
  omega

end Machine
end EspcanBr.Base
