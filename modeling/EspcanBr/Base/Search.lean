import Mathlib

/-!
# First occurrences

A text is cut at the first occurrence of a pattern. `FirstSplit` says which cut that is, `splitOnce`
computes it (`splitOnce_iff`), and `find` gives its position alone.
-/

namespace EspcanBr.Base
variable {α : Type*}

/-- `text` is `pre ++ pat ++ post`, and `pat` occurs nowhere earlier in it. -/
structure FirstSplit (pat text pre post : List α) : Prop where
  eq : text = pre ++ pat ++ post
  first : ∀ pre' post', text = pre' ++ pat ++ post' → pre.length ≤ pre'.length

/-- There is only one first occurrence. -/
lemma FirstSplit.unique {pat text pre post pre' post' : List α} (split : FirstSplit pat text pre post)
    (split' : FirstSplit pat text pre' post') : pre = pre' ∧ post = post' := by
  have len := Nat.le_antisymm (split.first _ _ split'.eq) (split'.first _ _ split.eq)
  have eq := split.eq.symm.trans split'.eq
  rw [List.append_assoc, List.append_assoc] at eq
  obtain ⟨pre, rest⟩ := List.append_inj eq len
  exact ⟨pre, List.append_cancel_left rest⟩

/-- An occurrence at the start is the first one. -/
lemma FirstSplit.start (pat post : List α) : FirstSplit pat (pat ++ post) [] post :=
  ⟨rfl, fun _ _ _ => Nat.zero_le _⟩

/-- A text that does not start with the pattern is cut where its tail is. -/
lemma FirstSplit.cons_iff {pat text pre post : List α} {a : α} (no : ¬ pat <+: a :: text) :
    FirstSplit pat (a :: text) (a :: pre) post ↔ FirstSplit pat text pre post := by
  constructor
  · intro ⟨eq, first⟩
    refine ⟨(List.cons_eq_cons.mp eq).2, fun pre' post' eq' => ?_⟩
    exact Nat.le_of_succ_le_succ (first (a :: pre') post' (congrArg (a :: ·) eq'))
  · intro ⟨eq, first⟩
    refine ⟨congrArg (a :: ·) eq, fun pre' post' eq' => ?_⟩
    cases pre' with
    | nil => exact absurd ⟨post', eq'.symm⟩ no
    | cons b pre' =>
      exact Nat.succ_le_succ (first pre' post' (List.cons_eq_cons.mp eq').2)

/-- A separator of one letter does not occur before its first occurrence. -/
lemma FirstSplit.not_mem {b : α} {text pre post : List α} (split : FirstSplit [b] text pre post) :
    b ∉ pre := by
  intro mem
  obtain ⟨s, t, rfl⟩ := List.append_of_mem mem
  have le := split.first s (t ++ b :: post) (by simp [split.eq])
  simp at le

/-- A text is cut at an element that does not stand before. -/
lemma FirstSplit.of_not_mem {b : α} {pre : List α} (no : b ∉ pre) (post : List α) :
    FirstSplit [b] (pre ++ b :: post) pre post := by
  refine ⟨by simp, fun pre' post' eq => ?_⟩
  by_contra! short
  have front : pre' ++ [b] <+: pre := by
    refine List.prefix_of_prefix_length_le ⟨post', eq.symm⟩ (List.prefix_append _ _) ?_
    rw [List.length_append, List.length_singleton]
    exact short
  exact no (front.subset (by simp))

/-- What follows a text does not move the first occurrence in it. -/
lemma FirstSplit.append {pat text pre post : List α} (split : FirstSplit pat text pre post)
    (more : List α) : FirstSplit pat (text ++ more) pre (post ++ more) := by
  obtain ⟨eq, first⟩ := split
  refine ⟨by rw [eq, List.append_assoc], fun pre' post' eq' => ?_⟩
  by_contra before
  have len := congrArg List.length eq
  simp only [List.length_append] at len
  have short : (pre' ++ pat).length ≤ text.length := by
    rw [List.length_append]
    omega
  have occurs : pre' ++ pat <+: text :=
    List.prefix_of_prefix_length_le ⟨post', eq'.symm⟩ (List.prefix_append text more) short
  obtain ⟨rest, eq⟩ := occurs
  exact before (first pre' rest eq.symm)

/-- The first occurrence in a text is that in a front of it which holds it whole. -/
lemma FirstSplit.front {pat text pre post more : List α}
    (split : FirstSplit pat (text ++ more) pre (post ++ more)) : FirstSplit pat text pre post := by
  refine ⟨?_, fun pre' post' eq' => ?_⟩
  · have eq := split.eq
    rw [← List.append_assoc] at eq
    exact List.append_cancel_right eq
  · apply split.first pre' (post' ++ more)
    rw [eq', List.append_assoc]

variable [DecidableEq α]

/-- What stands before and after the first occurrence of `pat`. -/
def splitOnce (pat : List α) : List α → Option (List α × List α)
  | [] => if pat = [] then some ([], []) else none
  | a :: text =>
    if pat.isPrefixOf (a :: text) then some ([], (a :: text).drop pat.length)
    else (splitOnce pat text).map fun (pre, post) => (a :: pre, post)

/-- The position of the first occurrence of `pat`. -/
def find (pat text : List α) : Option ℕ := (splitOnce pat text).map fun (pre, _) => pre.length

theorem splitOnce_iff {pat text pre post : List α} :
    splitOnce pat text = some (pre, post) ↔ FirstSplit pat text pre post := by
  induction text generalizing pre with
  | nil =>
    rw [splitOnce]
    constructor
    · intro eq
      split at eq
      · cases eq
        subst pat
        exact .start [] []
      · cases eq
    · intro split
      have eq := split.eq
      simp only [List.nil_eq, List.append_eq_nil_iff] at eq
      obtain ⟨⟨rfl, rfl⟩, rfl⟩ := eq
      exact if_pos rfl
  | cons a text ih =>
    rw [splitOnce]
    -- where the pattern starts nothing stands before it
    by_cases start : pat.isPrefixOf (a :: text) = true
    · rw [if_pos start]
      obtain ⟨rest, eq⟩ := List.isPrefixOf_iff_prefix.mp start
      rw [← eq, List.drop_left]
      constructor
      · intro same
        cases same
        exact .start pat _
      · intro split
        obtain ⟨rfl, rfl⟩ := split.unique (.start pat rest)
        rfl
    · rw [if_neg start]
      have no : ¬ pat <+: a :: text := mt List.isPrefixOf_iff_prefix.mpr start
      constructor
      · intro eq
        obtain ⟨⟨pre', post'⟩, tail, eq⟩ := Option.map_eq_some_iff.mp eq
        cases eq
        exact (FirstSplit.cons_iff no).mpr (ih.mp tail)
      · intro split
        cases pre with
        | nil => exact absurd ⟨post, split.eq.symm⟩ no
        | cons b pre =>
          obtain ⟨rfl, -⟩ := List.cons_eq_cons.mp split.eq
          rw [ih.mpr ((FirstSplit.cons_iff no).mp split)]
          rfl

/-- Where the pattern occurs at all it occurs first somewhere. -/
lemma FirstSplit.exists {pat text pre post : List α} (eq : text = pre ++ pat ++ post) :
    ∃ pre' post', FirstSplit pat text pre' post' ∧ pre'.length ≤ pre.length := by
  induction text generalizing pre with
  | nil =>
    rw [List.nil_eq, List.append_eq_nil_iff, List.append_eq_nil_iff] at eq
    obtain ⟨⟨rfl, rfl⟩, rfl⟩ := eq
    exact ⟨[], [], .start [] [], Nat.le_refl _⟩
  | cons a text ih =>
    by_cases start : pat <+: a :: text
    · obtain ⟨rest, eq⟩ := start
      rw [← eq]
      exact ⟨[], rest, .start pat rest, Nat.zero_le _⟩
    · cases pre with
      | nil => exact absurd ⟨post, eq.symm⟩ start
      | cons b pre =>
        obtain ⟨rfl, tail⟩ := List.cons_eq_cons.mp eq
        obtain ⟨pre', post', split, le⟩ := ih tail
        exact ⟨a :: pre', post', (cons_iff start).mpr split, Nat.succ_le_succ le⟩

/-- A pattern that does not occur cuts nothing. -/
lemma splitOnce_eq_none {pat text : List α} (no : ¬ pat <:+: text) : splitOnce pat text = none := by
  cases eq : splitOnce pat text with
  | none => rfl
  | some cut =>
    have split := splitOnce_iff.mp (show splitOnce pat text = some (cut.1, cut.2) from eq)
    exact absurd ⟨cut.1, cut.2, split.eq.symm⟩ no

/-- One letter cuts nothing if and only if it is not in the text. -/
lemma splitOnce_single_none {b : α} {text : List α} : splitOnce [b] text = none ↔ b ∉ text := by
  constructor
  · intro none mem
    obtain ⟨s, t, eq⟩ := List.append_of_mem mem
    have occurs : text = s ++ [b] ++ t := by simp [eq]
    obtain ⟨pre, post, cut, -⟩ := FirstSplit.exists occurs
    cases none.symm.trans (splitOnce_iff.mpr cut)
  · intro no
    refine splitOnce_eq_none fun occurs => no ?_
    exact occurs.subset (by simp)

lemma find_eq_some {pat text : List α} {i : ℕ} :
    find pat text = some i ↔ ∃ pre post, FirstSplit pat text pre post ∧ pre.length = i := by
  rw [find, Option.map_eq_some_iff]
  constructor
  · rintro ⟨⟨pre, post⟩, split, eq⟩
    exact ⟨pre, post, splitOnce_iff.mp split, eq⟩
  · rintro ⟨pre, post, split, eq⟩
    exact ⟨(pre, post), splitOnce_iff.mpr split, eq⟩

end EspcanBr.Base
