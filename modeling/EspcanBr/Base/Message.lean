import EspcanBr.Base.Hex
import EspcanBr.Base.Text

/-!
# Messages of lines and a body

A message is a number of lines, an empty line and a body, where a line ends in a carriage return and a
line feed. What is found first in it is the empty line (`firstSplit_message`), and what stands before it
is cut into its lines (`split_lines`). A number in a line is read back (`parseUnsigned_decimal`).
-/

namespace EspcanBr.Base

/-- The end of a line. -/
def CRLF : List UInt8 := ascii "\r\n"

/-- The lines of a header, without their last end. -/
def joinLines (ls : List (List UInt8)) : List UInt8 := CRLF.intercalate ls

/-- The lines, an empty line and the body. -/
def message (ls : List (List UInt8)) (body : List UInt8) : List UInt8 :=
  joinLines ls ++ ascii "\r\n\r\n" ++ body

/-- A line of a header: it has no carriage return, and is not empty. -/
structure HeaderLine (line : List UInt8) : Prop where
  no : 0x0D ∉ line
  ne : line ≠ []

lemma joinLines_cons (line next : List UInt8) (ls : List (List UInt8)) :
    joinLines (line :: next :: ls) = line ++ CRLF ++ joinLines (next :: ls) := by
  rw [joinLines, joinLines, List.intercalate_cons_cons]

/-- A byte of a header is in one of its lines, or ends one. -/
lemma mem_joinLines {b : UInt8} {ls : List (List UInt8)} (mem : b ∈ joinLines ls) :
    b ∈ CRLF ∨ ∃ line ∈ ls, b ∈ line := by
  induction ls with
  | nil => cases mem
  | cons line ls ih =>
    cases ls with
    | nil =>
      rw [joinLines, List.intercalate_singleton] at mem
      exact .inr ⟨line, List.mem_cons_self, mem⟩
    | cons next ls =>
      rw [joinLines_cons, List.mem_append, List.mem_append] at mem
      rcases mem with (here | ends) | rest
      · exact .inr ⟨line, List.mem_cons_self, here⟩
      · exact .inl ends
      · rcases ih rest with ends | ⟨l, among, here⟩
        · exact .inl ends
        · exact .inr ⟨l, List.mem_cons_of_mem _ among, here⟩

section Search
variable {α : Type*}

/-- A front without the first element of the pattern is skipped. -/
lemma FirstSplit.skip {a : α} {pat front text pre post : List α} (no : a ∉ front)
    (cut : FirstSplit (a :: pat) text pre post) :
    FirstSplit (a :: pat) (front ++ text) (front ++ pre) post := by
  induction front with
  | nil => exact cut
  | cons b front ih =>
    rw [List.mem_cons, not_or] at no
    refine (FirstSplit.cons_iff ?_).mpr (ih no.2)
    rintro ⟨rest, eq⟩
    exact no.1 (List.cons_eq_cons.mp eq).1

variable [DecidableEq α]

/-- A text without the first element of a pattern is not cut. -/
lemma splitOnce_no_head {a : α} {pat text : List α} (no : a ∉ text) : splitOnce (a :: pat) text = none :=
  splitOnce_eq_none fun occurs => no (occurs.subset List.mem_cons_self)

end Search

/-- Pieces that were joined are cut apart. -/
lemma splitAtMost_intercalate {a : UInt8} {pat : List UInt8} {ls : List (List UInt8)} {n : ℕ}
    (ne : ls ≠ []) (no : ∀ line ∈ ls, a ∉ line) (le : ((a :: pat).intercalate ls).length ≤ n) :
    splitAtMost (a :: pat) n ((a :: pat).intercalate ls) = ls := by
  induction ls generalizing n with
  | nil => exact absurd rfl ne
  | cons line ls ih =>
    cases ls with
    | nil =>
      rw [List.intercalate_singleton]
      cases n with
      | zero => rfl
      | succ n => rw [splitAtMost, splitOnce_no_head (no line List.mem_cons_self)]
    | cons next ls =>
      rw [List.intercalate_cons_cons] at le ⊢
      have cut : splitOnce (a :: pat) (line ++ (a :: pat) ++ (a :: pat).intercalate (next :: ls)) =
          some (line, (a :: pat).intercalate (next :: ls)) := by
        apply splitOnce_iff.mpr
        have start := FirstSplit.start (a :: pat) ((a :: pat).intercalate (next :: ls))
        have here := start.skip (no line List.mem_cons_self)
        rwa [List.append_nil, ← List.append_assoc] at here
      obtain ⟨n, rfl⟩ : ∃ m, n = m + 1 := by
        refine Nat.exists_eq_succ_of_ne_zero ?_
        rintro rfl
        simp at le
      rw [splitAtMost, cut]
      simp only [List.cons.injEq, true_and]
      refine ih (by simp) (fun l mem => no l (List.mem_cons_of_mem _ mem)) ?_
      simp only [List.length_append, List.length_cons] at le
      omega

/-- What stands before the body is cut into the lines, with two empty pieces behind them. -/
lemma split_lines {ls : List (List UInt8)} (ne : ls ≠ []) (header : ∀ line ∈ ls, HeaderLine line) :
    split CRLF (joinLines ls ++ ascii "\r\n\r\n") = ls ++ [[], []] := by
  have pat : CRLF = 0x0D :: [LF] := by decide
  have joined : joinLines ls ++ ascii "\r\n\r\n" = CRLF.intercalate (ls ++ [[], []]) := by
    induction ls with
    | nil => exact absurd rfl ne
    | cons line ls ih =>
      cases ls with
      | nil =>
        have ends : ascii "\r\n\r\n" = CRLF ++ CRLF := by decide
        simp [joinLines, List.intercalate_cons_cons, ends]
      | cons next ls =>
        have rest := ih (by simp) fun l mem => header l (List.mem_cons_of_mem _ mem)
        rw [joinLines_cons, List.append_assoc, rest]
        simp [List.intercalate_cons_cons]
  rw [joined, split, pat]
  apply splitAtMost_intercalate (by simp) ?_ le_rfl
  intro line mem
  rcases List.mem_append.mp mem with line | last
  · exact (header _ line).no
  · simp only [List.mem_cons, List.not_mem_nil, or_false, or_self] at last
    rw [last]
    exact List.not_mem_nil

/-- The empty line is the first one. -/
lemma firstSplit_message {ls : List (List UInt8)} (ne : ls ≠ []) (header : ∀ line ∈ ls, HeaderLine line)
    (body : List UInt8) : FirstSplit (ascii "\r\n\r\n") (message ls body) (joinLines ls) body := by
  have pat : ascii "\r\n\r\n" = 0x0D :: [LF, 0x0D, LF] := by decide
  rw [pat, message, pat]
  induction ls with
  | nil => exact absurd rfl ne
  | cons line ls ih =>
    have line_ok := header line List.mem_cons_self
    cases ls with
    | nil =>
      have start := FirstSplit.start (0x0D :: [LF, 0x0D, LF]) body
      have here := start.skip line_ok.no
      rw [List.append_nil, ← List.append_assoc] at here
      rwa [joinLines, List.intercalate_singleton]
    | cons next ls =>
      have rest := ih (by simp) fun l mem => header l (List.mem_cons_of_mem _ mem)
      obtain ⟨b, more, eq⟩ : ∃ b more, joinLines (next :: ls) = b :: more ∧ b ≠ 0x0D := by
        have next_ok := header next (by simp)
        obtain ⟨b, more, rfl⟩ := List.exists_cons_of_ne_nil next_ok.ne
        have head : b ≠ 0x0D := fun same => next_ok.no (same ▸ List.mem_cons_self)
        cases ls with
        | nil => exact ⟨b, more, by rw [joinLines, List.intercalate_singleton], head⟩
        | cons last ls => exact ⟨b, more ++ CRLF ++ joinLines (last :: ls), by rw [joinLines_cons]; simp, head⟩
      obtain ⟨eq, head⟩ := eq
      -- a line end before a line that is not empty is no empty line
      have feed : FirstSplit (0x0D :: [LF, 0x0D, LF])
          (LF :: (joinLines (next :: ls) ++ (0x0D :: [LF, 0x0D, LF]) ++ body))
          (LF :: joinLines (next :: ls)) body := by
        refine (FirstSplit.cons_iff ?_).mpr rest
        rintro ⟨_, same⟩
        exact absurd (List.cons_eq_cons.mp same).1 (by decide)
      have both : FirstSplit (0x0D :: [LF, 0x0D, LF])
          (0x0D :: LF :: (joinLines (next :: ls) ++ (0x0D :: [LF, 0x0D, LF]) ++ body))
          (0x0D :: LF :: joinLines (next :: ls)) body := by
        refine (FirstSplit.cons_iff ?_).mpr feed
        rintro ⟨_, same⟩
        rw [eq] at same
        simp only [List.cons_append, List.cons.injEq, true_and] at same
        exact head same.1.symm
      have whole := both.skip line_ok.no
      have ends : CRLF = [0x0D, LF] := by decide
      rw [joinLines_cons, ends]
      simpa using whole

section Decimal

lemma decimalFrom_append (v : ℕ) (s t : List UInt8) :
    decimalFrom v (s ++ t) = (decimalFrom v s).bind (decimalFrom · t) := by
  induction s generalizing v with
  | nil => rfl
  | cons c s ih =>
    rw [List.cons_append, decimalFrom, decimalFrom]
    split
    · exact ih _
    · rfl

/-- A number in decimal is read back. -/
lemma decimalFrom_decimal (n : ℕ) : decimalFrom 0 (decimal n) = some n := by
  have digit : ∀ v d, d < 10 → decimalFrom v [(Nat.digitChar d).toUInt8] = some (10 * v + d) := by
    intro v d lt
    have all : ∀ d < 10, (0x30 ≤ (Nat.digitChar d).toUInt8 ∧ (Nat.digitChar d).toUInt8 ≤ 0x39) ∧
        ((Nat.digitChar d).toUInt8 - 0x30).toNat = d := by decide
    obtain ⟨range, value⟩ := all d lt
    rw [decimalFrom, if_pos range, value]
    rfl
  induction n using Nat.strong_induction_on with
  | _ n ih =>
    have step := Nat.toDigits_eq_if (b := 10) (n := n) (by decide)
    rw [decimal, step]
    split
    · rename_i lt
      simpa using digit 0 n lt
    · rename_i ge
      have front := ih (n / 10) (by omega)
      rw [List.map_append, decimalFrom_append]
      rw [decimal] at front
      rw [front, Option.bind_some, List.map_singleton, digit _ _ (Nat.mod_lt n (by decide))]
      congr 1
      omega

lemma decimal_ne_nil (n : ℕ) : decimal n ≠ [] := by
  rw [decimal, ne_eq, List.map_eq_nil_iff]
  exact Nat.toDigits_ne_nil

/-- The digits of a number. -/
lemma isDigit_decimal {n : ℕ} {c : UInt8} (mem : c ∈ decimal n) : isDigit c = true :=
  decimalFrom_digits (decimalFrom_decimal n) c mem

lemma parseUnsigned_decimal {max n : ℕ} (le : n ≤ max) : parseUnsigned max (decimal n) = some n :=
  parseUnsigned_iff.mpr ⟨false, decimal n, rfl, decimal_ne_nil n, decimalFrom_decimal n, le⟩

/-- Digits are not trimmed. -/
lemma trim_decimal (n : ℕ) : trim (0x20 :: decimal n) = decimal n := by
  have graph : ∀ c, isDigit c = true → isGraph c = true := all_bytes (by decide +kernel)
  obtain ⟨a, s, first⟩ := List.exists_cons_of_ne_nil (decimal_ne_nil n)
  obtain ⟨front, b, last⟩ := List.eq_nil_or_concat (decimal n) |>.resolve_left (decimal_ne_nil n)
  rw [List.concat_eq_append] at last
  rw [first]
  refine (trim_self (graph a (isDigit_decimal (n := n) ?_)) (graph b (isDigit_decimal (n := n) ?_)) (first.symm.trans last)).2
  · exact first ▸ List.mem_cons_self
  · rw [last]
    simp

end Decimal

end EspcanBr.Base
