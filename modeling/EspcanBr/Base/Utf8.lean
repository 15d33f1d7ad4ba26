import EspcanBr.Base.Text

/-!
# Characters of UTF-8

A text that is UTF-8 starts with a whole character, the first byte of which does not continue one while
the others do (`utf8_char`). So its front is UTF-8 as well if and only if the cut does not fall inside a
character (`validUtf8_take`).
-/

namespace EspcanBr.Base

/-- A cut at this place does not fall inside a character. -/
def Boundary (text : List UInt8) (n : ℕ) : Prop := ∀ b, (text)[n]? = some b → isCont b = false

/-- A character: its first byte and the others, which are needed. -/
structure Utf8Char (a : UInt8) (l : List UInt8) : Prop where
  first : isCont a = false
  others : ∀ b ∈ l, isCont b = true
  whole : ∀ rest, validUtf8 (a :: l ++ rest) = validUtf8 rest
  part : ∀ n, n < l.length → validUtf8 (a :: l.take n) = false

lemma validUtf8_one {a : UInt8} (one : a < 0x80) (l : List UInt8) : validUtf8 (a :: l) = validUtf8 l := by
  rw [validUtf8.eq_def]
  exact if_pos one

lemma validUtf8_ascii {text : List UInt8} (plain : ∀ b ∈ text, b < 0x80) : validUtf8 text = true := by
  induction text with
  | nil => rfl
  | cons b text ih =>
    rw [List.forall_mem_cons] at plain
    rw [validUtf8_one plain.1]
    exact ih plain.2

/-- The byte after the first one of a longer character continues it. -/
lemma second_cont (a b : UInt8) : (second3 a b = true → isCont b = true) ∧
    (second4 a b = true → isCont b = true) := by
  have all : ∀ b : UInt8, (0xA0 ≤ b ∧ b ≤ 0xBF → isCont b = true) ∧ (0x80 ≤ b ∧ b ≤ 0x9F → isCont b = true) ∧
      (0x90 ≤ b ∧ b ≤ 0xBF → isCont b = true) ∧ (0x80 ≤ b ∧ b ≤ 0x8F → isCont b = true) :=
    all_bytes (by decide +kernel)
  obtain ⟨e0, ed, f0, f4⟩ := all b
  constructor
  · rw [second3]
    split
    · simpa using e0
    · split
      · simpa using ed
      · exact id
  · rw [second4]
    split
    · simpa using f0
    · split
      · simpa using f4
      · exact id

/-- The first byte of a character does not continue one. -/
lemma lead_not_cont (a : UInt8) (lead : a < 0x80 ∨ (0xC2 ≤ a ∧ a ≤ 0xDF) ∨ (0xE0 ≤ a ∧ a ≤ 0xEF) ∨
    (0xF0 ≤ a ∧ a ≤ 0xF4)) : isCont a = false := by
  have all : ∀ a : UInt8, a < 0x80 ∨ (0xC2 ≤ a ∧ a ≤ 0xDF) ∨ (0xE0 ≤ a ∧ a ≤ 0xEF) ∨
      (0xF0 ≤ a ∧ a ≤ 0xF4) → isCont a = false := all_bytes (by decide +kernel)
  exact all a lead

section Lengths
variable {a b c d : UInt8} (one : ¬ a < 0x80)
include one

lemma utf8Char_two (two : 0xC2 ≤ a ∧ a ≤ 0xDF) (second : isCont b = true) : Utf8Char a [b] where
  first := lead_not_cont a (.inr (.inl two))
  others := by simpa using second
  whole rest := by
    rw [List.cons_append, List.singleton_append, validUtf8.eq_def]
    simp [one, two, second]
  part n lt := by
    obtain rfl : n = 0 := by simpa using lt
    rw [validUtf8.eq_def]
    simp [one, two]

lemma utf8Char_three (two : ¬ (0xC2 ≤ a ∧ a ≤ 0xDF)) (three : 0xE0 ≤ a ∧ a ≤ 0xEF)
    (second : second3 a b = true) (third : isCont c = true) : Utf8Char a [b, c] where
  first := lead_not_cont a (.inr (.inr (.inl three)))
  others := by simpa using ⟨(second_cont a b).1 second, third⟩
  whole rest := by
    rw [validUtf8.eq_def]
    simp [one, two, three, second, third]
  part n lt := by
    have small : n = 0 ∨ n = 1 := by
      simp only [List.length_cons, List.length_nil] at lt
      omega
    rcases small with rfl | rfl
    · rw [validUtf8.eq_def]
      simp [one, two, three]
    · rw [validUtf8.eq_def]
      simp [one, two, three]

lemma utf8Char_four (two : ¬ (0xC2 ≤ a ∧ a ≤ 0xDF)) (three : ¬ (0xE0 ≤ a ∧ a ≤ 0xEF))
    (four : 0xF0 ≤ a ∧ a ≤ 0xF4) (second : second4 a b = true) (third : isCont c = true)
    (fourth : isCont d = true) : Utf8Char a [b, c, d] where
  first := lead_not_cont a (.inr (.inr (.inr four)))
  others := by simpa using ⟨(second_cont a b).2 second, third, fourth⟩
  whole rest := by
    rw [validUtf8.eq_def]
    simp [one, two, three, four, second, third, fourth]
  part n lt := by
    have small : n = 0 ∨ n = 1 ∨ n = 2 := by
      simp only [List.length_cons, List.length_nil] at lt
      omega
    rcases small with rfl | rfl | rfl
    · rw [validUtf8.eq_def]
      simp [one, two, three, four]
    · rw [validUtf8.eq_def]
      simp [one, two, three, four]
    · rw [validUtf8.eq_def]
      simp [one, two, three, four]

end Lengths

/-- A text that is not empty starts with a character. -/
lemma utf8_char {a : UInt8} {l : List UInt8} (utf8 : validUtf8 (a :: l) = true) :
    ∃ others rest, l = others ++ rest ∧ Utf8Char a others := by
  rw [validUtf8.eq_def] at utf8
  simp only at utf8
  split at utf8
  · rename_i one
    exact ⟨[], l, rfl, lead_not_cont a (.inl one), by simp, validUtf8_one one, by simp⟩
  · rename_i one
    split at utf8
    · rename_i two
      rcases l with _ | ⟨b, rest⟩
      · cases utf8
      · simp only [Bool.and_eq_true] at utf8
        exact ⟨[b], rest, rfl, utf8Char_two one two utf8.1⟩
    · rename_i two
      split at utf8
      · rename_i three
        rcases l with _ | ⟨b, _ | ⟨c, rest⟩⟩
        · cases utf8
        · cases utf8
        · simp only [Bool.and_eq_true, and_assoc] at utf8
          obtain ⟨second, third, -⟩ := utf8
          exact ⟨[b, c], rest, rfl, utf8Char_three one two three second third⟩
      · rename_i three
        split at utf8
        · rename_i four
          rcases l with _ | ⟨b, _ | ⟨c, _ | ⟨d, rest⟩⟩⟩
          · cases utf8
          · cases utf8
          · cases utf8
          · simp only [Bool.and_eq_true, and_assoc] at utf8
            obtain ⟨second, third, fourth, -⟩ := utf8
            exact ⟨[b, c, d], rest, rfl, utf8Char_four one two three four second third fourth⟩
        · cases utf8

/-- The front of a text is UTF-8 if and only if no character is cut. -/
theorem validUtf8_take {text : List UInt8} (utf8 : validUtf8 text = true) (n : ℕ) :
    validUtf8 (text.take n) = true ↔ Boundary text n := by
  induction len : text.length using Nat.strong_induction_on generalizing text n with
  | _ size ih =>
    rcases text with _ | ⟨a, l⟩
    · simp [Boundary, validUtf8]
    · obtain ⟨others, rest, rfl, char⟩ := utf8_char utf8
      rcases n with _ | n
      · refine ⟨fun _ b eq => ?_, fun _ => rfl⟩
        cases eq
        exact char.first
      · rw [List.take_succ_cons, Boundary, List.getElem?_cons_succ]
        rcases Nat.lt_or_ge n others.length with inside | after
        · -- the cut leaves a part of the character
          have cont := char.others (others)[n] (List.getElem_mem inside)
          rw [List.take_append_of_le_length inside.le, char.part n inside, List.getElem?_append_left inside,
            List.getElem?_eq_getElem inside]
          constructor
          · intro never
            cases never
          · intro no
            have never := no _ rfl
            rw [cont] at never
            cases never
        · have utf8' : validUtf8 rest = true := (char.whole rest).symm.trans utf8
          have cut : a :: (others ++ rest).take n = a :: others ++ rest.take (n - others.length) := by
            rw [List.take_append, List.take_of_length_le after, List.cons_append]
          have smaller : rest.length < size := by
            simp only [List.length_cons, List.length_append] at len
            omega
          rw [cut, char.whole, List.getElem?_append_right after]
          exact ih _ smaller utf8' _ rfl

end EspcanBr.Base
