import EspcanBr.Base.Hex
import EspcanBr.Base.Search

/-!
# Text as bytes

The string operations of a systems language on UTF-8 text, given by its bytes: cutting at separators
and at lines, trimming white space, reading decimal numbers, and the test for UTF-8 itself. A character
outside ASCII is the sequence of its bytes.
-/

namespace EspcanBr.Base

/-- The bytes of an ASCII literal. -/
def ascii (s : String) : List UInt8 := s.toList.map Char.toUInt8

/-- The characters of a literal. -/
lemma toList_literal {s : String} {l : List Char} (literal : s = String.ofList l) : s.toList = l := by
  rw [literal, String.toList_ofList]

/-- The bytes of a literal, without evaluating how it is stored. -/
lemma ascii_literal {s : String} {l : List Char} (literal : s = String.ofList l) :
    ascii s = l.map Char.toUInt8 := by
  rw [ascii, toList_literal literal]

def LF : UInt8 := 0x0A

/-- The pieces between the occurrences of `pat`, at most `n` of them cut off. -/
def splitAtMost (pat : List UInt8) : ℕ → List UInt8 → List (List UInt8)
  | 0, text => [text]
  | n + 1, text =>
    match splitOnce pat text with
    | none => [text]
    | some (pre, post) => pre :: splitAtMost pat n post

/-- The pieces between the occurrences of `pat`. -/
def split (pat text : List UInt8) : List (List UInt8) := splitAtMost pat text.length text

/-- What stands before and after the last occurrence of the byte `b`. -/
def rsplitOnce (b : UInt8) (text : List UInt8) : Option (List UInt8 × List UInt8) :=
  (splitOnce [b] text.reverse).map fun (post, pre) => (pre.reverse, post.reverse)

/-- Decimal digits after `v`. -/
def decimalFrom (v : ℕ) : List UInt8 → Option ℕ
  | [] => some v
  | c :: cs => if 0x30 ≤ c ∧ c ≤ 0x39 then decimalFrom (10 * v + (c - 0x30).toNat) cs else none

/-- An unsigned number of at most `max`, with an optional plus sign. -/
def parseUnsigned (max : ℕ) (s : List UInt8) : Option ℕ :=
  let digits := if s.head? = some 0x2B then s.tail else s
  if digits = [] then none
  else (decimalFrom 0 digits).bind fun n => if n ≤ max then some n else none

/-- A byte that continues a character. -/
def isCont (b : UInt8) : Bool := 0x80 ≤ b ∧ b ≤ 0xBF

/-- The second byte `b` may follow the first byte `a` of a character of three bytes. -/
def second3 (a b : UInt8) : Bool :=
  if a = 0xE0 then 0xA0 ≤ b ∧ b ≤ 0xBF else if a = 0xED then 0x80 ≤ b ∧ b ≤ 0x9F else isCont b

/-- The second byte `b` may follow the first byte `a` of a character of four bytes. -/
def second4 (a b : UInt8) : Bool :=
  if a = 0xF0 then 0x90 ≤ b ∧ b ≤ 0xBF else if a = 0xF4 then 0x80 ≤ b ∧ b ≤ 0x8F else isCont b

/-- The bytes are UTF-8. -/
def validUtf8 : List UInt8 → Bool
  | [] => true
  | a :: l =>
    if a < 0x80 then validUtf8 l
    else if 0xC2 ≤ a ∧ a ≤ 0xDF then
      match l with
      | b :: l => isCont b && validUtf8 l
      | _ => false
    else if 0xE0 ≤ a ∧ a ≤ 0xEF then
      match l with
      | b :: c :: l => second3 a b && isCont c && validUtf8 l
      | _ => false
    else if 0xF0 ≤ a ∧ a ≤ 0xF4 then
      match l with
      | b :: c :: d :: l => second4 a b && isCont c && isCont d && validUtf8 l
      | _ => false
    else false

/-- ASCII white space. -/
def isSpace1 (a : UInt8) : Bool := 0x09 ≤ a ∧ a ≤ 0x0D ∨ a = 0x20

/-- White space of two bytes. -/
def isSpace2 (a b : UInt8) : Bool := a = 0xC2 ∧ (b = 0x85 ∨ b = 0xA0)

/-- White space of three bytes. -/
def isSpace3 (a b c : UInt8) : Bool :=
  a = 0xE1 ∧ b = 0x9A ∧ c = 0x80 ∨
  a = 0xE2 ∧ b = 0x80 ∧ (0x80 ≤ c ∧ c ≤ 0x8A ∨ c = 0xA8 ∨ c = 0xA9 ∨ c = 0xAF) ∨
  a = 0xE2 ∧ b = 0x81 ∧ c = 0x9F ∨
  a = 0xE3 ∧ b = 0x80 ∧ c = 0x80

/-- The text without the white space at its start, for white space of two and of three bytes. -/
def dropSpaces (space2 : UInt8 → UInt8 → Bool) (space3 : UInt8 → UInt8 → UInt8 → Bool) :
    List UInt8 → List UInt8
  | [] => []
  | a :: l =>
    if isSpace1 a then dropSpaces space2 space3 l
    else
      match l with
      | [] => [a]
      | b :: l' =>
        if space2 a b then dropSpaces space2 space3 l'
        else
          match l' with
          | [] => [a, b]
          | c :: l'' => if space3 a b c then dropSpaces space2 space3 l'' else a :: b :: c :: l''

/-- The text without the white space around it. -/
def trim (s : List UInt8) : List UInt8 :=
  let front := dropSpaces isSpace2 isSpace3 s
  (dropSpaces (fun a b => isSpace2 b a) (fun a b c => isSpace3 c b a) front.reverse).reverse

/-- The text with every white space replaced by a blank. -/
def blanks : List UInt8 → List UInt8
  | [] => []
  | a :: l =>
    if isSpace1 a then 0x20 :: blanks l
    else
      match l with
      | [] => [a]
      | b :: l' =>
        if isSpace2 a b then 0x20 :: blanks l'
        else
          match l' with
          | [] => a :: blanks [b]
          | c :: l'' => if isSpace3 a b c then 0x20 :: blanks l'' else a :: blanks (b :: c :: l'')

/-- The words between white space. -/
def splitWhitespace (s : List UInt8) : List (List UInt8) := (split [0x20] (blanks s)).filter (· ≠ [])

/-- A line that ended in a line feed, without a carriage return before it. -/
def stripCr (line : List UInt8) : List UInt8 :=
  if line.getLast? = some 0x0D then line.dropLast else line

/-- The lines of a text; a last one that is empty does not count. -/
def lines (text : List UInt8) : List (List UInt8) :=
  let pieces := split [LF] text
  pieces.dropLast.map stripCr ++ (pieces.getLast?.toList.filter (· ≠ []))

def toLower (b : UInt8) : UInt8 := if 0x41 ≤ b ∧ b ≤ 0x5A then b + 0x20 else b

/-- Equality up to the case of ASCII letters. -/
def eqIgnoreAsciiCase (s t : List UInt8) : Bool := s.map toLower = t.map toLower

/-- A number in decimal. -/
def decimal (n : ℕ) : List UInt8 := (Nat.toDigits 10 n).map Char.toUInt8

lemma rsplitOnce_iff {b : UInt8} {text pre post : List UInt8} :
    rsplitOnce b text = some (pre, post) ↔ text = pre ++ b :: post ∧ b ∉ post := by
  rw [rsplitOnce, Option.map_eq_some_iff]
  constructor
  · rintro ⟨⟨post', pre'⟩, cut, eq⟩
    cases eq
    have cut := splitOnce_iff.mp cut
    refine ⟨?_, by simpa using cut.not_mem⟩
    rw [← List.reverse_reverse text, cut.eq]
    simp
  · rintro ⟨rfl, no⟩
    refine ⟨(post.reverse, pre.reverse), splitOnce_iff.mpr ?_, by simp⟩
    have eq : (pre ++ b :: post).reverse = post.reverse ++ b :: pre.reverse := by simp
    rw [eq]
    exact .of_not_mem (by simpa using no) _

/-- A text is what trimming one letter leaves, and some of that letter. -/
lemma exists_trimEnd (a : UInt8) (s : List UInt8) : ∃ n, s = s.rdropWhile (· = a) ++ List.replicate n a := by
  refine ⟨(s.rtakeWhile (· = a)).length, ?_⟩
  have all : s.rtakeWhile (· = a) = List.replicate (s.rtakeWhile (· = a)).length a := by
    refine List.eq_replicate_iff.mpr ⟨rfl, fun b mem => ?_⟩
    simpa using List.mem_rtakeWhile_imp mem
  rw [← all, List.rdropWhile_append_rtakeWhile]

lemma trimEnd_append {a c : UInt8} (ne : c ≠ a) (front : List UInt8) (n : ℕ) :
    (front ++ [c] ++ List.replicate n a).rdropWhile (· = a) = front ++ [c] := by
  induction n with
  | zero =>
    rw [List.replicate_zero, List.append_nil]
    exact List.rdropWhile_concat_neg _ _ _ (by simpa using ne)
  | succ n ih =>
    rw [List.replicate_succ', ← List.append_assoc, List.rdropWhile_concat_pos _ _ _ (by simp), ih]

/-- A decimal digit. -/
def isDigit (c : UInt8) : Bool := 0x30 ≤ c ∧ c ≤ 0x39

/-- A number in decimal has digits alone. -/
lemma decimalFrom_digits {v n : ℕ} {s : List UInt8} (eq : decimalFrom v s = some n) :
    ∀ c ∈ s, isDigit c = true := by
  induction s generalizing v with
  | nil => simp
  | cons c s ih =>
    rw [decimalFrom] at eq
    split at eq
    · rename_i digit
      rw [List.forall_mem_cons]
      exact ⟨decide_eq_true digit, ih eq⟩
    · cases eq

/-- An optional plus sign. -/
def plusSign (plus : Bool) : List UInt8 := if plus then [0x2B] else []

lemma parseUnsigned_iff {max n : ℕ} {s : List UInt8} :
    parseUnsigned max s = some n ↔
      ∃ plus digits, s = plusSign plus ++ digits ∧ digits ≠ [] ∧ decimalFrom 0 digits = some n ∧ n ≤ max := by
  have digits : ∀ {digits : List UInt8}, (if digits = [] then none
      else (decimalFrom 0 digits).bind fun n => if n ≤ max then some n else none) = some n ↔
      digits ≠ [] ∧ decimalFrom 0 digits = some n ∧ n ≤ max := by
    intro digits
    simp only [Option.ite_none_left_eq_some, Option.bind_eq_some_iff, Option.ite_none_right_eq_some]
    constructor
    · rintro ⟨ne, m, eq, le, same⟩
      cases same
      exact ⟨ne, eq, le⟩
    · rintro ⟨ne, eq, le⟩
      exact ⟨ne, n, eq, le, rfl⟩
  rw [parseUnsigned]
  constructor
  · intro eq
    by_cases plus : s.head? = some 0x2B
    · obtain ⟨rest, rfl⟩ := List.head?_eq_some_iff.mp plus
      rw [if_pos plus] at eq
      exact ⟨true, rest, rfl, digits.mp eq⟩
    · rw [if_neg plus] at eq
      exact ⟨false, s, rfl, digits.mp eq⟩
  · rintro ⟨plus, ds, rfl, spec⟩
    cases plus with
    | false =>
      -- digits do not start with a sign
      have no : ds.head? ≠ some 0x2B := by
        intro plus
        obtain ⟨rest, rfl⟩ := List.head?_eq_some_iff.mp plus
        have digit := decimalFrom_digits spec.2.1 0x2B List.mem_cons_self
        cases digit
      have bare : plusSign false ++ ds = ds := rfl
      rw [bare, if_neg no]
      exact digits.mpr spec
    | true => exact digits.mpr spec

/-- A character that is no white space stops `dropSpaces`. -/
lemma dropSpaces_stop {space2 : UInt8 → UInt8 → Bool} {space3 : UInt8 → UInt8 → UInt8 → Bool} {a : UInt8}
    (no1 : isSpace1 a = false) (no2 : ∀ b, space2 a b = false) (no3 : ∀ b c, space3 a b c = false)
    (l : List UInt8) : dropSpaces space2 space3 (a :: l) = a :: l := by
  rcases l with _ | ⟨b, _ | ⟨c, l⟩⟩
  · simp [dropSpaces, no1]
  · simp [dropSpaces, no1, no2]
  · simp [dropSpaces, no1, no2, no3]

/-- A printable character of ASCII. -/
def isGraph (a : UInt8) : Bool := 0x21 ≤ a ∧ a ≤ 0x7E

/-- It is not white space, nor part of it. -/
lemma isGraph_spec {a : UInt8} (graph : isGraph a = true) :
    isSpace1 a = false ∧ (∀ b, isSpace2 a b = false ∧ isSpace2 b a = false) ∧
      ∀ b c, isSpace3 a b c = false ∧ isSpace3 c b a = false := by
  have all : ∀ a, isGraph a = true → isSpace1 a = false ∧ a ∉ [0xC2, 0x85, 0xA0, 0xE1, 0xE2, 0xE3] ∧
      ¬ 0x80 ≤ a := all_bytes (by decide +kernel)
  obtain ⟨no1, other, low⟩ := all a graph
  simp only [List.mem_cons, List.not_mem_nil, or_false, not_or] at other
  obtain ⟨c2, x85, a0, e1, e2, e3⟩ := other
  have high : a ≠ 0x80 ∧ a ≠ 0x9F ∧ a ≠ 0xA8 ∧ a ≠ 0xA9 ∧ a ≠ 0xAF := by
    refine ⟨?_, ?_, ?_, ?_, ?_⟩ <;> (rintro rfl; exact low (by decide))
  refine ⟨no1, fun b => ?_, fun b c => ?_⟩
  · simp [isSpace2, c2, x85, a0]
  · simp [isSpace3, e1, e2, e3, high, low]

/-- A text between printable characters is left as it is, and so is the one with a blank before it. -/
lemma trim_self {a b : UInt8} {s front : List UInt8} (first : isGraph a = true) (last : isGraph b = true)
    (eq : a :: s = front ++ [b]) : trim (a :: s) = a :: s ∧ trim (0x20 :: a :: s) = a :: s := by
  obtain ⟨no1, no2, no3⟩ := isGraph_spec first
  obtain ⟨no1', no2', no3'⟩ := isGraph_spec last
  have start := dropSpaces_stop no1 (fun b => (no2 b).1) (fun b c => (no3 b c).1) s
  have stop : dropSpaces (fun a b => isSpace2 b a) (fun a b c => isSpace3 c b a) (b :: front.reverse) =
      b :: front.reverse :=
    dropSpaces_stop no1' (fun b => (no2' b).2) (fun b c => (no3' b c).2) front.reverse
  have blank : dropSpaces isSpace2 isSpace3 (0x20 :: a :: s) = dropSpaces isSpace2 isSpace3 (a :: s) := by
    rw [dropSpaces.eq_def]
    exact if_pos (by decide)
  have back : (a :: s).reverse = b :: front.reverse := by simp [eq]
  refine ⟨?_, ?_⟩
  · simp only [trim, start, back, stop]
    rw [← back, List.reverse_reverse]
  · simp only [trim, blank, start, back, stop]
    rw [← back, List.reverse_reverse]

/-- The first piece is a prefix of the text, and all of it without the separator. -/
lemma splitAtMost_head (pat : List UInt8) (n : ℕ) (text : List UInt8) :
    ∃ piece rest, splitAtMost pat n text = piece :: rest ∧ piece <+: text ∧
      (¬ pat <:+: text → piece = text) := by
  cases n with
  | zero => exact ⟨text, [], rfl, List.prefix_rfl, fun _ => rfl⟩
  | succ n =>
    rw [splitAtMost]
    split
    · exact ⟨text, [], rfl, List.prefix_rfl, fun _ => rfl⟩
    · rename_i pre post cut
      have split := splitOnce_iff.mp cut
      refine ⟨pre, _, rfl, ⟨pat ++ post, ?_⟩, fun no => absurd ⟨pre, post, split.eq.symm⟩ no⟩
      rw [split.eq, List.append_assoc]

/-- The second piece stands right after the first separator. -/
lemma split_second {pat text pre post : List UInt8} (ne : pat ≠ []) (cut : FirstSplit pat text pre post) :
    ∃ piece, (split pat text)[1]? = some piece ∧ piece <+: post ∧ (¬ pat <:+: post → piece = post) := by
  have pos : 0 < pat.length := List.length_pos_iff.mpr ne
  obtain ⟨n, len⟩ : ∃ n, text.length = n + 1 := by
    refine Nat.exists_eq_succ_of_ne_zero fun zero => ?_
    have total := congrArg List.length cut.eq
    simp only [List.length_append] at total
    omega
  obtain ⟨piece, rest, eq, pre, whole⟩ := splitAtMost_head pat n post
  refine ⟨piece, ?_, pre, whole⟩
  rw [split, len, splitAtMost, splitOnce_iff.mpr cut]
  simp only [eq]
  rfl

/-- The second piece ends where the next separator starts. -/
lemma split_second_cut {pat text pre post pre' post' : List UInt8} (ne : pat ≠ [])
    (cut : FirstSplit pat text pre post) (again : FirstSplit pat post pre' post') :
    (split pat text)[1]? = some pre' := by
  have pos : 0 < pat.length := List.length_pos_iff.mpr ne
  obtain ⟨n, len⟩ : ∃ n, text.length = n + 1 + 1 := by
    refine ⟨text.length - 2, ?_⟩
    have total := congrArg List.length cut.eq
    have inner := congrArg List.length again.eq
    simp only [List.length_append] at total inner
    omega
  rw [split, len, splitAtMost, splitOnce_iff.mpr cut]
  simp only [splitAtMost, splitOnce_iff.mpr again]
  rfl

/-- Without the separator there is no second piece. -/
lemma split_single {pat text : List UInt8} (no : ¬ pat <:+: text) : (split pat text)[1]? = none := by
  rw [split]
  cases text.length with
  | zero => rfl
  | succ n =>
    rw [splitAtMost, splitOnce_eq_none no]
    rfl

/-- With a separator of one byte the pieces are those of `List.splitOn`. -/
lemma splitAtMost_eq {b : UInt8} {n : ℕ} {text : List UInt8} (le : text.length ≤ n) :
    splitAtMost [b] n text = text.splitOn b := by
  induction n generalizing text with
  | zero =>
    rw [List.eq_nil_of_length_eq_zero (Nat.le_zero.mp le)]
    rfl
  | succ n ih =>
    rw [splitAtMost]
    split
    · rename_i none
      rw [List.splitOn_eq_singleton (splitOnce_single_none.mp none)]
    · rename_i pre post cut
      have cut := splitOnce_iff.mp cut
      have total := congrArg List.length cut.eq
      simp only [List.length_append, List.length_singleton] at total
      rw [ih (by omega), cut.eq, List.append_assoc]
      exact (List.splitOn_append_cons_self_of_not_mem cut.not_mem _).symm

lemma split_eq_splitOn (b : UInt8) (text : List UInt8) : split [b] text = text.splitOn b :=
  splitAtMost_eq le_rfl

/-- The separator stands in none of the pieces. -/
lemma not_mem_splitOn {b : UInt8} {text piece : List UInt8} (mem : piece ∈ text.splitOn b) :
    b ∉ piece := by
  induction len : text.length using Nat.strong_induction_on generalizing text with
  | _ n ih =>
    by_cases occurs : b ∈ text
    · obtain ⟨front, rest, rfl, no⟩ := List.eq_append_cons_of_mem occurs
      rw [List.length_append, List.length_cons] at len
      rw [List.splitOn_append_cons_self_of_not_mem no] at mem
      rcases List.mem_cons.mp mem with rfl | mem
      · exact no
      · exact ih rest.length (by omega) mem rfl
    · rw [List.splitOn_eq_singleton occurs, List.mem_singleton] at mem
      rw [mem]
      exact occurs

/-- What follows a text without a separator belongs to its last piece. -/
lemma splitOn_append_last (b : UInt8) (text : List UInt8) :
    ∃ front last, ∀ more, b ∉ more → (text ++ more).splitOn b = front ++ [last ++ more] := by
  by_cases mem : b ∈ text.reverse
  · obtain ⟨s, t, eq, no⟩ := List.eq_append_cons_of_mem mem
    have eq : text = t.reverse ++ b :: s.reverse := by
      rw [← List.reverse_reverse text, eq]
      simp
    refine ⟨t.reverse.splitOn b, s.reverse, fun more none => ?_⟩
    have no' : b ∉ s.reverse ++ more := by
      rw [List.mem_append, List.mem_reverse]
      tauto
    rw [eq, List.append_assoc, List.cons_append, List.splitOn_append_cons_self,
      List.splitOn_eq_singleton no']
  · refine ⟨[], text, fun more none => ?_⟩
    apply List.splitOn_eq_singleton
    rw [List.mem_append, ← List.mem_reverse]
    tauto

/-- What is taken up to an element that fails stands before it. -/
lemma mem_takeWhile {α : Type*} {p : α → Bool} {front rest : List α} {a b : α} (no : p a = false)
    (mem : b ∈ (front ++ a :: rest).takeWhile p) : b ∈ front := by
  induction front with
  | nil => simp [no] at mem
  | cons c front ih =>
    rw [List.cons_append, List.takeWhile_cons] at mem
    split at mem
    · rcases List.mem_cons.mp mem with rfl | mem
      · exact List.mem_cons_self
      · exact List.mem_cons_of_mem _ (ih mem)
    · cases mem

/-- What is taken up to an element that fails does not depend on what follows it. -/
lemma takeWhile_stop {α : Type*} {p : α → Bool} (front rest : List α) {a : α} (no : p a = false) :
    (front ++ a :: rest).takeWhile p = front.takeWhile p := by
  rw [List.takeWhile_append]
  split
  · rename_i all
    rw [List.takeWhile_cons, no, (List.takeWhile_prefix p).eq_of_length all]
    simp
  · rfl

/-- The lines of a text whose last line goes on. -/
def headLines (head : List UInt8) : List (List UInt8) :=
  (head.splitOn LF).dropLast.map stripCr ++ (head.splitOn LF).getLast?.toList

/-- The lines of a text up to the first pair of line ends do not depend on what follows it. -/
lemma lines_break (head rest : List UInt8) :
    ∃ more, lines (head ++ ascii "\r\n\r\n" ++ rest) = headLines head ++ [] :: more := by
  obtain ⟨front, last, pieces⟩ := splitOn_append_last LF head
  have ends : LF ∉ [0x0D] := by decide
  have whole : (head ++ ascii "\r\n\r\n" ++ rest).splitOn LF =
      (front ++ [last ++ [0x0D]]) ++ ([0x0D] :: rest.splitOn LF) := by
    have eq : head ++ ascii "\r\n\r\n" ++ rest = (head ++ [0x0D]) ++ LF :: ([0x0D] ++ LF :: rest) := by
      have brk : ascii "\r\n\r\n" = [0x0D, LF, 0x0D, LF] := by decide
      simp [brk]
    rw [eq, List.splitOn_append_cons_self, pieces _ ends, List.splitOn_append_cons_self_of_not_mem ends]
  have own := pieces [] List.not_mem_nil
  rw [List.append_nil, List.append_nil] at own
  have cr : stripCr [0x0D] = [] := by decide
  have last' : stripCr (last ++ [0x0D]) = last := by simp [stripCr]
  have ne := List.splitOn_ne_nil LF rest
  -- the line that ends with the first line end, and the empty line after it
  refine ⟨(rest.splitOn LF).dropLast.map stripCr ++ ((rest.splitOn LF).getLast?.toList.filter (· ≠ [])), ?_⟩
  rw [headLines, own, List.dropLast_concat, List.getLast?_concat, lines, split_eq_splitOn, whole,
    List.dropLast_append_of_ne_nil (List.cons_ne_nil _ _), List.dropLast_cons_of_ne_nil ne,
    List.getLast?_append_of_ne_nil _ (List.cons_ne_nil _ _)]
  obtain ⟨q, qs, eq⟩ := List.exists_cons_of_ne_nil ne
  simp [eq, cr, last']

lemma headLines_ne_nil (head : List UInt8) : headLines head ≠ [] := by
  rw [headLines, List.getLast?_eq_some_getLast (List.splitOn_ne_nil LF head)]
  simp

lemma headLines_single {line : List UInt8} (no : LF ∉ line) : headLines line = [line] := by
  rw [headLines, List.splitOn_eq_singleton no]
  rfl

lemma headLines_cons {line : List UInt8} (no : LF ∉ line) (rest : List UInt8) :
    headLines (line ++ ascii "\r\n" ++ rest) = line :: headLines rest := by
  have ends : ascii "\r\n" = [0x0D, LF] := by decide
  have no' : LF ∉ line ++ [0x0D] := by
    rw [List.mem_append, List.mem_singleton, not_or]
    exact ⟨no, by decide⟩
  have strip : stripCr (line ++ [0x0D]) = line := by simp [stripCr]
  have cut : line ++ ascii "\r\n" ++ rest = (line ++ [0x0D]) ++ LF :: rest := by simp [ends]
  have ne := List.splitOn_ne_nil LF rest
  obtain ⟨q, qs, eq⟩ := List.exists_cons_of_ne_nil ne
  rw [headLines, headLines, cut, List.splitOn_append_cons_self_of_not_mem no',
    List.dropLast_cons_of_ne_nil ne, List.map_cons, strip]
  simp [eq]

/-- The lines between line ends. -/
lemma headLines_intercalate {ls : List (List UInt8)} (ne : ls ≠ []) (no : ∀ line ∈ ls, LF ∉ line) :
    headLines ((ascii "\r\n").intercalate ls) = ls := by
  induction ls with
  | nil => exact absurd rfl ne
  | cons line ls ih =>
    have first := no line List.mem_cons_self
    rcases ls with _ | ⟨line', ls⟩
    · simpa using headLines_single first
    · have rest := ih (List.cons_ne_nil _ _) fun line mem => no line (List.mem_cons_of_mem _ mem)
      have cut : (ascii "\r\n").intercalate (line :: line' :: ls) =
          line ++ ascii "\r\n" ++ (ascii "\r\n").intercalate (line' :: ls) := by
        simp [List.intercalate]
      rw [cut, headLines_cons first, rest]

/-- Up to the first empty line the lines of a text are those before its first pair of line ends. -/
lemma lines_before (head rest : List UInt8) {line : List UInt8}
    (mem : line ∈ (lines (head ++ ascii "\r\n\r\n" ++ rest)).takeWhile (· ≠ [])) : line ∈ lines head := by
  obtain ⟨more, eq⟩ := lines_break head rest
  rw [eq] at mem
  have nonempty := List.mem_takeWhile_imp mem
  have before := mem_takeWhile (by simp) mem
  rw [lines, split_eq_splitOn]
  rcases List.mem_append.mp before with inner | final
  · exact List.mem_append_left _ inner
  · refine List.mem_append_right _ (List.mem_filter.mpr ⟨final, nonempty⟩)

end EspcanBr.Base
