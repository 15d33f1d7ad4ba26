import Mathlib

/-!
# JSON objects

A reader of JSON for objects of strings, numbers and literals. The text of a string is a sequence of
ordinary characters and escapes (`StringText`); it is read as the characters these stand for
(`StringText.read`). The text of an object is read member by member (`readObject_print`).
-/

namespace EspcanBr.Base

/-- The value of a hexadecimal digit. -/
def hexDigit (c : Char) : Option ℕ :=
  if '0' ≤ c ∧ c ≤ '9' then some (c.toNat - '0'.toNat)
  else if 'a' ≤ c ∧ c ≤ 'f' then some (c.toNat - 'a'.toNat + 10)
  else if 'A' ≤ c ∧ c ≤ 'F' then some (c.toNat - 'A'.toNat + 10)
  else none

/-- The number that four hexadecimal digits denote. -/
def hexNumber (a b c d : Char) : Option ℕ := do
  let a ← hexDigit a
  let b ← hexDigit b
  let c ← hexDigit c
  let d ← hexDigit d
  some (((a * 16 + b) * 16 + c) * 16 + d)

/-- The character of an escape of one letter. -/
def shortEscape (c : Char) : Option Char :=
  if c = '"' then some '"'
  else if c = '\\' then some '\\'
  else if c = '/' then some '/'
  else if c = 'b' then some '\x08'
  else if c = 'f' then some '\x0c'
  else if c = 'n' then some '\n'
  else if c = 'r' then some '\r'
  else if c = 't' then some '\t'
  else none

/-- What a string consists of: characters, and code units of UTF-16. -/
inductive Piece where
  | char (c : Char)
  | unit (n : ℕ)

/-- The four digits of a code unit, and what follows. -/
def readUnit : List Char → Option (Piece × List Char)
  | h :: i :: j :: k :: rest => (hexNumber h i j k).map fun n => (.unit n, rest)
  | _ => none

/-- What follows a backslash. -/
def readEscape : List Char → Option (Piece × List Char)
  | [] => none
  | d :: rest => if d = 'u' then readUnit rest else (shortEscape d).map fun e => (.char e, rest)

def readPiece : List Char → Option (Piece × List Char)
  | [] => none
  | c :: rest =>
    if c = '\\' then readEscape rest
    else if c.toNat < 0x20 then none
    else some (.char c, rest)

/-- The pieces of a string up to the quote that ends it, and what follows; at most so many. -/
def readPieces : ℕ → List Char → Option (List Piece × List Char)
  | 0, _ => none
  | fuel + 1, text =>
    if text.head? = some '"' then some ([], text.tail)
    else do
      let (p, rest) ← readPiece text
      let (pieces, rest) ← readPieces fuel rest
      some (p :: pieces, rest)

def isHighSurrogate (n : ℕ) : Bool := 0xD800 ≤ n ∧ n < 0xDC00
def isLowSurrogate (n : ℕ) : Bool := 0xDC00 ≤ n ∧ n < 0xE000

/-- The characters of some pieces; a surrogate without its other half is none. -/
def joinPieces : List Piece → Option (List Char)
  | [] => some []
  | .char c :: pieces => (joinPieces pieces).map (c :: ·)
  | .unit n :: pieces =>
    if isHighSurrogate n then
      match pieces with
      | .unit m :: pieces =>
        if isLowSurrogate m then
          (joinPieces pieces).map (Char.ofNat (0x10000 + (n - 0xD800) * 0x400 + (m - 0xDC00)) :: ·)
        else none
      | _ => none
    else if isLowSurrogate n then none
    else (joinPieces pieces).map (Char.ofNat n :: ·)

/-- A string, and what follows it. -/
def readString : List Char → Option (List Char × List Char)
  | [] => none
  | c :: rest =>
    if c = '"' then do
      let (pieces, rest) ← readPieces rest.length rest
      let s ← joinPieces pieces
      some (s, rest)
    else none

/-- The text stands for the character in a string: it is the character itself, an escape of one letter
or one of four digits. -/
inductive StringChar : List Char → Char → Prop where
  | plain {c} :
    0x20 ≤ c.toNat →
    c ≠ '"' →
    c ≠ '\\' →
    StringChar [c] c
  | short {d c} :
    shortEscape d = some c →
    StringChar ['\\', d] c
  | code {h i j k n} :
    hexNumber h i j k = some n →
    n < 0xD800 →
    StringChar ['\\', 'u', h, i, j, k] (Char.ofNat n)

/-- The text is that of a string, between the quotes. -/
inductive StringText : List Char → List Char → Prop where
  | nil :
    StringText [] []
  | cons {text c texts s} :
    StringChar text c →
    StringText texts s →
    StringText (text ++ texts) (c :: s)

/-- The text of a character is one piece, and does not start with a quote. -/
lemma StringChar.readPiece {text : List Char} {c : Char} (char : StringChar text c) :
    ∃ p, (∀ pieces, joinPieces (p :: pieces) = (joinPieces pieces).map (c :: ·)) ∧
      ∀ rest, (text ++ rest).head? ≠ some '"' ∧ Base.readPiece (text ++ rest) = some (p, rest) := by
  cases char with
  | plain printable quote slash =>
    refine ⟨.char c, fun _ => rfl, fun rest => ⟨by simpa using quote, ?_⟩⟩
    rw [List.singleton_append, Base.readPiece, if_neg slash, if_neg (Nat.not_lt.mpr printable)]
  | @short e _ escape =>
    have letter : e ≠ 'u' := by
      rintro rfl
      cases escape
    refine ⟨.char c, fun _ => rfl, fun rest => ⟨by simp, ?_⟩⟩
    rw [List.cons_append, Base.readPiece, if_pos rfl, List.singleton_append, readEscape, if_neg letter, escape]
    rfl
  | @code h i j k n number small =>
    have high : isHighSurrogate n = false := by
      simp only [isHighSurrogate, decide_eq_false_iff_not]
      omega
    have low : isLowSurrogate n = false := by
      simp only [isLowSurrogate, decide_eq_false_iff_not]
      omega
    refine ⟨.unit n, fun pieces => ?_, fun rest => ⟨by simp, ?_⟩⟩
    · rw [joinPieces.eq_def]
      simp [high, low]
    · have digits : readUnit (h :: i :: j :: k :: rest) = some (.unit n, rest) := by
        rw [readUnit, number]
        rfl
      exact digits

lemma StringText.length_le {text s : List Char} (string : StringText text s) : s.length ≤ text.length := by
  induction string with
  | nil => exact le_rfl
  | @cons text c texts s char _ ih =>
    have pos : 0 < text.length := by cases char <;> simp
    rw [List.length_append, List.length_cons]
    omega

/-- A string is read as the characters that its text stands for. -/
theorem StringText.read {text s : List Char} (string : StringText text s) (rest : List Char) :
    readString ('"' :: text ++ '"' :: rest) = some (s, rest) := by
  have pieces : ∀ fuel, s.length < fuel → ∃ pieces,
      readPieces fuel (text ++ '"' :: rest) = some (pieces, rest) ∧ joinPieces pieces = some s := by
    induction string with
    | nil =>
      intro fuel lt
      obtain ⟨fuel, rfl⟩ := Nat.exists_eq_succ_of_ne_zero (Nat.ne_zero_of_lt lt)
      exact ⟨[], rfl, rfl⟩
    | @cons text c texts s char _ ih =>
      intro fuel lt
      obtain ⟨fuel, rfl⟩ := Nat.exists_eq_succ_of_ne_zero (Nat.ne_zero_of_lt lt)
      obtain ⟨pieces, read, join⟩ := ih fuel (Nat.lt_of_succ_lt_succ lt)
      obtain ⟨p, joins, reads⟩ := char.readPiece
      obtain ⟨quote, first⟩ := reads (texts ++ '"' :: rest)
      refine ⟨p :: pieces, ?_, ?_⟩
      · rw [List.append_assoc, readPieces, if_neg quote, first, Option.bind_eq_bind, Option.bind_some]
        simp [read]
      · rw [joins, join]
        rfl
  have enough : s.length < (text ++ '"' :: rest).length := by
    have le := string.length_le
    rw [List.length_append, List.length_cons]
    omega
  obtain ⟨pieces, read, join⟩ := pieces _ enough
  rw [List.cons_append, readString, if_pos rfl, read]
  simp [join]

lemma hexDigit_printable {c : Char} {n : ℕ} (digit : hexDigit c = some n) : 0x20 ≤ c.toNat := by
  have above : ∀ {first : Char}, 0x20 ≤ first.toNat → first ≤ c → 0x20 ≤ c.toNat := by
    intro first ge le
    exact ge.trans (UInt32.le_iff_toNat_le.mp le)
  rw [hexDigit] at digit
  split at digit
  · rename_i range
    exact above (by decide) range.1
  · split at digit
    · rename_i range
      exact above (by decide) range.1
    · split at digit
      · rename_i range
        exact above (by decide) range.1
      · cases digit

lemma hexNumber_digits {h i j k : Char} {n : ℕ} (number : hexNumber h i j k = some n) :
    ∀ c ∈ [h, i, j, k], ∃ m, hexDigit c = some m := by
  simp only [hexNumber, Option.bind_eq_bind, Option.bind_eq_some_iff] at number
  obtain ⟨a, first, b, second, c, third, d, fourth, -⟩ := number
  simp only [List.forall_mem_cons, List.not_mem_nil, false_implies, implies_true, and_true]
  exact ⟨⟨a, first⟩, ⟨b, second⟩, ⟨c, third⟩, ⟨d, fourth⟩⟩

lemma shortEscape_printable {c d : Char} (escape : shortEscape d = some c) : 0x20 ≤ d.toNat := by
  have letters : d ∈ ['"', '\\', '/', 'b', 'f', 'n', 'r', 't'] := by
    by_contra other
    simp only [List.mem_cons, List.not_mem_nil, or_false, not_or] at other
    simp [shortEscape, other] at escape
  have all : ∀ d ∈ ['"', '\\', '/', 'b', 'f', 'n', 'r', 't'], 0x20 ≤ d.toNat := by simp
  exact all d letters

/-- The text of a string has no control character. -/
lemma StringText.printable {text s : List Char} (string : StringText text s) :
    ∀ c ∈ text, 0x20 ≤ c.toNat := by
  have slash : 0x20 ≤ '\\'.toNat := by decide
  induction string with
  | nil => exact fun _ mem => (List.not_mem_nil mem).elim
  | cons char _ ih =>
    refine List.forall_mem_append.mpr ⟨?_, ih⟩
    cases char with
    | plain printable _ _ => simpa using printable
    | short escape =>
      rw [List.forall_mem_cons, List.forall_mem_singleton]
      exact ⟨slash, shortEscape_printable escape⟩
    | code number _ =>
      rw [List.forall_mem_cons, List.forall_mem_cons]
      refine ⟨slash, by decide, fun c mem => ?_⟩
      obtain ⟨m, digit⟩ := hexNumber_digits number c mem
      exact hexDigit_printable digit

/-- The characters of a text without its backslashes and what these escape. A backslash at the end escapes
nothing, and is one of them. -/
def unescaped : List Char → List Char
  | [] => []
  | [c] => [c]
  | c :: d :: rest => if c = '\\' then unescaped rest else c :: unescaped (d :: rest)

lemma unescaped_cons {c : Char} (ne : c ≠ '\\') (rest : List Char) :
    unescaped (c :: rest) = c :: unescaped rest := by
  cases rest with
  | nil => rfl
  | cons d rest => exact if_neg ne

/-- A text without backslashes in it escapes nothing. -/
lemma unescaped_append {cs : List Char} (no : '\\' ∉ cs) (rest : List Char) :
    unescaped (cs ++ rest) = cs ++ unescaped rest := by
  induction cs with
  | nil => rfl
  | cons c cs ih =>
    rw [List.mem_cons, not_or] at no
    rw [List.cons_append, unescaped_cons (Ne.symm no.1), ih no.2, List.cons_append]

/-- A hexadecimal digit is no quote and no backslash. -/
lemma hexDigit_ordinary {c : Char} {n : ℕ} (digit : hexDigit c = some n) : c ≠ '"' ∧ c ≠ '\\' := by
  refine ⟨?_, ?_⟩
  · rintro rfl
    cases digit
  · rintro rfl
    cases digit

/-- The text of a string has no quotes and no backslashes but for those of its escapes. -/
lemma StringText.unescaped_ordinary {text s : List Char} (string : StringText text s) :
    ∀ c ∈ unescaped text, c ≠ '"' ∧ c ≠ '\\' := by
  induction string with
  | nil => exact fun _ mem => (List.not_mem_nil mem).elim
  | @cons text c texts s char _ ih =>
    cases char with
    | plain _ quote slash =>
      rw [List.singleton_append, unescaped_cons slash, List.forall_mem_cons]
      exact ⟨⟨quote, slash⟩, ih⟩
    | short _ => exact ih
    | @code h i j k n number _ =>
      have digits : ∀ c ∈ [h, i, j, k], c ≠ '"' ∧ c ≠ '\\' := by
        intro c mem
        obtain ⟨m, digit⟩ := hexNumber_digits number c mem
        exact hexDigit_ordinary digit
      have after : unescaped (['\\', 'u', h, i, j, k] ++ texts) = [h, i, j, k] ++ unescaped texts :=
        unescaped_append (fun mem => (digits _ mem).2 rfl) texts
      rw [after]
      exact List.forall_mem_append.mpr ⟨digits, ih⟩

/-- Text with neither quotes, backslashes nor control characters stands for itself. -/
lemma StringText.self {s : List Char} (plain : ∀ c ∈ s, 0x20 ≤ c.toNat ∧ c ≠ '"' ∧ c ≠ '\\') :
    StringText s s := by
  induction s with
  | nil => exact .nil
  | cons c s ih =>
    rw [List.forall_mem_cons] at plain
    obtain ⟨⟨printable, quote, slash⟩, rest⟩ := plain
    exact .cons (.plain printable quote slash) (ih rest)

/-- A value that is no object and no array. -/
inductive Scalar where
  | str (s : List Char)
  | num (n : ℕ)
  | bool (b : Bool)
  | null
  deriving DecidableEq

/-- A number without sign, fraction and exponent, and what follows it. -/
def readNumber (text : List Char) : Option (Scalar × List Char) :=
  let digits := text.takeWhile Char.isDigit
  if digits = [] ∨ (digits.head? = some '0' ∧ digits ≠ ['0']) then none
  else some (.num (Nat.ofDigitChars 10 digits 0), text.dropWhile Char.isDigit)

/-- A literal, if the text starts with it, and what follows it. -/
def readLiteral (name : String) (value : Scalar) (text : List Char) : Option (Scalar × List Char) :=
  if name.toList.isPrefixOf text then some (value, text.drop name.toList.length) else none

def readScalar (text : List Char) : Option (Scalar × List Char) :=
  ((readString text).map fun (s, rest) => (.str s, rest)) <|>
  readLiteral "true" (.bool true) text <|>
  readLiteral "false" (.bool false) text <|>
  readLiteral "null" .null text <|>
  readNumber text

/-- The text without white space at its start. -/
def skipSpace (text : List Char) : List Char := text.dropWhile (· ∈ [' ', '\t', '\n', '\r'])

/-- What follows a character, if the text starts with it. -/
def expect (c : Char) (text : List Char) : Option (List Char) :=
  if text.head? = some c then some text.tail else none

/-- The members of an object up to its closing brace, and what follows; at most so many. -/
def readMembers : ℕ → List Char → Option (List (List Char × Scalar) × List Char)
  | 0, _ => none
  | fuel + 1, text => do
    let (key, text) ← readString (skipSpace text)
    let text ← expect ':' (skipSpace text)
    let (value, text) ← readScalar (skipSpace text)
    match expect ',' (skipSpace text) with
    | some text =>
      let (members, text) ← readMembers fuel text
      some ((key, value) :: members, text)
    | none =>
      let text ← expect '\x7d' (skipSpace text)
      some ([(key, value)], text)

/-- An object of scalars, without anything after it. -/
def readObject (text : List Char) : Option (List (List Char × Scalar)) := do
  let text ← expect '\x7b' (skipSpace text)
  match expect '\x7d' (skipSpace text) with
  | some text => if skipSpace text = [] then some [] else none
  | none =>
    let (members, text) ← readMembers text.length text
    if skipSpace text = [] then some members else none

/-- A text that is read as a value, whatever follows it. -/
def ReadsAs (text : List Char) (value : Scalar) : Prop :=
  ∀ c rest, c = ',' ∨ c = '\x7d' → readScalar (skipSpace (text ++ c :: rest)) = some (value, c :: rest)

/-- A member: the text of its key and of its value, and what they stand for. -/
structure Member where
  keyText : List Char
  key : List Char
  valueText : List Char
  value : Scalar
  keyRead : StringText keyText key
  valueRead : ReadsAs valueText value

def Member.text (m : Member) : List Char := '"' :: m.keyText ++ '"' :: ':' :: m.valueText

/-- The texts of some members, with commas between them. -/
def printMembers : List Member → List Char
  | [] => []
  | [m] => m.text
  | m :: ms => m.text ++ ',' :: printMembers ms

def printObject (members : List Member) : List Char := '\x7b' :: printMembers members ++ ['\x7d']

/-- A string is read as the characters that it stands for. -/
lemma StringText.readsAs {text s : List Char} (string : StringText text s) :
    ReadsAs ('"' :: text ++ ['"']) (.str s) := by
  intro c rest _
  have read := string.read (c :: rest)
  have skip : skipSpace ('"' :: text ++ ['"'] ++ c :: rest) = '"' :: text ++ '"' :: c :: rest := by
    simp [skipSpace]
  rw [skip, readScalar, read]
  rfl

lemma readsAs_bool (b : Bool) : ReadsAs (if b then "true".toList else "false".toList) (.bool b) := by
  intro c rest _
  cases b with
  | true => rfl
  | false => rfl

/-- A number in decimal has no zeros in front. -/
lemma toDigits_head {n : ℕ} (zero : (Nat.toDigits 10 n).head? = some '0') : Nat.toDigits 10 n = ['0'] := by
  induction n using Nat.strong_induction_on with
  | _ n ih =>
    have step := Nat.toDigits_eq_if (b := 10) (n := n) (by decide)
    by_cases lt : n < 10
    · rw [if_pos lt] at step
      rw [step] at zero ⊢
      simpa using zero
    · rw [if_neg lt] at step
      rw [step, List.head?_append_of_ne_nil _ Nat.toDigits_ne_nil] at zero
      have front := ih (n / 10) (by omega) zero
      -- the part in front is a number that is not zero
      have value := Nat.ofDigitChars_ten_toDigits (n := n / 10)
      rw [front] at value
      have none : n / 10 = 0 := value.symm
      omega

/-- A number in decimal is read, up to what is no digit. -/
lemma readNumber_toDigits (n : ℕ) {c : Char} (stop : c.isDigit = false) (rest : List Char) :
    readNumber (Nat.toDigits 10 n ++ c :: rest) = some (.num n, c :: rest) := by
  have digits : ∀ d ∈ Nat.toDigits 10 n, d.isDigit = true := fun d mem =>
    Nat.isDigit_of_mem_toDigits (by decide) le_rfl mem
  have take : (Nat.toDigits 10 n ++ c :: rest).takeWhile Char.isDigit = Nat.toDigits 10 n := by
    rw [List.takeWhile_append_of_pos digits, List.takeWhile_cons_of_neg (by simp [stop]), List.append_nil]
  have drop : (Nat.toDigits 10 n ++ c :: rest).dropWhile Char.isDigit = c :: rest := by
    rw [List.dropWhile_append_of_pos digits, List.dropWhile_cons_of_neg (by simp [stop])]
  have good : ¬ (Nat.toDigits 10 n = [] ∨
      ((Nat.toDigits 10 n).head? = some '0' ∧ Nat.toDigits 10 n ≠ ['0'])) := by
    rintro (none | ⟨zero, more⟩)
    · exact Nat.toDigits_ne_nil none
    · exact more (toDigits_head zero)
  rw [readNumber]
  simp only [take, drop]
  rw [if_neg good, Nat.ofDigitChars_ten_toDigits]

lemma readsAs_num (n : ℕ) : ReadsAs (Nat.toDigits 10 n) (.num n) := by
  intro c rest ends
  have stop : c.isDigit = false := by
    rcases ends with rfl | rfl
    · rfl
    · rfl
  obtain ⟨d, more, eq⟩ := List.exists_cons_of_ne_nil (Nat.toDigits_ne_nil (n := n) (b := 10))
  have digit : d.isDigit = true :=
    Nat.isDigit_of_mem_toDigits (by decide) le_rfl (eq ▸ List.mem_cons_self)
  -- a digit starts neither a string nor a literal
  have other : ∀ e : Char, e.isDigit = false → d ≠ e := by
    rintro e no rfl
    rw [no] at digit
    cases digit
  have skip : skipSpace (Nat.toDigits 10 n ++ c :: rest) = Nat.toDigits 10 n ++ c :: rest := by
    have no : d ∉ [' ', '\t', '\n', '\r'] := by
      simp only [List.mem_cons, List.not_mem_nil, or_false, not_or]
      exact ⟨other ' ' rfl, other '\t' rfl, other '\n' rfl, other '\r' rfl⟩
    rw [eq, List.cons_append, skipSpace, List.dropWhile_cons_of_neg (by simpa using no)]
  have literal : ∀ name value (e : Char) more, name.toList = e :: more → e.isDigit = false →
      readLiteral name value (Nat.toDigits 10 n ++ c :: rest) = none := by
    intro name value e tail chars no
    rw [readLiteral, chars, eq, List.cons_append, List.isPrefixOf, beq_false_of_ne (other e no).symm]
    rfl
  have noString : readString (Nat.toDigits 10 n ++ c :: rest) = none := by
    rw [eq, List.cons_append, readString, if_neg (other '"' rfl)]
  rw [skip, readScalar, noString, literal "true" _ 't' _ (by simp; rfl) rfl,
    literal "false" _ 'f' _ (by simp; rfl) rfl, literal "null" _ 'n' _ (by simp; rfl) rfl,
    readNumber_toDigits n stop]
  rfl

/-- The key and the value of a member are read, up to the comma or the brace behind it. -/
lemma Member.read (m : Member) {c : Char} (rest : List Char) (ends : c = ',' ∨ c = '\x7d') :
    readString (skipSpace (m.text ++ c :: rest)) = some (m.key, ':' :: (m.valueText ++ c :: rest)) ∧
      readScalar (skipSpace (m.valueText ++ c :: rest)) = some (m.value, c :: rest) := by
  have key := m.keyRead.read (':' :: (m.valueText ++ c :: rest))
  have skip : skipSpace (m.text ++ c :: rest) =
      '"' :: m.keyText ++ '"' :: ':' :: (m.valueText ++ c :: rest) := by
    simp [skipSpace, Member.text]
  exact ⟨by rw [skip, key], m.valueRead c rest ends⟩

lemma readMembers_comma (fuel : ℕ) (m : Member) (rest : List Char) :
    readMembers (fuel + 1) (m.text ++ ',' :: rest) =
      (readMembers fuel rest).map fun r => ((m.key, m.value) :: r.1, r.2) := by
  obtain ⟨key, value⟩ := m.read rest (.inl rfl)
  have colon : expect ':' (skipSpace (':' :: (m.valueText ++ ',' :: rest))) =
      some (m.valueText ++ ',' :: rest) := rfl
  have comma : expect ',' (skipSpace (',' :: rest)) = some rest := rfl
  rw [readMembers, key]
  simp only [Option.bind_eq_bind, Option.bind_some, colon, value, comma]
  cases readMembers fuel rest with
  | none => rfl
  | some r => rfl

lemma readMembers_brace (fuel : ℕ) (m : Member) (rest : List Char) :
    readMembers (fuel + 1) (m.text ++ '\x7d' :: rest) = some ([(m.key, m.value)], rest) := by
  obtain ⟨key, value⟩ := m.read rest (.inr rfl)
  have colon : expect ':' (skipSpace (':' :: (m.valueText ++ '\x7d' :: rest))) =
      some (m.valueText ++ '\x7d' :: rest) := rfl
  have comma : expect ',' (skipSpace ('\x7d' :: rest)) = none := rfl
  have brace : expect '\x7d' (skipSpace ('\x7d' :: rest)) = some rest := rfl
  rw [readMembers, key]
  simp only [Option.bind_eq_bind, Option.bind_some, colon, value, comma, brace]

/-- The members are read one after the other, if there is fuel for each. -/
lemma readMembers_print {members : List Member} (ne : members ≠ []) {fuel : ℕ} (le : members.length ≤ fuel) :
    readMembers fuel (printMembers members ++ ['\x7d']) =
      some (members.map fun m => (m.key, m.value), []) := by
  induction members generalizing fuel with
  | nil => exact absurd rfl ne
  | cons m members ih =>
    obtain ⟨fuel, rfl⟩ := Nat.exists_eq_succ_of_ne_zero (n := fuel) (by
      rintro rfl
      cases le)
    cases members with
    | nil => exact readMembers_brace fuel m []
    | cons m' members =>
      have rest := ih (List.cons_ne_nil _ _) (Nat.le_of_succ_le_succ le)
      have text : printMembers (m :: m' :: members) ++ ['\x7d'] =
          m.text ++ ',' :: (printMembers (m' :: members) ++ ['\x7d']) := by
        rw [printMembers, List.append_assoc, List.cons_append]
        exact List.cons_ne_nil _ _
      rw [text, readMembers_comma, rest]
      rfl

/-- No member is written as nothing. -/
lemma length_le_printMembers (members : List Member) : members.length ≤ (printMembers members).length := by
  induction members with
  | nil => exact Nat.zero_le _
  | cons m members ih =>
    have pos : 0 < m.text.length := by simp [Member.text]
    cases members with
    | nil => exact pos
    | cons m' members =>
      simp only [printMembers, List.length_append, List.length_cons] at ih ⊢
      omega

/-- An object is read member by member. -/
theorem readObject_print {members : List Member} (ne : members ≠ []) :
    readObject (printObject members) = some (members.map fun m => (m.key, m.value)) := by
  obtain ⟨text, start⟩ : ∃ text, printMembers members ++ ['\x7d'] = '"' :: text := by
    cases members with
    | nil => exact absurd rfl ne
    | cons m members => cases members <;> exact ⟨_, rfl⟩
  have open_eq : expect '\x7b' (skipSpace (printObject members)) =
      some (printMembers members ++ ['\x7d']) := rfl
  have quote : expect '\x7d' (skipSpace (printMembers members ++ ['\x7d'])) = none := by
    rw [start]
    rfl
  have enough : members.length ≤ (printMembers members ++ ['\x7d']).length := by
    rw [List.length_append]
    exact Nat.le_add_right_of_le (length_le_printMembers members)
  rw [readObject, open_eq, Option.bind_eq_bind, Option.bind_some, quote]
  simp only [readMembers_print ne enough]
  rfl

end EspcanBr.Base
