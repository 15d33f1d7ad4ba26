import EspcanBr.Base.Text

/-!
# Forms

A form is a text of pairs, a key and a value with `=` between them, joined by `&`. In a value a blank may
be written as `+`, and any byte as `%` with its two hexadecimal digits; such a text for a value is an
encoding of it (`Encodes`), of which there are many. Decoding reads the value from each of them
(`Encodes.decode_eq`).
-/

namespace EspcanBr.Base

/-- The byte that a byte of a value stands for, if it is no escape. -/
def unplus (b : UInt8) : UInt8 := if b = 0x2B then 0x20 else b

/-- The value that a text stands for. -/
def formDecode : List UInt8 → List UInt8
  | [] => []
  | b :: rest =>
    match rest with
    | h :: l :: rest' =>
      if b = 0x25 then
        match hexVal h, hexVal l with
        | some h', some l' => (h' <<< 4 ||| l') :: formDecode rest'
        | _, _ => b :: formDecode (h :: l :: rest')
      else unplus b :: formDecode (h :: l :: rest')
    | rest => unplus b :: formDecode rest

/-- The text is an encoding of the value. -/
inductive Encodes : List UInt8 → List UInt8 → Prop where
  | nil :
    Encodes [] []
  | byte {b text value} :
    b ∉ ascii "%+&" →
    Encodes text value →
    Encodes (b :: text) (b :: value)
  | blank {text value} :
    Encodes text value →
    Encodes (0x2B :: text) (0x20 :: value)
  | escape {h l h' l' text value} :
    hexVal h = some h' →
    hexVal l = some l' →
    Encodes text value →
    Encodes (0x25 :: h :: l :: text) ((h' <<< 4 ||| l') :: value)

/-- A byte that is no escape is decoded on its own. -/
lemma formDecode_cons {b : UInt8} (no : b ≠ 0x25) (text : List UInt8) :
    formDecode (b :: text) = unplus b :: formDecode text := by
  rcases text with _ | ⟨h, _ | ⟨l, text⟩⟩
  · rfl
  · rfl
  · rw [formDecode, if_neg no]

lemma formDecode_escape {h l h' l' : UInt8} (high : hexVal h = some h') (low : hexVal l = some l')
    (text : List UInt8) : formDecode (0x25 :: h :: l :: text) = (h' <<< 4 ||| l') :: formDecode text := by
  rw [formDecode, high, low]
  rfl

/-- Decoding reads a value from any of its encodings. -/
theorem Encodes.decode_eq {text value : List UInt8} (encodes : Encodes text value) :
    formDecode text = value := by
  induction encodes with
  | nil => rfl
  | @byte b text value no _ ih =>
    have plain : b ≠ 0x25 ∧ b ≠ 0x2B := by
      constructor
      · rintro rfl
        exact no (by decide)
      · rintro rfl
        exact no (by decide)
    rw [formDecode_cons plain.1, unplus, if_neg plain.2, ih]
  | blank _ ih =>
    rw [formDecode_cons (by decide), ih]
    rfl
  | escape high low _ ih => rw [formDecode_escape high low, ih]

/-- The text starts with two hexadecimal digits. -/
def StartsHex (text : List UInt8) : Prop :=
  ∃ h l rest, text = h :: l :: rest ∧ (hexVal h).isSome = true ∧ (hexVal l).isSome = true

/-- A percent sign without two digits is decoded as itself. -/
lemma formDecode_percent {post : List UInt8} (no : ¬ StartsHex post) :
    formDecode (0x25 :: post) = 0x25 :: formDecode post := by
  rcases post with _ | ⟨h, _ | ⟨l, post⟩⟩
  · rfl
  · rfl
  · rw [formDecode, if_pos rfl]
    split
    · rename_i high low
      exact absurd ⟨h, l, post, rfl, by simp [high], by simp [low]⟩ no
    · rfl

/-- What stands before a percent sign is decoded by itself: no escape goes on over it. -/
lemma formDecode_append (pre post : List UInt8) :
    formDecode (pre ++ 0x25 :: post) = formDecode pre ++ formDecode (0x25 :: post) := by
  have digits : hexVal 0x25 = none := rfl
  -- by the length of what stands before, which gets shorter by one byte or by an escape
  induction len : pre.length using Nat.strong_induction_on generalizing pre with
  | _ n ih =>
    have one : ∀ b rest, rest.length < n →
        formDecode (b :: (rest ++ 0x25 :: post)) = unplus b :: formDecode (rest ++ 0x25 :: post) →
        formDecode (b :: rest) = unplus b :: formDecode rest →
        formDecode (b :: rest ++ 0x25 :: post) = formDecode (b :: rest) ++ formDecode (0x25 :: post) := by
      intro b rest lt whole front
      rw [List.cons_append, whole, front, ih _ lt rest rfl, List.cons_append]
    rcases pre with _ | ⟨b, pre⟩
    · rfl
    · rw [List.length_cons] at len
      by_cases escape : b = 0x25
      · subst escape
        rcases pre with _ | ⟨h, _ | ⟨l, pre⟩⟩
        · refine one _ [] (by omega) (formDecode_percent ?_) rfl
          rintro ⟨h, l, rest, eq, high, -⟩
          cases eq
          cases high
        · refine one _ [h] (by omega) (formDecode_percent ?_) rfl
          rintro ⟨h, l, rest, eq, -, low⟩
          cases eq
          cases low
        · by_cases hex : StartsHex (h :: l :: pre)
          · obtain ⟨h, l, rest, eq, high, low⟩ := hex
            cases eq
            obtain ⟨h', high⟩ := Option.isSome_iff_exists.mp high
            obtain ⟨l', low⟩ := Option.isSome_iff_exists.mp low
            have rest := ih pre.length (by simp only [List.length_cons] at len; omega) pre rfl
            rw [List.cons_append, List.cons_append, List.cons_append, formDecode_escape high low,
              formDecode_escape high low, rest, List.cons_append]
          · have hex' : ¬ StartsHex (h :: l :: pre ++ 0x25 :: post) := by
              rintro ⟨h, l, rest, eq, digit⟩
              cases eq
              exact hex ⟨_, _, _, rfl, digit⟩
            exact one _ _ (by omega) (formDecode_percent hex') (formDecode_percent hex)
      · exact one b pre (by omega) (formDecode_cons escape _) (formDecode_cons escape _)

/-- An encoding has no separator in it. -/
lemma Encodes.not_mem {text value : List UInt8} (encodes : Encodes text value) : 0x26 ∉ text := by
  have digit : ∀ {c v}, hexVal c = some v → c ≠ 0x26 := by
    rintro c v value rfl
    cases value
  induction encodes with
  | nil => exact List.not_mem_nil
  | byte no _ ih =>
    rintro (_ | ⟨_, mem⟩)
    · exact no (by decide)
    · exact ih mem
  | blank _ ih =>
    rintro (_ | ⟨_, mem⟩)
    exact ih mem
  | escape high low _ ih =>
    simp only [List.mem_cons, not_or]
    exact ⟨by decide, (digit high).symm, (digit low).symm, ih⟩

/-- The texts of a key and a value, which may be missing. -/
abbrev Pair := List UInt8 × Option (List UInt8)

/-- A pair as it stands in a form. -/
def Pair.text : Pair → List UInt8
  | (key, some value) => key ++ 0x3D :: value
  | (key, none) => key

/-- The body is the form with the given pairs. -/
structure Form (body : List UInt8) (pairs : List Pair) : Prop where
  ne : pairs ≠ []
  eq : body = [0x26].intercalate (pairs.map Pair.text)
  keys : ∀ pair ∈ pairs, 0x26 ∉ pair.1 ∧ 0x3D ∉ pair.1
  values : ∀ pair ∈ pairs, ∀ value, pair.2 = some value → 0x26 ∉ value

/-- The text that a form has for a key: that of the first pair with the key and a value. -/
def formValue (pairs : List Pair) (key : List UInt8) : Option (List UInt8) :=
  pairs.findSome? fun pair => if pair.1 = key then pair.2 else none

/-- The pair is cut at its equals sign. -/
lemma splitOnce_pair {pair : Pair} (key : 0x3D ∉ pair.1) :
    splitOnce [0x3D] pair.text = pair.2.map fun value => (pair.1, value) := by
  obtain ⟨k, _ | value⟩ := pair
  · exact splitOnce_single_none.mpr key
  · exact splitOnce_iff.mpr (.of_not_mem key value)

/-- The pieces between the separators are the pairs. -/
lemma Form.pieces {body : List UInt8} {pairs : List Pair} (form : Form body pairs) :
    split [0x26] body = pairs.map Pair.text := by
  rw [split_eq_splitOn, form.eq]
  refine List.splitOn_intercalate _ ?_ (by simpa using form.ne)
  intro piece mem
  obtain ⟨⟨key, value⟩, among, rfl⟩ := List.mem_map.mp mem
  have no := (form.keys _ among).1
  cases value with
  | none => exact no
  | some value =>
    simp only [Pair.text, List.mem_append, List.mem_cons, not_or]
    exact ⟨no, by decide, form.values _ among value rfl⟩

/-- A piece is cut at its first equals sign; without one it is a key alone. -/
def Pair.ofPiece (piece : List UInt8) : Pair :=
  match splitOnce [0x3D] piece with
  | some (key, value) => (key, some value)
  | none => (piece, none)

/-- The pairs of a form. -/
def formPairs (body : List UInt8) : List Pair := (body.splitOn 0x26).map Pair.ofPiece

lemma formValue_cons (pair : Pair) (pairs : List Pair) (key : List UInt8) :
    formValue (pair :: pairs) key = ((if pair.1 = key then pair.2 else none) <|> formValue pairs key) := by
  rw [formValue, List.findSome?_cons]
  cases (if pair.1 = key then pair.2 else none) with
  | none => rfl
  | some value => rfl

/-- The text is a form of the pairs: for each of them its key, an equals sign and an encoding of its
value. -/
def EncodesForm (pairs : List (List UInt8 × List UInt8)) (body : List UInt8) : Prop :=
  ∃ texts : List (List UInt8 × List UInt8),
    List.Forall₂ (fun text pair => text.1 = pair.1 ∧ Encodes text.2 pair.2) texts pairs ∧
      body = [0x26].intercalate (texts.map fun text => text.1 ++ 0x3D :: text.2)

/-- It is a form, and decoding the text that it has for a key gives the value of the first pair with that
key. -/
lemma EncodesForm.exists_form {pairs : List (List UInt8 × List UInt8)} {body : List UInt8}
    (encodes : EncodesForm pairs body) (ne : pairs ≠ [])
    (keys : ∀ pair ∈ pairs, 0x26 ∉ pair.1 ∧ 0x3D ∉ pair.1) :
    ∃ texts, Form body texts ∧ ∀ key, (formValue texts key).map formDecode =
      (pairs.find? fun pair => pair.1 = key).map Prod.snd := by
  obtain ⟨texts, all, rfl⟩ := encodes
  have each : (∀ text ∈ texts, (0x26 ∉ text.1 ∧ 0x3D ∉ text.1) ∧ 0x26 ∉ text.2) ∧
      ∀ key, (formValue (texts.map fun text => (text.1, some text.2)) key).map formDecode =
        (pairs.find? fun pair => pair.1 = key).map Prod.snd := by
    clear ne
    induction all with
    | nil => exact ⟨fun _ mem => (List.not_mem_nil mem).elim, fun _ => rfl⟩
    | @cons text pair texts pairs both all ih =>
      obtain ⟨same, encodes⟩ := both
      obtain ⟨plain, values⟩ := ih fun pair mem => keys pair (List.mem_cons_of_mem _ mem)
      refine ⟨List.forall_mem_cons.mpr ⟨⟨?_, encodes.not_mem⟩, plain⟩, fun key => ?_⟩
      · rw [same]
        exact keys pair List.mem_cons_self
      · rw [List.map_cons, formValue_cons, List.find?_cons, same]
        by_cases found : pair.1 = key
        · simp [found, encodes.decode_eq]
        · simpa [found] using values key
  refine ⟨texts.map fun text => (text.1, some text.2), ⟨?_, ?_, ?_, ?_⟩, each.2⟩
  · rw [ne_eq, List.map_eq_nil_iff, ← List.length_eq_zero_iff, all.length_eq, List.length_eq_zero_iff]
    exact ne
  · rw [List.map_map]
    rfl
  · intro pair mem
    obtain ⟨text, among, rfl⟩ := List.mem_map.mp mem
    exact (each.1 text among).1
  · intro pair mem value eq
    obtain ⟨text, among, rfl⟩ := List.mem_map.mp mem
    cases eq
    exact (each.1 text among).2

/-- The text that a form has last for a key. -/
def formLast (pairs : List Pair) (key : List UInt8) : Option (List UInt8) := formValue pairs.reverse key

/-- One more pair: a value under its key takes the place of the last one. -/
lemma formLast_concat (pairs : List Pair) (piece key : List UInt8) :
    formLast (pairs ++ [Pair.ofPiece piece]) key =
      match splitOnce [0x3D] piece with
      | some (k, value) => if k = key then some value else formLast pairs key
      | none => formLast pairs key := by
  rw [formLast, List.reverse_concat, formValue_cons, Pair.ofPiece]
  cases splitOnce [0x3D] piece with
  | none =>
    simp only [ite_self]
    rfl
  | some cut =>
    simp only
    split
    · rfl
    · rfl

/-- What keeps the last value of a key, pair by pair, has that of the form in the end. -/
lemma foldl_formLast {σ : Type*} {step : σ → List UInt8 → σ} (get : σ → Option (List UInt8))
    {key : List UInt8} (one : ∀ s piece, get (step s piece) =
      match splitOnce [0x3D] piece with
      | some (k, value) => if k = key then some value else get s
      | none => get s)
    {s : σ} (blank : get s = none) (body : List UInt8) :
    get ((split [0x26] body).foldl step s) = formLast (formPairs body) key := by
  rw [split_eq_splitOn, formPairs]
  -- by the pieces, from the last
  induction body.splitOn 0x26 using List.reverseRecOn with
  | nil => exact blank
  | append_singleton pieces piece ih =>
    rw [List.foldl_append, List.map_append, List.map_singleton, formLast_concat, ← ih]
    exact one _ piece

lemma Pair.ofPiece_spec (piece : List UInt8) :
    (Pair.ofPiece piece).text = piece ∧ 0x3D ∉ (Pair.ofPiece piece).1 := by
  rw [Pair.ofPiece]
  split
  · rename_i key value cut
    have cut := splitOnce_iff.mp cut
    refine ⟨?_, cut.not_mem⟩
    rw [Pair.text, cut.eq, List.append_assoc]
    rfl
  · rename_i none
    exact ⟨rfl, splitOnce_single_none.mp none⟩

/-- Every text is a form. -/
lemma form_pairs (body : List UInt8) : Form body (formPairs body) := by
  have pieces : ∀ {pair}, pair ∈ formPairs body → 0x26 ∉ pair.text ∧ 0x3D ∉ pair.1 := by
    intro pair mem
    obtain ⟨piece, among, rfl⟩ := List.mem_map.mp mem
    obtain ⟨text, key⟩ := Pair.ofPiece_spec piece
    rw [text]
    exact ⟨not_mem_splitOn among, key⟩
  refine ⟨by simp [formPairs], ?_, ?_, ?_⟩
  · have same : (formPairs body).map Pair.text = body.splitOn 0x26 := by
      rw [formPairs, List.map_map]
      exact (List.map_congr_left fun piece _ => (Pair.ofPiece_spec piece).1).trans (List.map_id _)
    rw [same, List.intercalate_splitOn]
  · rintro ⟨key, value⟩ mem
    obtain ⟨no, key⟩ := pieces mem
    refine ⟨fun sep => no ?_, key⟩
    cases value with
    | none => exact sep
    | some value => exact List.mem_append_left _ sep
  · rintro ⟨key, value⟩ mem text rfl sep
    exact (pieces mem).1 (List.mem_append_right _ (List.mem_cons_of_mem _ sep))

theorem exists_form (body : List UInt8) : ∃ pairs, Form body pairs := ⟨formPairs body, form_pairs body⟩

end EspcanBr.Base
