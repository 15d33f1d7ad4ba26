import Mathlib

/-!
# Character references and markup

A table of characters with the names of their references, `&name;`. Escaping writes the reference for
every character of the table, among them `&` itself; so every `&` of the result begins a reference, and
putting the characters back gives the text (`Entities.unescape_escape`). The markup of a document is what
is left of it without text and without the contents of quoted values; a value without brackets and quotes
that is put into text or into quotes does not change it (`markup_fill`).
-/

namespace EspcanBr.Base

/-- Characters with the names of their references. -/
structure Entities where
  table : List (Char × List Char)
  amp : ∃ name, ('&', name) ∈ table
  closed : ∀ e ∈ table, ';' ∉ e.2 ∧ '&' ∉ e.2
  names : ∀ e ∈ table, ∀ e' ∈ table, e.2 = e'.2 → e.1 = e'.1

namespace Entities
variable (E : Entities)

/-- A reference, from the character after the `&` on. -/
def tail (e : Char × List Char) : List Char := e.2 ++ [';']

/-- The text for a character. -/
def escapeChar (c : Char) : List Char :=
  match E.table.find? fun e => e.1 = c with
  | some e => '&' :: tail e
  | none => [c]

def escape (s : List Char) : List Char := s.flatMap E.escapeChar

/-- The reference that the text after a `&` starts with, if it is one of the table. -/
def reference (s : List Char) : Option (Char × List Char) := E.table.find? fun e => (tail e).isPrefixOf s

/-- The text with the characters put back for their references, after some characters to be skipped. -/
def unescapeFrom : ℕ → List Char → List Char
  | _, [] => []
  | skip + 1, _ :: cs => unescapeFrom skip cs
  | 0, c :: cs =>
    if c = '&' then
      match E.reference cs with
      | some e => e.1 :: unescapeFrom (tail e).length cs
      | none => c :: unescapeFrom 0 cs
    else c :: unescapeFrom 0 cs

def unescape (s : List Char) : List Char := E.unescapeFrom 0 s

/-- What a character is written as: its reference, or itself if it is not in the table. -/
lemma escapeChar_cases (c : Char) :
    (∃ e ∈ E.table, e.1 = c ∧ E.escapeChar c = '&' :: tail e) ∨
    ((∀ e ∈ E.table, e.1 ≠ c) ∧ c ≠ '&' ∧ E.escapeChar c = [c]) := by
  rw [escapeChar]
  split
  · rename_i e found
    exact .inl ⟨e, List.mem_of_find?_eq_some found, by simpa using List.find?_some found, rfl⟩
  · rename_i none
    have other : ∀ e ∈ E.table, e.1 ≠ c := by simpa using none
    refine .inr ⟨other, ?_, rfl⟩
    rintro rfl
    obtain ⟨name, mem⟩ := E.amp
    exact other _ mem rfl

/-- A name ends at its first semicolon, so a text starts with the reference of one name. -/
lemma tail_prefix {e e' : Char × List Char} (mem : e ∈ E.table) (mem' : e' ∈ E.table) {rest : List Char}
    (pre : tail e' <+: tail e ++ rest) : e'.2 = e.2 := by
  have upTo : ∀ {name : List Char}, ';' ∉ name → ∀ rest,
      (name ++ ';' :: rest).takeWhile (· ≠ ';') = name := by
    intro name no rest
    have all : ∀ c ∈ name, decide (c ≠ ';') = true := by
      intro c mem
      rw [decide_eq_true_eq]
      rintro rfl
      exact no mem
    rw [List.takeWhile_append_of_pos all]
    simp
  obtain ⟨more, eq⟩ := pre
  have same : e'.2 ++ ';' :: more = e.2 ++ ';' :: rest := by simpa [tail] using eq
  rw [← upTo (E.closed e' mem').1 more, same, upTo (E.closed e mem).1 rest]

/-- The reference that was written is found, as far as its character goes. -/
lemma reference_tail {e : Char × List Char} (mem : e ∈ E.table) (rest : List Char) :
    ∃ e', E.reference (tail e ++ rest) = some e' ∧ e'.1 = e.1 ∧ e'.2 = e.2 := by
  have here : (E.table.find? fun e' => (tail e').isPrefixOf (tail e ++ rest)).isSome = true := by
    rw [List.find?_isSome]
    exact ⟨e, mem, List.isPrefixOf_iff_prefix.mpr (List.prefix_append _ _)⟩
  obtain ⟨e', found⟩ := Option.isSome_iff_exists.mp here
  have mem' := List.mem_of_find?_eq_some found
  have pre : (tail e').isPrefixOf (tail e ++ rest) = true := by
    have holds := List.find?_some found
    exact holds
  have name := E.tail_prefix mem mem' (List.isPrefixOf_iff_prefix.mp pre)
  exact ⟨e', found, E.names e' mem' e mem name, name⟩

lemma unescapeFrom_skip (xs ys : List Char) : E.unescapeFrom xs.length (xs ++ ys) = E.unescape ys := by
  induction xs with
  | nil => rfl
  | cons x xs ih => exact ih

/-- Putting the characters back gives the text that was escaped. -/
theorem unescape_escape (s : List Char) : E.unescape (E.escape s) = s := by
  induction s with
  | nil => rfl
  | cons c s ih =>
    rw [escape, List.flatMap_cons]
    rcases E.escapeChar_cases c with ⟨e, mem, rfl, eq⟩ | ⟨-, ne, eq⟩
    · obtain ⟨e', found, char, name⟩ := E.reference_tail mem (E.escape s)
      have length : tail e' = tail e := by rw [tail, tail, name]
      rw [eq, unescape, List.cons_append, unescapeFrom, if_pos rfl]
      rw [escape] at found
      rw [found]
      dsimp only
      rw [length, char, unescapeFrom_skip]
      exact congrArg _ ih
    · rw [eq, unescape, List.singleton_append, unescapeFrom, if_neg ne]
      exact congrArg _ ih

/-- A character of an escaped text is not in the table, or part of a reference. -/
lemma mem_escape {s : List Char} {c : Char} (mem : c ∈ E.escape s) :
    (∀ e ∈ E.table, e.1 ≠ c) ∨ ∃ e ∈ E.table, c ∈ '&' :: tail e := by
  obtain ⟨d, -, here⟩ := List.mem_flatMap.mp mem
  rcases E.escapeChar_cases d with ⟨e, among, -, eq⟩ | ⟨other, -, eq⟩
  · rw [eq] at here
    exact .inr ⟨e, among, here⟩
  · rw [eq] at here
    rw [List.mem_singleton.mp here]
    exact .inl other

/-- Every `&` of an escaped text begins a reference. -/
theorem escape_amp {s pre post : List Char} (eq : E.escape s = pre ++ '&' :: post) :
    ∃ e ∈ E.table, tail e <+: post := by
  induction s generalizing pre with
  | nil => simp [escape] at eq
  | cons c s ih =>
    rw [escape, List.flatMap_cons] at eq
    rcases List.append_eq_append_iff.mp eq with ⟨more, rfl, rest⟩ | ⟨more, here, rest⟩
    · exact ih rest
    · cases more with
      | nil =>
        have here : E.escape s = [] ++ '&' :: post := rest.symm
        exact ih here
      | cons first more =>
        rw [List.cons_append] at rest
        obtain ⟨rfl, rfl⟩ := List.cons.inj rest
        -- an `&` inside what the character is written as is its first one
        rcases E.escapeChar_cases c with ⟨e, mem, -, text⟩ | ⟨-, ne, text⟩
        · rw [text] at here
          cases pre with
          | nil =>
            refine ⟨e, mem, ?_⟩
            rw [List.nil_append] at here
            rw [(List.cons.inj here).2]
            exact List.prefix_append _ _
          | cons d pre =>
            have inside : '&' ∈ tail e := by
              rw [List.cons_append] at here
              rw [(List.cons.inj here).2]
              exact List.mem_append_right _ List.mem_cons_self
            rw [tail, List.mem_append, List.mem_singleton] at inside
            rcases inside with inside | bad
            · exact absurd inside (E.closed e mem).2
            · cases bad
        · rw [text] at here
          cases pre with
          | nil => exact absurd (List.cons.inj here).1 ne
          | cons d pre => simp at here

end Entities

/-- Where a character of a document stands: in text, in a tag, or in a quoted value. -/
inductive Context where
  | text
  | tag
  | quoted (quote : Char)
  deriving DecidableEq

/-- The place after a character. -/
def Context.next : Context → Char → Context
  | .text, c => if c = '<' then .tag else .text
  | .tag, c => if c = '>' then .text else if c = '"' ∨ c = '\'' then .quoted c else .tag
  | .quoted quote, c => if c = quote then .tag else .quoted quote

/-- The character is markup. -/
def Context.shows : Context → Char → Bool
  | .text, c => c = '<'
  | .tag, _ => true
  | .quoted quote, c => c = quote

/-- The place after a document. -/
def Context.after (ctx : Context) (doc : List Char) : Context := doc.foldl Context.next ctx

/-- The markup of a document. -/
def markup (ctx : Context) : List Char → List Char
  | [] => []
  | c :: cs => if ctx.shows c then c :: markup (ctx.next c) cs else markup (ctx.next c) cs

lemma markup_append (ctx : Context) (xs ys : List Char) :
    markup ctx (xs ++ ys) = markup ctx xs ++ markup (ctx.after xs) ys := by
  induction xs generalizing ctx with
  | nil => rfl
  | cons x xs ih =>
    rw [List.cons_append, markup, markup, ih]
    split
    · rfl
    · rfl

/-- The text has no bracket and no quote. -/
def Inert (s : List Char) : Prop := ∀ c ∈ s, c ≠ '<' ∧ c ≠ '>' ∧ c ≠ '"' ∧ c ≠ '\''

/-- The contexts that a document enters have one of the two quotes. -/
def Context.Plain : Context → Prop
  | .quoted quote => quote = '"' ∨ quote = '\''
  | _ => True

lemma Context.Plain.after {ctx : Context} (plain : ctx.Plain) (doc : List Char) : (ctx.after doc).Plain := by
  induction doc generalizing ctx with
  | nil => exact plain
  | cons c doc ih =>
    apply ih
    cases ctx with
    | text =>
      simp only [Context.next]
      split
      · trivial
      · trivial
    | tag =>
      simp only [Context.next]
      split
      · trivial
      · split
        · assumption
        · trivial
    | quoted quote =>
      simp only [Context.next]
      split
      · trivial
      · exact plain

/-- A text without brackets and quotes stays where it is, and is markup only inside a tag. -/
lemma Inert.markup {s : List Char} (inert : Inert s) {ctx : Context} (plain : ctx.Plain) :
    ctx.after s = ctx ∧ markup ctx s = if ctx = .tag then s else [] := by
  induction s with
  | nil => exact ⟨rfl, by rw [ite_self]; rfl⟩
  | cons c s ih =>
    obtain ⟨⟨lt, gt, double, single⟩, rest⟩ := List.forall_mem_cons.mp inert
    obtain ⟨stays, shown⟩ := ih rest
    have next : ctx.next c = ctx := by
      cases ctx with
      | text => exact if_neg lt
      | tag => rw [Context.next, if_neg gt, if_neg (by simp [double, single])]
      | quoted quote =>
        refine if_neg fun eq => ?_
        rcases plain with rfl | rfl
        · exact double eq
        · exact single eq
    refine ⟨?_, ?_⟩
    · rw [Context.after, List.foldl_cons, next]
      exact stays
    · rw [Base.markup, next, shown]
      cases ctx with
      | text => simp [Context.shows, lt]
      | tag => rfl
      | quoted quote =>
        have no : c ≠ quote := by
          rintro rfl
          rcases plain with rfl | rfl
          · exact double rfl
          · exact single rfl
        simp [Context.shows, no]

/-- The text of a part of a template, from its lines. -/
def partText (part : List String) : List Char := part.flatMap String.toList

/-- A template with its values: a part, a value, a part, and so on. -/
def fill : List (List String) → List (List Char) → List Char
  | [], _ => []
  | part :: parts, [] => partText part ++ fill parts []
  | part :: parts, value :: values => partText part ++ value ++ fill parts values

/-- Where the values of a template stand. -/
def places : Context → List (List String) → List Context
  | _, [] => []
  | ctx, part :: parts => ctx.after (partText part) :: places (ctx.after (partText part)) parts

/-- The place after a line of a part, from its characters. -/
lemma places_line {ctx : Context} {line : String} {cs : List Char} {lines : List String}
    {parts : List (List String)} {rest : List Context} (chars : line = String.ofList cs)
    (more : places (ctx.after cs) (lines :: parts) = rest) : places ctx ((line :: lines) :: parts) = rest := by
  subst chars
  have after : ctx.after (partText (String.ofList cs :: lines)) = (ctx.after cs).after (partText lines) := by
    rw [partText, List.flatMap_cons, String.toList_ofList]
    exact List.foldl_append
  rw [← more, places, places, after]

/-- The place at the end of a part. -/
lemma places_part {ctx place : Context} {parts : List (List String)} {rest : List Context}
    (here : ctx = place) (more : places place parts = rest) : places ctx ([] :: parts) = place :: rest := by
  subst here
  rw [← more]
  rfl

/-- Values without brackets and quotes do not change where the parts of a template stand. -/
lemma after_fill {ctx : Context} (plain : ctx.Plain) (parts : List (List String)) {values : List (List Char)}
    (inert : ∀ v ∈ values, Inert v) :
    ctx.after (fill parts values) = (places ctx parts).getLast?.getD ctx := by
  induction parts generalizing ctx values with
  | nil => rfl
  | cons part parts ih =>
    have plain' := plain.after (partText part)
    have last : (places ctx (part :: parts)).getLast?.getD ctx =
        (places (ctx.after (partText part)) parts).getLast?.getD (ctx.after (partText part)) := by
      rw [places]
      cases places (ctx.after (partText part)) parts with
      | nil => rfl
      | cons place rest =>
        rw [List.getLast?_cons_cons, List.getLast?_eq_some_getLast (List.cons_ne_nil place rest)]
        rfl
    rw [last]
    cases values with
    | nil =>
      rw [fill, Context.after, List.foldl_append]
      exact ih plain' (by simp)
    | cons v values =>
      rw [List.forall_mem_cons] at inert
      have stays : (ctx.after (partText part)).after v = ctx.after (partText part) := (inert.1.markup plain').1
      rw [fill, Context.after, List.foldl_append, List.foldl_append, ← ih plain' inert.2]
      exact congrArg (fun ctx => Context.after ctx (fill parts values)) stays

/-- Two fillings of a template with values without brackets and quotes, which agree where the value
stands inside a tag, have the same markup. -/
theorem markup_fill {ctx : Context} (plain : ctx.Plain) {parts : List (List String)} {vs ws : List (List Char)}
    (length : vs.length = ws.length) (inert : ∀ v ∈ vs, Inert v) (inert' : ∀ w ∈ ws, Inert w)
    (agree : ∀ (i : ℕ) v w, (vs)[i]? = some v → (ws)[i]? = some w →
      (places ctx parts)[i]? = some Context.tag → v = w) :
    markup ctx (fill parts vs) = markup ctx (fill parts ws) := by
  induction parts generalizing ctx vs ws with
  | nil => rfl
  | cons part parts ih =>
    have plain' := plain.after (partText part)
    rcases vs with _ | ⟨v, vs⟩
    · cases List.length_eq_zero_iff.mp length.symm
      rfl
    · rcases ws with _ | ⟨w, ws⟩
      · cases length
      · rw [List.forall_mem_cons] at inert inert'
        obtain ⟨stays, shown⟩ := inert.1.markup plain'
        obtain ⟨stays', shown'⟩ := inert'.1.markup plain'
        have rest := ih plain' (Nat.succ.inj length) inert.2 inert'.2 fun i v w here here' tag =>
          agree (i + 1) v w here here' tag
        have value : markup (ctx.after (partText part)) v = markup (ctx.after (partText part)) w := by
          rw [shown, shown']
          split
          · rename_i tag
            exact agree 0 v w rfl rfl (congrArg some tag)
          · rfl
        rw [fill, fill, List.append_assoc, List.append_assoc, markup_append, markup_append, markup_append,
          markup_append, value, stays, stays', rest]

end EspcanBr.Base
