import EspcanBr.Base.Text
import EspcanBr.Tools.Slcan

/-!
# What the TLS proxy prints

`_decode_frame`, `_pretty` and `_observe` of `tools/slcan_tls_proxy.py`: the lines that pass in one
direction, read from chunks of any size, and shown one by one. An ASCII line that begins with `H`, by which a client
authenticates itself, is shown without what it holds: what is printed depends on such a line
only through its being one (`observe_alike`).
-/

namespace EspcanBr.Tools.SlcanTlsProxy
open Base Slcan

/-- `_decode_frame`, which reads what `decode_frame` of the other tools reads. -/
def decodeFrame : List UInt8 → Option Decoded := Tools.decodeFrame

def BEL : UInt8 := 0x07

/-- How a byte stands in the `repr` of a byte string. -/
def reprByte (quote b : UInt8) : List UInt8 :=
  if b = quote ∨ b = 0x5C then [0x5C, b]
  else if b = 0x09 then [0x5C, ch 't']
  else if b = 0x0A then [0x5C, ch 'n']
  else if b = 0x0D then [0x5C, ch 'r']
  else if b < 0x20 ∨ 0x7F ≤ b then [0x5C, ch 'x'] ++ [toLower (hexChar (b >>> 4)), toLower (hexChar b)]
  else [b]

/-- `repr` of a byte string. -/
def repr (line : List UInt8) : List UInt8 :=
  let quote : UInt8 := if 0x27 ∈ line ∧ 0x22 ∉ line then 0x22 else 0x27
  [ch 'b', quote] ++ line.flatMap (reprByte quote) ++ [quote]

/-- An integer in upper-case hex, with zeros after the sign up to a width. -/
def formatHex (width : ℕ) (n : ℤ) : List UInt8 :=
  if n < 0 then ch '-' :: zeroPad (width - 1) (hexNumeral n.natAbs) else zeroPad width (hexNumeral n.natAbs)

/-- A text with blanks after it, up to a width. -/
def leftAlign (width : ℕ) (text : List UInt8) : List UInt8 :=
  text ++ List.replicate (width - text.length) 0x20

/-- `_pretty`. -/
def pretty (label line : List UInt8) : Option (List UInt8) :=
  match line with
  | [] => none
  | first :: _ =>
    if line.all (· < 0x80) = false then some (label ++ ascii " <" ++ repr line ++ ascii ">")
    else if first = ch 'H' then some (label ++ ascii " H<token redacted>")
    else
      match decodeFrame line with
      | some f =>
        let ids := formatHex (if f.ext then 8 else 3) f.id
        let kind := if f.ext then ascii "EFF" else ascii "SFF"
        let body := if f.rtr then ascii "remote len " ++ decimal f.dlc
          else List.intercalate [0x20] (f.data.map fun (b : UInt8) => [hexChar (b >>> 4), hexChar b])
        some (label ++ [0x20] ++ leftAlign 8 ids ++ ascii " [" ++ decimal f.dlc ++ ascii "] " ++ kind ++
          ascii "  " ++ body)
      | none => some (label ++ [0x20] ++ line)

/-- What `_observe` does with a byte: the line so far, and what is printed. -/
def observeByte (label acc : List UInt8) (byte : UInt8) : List UInt8 × List (List UInt8) :=
  if byte = 0x0D then ([], (pretty label acc).toList)
  else if byte = BEL then ([], (pretty label acc).toList ++ [label ++ ascii " BEL"])
  else if byte ≠ 0x0A then (acc ++ [byte], [])
  else (acc, [])

/-- `_observe`. -/
def observe (label : List UInt8) : List UInt8 → List UInt8 → List UInt8 × List (List UInt8)
  | acc, [] => (acc, [])
  | acc, byte :: data =>
    let (acc, here) := observeByte label acc byte
    let (acc, there) := observe label acc data
    (acc, here ++ there)

/-- The chunks do not matter. -/
lemma observe_append (label acc data more : List UInt8) :
    observe label acc (data ++ more) =
      ((observe label (observe label acc data).1 more).1,
        (observe label acc data).2 ++ (observe label (observe label acc data).1 more).2) := by
  induction data generalizing acc with
  | nil => rfl
  | cons byte data ih =>
    simp only [List.cons_append, observe, ih, List.append_assoc]

/-- A line by which a client authenticates itself. -/
def isToken (line : List UInt8) : Bool := line.head? = some (ch 'H') ∧ line.all (· < 0x80)

/-- Two lines that are the same, but for what such lines hold. -/
def AlikeLines (line line' : List UInt8) : Prop := line = line' ∨ isToken line = true ∧ isToken line' = true

lemma pretty_alike {label line line' : List UInt8} (alike : AlikeLines line line') :
    pretty label line = pretty label line' := by
  have redacted : ∀ {line}, isToken line = true → pretty label line = some (label ++ ascii " H<token redacted>") := by
    intro line token
    rw [isToken, decide_eq_true_eq] at token
    obtain ⟨tail, rfl⟩ := List.head?_eq_some_iff.mp token.1
    rw [pretty]
    simp only [token.2, Bool.true_eq_false, if_false, if_true]
  rcases alike with rfl | ⟨token, token'⟩
  · rfl
  · rw [redacted token, redacted token']

/-- A byte ends a line. -/
def ends (byte : UInt8) : Bool := byte = 0x0D ∨ byte = BEL

/-- A line as it is kept, without line feeds. -/
def kept (line : List UInt8) : List UInt8 := line.filter (· ≠ 0x0A)

/-- A stream that ends as another one does, and whose lines are alike. -/
inductive Alike : List UInt8 → List UInt8 → Prop where
  | rest {r r' : List UInt8} (no : ∀ b ∈ r, ends b = false) (no' : ∀ b ∈ r', ends b = false) :
    Alike r r'
  | line {l l' : List UInt8} {byte : UInt8} {s s' : List UInt8} (no : ∀ b ∈ l, ends b = false)
    (no' : ∀ b ∈ l', ends b = false) (end_ : ends byte = true) (alike : AlikeLines (kept l) (kept l'))
    (next : Alike s s') :
    Alike (l ++ byte :: s) (l' ++ byte :: s')

/-- Within a line nothing is printed. -/
lemma observe_line (label : List UInt8) {l : List UInt8} (no : ∀ b ∈ l, ends b = false) (acc : List UInt8) :
    observe label acc l = (acc ++ kept l, []) := by
  induction l generalizing acc with
  | nil => simp [observe, kept]
  | cons b l ih =>
    rw [List.forall_mem_cons] at no
    have plain : b ≠ 0x0D ∧ b ≠ BEL := by
      have end_ := no.1
      rw [ends, decide_eq_false_iff_not, not_or] at end_
      exact end_
    rw [observe, observeByte, if_neg plain.1, if_neg plain.2]
    by_cases lf : b = 0x0A
    · simp [lf, ih no.2, kept]
    · simp [lf, ih no.2, kept]

/-- At the end of a line it is shown, and the next one begins. -/
lemma observeByte_end (label acc : List UInt8) {byte : UInt8} (end_ : ends byte = true) :
    (observeByte label acc byte).1 = [] ∧
      ∀ acc', AlikeLines acc acc' → (observeByte label acc byte).2 = (observeByte label acc' byte).2 := by
  rw [ends, decide_eq_true_eq] at end_
  have ne : ¬ BEL = 0x0D := by decide
  rcases end_ with rfl | rfl
  · simp only [observeByte, if_true, true_and]
    intro acc' alike
    rw [pretty_alike alike]
  · simp only [observeByte, ne, if_false, if_true, true_and]
    intro acc' alike
    rw [pretty_alike alike]

/-- What is printed of a stream whose first line ends. -/
lemma observe_lines (label : List UInt8) {l : List UInt8} (no : ∀ b ∈ l, ends b = false) {byte : UInt8}
    (end_ : ends byte = true) (s : List UInt8) :
    (observe label [] (l ++ byte :: s)).2 = (observeByte label (kept l) byte).2 ++ (observe label [] s).2 := by
  rw [observe_append, observe_line label no]
  simp only [observe, List.nil_append, (observeByte_end label (kept l) end_).1]

/-- Of streams that are alike the same is printed. -/
lemma observe_alike (label : List UInt8) {s s' : List UInt8} (alike : Alike s s') :
    (observe label [] s).2 = (observe label [] s').2 := by
  induction alike with
  | rest no no' => rw [observe_line label no, observe_line label no']
  | line no no' end_ same _ ih =>
    rw [observe_lines label no end_, observe_lines label no' end_, (observeByte_end label _ end_).2 _ same, ih]

end EspcanBr.Tools.SlcanTlsProxy
