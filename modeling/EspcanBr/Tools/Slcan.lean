import EspcanBr.Slcan.Grammar

/-!
# The host tools' frame decoder

`decode_frame` of `tools/slcan_tool.py` and `tools/slcan_router_tool.py`, on the bytes of a line (the
tools decode them as ASCII, a byte above 127 as one character that no test below accepts), with
Python's `int(…, 16)` and `bytes.fromhex` as far as ASCII text goes. `decodeFrame_formatFrame` shows
that a host reads back what the firmware formats.
-/

namespace EspcanBr.Tools
open Base Slcan

/-- The characters `int` strips. -/
def isSpace (c : UInt8) : Bool := 0x09 ≤ c ∧ c ≤ 0x0D ∨ c = 0x20

def strip (s : List UInt8) : List UInt8 :=
  ((s.dropWhile isSpace).reverse.dropWhile isSpace).reverse

/-- The digits of `int(…, 16)` after `v`: a single underscore may stand after a digit (`after`), and
the last character is a digit. -/
def intDigits (v : ℕ) : Bool → List UInt8 → Option ℕ
  | after, [] => if after then some v else none
  | after, c :: cs =>
    if c = ch '_' then if after then intDigits v false cs else none
    else
      match hexVal c with
      | none => none
      | some d => intDigits (16 * v + d.toNat) true cs

/-- `int(…, 16)` without space and sign: a prefix `0x` may come first, with an underscore after it. -/
def intUnsigned : List UInt8 → Option ℕ
  | z :: x :: cs =>
    if z = ch '0' ∧ (x = ch 'x' ∨ x = ch 'X') then
      match cs with
      | u :: cs' => intDigits 0 false (if u = ch '_' then cs' else cs)
      | [] => none
    else intDigits 0 false (z :: x :: cs)
  | cs => intDigits 0 false cs

/-- `int(s, 16)`. -/
def int16 (s : List UInt8) : Option ℤ :=
  match strip s with
  | [] => none
  | c :: cs =>
    if c = ch '-' then (intUnsigned cs).map fun n => -n
    else if c = ch '+' then (intUnsigned cs).map fun n => n
    else (intUnsigned (c :: cs)).map fun n => n

/-- `bytes.fromhex`, which skips white space between the bytes. -/
def fromhex : List UInt8 → Option (List UInt8)
  | [] => some []
  | c :: cs =>
    if 0x09 ≤ c ∧ c ≤ 0x0D ∨ c = 0x20 then fromhex cs
    else
      match cs with
      | [] => none
      | d :: cs =>
        match hexVal c, hexVal d with
        | some hi, some lo => (fromhex cs).map ((hi <<< 4 ||| lo) :: ·)
        | _, _ => none

/-- What `decode_frame` returns. -/
structure Decoded where
  id : ℤ
  ext : Bool
  rtr : Bool
  dlc : ℕ
  data : List UInt8
  deriving DecidableEq

/-- `decode_frame`. -/
def decodeFrame (line : List UInt8) : Option Decoded :=
  match line with
  | [] => none
  | t :: _ =>
    if t = ch 't' ∨ t = ch 'T' ∨ t = ch 'r' ∨ t = ch 'R' then
      let ext : Bool := t = ch 'T' ∨ t = ch 'R'
      let rtr : Bool := t = ch 'r' ∨ t = ch 'R'
      let idlen := if ext then 8 else 3
      match int16 ((line.drop 1).take idlen), (line)[1 + idlen]?.bind fun (c : UInt8) => int16 [c] with
      | some id, some dlc =>
        let dlc := dlc.toNat
        if rtr then some ⟨id, ext, rtr, dlc, []⟩
        else
          let hexbytes := (line.drop (2 + idlen)).take (dlc * 2)
          if hexbytes.length < dlc * 2 then none
          else (fromhex hexbytes).map fun data => ⟨id, ext, rtr, dlc, data⟩
      | _, _ => none
    else none

/-- What a host is to see of a frame. -/
def view (f : CanFrame) : Decoded := ⟨f.id.toNat, f.ext, f.rtr, f.dlc, f.payload⟩

lemma not_space {c : UInt8} (hex : (hexVal c).isSome) : isSpace c = false := by
  have all : ∀ c, (hexVal c).isSome → isSpace c = false := all_bytes (by decide +kernel)
  exact all c hex

lemma not_special {c : UInt8} (hex : (hexVal c).isSome) :
    c ≠ ch '_' ∧ c ≠ ch '-' ∧ c ≠ ch '+' ∧ c ≠ ch 'x' ∧ c ≠ ch 'X' ∧ ¬ (0x09 ≤ c ∧ c ≤ 0x0D ∨ c = 0x20) := by
  have all : ∀ c, (hexVal c).isSome → c ≠ ch '_' ∧ c ≠ ch '-' ∧ c ≠ ch '+' ∧ c ≠ ch 'x' ∧ c ≠ ch 'X' ∧
      ¬ (0x09 ≤ c ∧ c ≤ 0x0D ∨ c = 0x20) := all_bytes (by decide +kernel)
  exact all c hex

/-- A text without white space is stripped of nothing. -/
lemma strip_self {cs : List UInt8} (no : ∀ c ∈ cs, isSpace c = false) : strip cs = cs := by
  have none : ∀ l : List UInt8, (∀ c ∈ l, isSpace c = false) → l.dropWhile isSpace = l := by
    intro l no
    cases l with
    | nil => rfl
    | cons c cs =>
      rw [List.dropWhile_cons_of_neg]
      simp [no c List.mem_cons_self]
  rw [strip, none cs no, none cs.reverse (fun c mem => no c (List.mem_reverse.mp mem)),
    List.reverse_reverse]

lemma strip_hex {cs : List UInt8} (hex : ∀ c ∈ cs, (hexVal c).isSome) : strip cs = cs :=
  strip_self fun c mem => not_space (hex c mem)

lemma intDigits_hex {cs : List UInt8} (hex : ∀ c ∈ cs, (hexVal c).isSome) (v : ℕ) (after : Bool)
    (some' : after = true ∨ cs ≠ []) : intDigits v after cs = hexNumFrom v cs := by
  induction cs generalizing v after with
  | nil =>
    rcases some' with rfl | ne
    · rfl
    · exact absurd rfl ne
  | cons c cs ih =>
    have digit := hex c List.mem_cons_self
    rw [intDigits, if_neg (not_special digit).1, hexNumFrom]
    cases hc : hexVal c with
    | none => rfl
    | some d => exact ih (fun c mem => hex c (List.mem_cons_of_mem _ mem)) _ true (.inl rfl)

/-- On plain digits `int` is the number they denote. -/
lemma int16_hex {cs : List UInt8} (hex : ∀ c ∈ cs, (hexVal c).isSome) (ne : cs ≠ []) :
    int16 cs = (hexNum cs).map fun n => (n : ℤ) := by
  have unsigned : intUnsigned cs = hexNum cs := by
    unfold intUnsigned
    split
    · rename_i z x cs
      have digit := not_special (hex x (List.mem_cons_of_mem _ List.mem_cons_self))
      rw [if_neg fun prefixed => prefixed.2.elim digit.2.2.2.1 digit.2.2.2.2.1]
      exact intDigits_hex hex 0 false (.inr ne)
    · exact intDigits_hex hex 0 false (.inr ne)
  rw [int16, strip_hex hex]
  cases cs with
  | nil => exact absurd rfl ne
  | cons c cs =>
    have digit := not_special (hex c List.mem_cons_self)
    simp only
    rw [if_neg digit.2.1, if_neg digit.2.2.1, unsigned]

lemma fromhex_hexPairs (bs : List UInt8) : fromhex (hexPairs bs) = some bs := by
  induction bs with
  | nil => rfl
  | cons b bs ih =>
    have eq : hexPairs (b :: bs) = hexChar (b >>> 4) :: hexChar b :: hexPairs bs := rfl
    rw [eq, fromhex, if_neg (not_special (isSome_hexChar _)).2.2.2.2.2]
    simp only [hexVal_hexChar, ih, Option.map_some, nibbles_eq]

/-- The digits of a number at its nibbles. -/
lemma shifted_eq (n : UInt32) :
    shifted n [8, 4, 0] = hexDigits 3 n.toNat ∧
      shifted n [28, 24, 20, 16, 12, 8, 4, 0] = hexDigits 8 n.toNat := by
  have digit : ∀ (s : UInt32) (k : ℕ), s.toNat < 32 → 2 ^ s.toNat = k →
      hexDigit (n >>> s).toUInt8 = hexChar (UInt8.ofNat (n.toNat / k)) := by
    intro s k lt eq
    refine congrArg hexChar (UInt8.toNat_inj.mp ?_)
    rw [UInt32.toNat_toUInt8, UInt32.toNat_shiftRight, Nat.mod_eq_of_lt lt, Nat.shiftRight_eq_div_pow,
      eq, UInt8.toNat_ofNat']
  constructor
  · simp only [shifted, List.map_cons, List.map_nil, hexDigits, List.nil_append, List.cons_append,
      Nat.div_div_eq_div_mul]
    rw [digit 8 (16 * 16) (by decide) (by decide), digit 4 16 (by decide) (by decide),
      digit 0 1 (by decide) (by decide), Nat.div_one]
  · simp only [shifted, List.map_cons, List.map_nil, hexDigits, List.nil_append, List.cons_append,
      Nat.div_div_eq_div_mul]
    rw [digit 28 (16 * 16 * 16 * 16 * 16 * 16 * 16) (by decide) (by decide),
      digit 24 (16 * 16 * 16 * 16 * 16 * 16) (by decide) (by decide),
      digit 20 (16 * 16 * 16 * 16 * 16) (by decide) (by decide),
      digit 16 (16 * 16 * 16 * 16) (by decide) (by decide),
      digit 12 (16 * 16 * 16) (by decide) (by decide), digit 8 (16 * 16) (by decide) (by decide),
      digit 4 16 (by decide) (by decide), digit 0 1 (by decide) (by decide), Nat.div_one]

/-- The fields of a formatted frame. -/
lemma formatFrame_fields (f : CanFrame) (timestamp : Option UInt16) :
    ∃ tail, (formatFrame f timestamp).dropLast =
      letter f.ext f.rtr :: (hexDigits (idLength f.ext) f.id.toNat ++
        hexChar (UInt8.ofNat f.dlc) :: (hexPairs f.payload ++ tail)) := by
  have ids : shifted f.id (if f.ext then [28, 24, 20, 16, 12, 8, 4, 0] else [8, 4, 0]) =
      hexDigits (idLength f.ext) f.id.toNat := by
    cases f.ext with
    | true => exact (shifted_eq f.id).2
    | false => exact (shifted_eq f.id).1
  have data : (if f.rtr then [] else
      (f.data.take f.dlc).flatMap fun (b : UInt8) => [hexDigit (b >>> 4), hexDigit b]) =
      hexPairs f.payload := by
    rw [CanFrame.payload]
    cases f.rtr with
    | true => rfl
    | false => rfl
  unfold formatFrame
  rw [List.dropLast_concat, ids, data]
  simp only [List.append_assoc, List.cons_append, List.nil_append]
  exact ⟨_, rfl⟩

lemma letter_tests (ext rtr : Bool) :
    (letter ext rtr = ch 't' ∨ letter ext rtr = ch 'T' ∨ letter ext rtr = ch 'r' ∨
      letter ext rtr = ch 'R') ∧
    (decide (letter ext rtr = ch 'T' ∨ letter ext rtr = ch 'R')) = ext ∧
    (decide (letter ext rtr = ch 'r' ∨ letter ext rtr = ch 'R')) = rtr := by
  cases ext <;> cases rtr <;> decide

/-- What a host reads of any frame the firmware formatted: of the identifier, the digits that fit. -/
lemma decodeFrame_formatted (f : CanFrame) (timestamp : Option UInt16) :
    decodeFrame (formatFrame f timestamp).dropLast =
      some { view f with id := (f.id.toNat % 16 ^ idLength f.ext : ℕ) } := by
  obtain ⟨tail, eq⟩ := formatFrame_fields f timestamp
  have le := f.dlc_le
  have len := f.length_data
  have number : int16 (hexDigits (idLength f.ext) f.id.toNat) =
      some ((f.id.toNat % 16 ^ idLength f.ext : ℕ) : ℤ) := by
    have ne : hexDigits (idLength f.ext) f.id.toNat ≠ [] := by
      rw [← List.length_pos_iff, length_hexDigits]
      cases f.ext <;> decide
    rw [int16_hex (isSome_hexDigits _ _) ne, hexNum_hexDigits]
    rfl
  have dlc : int16 [hexChar (UInt8.ofNat f.dlc)] = some (f.dlc : ℤ) := by
    have digits : [hexChar (UInt8.ofNat f.dlc)] = hexDigits 1 f.dlc := rfl
    rw [digits, int16_hex (isSome_hexDigits 1 f.dlc) nofun, hexNum_hexDigits,
      Nat.mod_eq_of_lt (by omega)]
    rfl
  have pairs : f.payload.length = if f.rtr then 0 else f.dlc := by
    rw [CanFrame.payload]
    split
    · rfl
    · rw [List.length_take]
      omega
  obtain ⟨known, ext, rtr⟩ := letter_tests f.ext f.rtr
  have digits := length_hexDigits (idLength f.ext) f.id.toNat
  rw [eq, decodeFrame]
  simp only [if_pos known, ext, rtr]
  rw [show (if f.ext = true then 8 else 3) = idLength f.ext from rfl, List.drop_succ_cons,
    List.drop_zero, List.take_left' digits, number]
  have index : (letter f.ext f.rtr :: (hexDigits (idLength f.ext) f.id.toNat ++
      hexChar (UInt8.ofNat f.dlc) :: (hexPairs f.payload ++ tail)))[1 + idLength f.ext]? =
      some (hexChar (UInt8.ofNat f.dlc)) := by
    rw [Nat.add_comm, List.getElem?_cons_succ, List.getElem?_append_right digits.le, digits,
      Nat.sub_self]
    rfl
  rw [index, Option.bind_some, dlc]
  simp only [Int.toNat_natCast]
  split
  · rename_i remote
    rw [if_pos remote] at pairs
    rw [view, List.eq_nil_of_length_eq_zero pairs]
  · rename_i remote
    rw [if_neg remote] at pairs
    have rest : (letter f.ext f.rtr :: (hexDigits (idLength f.ext) f.id.toNat ++
        hexChar (UInt8.ofNat f.dlc) :: (hexPairs f.payload ++ tail))).drop (2 + idLength f.ext) =
        hexPairs f.payload ++ tail := by
      rw [show 2 + idLength f.ext = idLength f.ext + 1 + 1 by omega, List.drop_succ_cons,
        ← List.drop_drop, List.drop_left' digits, List.drop_one, List.tail_cons]
    have double : (hexPairs f.payload).length = f.dlc * 2 := by
      rw [length_hexPairs, pairs]
      omega
    rw [rest, List.take_left' double, if_neg (by omega), fromhex_hexPairs]
    rfl

/-- A host reads back the frame the firmware formatted, whatever the timestamp. -/
theorem decodeFrame_formatFrame {f : CanFrame} (narrow : f.ext = false → f.id.toNat < 16 ^ 3)
    (timestamp : Option UInt16) : decodeFrame (formatFrame f timestamp).dropLast = some (view f) := by
  have small : f.id.toNat < 16 ^ idLength f.ext := by
    cases ext : f.ext with
    | true => exact f.id.toNat_lt
    | false => exact narrow ext
  rw [decodeFrame_formatted, Nat.mod_eq_of_lt small]
  rfl

end EspcanBr.Tools
