import EspcanBr.Base.Hex

/-!
# SLCAN lines

`src/slcan.rs`: the neutral frame `CanFrame`, the parser `parseTx` of transmit commands and the
formatter `formatFrame` of received frames. A line is a list of bytes; indexing is within bounds by
the checks made before it, and the output buffer is the list of what was written to it, which is at
most `MAX_FRAME_ASCII` bytes long.
-/

namespace EspcanBr.Slcan
open Base

/-- The byte of an ASCII character. -/
abbrev ch (c : Char) : UInt8 := c.toUInt8

/-- `BELL`: the error reply. -/
def BELL : UInt8 := 0x07

/-- `CR`: the command terminator and the OK reply. -/
def CR : UInt8 := ch '\r'

/-- `MAX_FRAME_ASCII`. -/
def MAX_FRAME_ASCII : ℕ := 32

/-- `CanFrame`: `dlc` is at most 8, and only the first `dlc` of the eight data bytes count. -/
structure CanFrame where
  id : UInt32
  ext : Bool
  rtr : Bool
  dlc : ℕ
  data : List UInt8
  dlc_le : dlc ≤ 8
  length_data : data.length = 8
  deriving DecidableEq

/-- The array `[u8; 8]` with `ds` copied to its start. -/
def pad (ds : List UInt8) : List UInt8 := ds ++ List.replicate (8 - ds.length) 0

lemma length_pad {ds : List UInt8} (le : ds.length ≤ 8) : (pad ds).length = 8 := by
  simp only [pad, List.length_append, List.length_replicate]
  omega

lemma take_pad (ds : List UInt8) : (pad ds).take ds.length = ds := by
  simp [pad]

/-- `nibble`. -/
def nibble (c : UInt8) : Option UInt8 := hexVal c

/-- `hex_digit`. -/
def hexDigit (v : UInt8) : UInt8 := hexChar v

/-- The loop of `parse_hex`, with the digits read so far in `v`. -/
def parseHexFrom (v : UInt32) : List UInt8 → Option UInt32
  | [] => some v
  | b :: bs =>
    match nibble b with
    | none => none
    | some d => parseHexFrom (v <<< 4 ||| d.toUInt32) bs

/-- `parse_hex`. -/
def parseHex (bytes : List UInt8) : Option UInt32 := parseHexFrom 0 bytes

/-- The rounds left still fit after one of them. -/
lemma rounds_fit {line : List UInt8} {i n : ℕ} (le : i + (n + 1) * 2 ≤ line.length) :
    i + 2 + n * 2 ≤ line.length := by
  omega

/-- The loop `for k in 0..dlc` of `parse_tx`, with `n` of its rounds left and the line read up to
`i`. -/
def parseData (line : List UInt8) (i : ℕ) : (n : ℕ) → i + n * 2 ≤ line.length → Option (List UInt8)
  | 0, _ => some []
  | n + 1, le =>
    match nibble (line)[i], nibble (line)[i + 1] with
    | some hi, some lo =>
      (parseData line (i + 2) n (rounds_fit le)).map ((hi <<< 4 ||| lo) :: ·)
    | _, _ => none

/-- The data loop fills one byte for each round. -/
lemma length_parseData {line : List UInt8} {i n : ℕ} {le : i + n * 2 ≤ line.length}
    {ds : List UInt8} (h : parseData line i n le = some ds) : ds.length = n := by
  induction n generalizing i ds with
  | zero =>
    cases h
    rfl
  | succ n ih =>
    rw [parseData] at h
    split at h
    · obtain ⟨ds', rest, rfl⟩ := Option.map_eq_some_iff.mp h
      rw [List.length_cons, ih rest]
    · cases h

/-- The first match of `parse_tx`: the letter's extended flag, remote flag and id length. -/
def kind (c : UInt8) : Option (Bool × Bool × ℕ) :=
  if c = ch 't' then some (false, false, 3)
  else if c = ch 'T' then some (true, false, 8)
  else if c = ch 'r' then some (false, true, 3)
  else if c = ch 'R' then some (true, true, 8)
  else none

/-- `parse_tx`. -/
def parseTx (line : List UInt8) : Option CanFrame :=
  match line.head?.bind kind with
  | none => none
  | some (ext, rtr, idlen) =>
    if len : line.length < 1 + idlen + 1 then none
    else
      match parseHex ((line.drop 1).take idlen), nibble (line)[1 + idlen] with
      | some id, some dlc =>
        if gt : dlc > 8 then none
        else
          have le : dlc.toNat ≤ 8 := UInt8.le_iff_toNat_le.mp (UInt8.not_lt.mp gt)
          if rtr then
            some ⟨id, ext, rtr, dlc.toNat, pad [], le, length_pad (Nat.zero_le 8)⟩
          else if short : line.length < 1 + idlen + 1 + dlc.toNat * 2 then none
          else
            match eq : parseData line (1 + idlen + 1) dlc.toNat (Nat.not_lt.mp short) with
            | none => none
            | some ds =>
              some ⟨id, ext, rtr, dlc.toNat, pad ds, le, length_pad (length_parseData eq ▸ le)⟩
      | _, _ => none

/-- The digits of `n` at the bit positions `shifts`. -/
def shifted (n : UInt32) (shifts : List UInt32) : List UInt8 :=
  shifts.map fun (shift : UInt32) => hexDigit (n >>> shift).toUInt8

/-- The letter of a received frame. -/
def letter (ext rtr : Bool) : UInt8 :=
  match ext, rtr with
  | false, false => ch 't'
  | true, false => ch 'T'
  | false, true => ch 'r'
  | true, true => ch 'R'

/-- `format_frame`: the bytes it writes to `out`. -/
def formatFrame (f : CanFrame) (timestamp : Option UInt16) : List UInt8 :=
  [letter f.ext f.rtr] ++
  shifted f.id (if f.ext then [28, 24, 20, 16, 12, 8, 4, 0] else [8, 4, 0]) ++
  [hexDigit (UInt8.ofNat f.dlc)] ++
  (if f.rtr then [] else
    (f.data.take f.dlc).flatMap fun (b : UInt8) => [hexDigit (b >>> 4), hexDigit b]) ++
  (match timestamp with
    | some ts => shifted ts.toUInt32 [12, 8, 4, 0]
    | none => []) ++
  [CR]

@[simp] lemma length_shifted (n : UInt32) (shifts : List UInt32) :
    (shifted n shifts).length = shifts.length := by
  simp [shifted]

/-- A formatted frame is a letter, digits and the line's end. -/
lemma formatFrame_digits (f : CanFrame) (timestamp : Option UInt16) :
    ∃ digits, formatFrame f timestamp = letter f.ext f.rtr :: digits ++ [CR] ∧
      ∀ c ∈ digits, isUpperHex c = true := by
  have shifts : ∀ n shifts, ∀ c ∈ shifted n shifts, isUpperHex c = true := by
    intro n shifts c mem
    obtain ⟨shift, -, rfl⟩ := List.mem_map.mp mem
    exact isUpperHex_hexChar _
  have whole : formatFrame f timestamp = letter f.ext f.rtr ::
      (shifted f.id (if f.ext then [28, 24, 20, 16, 12, 8, 4, 0] else [8, 4, 0]) ++
        (hexDigit (UInt8.ofNat f.dlc) :: ((if f.rtr then [] else hexPairs (f.data.take f.dlc)) ++
          (timestamp.map fun ts => shifted ts.toUInt32 [12, 8, 4, 0]).getD []))) ++ [CR] := by
    simp only [formatFrame, List.append_assoc, List.cons_append, List.nil_append]
    cases timestamp with
    | none => rfl
    | some ts => rfl
  refine ⟨_, whole, fun c mem => ?_⟩
  rcases List.mem_append.mp mem with mem | mem
  · exact shifts _ _ c mem
  · rcases List.mem_cons.mp mem with rfl | mem
    · exact isUpperHex_hexChar _
    · rcases List.mem_append.mp mem with mem | mem
      · split at mem
        · cases mem
        · exact isUpperHex_hexPairs _ c mem
      · cases timestamp with
        | none => cases mem
        | some ts => exact shifts _ _ c mem

end EspcanBr.Slcan
