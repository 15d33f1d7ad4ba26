import EspcanBr.Can.Frame
import EspcanBr.Tools.Slcan

/-!
# Received frames, there and back

A frame of the driver is formatted by the firmware and read by a host, or by the firmware's own parser.
The lines of many frames follow each other in one stream of bytes, which a host cuts at the line ends
(`splitOn_output`).
-/

namespace EspcanBr.Tools
open Base Slcan Can

/-- What a host is to see of a frame of the driver. -/
def seen (e : EspTwaiFrame) : Decoded := ⟨e.id.num, e.id.isExtended, e.isRemote, e.dlc, e.data⟩

lemma view_fromEsp (e : EspTwaiFrame) : view (fromEsp e) = seen e := by
  rw [view, payload_fromEsp, fromEsp_num]
  rfl

/-- A host can tell any two frames apart. -/
lemma seen_injective : Function.Injective seen := by
  intro e e' eq
  rw [seen, seen, Decoded.mk.injEq, Nat.cast_inj] at eq
  obtain ⟨num, ext, rtr, dlc, data⟩ := eq
  exact EspTwaiFrame.ext (Can.Id.ext ext num) rtr dlc data

/-- The parser takes a formatted frame for the command that transmits it. -/
lemma parseTx_formatted {f : CanFrame} (narrow : f.ext = false → f.id.toNat < 16 ^ 3)
    (padded : f.data = pad f.payload) (timestamp : Option UInt16) :
    parseTx (formatFrame f timestamp).dropLast = some f := by
  obtain ⟨tail, eq⟩ := formatFrame_fields f timestamp
  have le := f.dlc_le
  have small : f.id.toNat < 16 ^ idLength f.ext := by
    cases ext : f.ext with
    | true => exact f.id.toNat_lt
    | false => exact narrow ext
  refine parseTx_iff.mpr ⟨⟨_, _, _, tail, eq, length_hexDigits _ _, ?_, hexVal_digit (by omega),
    hexBytes_hexPairs _, length_payload f⟩, padded⟩
  rw [hexNum_hexDigits, Nat.mod_eq_of_lt small]

lemma toEsp_fromEsp (e : EspTwaiFrame) : toEsp (fromEsp e) = some e := by
  have narrow : (fromEsp e).ext = false → (fromEsp e).id.toNat < 2 ^ 16 := by
    intro standard
    have lt := fromEsp_narrow e standard
    omega
  exact (toEsp_eq_some narrow).mpr ⟨rfl, rfl, fromEsp_num e, rfl, payload_fromEsp e⟩

/-- The length of a line, field by field. -/
lemma length_formatFrame (f : CanFrame) (timestamp : Option UInt16) :
    (formatFrame f timestamp).length =
      3 + idLength f.ext + 2 * f.payload.length + if timestamp.isSome then 4 else 0 := by
  have data : (if f.rtr then [] else
      (f.data.take f.dlc).flatMap fun (b : UInt8) => [hexDigit (b >>> 4), hexDigit b]).length =
      2 * f.payload.length := by
    rw [CanFrame.payload]
    split
    · rfl
    · exact length_hexPairs (f.data.take f.dlc)
  have ids : (if f.ext then [28, 24, 20, 16, 12, 8, 4, 0] else [8, 4, 0] : List UInt32).length =
      idLength f.ext := by
    cases f.ext with
    | true => rfl
    | false => rfl
  unfold formatFrame
  cases timestamp with
  | none =>
    simp only [List.length_append, List.length_singleton, List.length_nil, length_shifted, data, ids,
      Option.isSome_none, Bool.false_eq_true, if_false]
    omega
  | some ts =>
    simp only [List.length_append, List.length_cons, List.length_nil, length_shifted, data, ids,
      Option.isSome_some, if_true]
    omega

/-- What the firmware writes of frames one after the other. -/
def output (frames : List (EspTwaiFrame × Option UInt16)) : List UInt8 :=
  frames.flatMap fun (e, timestamp) => formatFrame (fromEsp e) timestamp

lemma letter_ne_cr (ext rtr : Bool) : letter ext rtr ≠ CR := by
  cases ext <;> cases rtr <;> decide

/-- The only line end in a formatted frame is its last byte. -/
lemma cr_not_mem (f : CanFrame) (timestamp : Option UInt16) :
    formatFrame f timestamp = (formatFrame f timestamp).dropLast ++ [CR] ∧
      CR ∉ (formatFrame f timestamp).dropLast := by
  obtain ⟨digits, eq, upper⟩ := formatFrame_digits f timestamp
  rw [eq, List.dropLast_concat]
  refine ⟨rfl, fun mem => ?_⟩
  rcases List.mem_cons.mp mem with head | mem
  · exact letter_ne_cr _ _ head.symm
  · have digit := upper CR mem
    revert digit
    decide

/-- Cut at the line ends the output is the lines of the frames, and nothing after the last one. -/
lemma splitOn_output (frames : List (EspTwaiFrame × Option UInt16)) :
    (output frames).splitOn CR =
      (frames.map fun (e, timestamp) => (formatFrame (fromEsp e) timestamp).dropLast) ++ [[]] := by
  induction frames with
  | nil => rfl
  | cons frame frames ih =>
    obtain ⟨e, timestamp⟩ := frame
    obtain ⟨line, none⟩ := cr_not_mem (fromEsp e) timestamp
    have first : output ((e, timestamp) :: frames) =
        (formatFrame (fromEsp e) timestamp).dropLast ++ CR :: output frames := by
      rw [output, List.flatMap_cons, ← output, ← List.singleton_append, ← List.append_assoc, ← line]
    rw [first, List.splitOn_append_cons_self_of_not_mem none, ih]
    rfl

/-- Received frames. The line of a frame has at most 31 bytes and fits the buffer; it is the letter,
upper-case hex digits and the line end; a host reads the frame from it, whatever the timestamp, and can
tell any two frames apart. Without a timestamp the parser takes it for the same frame, which is
converted back to the driver's. The lines of any frames one after the other are cut at the line ends and
read back. -/
theorem received_frames_kept (e : EspTwaiFrame) (timestamp : Option UInt16)
    (frames : List (EspTwaiFrame × Option UInt16)) :
    ((formatFrame (fromEsp e) timestamp).length ≤ 31 ∧ 31 ≤ MAX_FRAME_ASCII) ∧
    (∃ digits, formatFrame (fromEsp e) timestamp = letter e.id.isExtended e.isRemote :: digits ++ [CR] ∧
      (∀ c ∈ digits, isUpperHex c = true) ∧ CR ∉ letter e.id.isExtended e.isRemote :: digits) ∧
    decodeFrame (formatFrame (fromEsp e) timestamp).dropLast = some (seen e) ∧
    Function.Injective seen ∧
    parseTx (formatFrame (fromEsp e) none).dropLast = some (fromEsp e) ∧
    toEsp (fromEsp e) = some e ∧
    ∃ lines, (output frames).splitOn CR = lines ++ [[]] ∧
      lines.map decodeFrame = frames.map fun (e, _) => some (seen e) := by
  have read : ∀ e timestamp, decodeFrame (formatFrame (fromEsp e) timestamp).dropLast = some (seen e) := by
    intro e timestamp
    rw [decodeFrame_formatFrame (fromEsp_narrow e) timestamp, view_fromEsp]
  refine ⟨⟨?_, by decide⟩, ?_, read e timestamp, seen_injective, ?_, toEsp_fromEsp e, ?_⟩
  · have data : (fromEsp e).payload.length ≤ 8 := by
      rw [payload_fromEsp]
      exact e.length_data_le
    have ids : idLength (fromEsp e).ext ≤ 8 := by cases (fromEsp e).ext <;> decide
    rw [length_formatFrame]
    split <;> omega
  · obtain ⟨digits, eq, upper⟩ := formatFrame_digits (fromEsp e) timestamp
    have none := (cr_not_mem (fromEsp e) timestamp).2
    rw [eq, List.dropLast_concat] at none
    exact ⟨digits, eq, upper, none⟩
  · apply parseTx_formatted (fromEsp_narrow e)
    rw [payload_fromEsp]
    rfl
  · refine ⟨_, splitOn_output frames, ?_⟩
    rw [List.map_map]
    exact List.map_congr_left fun frame _ => read frame.1 frame.2

/-- An extended frame of eight bytes takes 31 bytes with a timestamp. -/
theorem line_of_31_bytes : ¬ ∀ e timestamp, (formatFrame (fromEsp e) timestamp).length ≤ 30 := by
  intro short
  have le := short ⟨.extended ⟨0, by decide⟩, false, 8, List.replicate 8 0, by decide, rfl⟩ (some 0)
  revert le
  decide

end EspcanBr.Tools
