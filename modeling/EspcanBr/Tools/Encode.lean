import EspcanBr.Tools.Slcan

/-!
# The host tools' frame encoder

`encode_frame` and `make_payload_gen` of `tools/slcan_tool.py`, against the firmware's parser. A length
of more than one hex digit is what the two disagree about: the parser takes the first digit for the
length, and what follows for data.
-/

namespace EspcanBr.Tools
open Base Slcan

/-- `encode_frame`, whose identifier is any integer. -/
def encodeFrame (canId : ℤ) (data : List UInt8) (ext rtr : Bool) : List UInt8 :=
  let typeChar := if ext then if rtr then ch 'R' else ch 'T' else if rtr then ch 'r' else ch 't'
  let idStr :=
    if ext then zeroPad 8 (hexNumeral (canId % 2 ^ 29).toNat)
    else zeroPad 3 (hexNumeral (canId % 2 ^ 11).toNat)
  [typeChar] ++ idStr ++ hexNumeral data.length ++ (if rtr then [] else hexPairs data)

/-- The values of `--pattern`. -/
inductive Pattern where
  | fixed
  | inc
  | random
  deriving DecidableEq

/-- The arguments `make_payload_gen` reads. -/
structure Args where
  pattern : Pattern
  data : List UInt8
  len : Option ℤ
  deriving DecidableEq

/-- The slice `s[:k]`. -/
def sliceTo (s : List UInt8) (k : ℤ) : List UInt8 :=
  s.take (if 0 ≤ k then k else s.length + k).toNat

/-- `n.to_bytes(length, "big")`, for a number that fits. -/
def toBytesBig (n : ℕ) : ℕ → List UInt8
  | 0 => []
  | length + 1 => toBytesBig (n / 256) length ++ [UInt8.ofNat n]

/-- `make_payload_gen`: the payload of the `n`-th call, with the bytes that `random` draws in it; `none`
if the tool exits. -/
def makePayloadGen (args : Args) (random : ℕ → ℕ → UInt8) (n : ℕ) : Option (List UInt8) :=
  match args.pattern with
  | .fixed => (fromhex args.data).map fun fixed =>
    let length := args.len.getD fixed.length
    sliceTo (fixed ++ List.replicate 8 0) length
  | .random =>
    let length := (max 0 (min 8 (args.len.getD 8))).toNat
    some ((List.range length).map (random n))
  | .inc =>
    let length := (max 0 (min 8 (args.len.getD 8))).toNat
    some (if length = 0 then [] else toBytesBig (n % 2 ^ (8 * length)) length)

/-- The identifier an encoded frame is to have. -/
def maskedId (canId : ℤ) (ext : Bool) : ℕ := (canId % if ext then 2 ^ 29 else 2 ^ 11).toNat

/-- `f` is the frame that was encoded; a remote frame has no data bytes. -/
structure Encoded (f : CanFrame) (canId : ℤ) (data : List UInt8) (ext rtr : Bool) : Prop where
  id : f.id.toNat = maskedId canId ext
  dlc : f.dlc = data.length
  payload : f.payload = if rtr then [] else data
  ext : f.ext = ext
  rtr : f.rtr = rtr

@[simp] lemma length_toBytesBig (n k : ℕ) : (toBytesBig n k).length = k := by
  induction k generalizing n with
  | zero => rfl
  | succ k ih => simp [toBytesBig, ih]

/-- The patterns that count and draw keep to eight bytes. -/
lemma length_payload_le {args : Args} {random : ℕ → ℕ → UInt8} {n : ℕ} {data : List UInt8}
    (made : makePayloadGen args random n = some data) (pattern : args.pattern ≠ .fixed) :
    data.length ≤ 8 := by
  have clamp : (max 0 (min 8 (args.len.getD 8))).toNat ≤ 8 := by omega
  unfold makePayloadGen at made
  split at made
  · exact absurd ‹_› pattern
  · cases made
    rw [List.length_map, List.length_range]
    exact clamp
  · cases made
    split
    · exact Nat.zero_le 8
    · rw [length_toBytesBig]
      exact clamp

lemma maskedId_lt (canId : ℤ) (ext : Bool) : maskedId canId ext < 16 ^ idLength ext := by
  rw [maskedId]
  cases ext with
  | true =>
    have lt := Int.emod_lt_of_pos canId (show (0 : ℤ) < 2 ^ 29 by decide)
    simp only [idLength, if_true]
    omega
  | false =>
    have lt := Int.emod_lt_of_pos canId (show (0 : ℤ) < 2 ^ 11 by decide)
    simp only [idLength, Bool.false_eq_true, if_false]
    omega

/-- The fields of an encoded line. -/
lemma encodeFrame_fields (canId : ℤ) (data : List UInt8) (ext rtr : Bool) :
    encodeFrame canId data ext rtr =
      letter ext rtr :: (hexDigits (idLength ext) (maskedId canId ext) ++
        hexChar (UInt8.ofNat (leadingDigit data.length)) ::
          (hexDigits (Nat.log 16 data.length) data.length ++ if rtr then [] else hexPairs data)) := by
  have pos : 0 < idLength ext := by cases ext <;> decide
  have id := zeroPad_hexNumeral pos (maskedId_lt canId ext)
  rw [encodeFrame, hexNumeral_eq data.length, ← id]
  cases ext <;> cases rtr <;> simp [letter, idLength, maskedId]

/-- The identifier and the flags of an encoded line are read back, and the leading digit of its length
for the length. -/
lemma encoded_head {canId : ℤ} {data : List UInt8} {ext rtr : Bool} {f : CanFrame}
    (parsed : parseTx (encodeFrame canId data ext rtr) = some f) :
    f.ext = ext ∧ f.rtr = rtr ∧ f.id.toNat = maskedId canId ext ∧ f.dlc = leadingDigit data.length ∧
      ∃ ds rest, hexDigits (Nat.log 16 data.length) data.length ++ (if rtr then [] else hexPairs data) =
        ds ++ rest ∧ hexBytes ds = some f.payload ∧ f.payload.length = if f.rtr then 0 else f.dlc := by
  obtain ⟨⟨ids, d, ds, rest, eq, len, num, dlc, data', fit⟩, -⟩ := parseTx_iff.mp parsed
  rw [encodeFrame_fields] at eq
  obtain ⟨head, tail⟩ := List.cons.inj eq
  obtain ⟨rfl, rfl⟩ := letter_inj head
  -- both identifiers have the width of the letter
  obtain ⟨rfl, after⟩ := List.append_inj tail ((length_hexDigits _ _).trans len.symm)
  obtain ⟨rfl, split⟩ := List.cons.inj after
  refine ⟨rfl, rfl, ?_, ?_, ds, rest, split, data', fit⟩
  · rw [hexNum_hexDigits, Nat.mod_eq_of_lt (maskedId_lt _ _)] at num
    exact (Option.some.inj num).symm
  · rw [hexVal_digit (leadingDigit_lt _)] at dlc
    exact (Option.some.inj dlc).symm

/-- A length of one digit is read back with its data. -/
lemma encoded_short {canId : ℤ} {data : List UInt8} {ext rtr : Bool} {f : CanFrame}
    (short : data.length < 16) (parsed : parseTx (encodeFrame canId data ext rtr) = some f) :
    Encoded f canId data ext rtr := by
  obtain ⟨rfl, rfl, id, dlc, ds, rest, eq, bytes, fit⟩ := encoded_head parsed
  rw [leadingDigit_of_lt short] at dlc
  refine ⟨id, dlc, ?_, rfl, rfl⟩
  rw [Nat.log_of_lt short] at eq
  split
  · rename_i remote
    rw [if_pos remote] at fit
    exact List.eq_nil_of_length_eq_zero fit
  · rename_i remote
    rw [if_neg remote] at fit eq
    have double := hexBytes_length bytes
    have whole : ds.length = (hexPairs data).length := by
      rw [length_hexPairs]
      omega
    have eq : hexPairs data ++ [] = ds ++ rest := by
      rw [List.append_nil]
      exact eq
    obtain ⟨rfl, -⟩ := List.append_inj eq whole.symm
    rw [hexBytes_hexPairs] at bytes
    exact (Option.some.inj bytes).symm

/-- The digits of a longer length and those of the data are enough for what the leading digit promises. -/
lemma encoded_digits {data : List UInt8} (rtr : Bool) (long : 16 ≤ data.length)
    (le : leadingDigit data.length ≤ 8) : ∃ ds rest payload,
      hexDigits (Nat.log 16 data.length) data.length ++ (if rtr then [] else hexPairs data) =
        ds ++ rest ∧ hexBytes ds = some payload ∧
      payload.length = if rtr then 0 else leadingDigit data.length := by
  cases rtr with
  | true => exact ⟨[], _, [], rfl, rfl, rfl⟩
  | false =>
    have digits : ∀ c ∈ hexDigits (Nat.log 16 data.length) data.length ++ hexPairs data,
        (hexVal c).isSome := by
      intro c mem
      rcases List.mem_append.mp mem with mem | mem
      · exact isSome_hexDigits _ _ c mem
      · exact isSome_hexPairs _ c mem
    have enough : 2 * leadingDigit data.length ≤
        (hexDigits (Nat.log 16 data.length) data.length ++ hexPairs data).length := by
      rw [List.length_append, length_hexPairs]
      omega
    have len : ((hexDigits (Nat.log 16 data.length) data.length ++ hexPairs data).take
        (2 * leadingDigit data.length)).length = 2 * leadingDigit data.length := by
      rw [List.length_take]
      omega
    obtain ⟨payload, bytes⟩ := hexBytes_isSome (fun c mem => digits c (List.mem_of_mem_take mem)) len
    have double := hexBytes_length bytes
    refine ⟨_, _, payload, (List.take_append_drop (2 * leadingDigit data.length) _).symm, bytes, ?_⟩
    rw [if_neg Bool.false_ne_true]
    omega

/-- A longer length whose leading digit passes for a length is accepted. -/
lemma encoded_long (canId : ℤ) {data : List UInt8} (ext rtr : Bool) (long : 16 ≤ data.length)
    (le : leadingDigit data.length ≤ 8) :
    ∃ f, parseTx (encodeFrame canId data ext rtr) = some f := by
  obtain ⟨ds, rest, payload, split, bytes, fit⟩ := encoded_digits rtr long le
  have tx : TxLine (encodeFrame canId data ext rtr) ext rtr (maskedId canId ext)
      (leadingDigit data.length) payload := by
    refine ⟨hexDigits (idLength ext) (maskedId canId ext),
      hexChar (UInt8.ofNat (leadingDigit data.length)), ds, rest, ?_, length_hexDigits _ _, ?_,
      hexVal_digit (leadingDigit_lt _), bytes, fit⟩
    · rw [encodeFrame_fields, split]
    · rw [hexNum_hexDigits, Nat.mod_eq_of_lt (maskedId_lt _ _)]
  obtain ⟨f, parsed, -⟩ := tx.accepted le
  exact ⟨f, parsed⟩

/-- What the firmware accepts of an encoded line is the frame that was encoded, if and only if the
payload has at most 15 bytes or the leading hex digit of its length is above 8. The patterns that count
and draw never make a longer one. -/
theorem encoded_frame_kept (canId : ℤ) (data : List UInt8) (ext rtr : Bool) :
    ((∀ f, parseTx (encodeFrame canId data ext rtr) = some f → Encoded f canId data ext rtr) ↔
      data.length < 16 ∨ 8 < leadingDigit data.length) ∧
    ∀ args random n, makePayloadGen args random n = some data → args.pattern ≠ .fixed →
      data.length < 16 := by
  refine ⟨⟨fun kept => ?_, ?_⟩, fun args random n made pattern => ?_⟩
  · by_contra bad
    rw [not_or, Nat.not_lt, Nat.not_lt] at bad
    obtain ⟨long, le⟩ := bad
    obtain ⟨f, parsed⟩ := encoded_long canId ext rtr long le
    have dlc := (kept f parsed).dlc
    have small := f.dlc_le
    omega
  · rintro (short | rejected) f parsed
    · exact encoded_short short parsed
    · have small := f.dlc_le
      obtain ⟨-, -, -, dlc, -⟩ := encoded_head parsed
      omega
  · have le := length_payload_le made pattern
    omega

/-- Sixteen bytes of payload go out as a frame of one byte. -/
theorem long_payload_changed :
    ¬ ∀ args random n data, makePayloadGen args random n = some data → ∀ canId ext rtr f,
      parseTx (encodeFrame canId data ext rtr) = some f → Encoded f canId data ext rtr := by
  intro kept
  have made : makePayloadGen ⟨.fixed, hexPairs (List.replicate 16 0xAB), none⟩ (fun _ _ => 0) 0 =
      some (List.replicate 16 0xAB) := by decide +kernel
  have parsed : parseTx (encodeFrame 0x123 (List.replicate 16 0xAB) false false) =
      some ⟨0x123, false, false, 1, pad [0x0A], by decide, rfl⟩ := by decide +kernel
  have dlc := (kept _ _ _ _ made _ _ _ _ parsed).dlc
  cases dlc

end EspcanBr.Tools
