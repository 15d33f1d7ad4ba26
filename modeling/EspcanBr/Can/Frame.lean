import EspcanBr.Slcan.Grammar

/-!
# Frames of the TWAI driver

The identifiers and frames of `embedded_can` and `esp_hal::twai`, which cannot be built out of range,
and the conversions `toEsp` and `fromEsp` of `src/can.rs`. `Denotes` says on its own terms which
driver frame a transmit line stands for; `toEsp_parseTx` shows that the parser and the conversion
together compute exactly this.
-/

namespace EspcanBr.Can
open Base Slcan

/-- `embedded_can::StandardId`: 11 bits. -/
structure StandardId where
  raw : UInt16
  le : raw.toNat ≤ 0x7FF
  deriving DecidableEq

/-- `embedded_can::ExtendedId`: 29 bits. -/
structure ExtendedId where
  raw : UInt32
  le : raw.toNat ≤ 0x1FFFFFFF
  deriving DecidableEq

/-- `StandardId::new`. -/
def StandardId.new (raw : UInt16) : Option StandardId :=
  if le : raw.toNat ≤ 0x7FF then some ⟨raw, le⟩ else none

/-- `ExtendedId::new`. -/
def ExtendedId.new (raw : UInt32) : Option ExtendedId :=
  if le : raw.toNat ≤ 0x1FFFFFFF then some ⟨raw, le⟩ else none

/-- `embedded_can::Id`. -/
inductive Id where
  | standard (s : StandardId)
  | extended (e : ExtendedId)
  deriving DecidableEq

/-- The number of an identifier. -/
def Id.num : Id → ℕ
  | .standard s => s.raw.toNat
  | .extended e => e.raw.toNat

/-- Whether an identifier has 29 bits. -/
def Id.isExtended : Id → Bool
  | .standard _ => false
  | .extended _ => true

/-- Identifiers with the same width and number are the same. -/
lemma Id.ext {i j : Id} (wide : i.isExtended = j.isExtended) (num : i.num = j.num) : i = j := by
  cases i with
  | standard s =>
    cases j with
    | standard t =>
      obtain ⟨s, _⟩ := s
      obtain ⟨t, _⟩ := t
      have eq : s = t := UInt16.toNat_inj.mp num
      subst eq
      rfl
    | extended => cases wide
  | extended s =>
    cases j with
    | standard => cases wide
    | extended t =>
      obtain ⟨s, _⟩ := s
      obtain ⟨t, _⟩ := t
      have eq : s = t := UInt32.toNat_inj.mp num
      subst eq
      rfl

/-- `EspTwaiFrame`: `data` is what `data()` returns, empty for a remote frame. -/
@[ext]
structure EspTwaiFrame where
  id : Id
  isRemote : Bool
  dlc : ℕ
  data : List UInt8
  dlc_le : dlc ≤ 8
  length_data : data.length = if isRemote then 0 else dlc

instance : DecidableEq EspTwaiFrame := fun _ _ => decidable_of_iff _ EspTwaiFrame.ext_iff.symm

/-- `EspTwaiFrame::new`. -/
def EspTwaiFrame.new (id : Id) (data : List UInt8) : Option EspTwaiFrame :=
  if le : data.length ≤ 8 then some ⟨id, false, data.length, data, le, rfl⟩ else none

/-- `EspTwaiFrame::new_remote`. -/
def EspTwaiFrame.newRemote (id : Id) (dlc : ℕ) : Option EspTwaiFrame :=
  if le : dlc ≤ 8 then some ⟨id, true, dlc, [], le, rfl⟩ else none

/-- The identifier `to_esp` makes: a standard one is cast to 16 bits first. -/
def toId (f : CanFrame) : Option Id :=
  if f.ext then (ExtendedId.new f.id).map .extended
  else (StandardId.new f.id.toUInt16).map .standard

/-- `to_esp`. -/
def toEsp (f : CanFrame) : Option EspTwaiFrame :=
  match toId f with
  | none => none
  | some id =>
    if f.rtr then EspTwaiFrame.newRemote id f.dlc
    else EspTwaiFrame.new id (f.data.take f.dlc)

/-- The data of a driver frame fits the array. -/
lemma EspTwaiFrame.length_data_le (frame : EspTwaiFrame) : frame.data.length ≤ 8 := by
  have len := frame.length_data
  have le := frame.dlc_le
  split at len <;> omega

/-- `from_esp`. -/
def fromEsp (frame : EspTwaiFrame) : CanFrame where
  id :=
    match frame.id with
    | .standard s => s.raw.toUInt32
    | .extended e => e.raw
  ext := frame.id.isExtended
  rtr := frame.isRemote
  dlc := frame.dlc
  data := pad frame.data
  dlc_le := frame.dlc_le
  length_data := length_pad frame.length_data_le

/-- `fromEsp` keeps the number. -/
lemma fromEsp_num (e : EspTwaiFrame) : (fromEsp e).id.toNat = e.id.num := by
  rw [fromEsp]
  cases e.id with
  | standard s => exact UInt16.toNat_toUInt32 s.raw
  | extended s => rfl

/-- A standard frame of the driver has three digits. -/
lemma fromEsp_narrow (e : EspTwaiFrame) (standard : (fromEsp e).ext = false) :
    (fromEsp e).id.toNat < 16 ^ 3 := by
  rw [fromEsp_num]
  have wide : e.id.isExtended = false := standard
  cases eq : e.id with
  | standard s => exact s.le.trans_lt (by decide)
  | extended s =>
    rw [eq] at wide
    cases wide

/-- The data bytes that count are those of the driver's frame. -/
lemma payload_fromEsp (e : EspTwaiFrame) : (fromEsp e).payload = e.data := by
  have len := e.length_data
  have eq : (fromEsp e).payload = if e.isRemote then [] else (pad e.data).take e.dlc := rfl
  rw [eq]
  cases rtr : e.isRemote with
  | true =>
    rw [rtr, if_pos rfl] at len
    rw [if_pos rfl, List.eq_nil_of_length_eq_zero len]
  | false =>
    rw [rtr, if_neg Bool.false_ne_true] at len
    rw [if_neg Bool.false_ne_true, ← len, take_pad]

/-- A standard identifier is made of the number itself when the number has 16 bits. -/
lemma toId_eq_some {f : CanFrame} {id : Id} (narrow : f.ext = false → f.id.toNat < 2 ^ 16) :
    toId f = some id ↔ f.ext = id.isExtended ∧ f.id.toNat = id.num := by
  rw [toId]
  cases wide : f.ext with
  | true =>
    rw [if_pos rfl, ExtendedId.new]
    constructor
    · intro h
      split at h
      · cases h
        exact ⟨rfl, rfl⟩
      · cases h
    · rintro ⟨ext, num⟩
      cases id with
      | standard => cases ext
      | extended e =>
        have le : f.id.toNat ≤ 0x1FFFFFFF := num ▸ e.le
        rw [dif_pos le, Option.map_some]
        exact congrArg some (Id.ext rfl num)
  | false =>
    have lt := narrow wide
    have cast : f.id.toUInt16.toNat = f.id.toNat := by
      rw [UInt32.toNat_toUInt16]
      omega
    rw [if_neg Bool.false_ne_true, StandardId.new]
    constructor
    · intro h
      split at h
      · cases h
        exact ⟨rfl, cast.symm⟩
      · cases h
    · rintro ⟨ext, num⟩
      cases id with
      | standard e =>
        have le : f.id.toUInt16.toNat ≤ 0x7FF := by
          rw [cast, num]
          exact e.le
        rw [dif_pos le, Option.map_some]
        exact congrArg some (Id.ext rfl (cast.trans num))
      | extended => cases ext

/-- The bytes that go over the wire are as many as the dlc says, none for a remote frame. -/
lemma length_payload (f : CanFrame) : f.payload.length = if f.rtr then 0 else f.dlc := by
  have len := f.length_data
  have le := f.dlc_le
  rw [CanFrame.payload]
  split
  · rfl
  · rw [List.length_take]
    omega

/-- `toEsp` changes neither the flags nor the number, the dlc or the data. -/
lemma toEsp_eq_some {f : CanFrame} {e : EspTwaiFrame} (narrow : f.ext = false → f.id.toNat < 2 ^ 16) :
    toEsp f = some e ↔ f.ext = e.id.isExtended ∧ f.rtr = e.isRemote ∧ f.id.toNat = e.id.num ∧
      f.dlc = e.dlc ∧ f.payload = e.data := by
  have len := length_payload f
  have dlc := f.dlc_le
  rw [toEsp]
  constructor
  · intro h
    split at h
    · cases h
    · rename_i id hid
      obtain ⟨ext, num⟩ := (toId_eq_some narrow).mp hid
      split at h
      · rename_i remote
        rw [EspTwaiFrame.newRemote, dif_pos dlc] at h
        cases h
        exact ⟨ext, remote, num, rfl, by rw [CanFrame.payload, if_pos remote]⟩
      · rename_i remote
        rw [if_neg remote] at len
        have payload : f.payload = f.data.take f.dlc := by rw [CanFrame.payload, if_neg remote]
        rw [← payload, EspTwaiFrame.new, dif_pos (by omega)] at h
        cases h
        exact ⟨ext, Bool.not_eq_true _ ▸ remote, num, len.symm, rfl⟩
  · rintro ⟨ext, remote, num, dlcs, data⟩
    rw [(toId_eq_some narrow).mpr ⟨ext, num⟩]
    simp only
    cases rtr : f.rtr with
    | true =>
      rw [if_pos rfl, EspTwaiFrame.newRemote, dif_pos dlc]
      refine congrArg some (EspTwaiFrame.ext rfl (rtr.symm.trans remote) dlcs ?_)
      rw [← data, CanFrame.payload, if_pos rtr]
    | false =>
      have payload : f.payload = f.data.take f.dlc := by simp [CanFrame.payload, rtr]
      rw [rtr, if_neg Bool.false_ne_true] at len
      rw [if_neg Bool.false_ne_true, ← payload, EspTwaiFrame.new, dif_pos (by omega)]
      exact congrArg some (EspTwaiFrame.ext rfl (rtr.symm.trans remote) (len.trans dlcs) data)

/-- The driver frame a transmit line stands for. -/
def Denotes (line : List UInt8) (e : EspTwaiFrame) : Prop :=
  TxLine line e.id.isExtended e.isRemote e.id.num e.dlc e.data

/-- Three digits give a number of 12 bits. -/
lemma TxLine.narrow {line : List UInt8} {rtr : Bool} {id dlc : ℕ} {payload : List UInt8}
    (tx : TxLine line false rtr id dlc payload) : id < 2 ^ 12 := by
  obtain ⟨ids, d, ds, rest, -, len, num, -⟩ := tx
  have lt := hexNum_lt num
  rw [len] at lt
  exact lt

/-- The parser and the conversion together compute what a line denotes. -/
theorem toEsp_parseTx {line : List UInt8} {e : EspTwaiFrame} :
    (parseTx line).bind toEsp = some e ↔ Denotes line e := by
  constructor
  · intro h
    obtain ⟨f, parsed, conv⟩ := Option.bind_eq_some_iff.mp h
    obtain ⟨tx, -⟩ := parseTx_iff.mp parsed
    have narrow : f.ext = false → f.id.toNat < 2 ^ 16 := by
      intro ext
      rw [ext] at tx
      have lt := TxLine.narrow tx
      omega
    obtain ⟨ext, rtr, num, dlc, data⟩ := (toEsp_eq_some narrow).mp conv
    rwa [ext, rtr, num, dlc, data] at tx
  · intro den
    obtain ⟨f, parsed, ext, rtr, num, dlc, payload⟩ := TxLine.accepted den e.dlc_le
    have narrow : f.ext = false → f.id.toNat < 2 ^ 16 := by
      intro short
      have tx := (parseTx_iff.mp parsed).1
      rw [short] at tx
      have lt := TxLine.narrow tx
      omega
    rw [parsed, Option.bind_some]
    exact (toEsp_eq_some narrow).mpr ⟨ext, rtr, num, dlc, payload⟩

/-- The width of the identifier a line denotes is that of its letter. -/
lemma Denotes.head {line : List UInt8} {e : EspTwaiFrame} (den : Denotes line e) :
    line.head? = some (letter e.id.isExtended e.isRemote) := by
  obtain ⟨ids, d, ds, rest, rfl, -⟩ := den
  rfl

/-- A line denotes at most one frame. -/
lemma Denotes.unique {line : List UInt8} {e e' : EspTwaiFrame} (den : Denotes line e)
    (den' : Denotes line e') : e = e' := by
  have h := toEsp_parseTx.mpr den
  rw [toEsp_parseTx.mpr den'] at h
  exact (Option.some.inj h).symm

end EspcanBr.Can
