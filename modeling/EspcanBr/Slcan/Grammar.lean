import EspcanBr.Slcan.Codec

/-!
# What the transmit parser accepts

`TxLine` describes a transmit line field by field, on the numbers and bytes its hex digits denote and
without the parser's words. `parseTx_iff` shows that `parseTx` accepts exactly the lines that start
with such a description, and returns what it describes; what follows the last field is ignored.
`Documented` is the grammar of the documentation, which ends with the last field; the parser agrees
with it on all lines but those that go on after a complete command (`parseTx_documented`).
-/

namespace EspcanBr.Slcan
open Base

/-- The number of id digits after the letter. -/
def idLength (ext : Bool) : ℕ := if ext then 8 else 3

/-- The bytes of a frame's data that go over the wire. -/
def CanFrame.payload (f : CanFrame) : List UInt8 := if f.rtr then [] else f.data.take f.dlc

/-- `line` starts with a letter, id digits, a dlc digit and data digits that denote a frame with these
flags, number, dlc and payload. -/
structure TxLine (line : List UInt8) (ext rtr : Bool) (id dlc : ℕ) (payload : List UInt8) : Prop where
  fields : ∃ ids d ds rest, line = letter ext rtr :: (ids ++ d :: (ds ++ rest)) ∧
    ids.length = idLength ext ∧ hexNum ids = some id ∧ (hexVal d).map UInt8.toNat = some dlc ∧
    hexBytes ds = some payload ∧ payload.length = if rtr then 0 else dlc

/-- The letters `parse_tx` matches. -/
lemma kind_eq_some {c : UInt8} {ext rtr : Bool} {n : ℕ} :
    kind c = some (ext, rtr, n) ↔ c = letter ext rtr ∧ n = idLength ext := by
  constructor
  · intro h
    unfold kind at h
    split at h
    · cases h
      exact ⟨‹_›, rfl⟩
    · split at h
      · cases h
        exact ⟨‹_›, rfl⟩
      · split at h
        · cases h
          exact ⟨‹_›, rfl⟩
        · split at h
          · cases h
            exact ⟨‹_›, rfl⟩
          · cases h
  · rintro ⟨rfl, rfl⟩
    cases ext <;> cases rtr <;> decide

/-- One round of `parse_hex` on numbers. -/
lemma shift_or {x : ℕ} {d : UInt8} (lt : d.toNat < 16) :
    UInt32.ofNat x <<< 4 ||| d.toUInt32 = UInt32.ofNat (16 * x + d.toNat) := by
  apply UInt32.toNat_inj.mp
  have split : x % 2 ^ 32 * 2 ^ 4 % 2 ^ 32 = (x % 2 ^ 28) * 2 ^ 4 := by omega
  rw [UInt32.toNat_or, UInt32.toNat_shiftLeft, UInt8.toNat_toUInt32, UInt32.toNat_ofNat',
    UInt32.toNat_ofNat']
  rw [show (4 : UInt32).toNat % 32 = 4 from rfl, Nat.shiftLeft_eq, split, ← Nat.shiftLeft_eq,
    ← Nat.shiftLeft_add_eq_or_of_lt (by omega), Nat.shiftLeft_eq]
  omega

/-- `parse_hex` computes the number, modulo `2 ^ 32`. -/
lemma parseHexFrom_eq (x : ℕ) (bs : List UInt8) :
    parseHexFrom (UInt32.ofNat x) bs = (hexNumFrom x bs).map UInt32.ofNat := by
  induction bs generalizing x with
  | nil => rfl
  | cons b bs ih =>
    rw [parseHexFrom, hexNumFrom, nibble]
    cases hb : hexVal b with
    | none => rfl
    | some d =>
      simp only [shift_or (hexVal_lt hb)]
      exact ih _

/-- Up to eight digits `parse_hex` computes the number. -/
lemma parseHex_iff {bs : List UInt8} (le : bs.length ≤ 8) {id : UInt32} :
    parseHex bs = some id ↔ hexNum bs = some id.toNat := by
  rw [parseHex, show (0 : UInt32) = UInt32.ofNat 0 from rfl, parseHexFrom_eq, hexNum,
    Option.map_eq_some_iff]
  constructor
  · rintro ⟨n, h, rfl⟩
    have lt := hexNum_lt h
    have pow : 16 ^ bs.length ≤ 16 ^ 8 := Nat.pow_le_pow_right (by omega) le
    rw [h, UInt32.toNat_ofNat', Nat.mod_eq_of_lt (by omega)]
  · intro h
    exact ⟨_, h, UInt32.ofNat_toNat⟩

/-- The data loop reads the pairs of digits at `i`. -/
lemma parseData_eq {line : List UInt8} {i n : ℕ} (le : i + n * 2 ≤ line.length) :
    parseData line i n le = hexBytes ((line.drop i).take (n * 2)) := by
  induction n generalizing i with
  | zero => simp [parseData, hexBytes]
  | succ n ih =>
    have h1 : line.drop i = (line)[i] :: (line)[i + 1] :: line.drop (i + 2) := by
      rw [List.drop_eq_getElem_cons (by omega), List.drop_eq_getElem_cons (by omega)]
    rw [parseData, h1, show (n + 1) * 2 = n * 2 + 1 + 1 by omega, List.take_succ_cons,
      List.take_succ_cons, hexBytes, nibble, nibble]
    cases hexVal (line)[i] with
    | none => rfl
    | some hi =>
      cases hexVal (line)[i + 1] with
      | none => rfl
      | some lo =>
        simp only
        rw [ih]

/-- A list splits into two parts around an element. -/
lemma split_at {l : List UInt8} {n : ℕ} (lt : n < l.length) :
    l = l.take n ++ l[n] :: l.drop (n + 1) := by
  rw [← List.drop_eq_getElem_cons lt, List.take_append_drop]

/-- What `parseTx` returns is described by the line. -/
lemma parseTx_sound {line : List UInt8} {f : CanFrame} (h : parseTx line = some f) :
    TxLine line f.ext f.rtr f.id.toNat f.dlc f.payload ∧ f.data = pad f.payload := by
  rw [parseTx] at h
  split at h
  · cases h
  · rename_i ext rtr n k
    split at h
    · cases h
    · rename_i long
      cases line with
      | nil => cases k
      | cons c tl =>
        obtain ⟨rfl, rfl⟩ := kind_eq_some.mp k
        split at h
        · rename_i id dlc hid hdlc
          have lt : idLength ext < tl.length := by
            simp only [List.length_cons] at long
            omega
          have idx : (letter ext rtr :: tl)[1 + idLength ext] = tl[idLength ext] := by
            simp only [Nat.add_comm 1, List.getElem_cons_succ]
          have ids : (tl.take (idLength ext)).length = idLength ext := by
            rw [List.length_take]
            omega
          have idle : (tl.take (idLength ext)).length ≤ 8 := by
            rw [ids]
            cases ext <;> decide
          have num := (parseHex_iff idle).mp hid
          rw [idx, nibble] at hdlc
          have eq := split_at lt
          split at h
          · cases h
          · rename_i gt
            split at h
            · rename_i remote
              cases h
              refine ⟨⟨_, _, [], _, congrArg _ eq, ids, num, ?_, ?_, ?_⟩, ?_⟩
              · rw [hdlc, Option.map_some]
              · simp [CanFrame.payload, remote, hexBytes]
              · simp [CanFrame.payload, remote]
              · simp [CanFrame.payload, remote]
            · rename_i remote
              split at h
              · cases h
              · rename_i short
                split at h
                · cases h
                · rename_i ds hds
                  cases h
                  have len := length_parseData hds
                  have le : dlc.toNat ≤ 8 := UInt8.le_iff_toNat_le.mp (UInt8.not_lt.mp gt)
                  rw [parseData_eq] at hds
                  have rest : (letter ext rtr :: tl).drop (1 + idLength ext + 1) =
                      tl.drop (idLength ext + 1) := by
                    rw [show 1 + idLength ext + 1 = (idLength ext + 1) + 1 by omega,
                      List.drop_succ_cons]
                  rw [rest] at hds
                  have payload : (pad ds).take dlc.toNat = ds := by
                    rw [← len, take_pad]
                  have more : tl.drop (idLength ext + 1) =
                      (tl.drop (idLength ext + 1)).take (dlc.toNat * 2) ++
                        (tl.drop (idLength ext + 1)).drop (dlc.toNat * 2) :=
                    (List.take_append_drop _ _).symm
                  rw [more] at eq
                  refine ⟨⟨_, _, _, _, congrArg _ eq, ids, num, ?_, ?_, ?_⟩, ?_⟩
                  · rw [hdlc, Option.map_some]
                  · simp [CanFrame.payload, remote, payload, hds]
                  · simp [CanFrame.payload, remote, payload, len]
                  · simp [CanFrame.payload, remote, payload]
        · cases h

/-- Frames with the same fields are the same. -/
lemma CanFrame.ext' {f g : CanFrame} (id : f.id = g.id) (ext : f.ext = g.ext)
    (rtr : f.rtr = g.rtr) (dlc : f.dlc = g.dlc) (data : f.data = g.data) : f = g := by
  cases f
  cases g
  cases id
  cases ext
  cases rtr
  cases dlc
  cases data
  rfl

/-- A line that is described is accepted, with the frame it describes. -/
lemma parseTx_complete {line : List UInt8} {f : CanFrame}
    (tx : TxLine line f.ext f.rtr f.id.toNat f.dlc f.payload) (data : f.data = pad f.payload) :
    parseTx line = some f := by
  obtain ⟨ids, d, ds, rest, rfl, len, hid, hd, hds, plen⟩ := tx
  obtain ⟨dlc, hd, eq⟩ := Option.map_eq_some_iff.mp hd
  have le := f.dlc_le
  have idle : ids.length ≤ 8 := by
    rw [len]
    cases f.ext <;> decide
  have k : kind (letter f.ext f.rtr) = some (f.ext, f.rtr, idLength f.ext) :=
    kind_eq_some.mpr ⟨rfl, rfl⟩
  have gt : ¬ dlc > 8 := by
    rw [gt_iff_lt, UInt8.not_lt, UInt8.le_iff_toNat_le, eq]
    exact le
  have idx : ∀ lt : 1 + idLength f.ext < (letter f.ext f.rtr :: (ids ++ d :: (ds ++ rest))).length,
      (letter f.ext f.rtr :: (ids ++ d :: (ds ++ rest)))[1 + idLength f.ext] = d := by
    intro lt
    simp [← len, Nat.add_comm 1]
  rw [parseTx]
  simp only [List.head?_cons, Option.bind_some, k]
  rw [dif_neg (by simp only [List.length_cons, List.length_append]; omega)]
  simp only [idx, nibble, hd]
  simp only [List.drop_succ_cons, List.drop_zero, ← len, List.take_left,
    (parseHex_iff idle).mpr hid]
  rw [dif_neg gt]
  by_cases remote : f.rtr = true
  · rw [if_pos remote]
    refine congrArg some (CanFrame.ext' rfl rfl rfl eq ?_)
    rw [data, CanFrame.payload, if_pos remote]
  · rw [if_neg remote]
    have dsl := hexBytes_length hds
    rw [plen, if_neg remote, ← eq] at dsl
    have fit : 1 + ids.length + 1 + dlc.toNat * 2 ≤
        (letter f.ext f.rtr :: (ids ++ d :: (ds ++ rest))).length := by
      simp only [List.length_cons, List.length_append]
      omega
    have drop : (letter f.ext f.rtr :: (ids ++ d :: (ds ++ rest))).drop (1 + ids.length + 1) =
        ds ++ rest := by
      rw [show 1 + ids.length + 1 = ids.length + 1 + 1 by omega, List.drop_succ_cons,
        ← List.drop_drop, List.drop_left, List.drop_one, List.tail_cons]
    have read : hexBytes (((letter f.ext f.rtr :: (ids ++ d :: (ds ++ rest))).drop
        (1 + idLength f.ext + 1)).take (dlc.toNat * 2)) = some f.payload := by
      rw [← len, drop, show dlc.toNat * 2 = ds.length by omega, List.take_left, hds]
    rw [dif_neg (Nat.not_lt.mpr fit)]
    split
    · rename_i no
      rw [parseData_eq, read] at no
      cases no
    · rename_i ds' hds'
      rw [parseData_eq, read] at hds'
      cases hds'
      exact congrArg some (CanFrame.ext' rfl rfl rfl eq data.symm)

lemma letter_inj {ext rtr ext' rtr' : Bool} (eq : letter ext rtr = letter ext' rtr') :
    ext = ext' ∧ rtr = rtr' := by
  revert eq
  cases ext <;> cases rtr <;> cases ext' <;> cases rtr' <;> decide

/-- The width and the number of the identifier are determined by the line. -/
lemma TxLine.id_unique {line : List UInt8} {ext rtr ext' rtr' : Bool} {id dlc id' dlc' : ℕ}
    {payload payload' : List UInt8} (tx : TxLine line ext rtr id dlc payload)
    (tx' : TxLine line ext' rtr' id' dlc' payload') : ext = ext' ∧ id = id' := by
  obtain ⟨ids, d, ds, rest, eq, len, num, -⟩ := tx
  obtain ⟨ids', d', ds', rest', eq', len', num', -⟩ := tx'
  obtain ⟨head, tail⟩ := List.cons.inj (eq.symm.trans eq')
  obtain ⟨rfl, rfl⟩ := letter_inj head
  obtain ⟨rfl, -⟩ := List.append_inj tail (len.trans len'.symm)
  exact ⟨rfl, Option.some.inj (num.symm.trans num')⟩

/-- `parseTx` accepts exactly the lines that start with the description of a frame. -/
theorem parseTx_iff {line : List UInt8} {f : CanFrame} :
    parseTx line = some f ↔
      TxLine line f.ext f.rtr f.id.toNat f.dlc f.payload ∧ f.data = pad f.payload :=
  ⟨parseTx_sound, fun ⟨tx, data⟩ => parseTx_complete tx data⟩

/-- The fields a line describes, with a length of at most 8, are those of the frame it is parsed to. -/
lemma TxLine.accepted {line : List UInt8} {ext rtr : Bool} {id dlc : ℕ} {payload : List UInt8}
    (tx : TxLine line ext rtr id dlc payload) (le : dlc ≤ 8) :
    ∃ f, parseTx line = some f ∧ f.ext = ext ∧ f.rtr = rtr ∧ f.id.toNat = id ∧ f.dlc = dlc ∧
      f.payload = payload := by
  have wide : id < 2 ^ 32 := by
    obtain ⟨ids, -, -, -, -, len, num, -⟩ := tx
    have lt := hexNum_lt num
    have pow : 16 ^ ids.length ≤ 2 ^ 32 := by
      rw [len]
      cases ext <;> decide
    omega
  have num : (UInt32.ofNat id).toNat = id := by
    rw [UInt32.toNat_ofNat', Nat.mod_eq_of_lt wide]
  have fit : payload.length = if rtr then 0 else dlc := by
    obtain ⟨-, -, -, -, -, -, -, -, -, fit⟩ := tx
    exact fit
  have small : payload.length ≤ 8 := by
    rw [fit]
    split
    · exact Nat.zero_le 8
    · exact le
  let f : CanFrame := ⟨UInt32.ofNat id, ext, rtr, dlc, pad payload, le, length_pad small⟩
  -- the first `dlc` data bytes of the frame, and none of a remote one
  have own : f.payload = payload := by
    rw [CanFrame.payload]
    cases rtr with
    | true => exact (List.eq_nil_of_length_eq_zero fit).symm
    | false =>
      rw [if_neg Bool.false_ne_true] at fit ⊢
      simp only [f, ← fit]
      exact take_pad payload
  refine ⟨f, parseTx_iff.mpr ⟨?_, ?_⟩, rfl, rfl, num, rfl, own⟩
  · rw [own, num]
    exact tx
  · rw [own]

/-- `line` is a transmit command that ends with its last field, and its digits denote `f`, with zeros
in the data bytes that are not transmitted. -/
structure Documented (line : List UInt8) (f : CanFrame) : Prop where
  fields : ∃ ids d ds, line = letter f.ext f.rtr :: (ids ++ d :: ds) ∧
    ids.length = idLength f.ext ∧ hexNum ids = some f.id.toNat ∧
    (hexVal d).map UInt8.toNat = some f.dlc ∧ hexBytes ds = some f.payload ∧
    f.payload.length = if f.rtr then 0 else f.dlc
  zeros : f.data = pad f.payload

/-- The parser accepts the documented commands with anything after them. -/
lemma parseTx_front {line : List UInt8} {f : CanFrame} :
    parseTx line = some f ↔ ∃ pre rest, line = pre ++ rest ∧ Documented pre f := by
  rw [parseTx_iff]
  constructor
  · rintro ⟨⟨ids, d, ds, rest, eq, fields⟩, zeros⟩
    refine ⟨letter f.ext f.rtr :: (ids ++ d :: ds), rest, ?_, ⟨ids, d, ds, rfl, fields⟩, zeros⟩
    rw [eq]
    simp only [List.cons_append, List.append_assoc]
  · rintro ⟨pre, rest, rfl, ⟨ids, d, ds, rfl, fields⟩, zeros⟩
    refine ⟨⟨ids, d, ds, rest, ?_, fields⟩, zeros⟩
    simp only [List.cons_append, List.append_assoc]

/-- The frame fixes the length of the command. -/
lemma Documented.length {line : List UInt8} {f : CanFrame} (doc : Documented line f) :
    line.length = 2 + idLength f.ext + 2 * f.payload.length := by
  obtain ⟨ids, d, ds, rfl, len, -, -, data, -⟩ := doc.fields
  have double := hexBytes_length data
  simp only [List.length_cons, List.length_append]
  omega

/-- No command goes on after another one. -/
lemma Documented.whole {pre rest : List UInt8} {f g : CanFrame} (doc : Documented pre f)
    (doc' : Documented (pre ++ rest) g) : rest = [] := by
  have first : parseTx (pre ++ rest) = some f := parseTx_front.mpr ⟨pre, rest, rfl, doc⟩
  have second : parseTx (pre ++ rest) = some g :=
    parseTx_front.mpr ⟨pre ++ rest, [], (List.append_nil _).symm, doc'⟩
  rw [first] at second
  cases second
  have len := doc.length
  have len' := doc'.length
  rw [List.length_append] at len'
  apply List.eq_nil_of_length_eq_zero
  omega

/-- The parser accepts a line with what the documentation says of it, if and only if the line does not
go on after a complete command. -/
theorem parseTx_documented (line : List UInt8) :
    (∀ f, parseTx line = some f ↔ Documented line f) ↔
      ¬ ∃ pre rest f, line = pre ++ rest ∧ rest ≠ [] ∧ Documented pre f := by
  constructor
  · rintro agrees ⟨pre, rest, f, rfl, more, doc⟩
    have accepted : parseTx (pre ++ rest) = some f := parseTx_front.mpr ⟨pre, rest, rfl, doc⟩
    have doc' := (agrees f).mp accepted
    exact more (doc.whole doc')
  · intro ends f
    rw [parseTx_front]
    constructor
    · rintro ⟨pre, rest, rfl, doc⟩
      have none : rest = [] := by
        by_contra more
        exact ends ⟨pre, rest, f, rfl, more, doc⟩
      rw [none, List.append_nil]
      exact doc
    · intro doc
      exact ⟨line, [], (List.append_nil _).symm, doc⟩

/-- A line with one digit too many is accepted. -/
theorem longer_line_accepted : ¬ ∀ line f, parseTx line = some f ↔ Documented line f := by
  intro agrees
  have accepted : parseTx (['t', '1', '2', '3', '0', '7'].map ch) =
      some ⟨0x123, false, false, 0, pad [], by decide, rfl⟩ := by decide +kernel
  have doc := (agrees _ _).mp accepted
  have len := doc.length
  revert len
  decide

end EspcanBr.Slcan
