import Mathlib

/-!
# Values in slots of a memory

A memory maps addresses to cells. `readAt` and `writeAt` are a range of it. A family of kinds keeps one
value of each kind in a slot of its own, as a sequence of cells (`Slots`); where the encodings fit their
slots, the slots lie apart and a value is read back from its encoding (`Slots.Ok`), a value is what was
last saved of its kind, whatever is done to the other slots (`load_save`, `load_outside`). A record is
read from its encoding by cutting it into its fields (`cut`).
-/

namespace EspcanBr.Base

/-- The number that little-endian bytes denote. -/
def fromLe : List UInt8 → ℕ
  | [] => 0
  | b :: bs => b.toNat + 256 * fromLe bs

variable {β : Type*}

/-- The pieces of the given lengths, from the start. -/
def cut : List ℕ → List β → List (List β)
  | [], _ => []
  | n :: ns, bs => bs.take n :: cut ns (bs.drop n)

/-- Fields that were put together are cut apart. -/
lemma cut_flatten (fields : List (List β)) (rest : List β) :
    cut (fields.map List.length) (fields.flatten ++ rest) = fields := by
  induction fields with
  | nil => rfl
  | cons f fields ih =>
    rw [List.map_cons, List.flatten_cons, List.append_assoc, cut, List.take_left, List.drop_left, ih]

/-- A record of fields with the given lengths, from a sequence that is long enough. -/
def readRecord {γ : Type*} (layout : List ℕ) (cells : List β) (make : List (List β) → Option γ) : Option γ :=
  if cells.length < layout.sum then none else make (cut layout cells)

lemma readRecord_flatten {γ : Type*} {layout : List ℕ} {fields : List (List β)}
    (lengths : layout = fields.map List.length) (rest : List β) (make : List (List β) → Option γ) :
    readRecord layout (fields.flatten ++ rest) make = make fields := by
  have long : ¬ (fields.flatten ++ rest).length < layout.sum := by
    rw [List.length_append, List.length_flatten, lengths]
    omega
  rw [readRecord, if_neg long, lengths, cut_flatten]

/-- The cells of a range. -/
def readAt (mem : ℕ → β) (offset size : ℕ) : List β := (List.range size).map fun i => mem (offset + i)

/-- The memory after a write. -/
def writeAt (mem : ℕ → β) (offset : ℕ) (cells : List β) : ℕ → β := fun i =>
  if offset ≤ i then (cells)[i - offset]?.getD (mem i) else mem i

/-- Where two memories agree they read the same. -/
lemma readAt_congr {mem mem' : ℕ → β} {offset size : ℕ}
    (same : ∀ i, offset ≤ i → i < offset + size → mem i = mem' i) :
    readAt mem offset size = readAt mem' offset size := by
  apply List.map_congr_left
  intro i lt
  have lt := List.mem_range.mp lt
  exact same _ (Nat.le_add_right _ _) (Nat.add_lt_add_left lt _)

/-- A write changes nothing outside its range. -/
lemma writeAt_outside {mem : ℕ → β} {offset i : ℕ} {cells : List β}
    (out : i < offset ∨ offset + cells.length ≤ i) : writeAt mem offset cells i = mem i := by
  rw [writeAt]
  split
  · have none : (cells)[i - offset]? = none := by
      apply List.getElem?_eq_none
      omega
    rw [none, Option.getD_none]
  · rfl

/-- What was written is read. -/
lemma readAt_writeAt (mem : ℕ → β) (offset : ℕ) (cells : List β) :
    readAt (writeAt mem offset cells) offset cells.length = cells := by
  apply List.ext_getElem
  · simp [readAt]
  · intro i _ lt
    simp [readAt, writeAt, List.getElem?_eq_getElem lt]

/-- The fields of the given lengths, one after the other from an address. -/
def readFields (mem : ℕ → β) : ℕ → List ℕ → List (List β)
  | _, [] => []
  | offset, n :: ns => readAt mem offset n :: readFields mem (offset + n) ns

/-- A range that is long enough is cut into these fields. -/
lemma cut_readAt (mem : ℕ → β) {layout : List ℕ} {offset size : ℕ} (fits : layout.sum ≤ size) :
    cut layout (readAt mem offset size) = readFields mem offset layout := by
  induction layout generalizing offset size with
  | nil => rfl
  | cons n ns ih =>
    rw [List.sum_cons] at fits
    obtain ⟨more, rfl⟩ := Nat.exists_eq_add_of_le (Nat.le_of_add_right_le fits)
    have parts : readAt mem offset (n + more) = readAt mem offset n ++ readAt mem (offset + n) more := by
      rw [readAt, List.range_add, List.map_append, List.map_map]
      congr 2
      funext i
      rw [Function.comp_apply, Nat.add_assoc]
    have len : (readAt mem offset n).length = n := by simp [readAt]
    rw [cut, readFields, parts, List.take_left' len, List.drop_left' len, ih (by omega)]

/-- A record is read from such a range. -/
lemma readRecord_readAt {γ : Type*} (mem : ℕ → β) {layout : List ℕ} {offset size : ℕ}
    (fits : layout.sum ≤ size) (make : List (List β) → Option γ) :
    readRecord layout (readAt mem offset size) make = make (readFields mem offset layout) := by
  have long : ¬ (readAt mem offset size).length < layout.sum := by
    rw [readAt, List.length_map, List.length_range]
    omega
  rw [readRecord, if_neg long, cut_readAt mem fits]

/-- One slot for each kind, with the encoding of its values. -/
structure Slots (κ : Type*) (γ : κ → Type*) (β : Type*) where
  offset : κ → ℕ
  size : κ → ℕ
  encode : (k : κ) → γ k → List β
  decode : (k : κ) → List β → Option (γ k)

namespace Slots
variable {κ : Type*} {γ : κ → Type*} {Good : (k : κ) → γ k → Prop}

/-- The value in a slot. -/
def load (S : Slots κ γ β) (k : κ) (mem : ℕ → β) : Option (γ k) :=
  S.decode k (readAt mem (S.offset k) (S.size k))

/-- A slot is filled with the encoding of a value and a filler. -/
def save (S : Slots κ γ β) (filler : β) (k : κ) (c : γ k) (mem : ℕ → β) : ℕ → β :=
  let cells := S.encode k c
  writeAt mem (S.offset k) (cells ++ List.replicate (S.size k - cells.length) filler)

/-- The address lies in the slot of a kind. -/
def Inside (S : Slots κ γ β) (k : κ) (i : ℕ) : Prop := S.offset k ≤ i ∧ i < S.offset k + S.size k

/-- Encodings of good values fit their slots, the slots lie apart, and a good value is read back from
its encoding whatever follows it. -/
structure Ok (S : Slots κ γ β) (Good : (k : κ) → γ k → Prop) : Prop where
  fits : ∀ k c, Good k c → (S.encode k c).length ≤ S.size k
  apart : ∀ j k, j ≠ k → S.offset j + S.size j ≤ S.offset k ∨ S.offset k + S.size k ≤ S.offset j
  back : ∀ k c, Good k c → ∀ rest, S.decode k (S.encode k c ++ rest) = some c

variable {S : Slots κ γ β}

/-- A slot that is not touched loads the same value. -/
lemma load_outside {k : κ} {mem mem' : ℕ → β} (same : ∀ i, S.Inside k i → mem' i = mem i) :
    S.load k mem' = S.load k mem := by
  have cells : readAt mem' (S.offset k) (S.size k) = readAt mem (S.offset k) (S.size k) :=
    readAt_congr fun i ge lt => same i ⟨ge, lt⟩
  rw [load, load, cells]

/-- Cells that are written beside a slot do not change what it loads. -/
theorem load_write_apart {k : κ} {start : ℕ} {cells : List β}
    (apart : start + cells.length ≤ S.offset k ∨ S.offset k + S.size k ≤ start) (mem : ℕ → β) :
    S.load k (writeAt mem start cells) = S.load k mem := by
  apply load_outside
  rintro i ⟨ge, lt⟩
  apply writeAt_outside
  rcases apart with before | after
  · exact .inr (before.trans ge)
  · exact .inl (lt.trans_le after)

lemma length_pad (ok : S.Ok Good) {k : κ} {c : γ k} (good : Good k c) (filler : β) :
    (S.encode k c ++ List.replicate (S.size k - (S.encode k c).length) filler).length = S.size k := by
  have fits := ok.fits k c good
  rw [List.length_append, List.length_replicate]
  omega

/-- What was saved is loaded. -/
theorem load_save (ok : S.Ok Good) {k : κ} {c : γ k} (good : Good k c) (filler : β) (mem : ℕ → β) :
    S.load k (S.save filler k c mem) = some c := by
  have cells := readAt_writeAt mem (S.offset k)
    (S.encode k c ++ List.replicate (S.size k - (S.encode k c).length) filler)
  rw [length_pad ok good filler] at cells
  rw [load, save, cells]
  exact ok.back k c good _

/-- A save leaves the other slots alone. -/
theorem load_save_apart (ok : S.Ok Good) {j k : κ} (ne : j ≠ k) {c : γ k} (good : Good k c) (filler : β)
    (mem : ℕ → β) : S.load j (S.save filler k c mem) = S.load j mem := by
  apply load_write_apart
  rw [length_pad ok good filler]
  exact (ok.apart j k ne).symm

end Slots
end EspcanBr.Base
