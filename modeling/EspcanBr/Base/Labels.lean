import Mathlib

/-!
# Names as labels

A name of the domain name system, without compression: its labels, each with a byte for its length
before it, and a zero byte at the end. `readName` is the walk over the labels; it reads back what
`nameBytes` writes, and a name that it reads to its end is written so (`readName_iff`).
-/

namespace EspcanBr.Base

/-- A label has between one and 63 bytes. -/
def ValidLabel (label : List UInt8) : Prop := 1 ≤ label.length ∧ label.length ≤ 63

/-- The labels of a name, each with its length. -/
def labelBytes (labels : List (List UInt8)) : List UInt8 :=
  labels.flatMap fun label => UInt8.ofNat label.length :: label

/-- A name. -/
def nameBytes (labels : List (List UInt8)) : List UInt8 := labelBytes labels ++ [0]

/-- The walk over the labels of a name: these, and what follows the name. The name may also end with the
text; `none` is a label that is too long, or that is cut off. -/
def readName : (text : List UInt8) → Option (List (List UInt8) × List UInt8)
  | [] => some ([], [])
  | n :: rest =>
    if n = 0 then some ([], rest)
    else if n > 63 ∨ rest.length < n.toNat then none
    else (readName (rest.drop n.toNat)).map fun (labels, tail) => (rest.take n.toNat :: labels, tail)
  termination_by text => text.length
  decreasing_by simp only [List.length_drop, List.length_cons]; omega

lemma labelBytes_cons (label : List UInt8) (labels : List (List UInt8)) :
    labelBytes (label :: labels) = UInt8.ofNat label.length :: label ++ labelBytes labels := by
  simp [labelBytes]

lemma nameBytes_cons (label : List UInt8) (labels : List (List UInt8)) :
    nameBytes (label :: labels) = UInt8.ofNat label.length :: label ++ nameBytes labels := by
  simp [nameBytes, labelBytes_cons]

/-- The byte for the length of a label. -/
lemma ValidLabel.length_byte {label : List UInt8} (valid : ValidLabel label) :
    (UInt8.ofNat label.length).toNat = label.length ∧ UInt8.ofNat label.length ≠ 0 ∧
      ¬ UInt8.ofNat label.length > 63 := by
  obtain ⟨pos, le⟩ := valid
  have num : (UInt8.ofNat label.length).toNat = label.length := by
    rw [UInt8.toNat_ofNat']
    omega
  have bound : (63 : UInt8).toNat = 63 := rfl
  refine ⟨num, fun zero => ?_, ?_⟩
  · rw [zero] at num
    simp only [UInt8.toNat_zero] at num
    omega
  · rw [gt_iff_lt, UInt8.lt_iff_toNat_lt, num, bound]
    omega

/-- A name that is written is read. -/
lemma readName_nameBytes {labels : List (List UInt8)} (valid : ∀ label ∈ labels, ValidLabel label)
    (tail : List UInt8) : readName (nameBytes labels ++ tail) = some (labels, tail) := by
  induction labels with
  | nil =>
    have zero : nameBytes [] ++ tail = 0 :: tail := rfl
    rw [zero, readName, if_pos rfl]
  | cons label labels ih =>
    obtain ⟨num, ne, le⟩ := (valid label List.mem_cons_self).length_byte
    have cut : nameBytes (label :: labels) ++ tail =
        UInt8.ofNat label.length :: (label ++ (nameBytes labels ++ tail)) := by
      simp [nameBytes_cons]
    have long : ¬ (label ++ (nameBytes labels ++ tail)).length < label.length := by
      rw [List.length_append]
      omega
    rw [cut, readName, if_neg ne, num, if_neg (not_or.mpr ⟨le, long⟩), List.drop_left, List.take_left,
      ih fun other mem => valid other (List.mem_cons_of_mem _ mem)]
    rfl

/-- A name that is read is written so, or goes on to the end of the text. -/
lemma readName_sound {text tail : List UInt8} {labels : List (List UInt8)}
    (read : readName text = some (labels, tail)) :
    (∀ label ∈ labels, ValidLabel label) ∧
      (text = nameBytes labels ++ tail ∨ (text = labelBytes labels ∧ tail = [])) := by
  fun_induction readName text generalizing labels with
  | case1 =>
    cases read
    exact ⟨by simp, .inr ⟨rfl, rfl⟩⟩
  | case2 rest =>
    cases read
    exact ⟨by simp, .inl rfl⟩
  | case3 n rest ne bad => cases read
  | case4 n rest ne fits ih =>
    obtain ⟨short, long⟩ := not_or.mp fits
    obtain ⟨⟨labels', tail'⟩, inner, eq⟩ := Option.map_eq_some_iff.mp read
    cases eq
    obtain ⟨valid, written⟩ := ih inner
    have length : (rest.take n.toNat).length = n.toNat := by
      rw [List.length_take]
      omega
    have first : ValidLabel (rest.take n.toNat) := by
      have bound : (63 : UInt8).toNat = 63 := rfl
      rw [gt_iff_lt, UInt8.lt_iff_toNat_lt, bound] at short
      have pos : n.toNat ≠ 0 := fun zero => ne (UInt8.toNat_inj.mp zero)
      rw [ValidLabel, length]
      omega
    have byte : UInt8.ofNat (rest.take n.toNat).length = n := by
      rw [length, UInt8.ofNat_toNat]
    have whole := List.take_append_drop n.toNat rest
    refine ⟨fun label mem => ?_, ?_⟩
    · rcases List.mem_cons.mp mem with rfl | mem
      · exact first
      · exact valid label mem
    · rcases written with eq | ⟨eq, nil⟩
      · left
        rw [nameBytes_cons, byte, List.cons_append, List.cons_append, List.append_assoc, ← eq, whole]
      · refine .inr ⟨?_, nil⟩
        rw [labelBytes_cons, byte, ← eq, List.cons_append, whole]

/-- A name with something behind it is read if and only if it is written so. -/
theorem readName_iff {text tail : List UInt8} {labels : List (List UInt8)} (ne : tail ≠ []) :
    readName text = some (labels, tail) ↔
      text = nameBytes labels ++ tail ∧ ∀ label ∈ labels, ValidLabel label := by
  constructor
  · intro read
    obtain ⟨valid, whole | ⟨-, nil⟩⟩ := readName_sound read
    · exact ⟨whole, valid⟩
    · exact absurd nil ne
  · rintro ⟨rfl, valid⟩
    exact readName_nameBytes valid tail

end EspcanBr.Base
