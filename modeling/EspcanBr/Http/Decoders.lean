import EspcanBr.Http.Credentials

/-!
# The decoders and their buffers

`url_decode_into` and `base64_decode` of `src/http.rs` as they stand there: loops that read a text and
write bytes at an index of a buffer. An index out of range, which panics, is `none`. Neither happens: the
loops write what the decoders on lists return to the front of the buffer, and leave the rest of it alone
(`urlDecodeAt_eq`, `base64Loop_spec`).
-/

namespace EspcanBr.Http
open Base

/-- `dst[i] = v`. -/
def put (dst : List UInt8) (i : ℕ) (v : UInt8) : Option (List UInt8) :=
  if i < dst.length then some (dst.set i v) else none

/-- The buffer with bytes written from an index on. -/
def overwrite (dst : List UInt8) (i : ℕ) (out : List UInt8) : List UInt8 :=
  dst.take i ++ out ++ dst.drop (i + out.length)

@[simp] lemma overwrite_nil (dst : List UInt8) (i : ℕ) : overwrite dst i [] = dst := by
  simp [overwrite]

lemma take_set {dst : List UInt8} {i : ℕ} (lt : i < dst.length) (v : UInt8) :
    (dst.set i v).take (i + 1) = dst.take i ++ [v] := by
  rw [List.set_eq_take_append_cons_drop, if_pos lt, List.take_append, List.length_take,
    Nat.min_eq_left lt.le, List.take_of_length_le (by simp), Nat.add_sub_cancel_left]
  rfl

/-- A byte, and then the others. -/
lemma overwrite_set {dst : List UInt8} {i : ℕ} (lt : i < dst.length) (v : UInt8) (out : List UInt8) :
    overwrite (dst.set i v) (i + 1) out = overwrite dst i (v :: out) := by
  have back : (dst.set i v).drop (i + 1 + out.length) = dst.drop (i + (v :: out).length) := by
    rw [List.drop_set_of_lt (by omega), List.length_cons]
    congr 1
    omega
  rw [overwrite, take_set lt, back, overwrite, List.append_assoc (dst.take i)]
  rfl

section Url

/-- The byte written as `%XX` at a place in the text, if there is one. -/
def escapeAt (bytes : List UInt8) (si : ℕ) : Option (Option UInt8) := do
  let b ← (bytes)[si]?
  if b = 0x25 ∧ si + 2 < bytes.length then
    let h ← (bytes)[si + 1]?
    let l ← (bytes)[si + 2]?
    match hexNibble h, hexNibble l with
    | some h, some l => some (some (h <<< 4 ||| l))
    | _, _ => some none
  else some none

/-- The loop of `url_decode_into`, from a place in the text and one in the buffer. -/
def urlDecodeAt (bytes dst : List UInt8) (si di : ℕ) : Option (List UInt8 × ℕ) :=
  if _inside : si < bytes.length ∧ di < dst.length then
    match escapeAt bytes si with
    | none => none
    | some (some v) => (put dst di v).bind fun dst => urlDecodeAt bytes dst (si + 3) (di + 1)
    | some none =>
      (bytes)[si]?.bind fun b =>
        (put dst di (if b = 0x2B then 0x20 else b)).bind fun dst => urlDecodeAt bytes dst (si + 1) (di + 1)
  else some (dst, di)
termination_by bytes.length - si

/-- `find_form_value`, and `url_decode_into` for what it finds: the buffer and the length. -/
def decodeField (body key dst : List UInt8) : Option (List UInt8 × ℕ) :=
  match findFormValue body key with
  | none => some (dst, 0)
  | some text => urlDecodeAt text dst 0 0

/-- The bytes of the rest of a text. -/
lemma get_of_drop {bytes rest : List UInt8} {si : ℕ} (here : bytes.drop si = rest) (j : ℕ) :
    (bytes)[si + j]? = (rest)[j]? := by
  rw [← here, List.getElem?_drop]

/-- The escape at a place is the one that the rest of the text starts with. -/
lemma escapeAt_eq {bytes rest : List UInt8} {si : ℕ} {b : UInt8} (here : bytes.drop si = b :: rest) :
    escapeAt bytes si = some ((percent (b :: rest)).map Prod.fst) ∧
      ∀ v rest', percent (b :: rest) = some (v, rest') → rest' = bytes.drop (si + 3) := by
  have at0 : (bytes)[si]? = some b := get_of_drop here 0
  have at1 : (bytes)[si + 1]? = (rest)[0]? := get_of_drop here 1
  have at2 : (bytes)[si + 2]? = (rest)[1]? := get_of_drop here 2
  have length : bytes.length - si = rest.length + 1 := by
    rw [← List.length_drop, here, List.length_cons]
  have after : bytes.drop (si + 3) = rest.drop 2 := by
    rw [← List.drop_drop, here, List.drop_succ_cons]
  rcases rest with _ | ⟨h, _ | ⟨l, rest⟩⟩
  · have short : ¬ (b = 0x25 ∧ si + 2 < bytes.length) := by
      simp only [List.length_nil] at length
      omega
    refine ⟨?_, fun v rest' eq => by cases eq⟩
    simp [escapeAt, at0, short, percent]
  · have short : ¬ (b = 0x25 ∧ si + 2 < bytes.length) := by
      simp only [List.length_cons, List.length_nil] at length
      omega
    refine ⟨?_, fun v rest' eq => by cases eq⟩
    simp [escapeAt, at0, short, percent]
  · have long : si + 2 < bytes.length := by
      simp only [List.length_cons] at length
      omega
    have last : (bytes)[si + 2] = l := by
      rw [List.getElem?_eq_getElem long] at at2
      exact Option.some.inj at2
    rw [after]
    by_cases escape : b = 0x25
    · subst escape
      cases high : hexNibble h with
      | none => simp [escapeAt, at0, at1, long, percent, high]
      | some h' =>
        cases low : hexNibble l with
        | none => simp [escapeAt, at0, at1, long, percent, high, low, last]
        | some l' => simp [escapeAt, at0, at1, long, percent, high, low, last]
    · simp [escapeAt, at0, escape, percent]

/-- The loop writes what the rest of the text stands for, as far as there is room, and returns where it
stopped to write. -/
lemma urlDecodeAt_eq (bytes : List UInt8) {dst : List UInt8} (si : ℕ) {di : ℕ} (le : di ≤ dst.length) :
    urlDecodeAt bytes dst si di =
      some (overwrite dst di (urlDecodeInto (dst.length - di) (bytes.drop si)),
        di + (urlDecodeInto (dst.length - di) (bytes.drop si)).length) := by
  -- on what is left of the text; each round takes one byte or an escape from it, and one from the room
  induction left : bytes.length - si using Nat.strong_induction_on generalizing dst si di with
  | _ n ih =>
    rw [urlDecodeAt]
    split
    · rename_i inside
      obtain ⟨lt, room⟩ := inside
      obtain ⟨b, rest, here⟩ : ∃ b rest, bytes.drop si = b :: rest :=
        List.exists_cons_of_ne_nil (by rw [ne_eq, List.drop_eq_nil_iff]; omega)
      obtain ⟨escape, after⟩ := escapeAt_eq here
      have at0 : (bytes)[si]? = some b := get_of_drop here 0
      have tail : bytes.drop (si + 1) = rest := by rw [← List.drop_drop, here, List.drop_one, List.tail_cons]
      obtain ⟨more, more_eq⟩ : ∃ more, dst.length - di = more + 1 := ⟨dst.length - di - 1, by omega⟩
      have step : ∀ {v : UInt8} {k : ℕ}, 0 < k →
          urlDecodeInto (dst.length - di) (bytes.drop si) = v :: urlDecodeInto more (bytes.drop (si + k)) →
          (put dst di v).bind (fun dst => urlDecodeAt bytes dst (si + k) (di + 1)) =
            some (overwrite dst di (urlDecodeInto (dst.length - di) (bytes.drop si)),
              di + (urlDecodeInto (dst.length - di) (bytes.drop si)).length) := by
        intro v k pos out
        have room' : (dst.set di v).length - (di + 1) = more := by
          rw [List.length_set]
          omega
        rw [put, if_pos room, Option.bind_some,
          ih (bytes.length - (si + k)) (by omega) _ (by rw [List.length_set]; omega) rfl, room',
          overwrite_set room, out, List.length_cons]
        congr 2
        omega
      rw [escape]
      cases what : percent (b :: rest) with
      | none =>
        simp only [Option.map_none, at0, Option.bind_some]
        refine step Nat.one_pos ?_
        rw [here, more_eq, urlDecodeInto, what, tail]
      | some found =>
        obtain ⟨v, rest'⟩ := found
        refine step (by decide) ?_
        rw [here, more_eq, urlDecodeInto, what, ← after v rest' what]
    · rename_i out
      have none : urlDecodeInto (dst.length - di) (bytes.drop si) = [] := by
        rw [urlDecodeInto_eq]
        rcases Nat.lt_or_ge di dst.length with room | full
        · have ended : bytes.drop si = [] := List.drop_eq_nil_of_le (by omega)
          rw [ended]
          exact List.take_nil
        · rw [Nat.sub_eq_zero_of_le full, List.take_zero]
      rw [none, overwrite_nil, List.length_nil, Nat.add_zero]

/-- From the start: the front of what the text stands for is at the front of the buffer. -/
lemma urlDecodeAt_start (text dst : List UInt8) : urlDecodeAt text dst 0 0 =
    some ((formDecode text).take dst.length ++ dst.drop (formDecode text).length,
      min (formDecode text).length dst.length) := by
  rw [urlDecodeAt_eq text 0 (Nat.zero_le _), urlDecodeInto_eq, overwrite, List.drop_zero, Nat.sub_zero,
    List.take_zero, List.nil_append, List.length_take, Nat.zero_add, Nat.min_comm, ← List.drop_eq_drop_min]

end Url

/-- A letter or a digit. -/
def isAlphanumeric (b : UInt8) : Bool :=
  0x30 ≤ b ∧ b ≤ 0x39 ∨ 0x41 ≤ b ∧ b ≤ 0x5A ∨ 0x61 ≤ b ∧ b ≤ 0x7A

/-- The form codec. For every form of pairs with alphanumeric keys, every key and every buffer, the front
of the value of the first pair with the key is written to the buffer, as far as it has room, and nothing
is written without such a pair; the rest of the buffer stays as it is. For every text the decoder ends,
within the text and the buffer. A percent sign without two digits is copied wherever it stands, what is
before it and behind it being decoded on their own. -/
theorem form_codec :
    (∀ pairs body, EncodesForm pairs body → (∀ pair ∈ pairs, ∀ b ∈ pair.1, isAlphanumeric b = true) →
      ∀ key dst value, value = ((pairs.find? fun pair => pair.1 = key).map Prod.snd).getD [] →
        decodeField body key dst =
          some (value.take dst.length ++ dst.drop value.length, min value.length dst.length)) ∧
    (∀ text dst, ∃ dst' n, urlDecodeAt text dst 0 0 = some (dst', n) ∧ n ≤ dst.length ∧
      dst'.length = dst.length ∧ dst'.drop n = dst.drop n) ∧
    ∀ pre post dst value, ¬ StartsHex post → value = formDecode pre ++ 0x25 :: formDecode post →
      urlDecodeAt (pre ++ 0x25 :: post) dst 0 0 =
        some (value.take dst.length ++ dst.drop value.length, min value.length dst.length) := by
  refine ⟨?_, fun text dst => ⟨_, _, urlDecodeAt_start text dst, Nat.min_le_right _ _, ?_, ?_⟩, ?_⟩
  · rintro pairs body encodes plain key dst value rfl
    have others : ∀ b, isAlphanumeric b = true → b ≠ 0x26 ∧ b ≠ 0x3D := by
      intro b plain
      refine ⟨?_, ?_⟩
      · rintro rfl
        revert plain
        decide
      · rintro rfl
        revert plain
        decide
    have keys : ∀ pair ∈ pairs, 0x26 ∉ pair.1 ∧ 0x3D ∉ pair.1 := by
      intro pair mem
      exact ⟨fun sep => (others _ (plain pair mem _ sep)).1 rfl,
        fun sep => (others _ (plain pair mem _ sep)).2 rfl⟩
    rw [decodeField]
    by_cases ne : pairs = []
    · subst ne
      obtain ⟨texts, all, rfl⟩ := encodes
      cases all
      have none : findFormValue [] key = none := rfl
      simp [none]
    · obtain ⟨texts, form, values⟩ := encodes.exists_form ne keys
      rw [findFormValue_form form, ← values]
      cases formValue texts key with
      | none => simp
      | some text => exact urlDecodeAt_start text dst
  · simp only [List.length_append, List.length_take, List.length_drop]
    omega
  · have front : ((formDecode text).take dst.length).length = min (formDecode text).length dst.length := by
      rw [List.length_take, Nat.min_comm]
    rw [List.drop_left' front, ← List.drop_eq_drop_min]
  · rintro pre post dst value no rfl
    rw [urlDecodeAt_start, formDecode_append, formDecode_percent no]

/-- The variables of `base64_decode`. -/
structure Decoding where
  acc : UInt32
  bits : UInt8
  di : ℕ
  dst : List UInt8

/-- How a round of the loop ends: it goes on, breaks at the padding, or returns `None`. -/
inductive Round where
  | next (s : Decoding)
  | pad
  | refuse

/-- One round of the loop. -/
def Decoding.round (s : Decoding) (c : UInt8) : Option Round :=
  if c = 0x3D then some .pad
  else
    match base64Value c with
    | none => some .refuse
    | some v =>
      let acc := s.acc <<< 6 ||| v.toUInt32
      let bits := s.bits + 6
      if 8 ≤ bits then
        let bits := bits - 8
        if s.dst.length ≤ s.di then some .refuse
        else
          (put s.dst s.di (acc >>> bits.toUInt32).toUInt8).map fun dst => .next ⟨acc, bits, s.di + 1, dst⟩
      else some (.next ⟨acc, bits, s.di, s.dst⟩)

/-- The loop: what `base64_decode` returns, and the buffer it leaves. -/
def base64Loop (s : Decoding) : List UInt8 → Option (Option ℕ × List UInt8)
  | [] => some (some s.di, s.dst)
  | c :: cs =>
    match s.round c with
    | none => none
    | some .pad => some (some s.di, s.dst)
    | some .refuse => some (none, s.dst)
    | some (.next s') => base64Loop s' cs

/-- `base64_decode`. -/
def base64DecodeTo (src dst : List UInt8) : Option (Option ℕ × List UInt8) := base64Loop ⟨0, 0, 0, dst⟩ src

/-- The loop as a machine that moves on the bytes of the text. -/
def base64Rounds (dst : List UInt8) : Machine Decoding UInt8 Unit where
  init := ⟨0, 0, 0, dst⟩
  step s c :=
    match s.round c with
    | some (.next s') => some (s', [])
    | _ => none

/-- What holds before every round, for a buffer of so many bytes. -/
structure Decoding.Ok (size : ℕ) (s : Decoding) : Prop where
  few : s.bits.toNat < 8
  room : s.di ≤ s.dst.length
  size : s.dst.length = size

/-- What a round does with a byte of the alphabet: with fewer than two bits to spare it writes the byte
that is complete, if there is room for it. -/
lemma round_cases {size : ℕ} {s : Decoding} (ok : s.Ok size) (c : UInt8) :
    (c = 0x3D ∧ s.round c = some .pad) ∨
    (c ≠ 0x3D ∧ base64Value c = none ∧ s.round c = some .refuse) ∨
    ∃ v, c ≠ 0x3D ∧ base64Value c = some v ∧
      ((8 ≤ s.bits + 6 ∧ (s.bits + 6 - 8).toNat = s.bits.toNat + 6 - 8 ∧ 2 ≤ s.bits.toNat ∧
        ((size ≤ s.di ∧ s.round c = some .refuse) ∨
          (s.di < size ∧ s.round c = some (.next ⟨s.acc <<< 6 ||| v.toUInt32, s.bits + 6 - 8, s.di + 1,
            s.dst.set s.di ((s.acc <<< 6 ||| v.toUInt32) >>> (s.bits + 6 - 8).toUInt32).toUInt8⟩)))) ∨
      (¬ 8 ≤ s.bits + 6 ∧ (s.bits + 6).toNat = s.bits.toNat + 6 ∧ s.bits.toNat < 2 ∧
        s.round c = some (.next ⟨s.acc <<< 6 ||| v.toUInt32, s.bits + 6, s.di, s.dst⟩))) := by
  obtain ⟨few, room, length⟩ := ok
  have more := toNat_add_six few
  by_cases padding : c = 0x3D
  · exact .inl ⟨padding, if_pos padding⟩
  · cases value : base64Value c with
    | none =>
      refine .inr (.inl ⟨padding, rfl, ?_⟩)
      rw [Decoding.round, if_neg padding, value]
    | some v =>
      refine .inr (.inr ⟨v, padding, rfl, ?_⟩)
      rw [Decoding.round, if_neg padding, value]
      simp only
      by_cases ge : 8 ≤ s.bits + 6
      · have left := toNat_sub_eight ge
        refine .inl ⟨ge, by omega, by omega, ?_⟩
        rw [if_pos ge, length]
        by_cases full : size ≤ s.di
        · exact .inl ⟨full, if_pos full⟩
        · refine .inr ⟨by omega, ?_⟩
          rw [if_neg full, put, if_pos (by omega), Option.map_some]
      · have lt := UInt8.lt_iff_toNat_lt.mp (UInt8.not_le.mp ge)
        simp only [UInt8.reduceToNat] at lt
        refine .inr ⟨ge, more, by omega, ?_⟩
        rw [if_neg ge]

/-- A round keeps the bits few, and writes within the buffer. -/
lemma Decoding.Ok.round {size : ℕ} {s s' : Decoding} {c : UInt8} (ok : s.Ok size)
    (next : s.round c = some (.next s')) : s'.Ok size := by
  obtain ⟨few, room, length⟩ := ok
  rcases round_cases ⟨few, room, length⟩ c with ⟨-, eq⟩ | ⟨-, -, eq⟩ |
    ⟨v, -, -, ⟨-, left, ge, ⟨-, eq⟩ | ⟨lt, eq⟩⟩ | ⟨-, more, few', eq⟩⟩
  · cases eq.symm.trans next
  · cases eq.symm.trans next
  · cases eq.symm.trans next
  · cases eq.symm.trans next
    refine ⟨?_, ?_, ?_⟩
    · simp only [left]
      omega
    · simp only [List.length_set]
      omega
    · simpa using length
  · cases eq.symm.trans next
    refine ⟨?_, room, length⟩
    simp only [more]
    omega

/-- The loop writes to the front of the buffer what the decoder on lists returns, and fails with it. -/
lemma base64Loop_spec {size : ℕ} {s : Decoding} (ok : s.Ok size) (text : List UInt8) :
    ∃ ret dst', base64Loop s text = some (ret, dst') ∧ dst'.length = size ∧
      (base64From size s.acc s.bits (s.dst.take s.di) text = none → ret = none) ∧
      ∀ bytes, base64From size s.acc s.bits (s.dst.take s.di) text = some bytes →
        ret = some bytes.length ∧ s.di ≤ bytes.length ∧ dst' = bytes ++ s.dst.drop bytes.length := by
  induction text generalizing s with
  | nil =>
    refine ⟨some s.di, s.dst, rfl, ok.size, (fun none => by cases none), fun bytes eq => ?_⟩
    cases eq
    have length : (s.dst.take s.di).length = s.di := by rw [List.length_take, Nat.min_eq_left ok.room]
    rw [length, List.take_append_drop]
    exact ⟨rfl, le_rfl, rfl⟩
  | cons c text ih =>
    have length : (s.dst.take s.di).length = s.di := by rw [List.length_take, Nat.min_eq_left ok.room]
    rcases round_cases ok c with ⟨padding, eq⟩ | ⟨no, value, eq⟩ |
      ⟨v, no, value, ⟨ge, left, few, ⟨full, eq⟩ | ⟨lt, eq⟩⟩ | ⟨lt, more, few, eq⟩⟩
    · rw [base64Loop, eq, base64From, if_pos padding]
      refine ⟨some s.di, s.dst, rfl, ok.size, (fun none => by cases none), fun bytes eq => ?_⟩
      cases eq
      rw [length, List.take_append_drop]
      exact ⟨rfl, le_rfl, rfl⟩
    · rw [base64Loop, eq, base64From, if_neg no, value]
      exact ⟨none, s.dst, rfl, ok.size, fun _ => rfl, fun bytes eq => by cases eq⟩
    · rw [base64Loop, eq, base64From, if_neg no, value]
      simp only [if_pos ge, length, if_pos full]
      exact ⟨none, s.dst, rfl, ok.size, fun _ => rfl, fun bytes eq => by cases eq⟩
    · have room : s.di < s.dst.length := by
        rw [ok.size]
        exact lt
      obtain ⟨ret, dst', done, size', fails, succeeds⟩ := ih (ok.round eq)
      rw [base64Loop, eq, base64From, if_neg no, value]
      simp only [if_pos ge, length, if_neg (Nat.not_le.mpr lt)]
      refine ⟨ret, dst', done, size', fun none => fails ?_, fun bytes some => ?_⟩
      · rw [take_set room]
        exact none
      · obtain ⟨returned, le, written⟩ := succeeds bytes (by rw [take_set room]; exact some)
        refine ⟨returned, Nat.le_of_succ_le le, ?_⟩
        rw [written, List.drop_set_of_lt (by simpa using le)]
    · obtain ⟨ret, dst', done, size', fails, succeeds⟩ := ih (ok.round eq)
      rw [base64Loop, eq, base64From, if_neg no, value]
      simp only [if_neg lt]
      exact ⟨ret, dst', done, size', fails, succeeds⟩

/-- The bytes before the first padding character. -/
def digitsBefore (text : List UInt8) : List UInt8 := text.takeWhile (· ≠ 0x3D)

lemma base64Value_isSome (c : UInt8) : (base64Value c).isSome = true ↔ c ∈ alphabet := by
  constructor
  · intro digit
    obtain ⟨v, value⟩ := Option.isSome_iff_exists.mp digit
    exact List.mem_of_getElem? (base64Value_digit value).2
  · intro mem
    have all : alphabet.all (fun c => (base64Value c).isSome) = true := by decide +kernel
    exact List.all_eq_true.mp all c mem

/-- What the loop returns: the number of bytes that the digits fill, if they are digits and these fit. -/
lemma base64Loop_returns {size : ℕ} {s : Decoding} (ok : s.Ok size) (text : List UInt8) :
    ∃ ret dst', base64Loop s text = some (ret, dst') ∧ ∀ m, ret = some m ↔
      (∀ c ∈ digitsBefore text, c ∈ alphabet) ∧
        m = (8 * s.di + s.bits.toNat + 6 * (digitsBefore text).length) / 8 ∧ m ≤ size := by
  have few := ok.few
  have room := ok.room
  rw [ok.size] at room
  induction text generalizing s with
  | nil =>
    refine ⟨some s.di, s.dst, rfl, fun m => ?_⟩
    simp only [digitsBefore, List.takeWhile_nil, List.not_mem_nil, false_implies, implies_true, true_and,
      List.length_nil, Option.some.injEq]
    omega
  | cons c text ih =>
    have digits : c ≠ 0x3D → digitsBefore (c :: text) = c :: digitsBefore text := by
      intro no
      exact List.takeWhile_cons_of_pos (by simpa using no)
    rcases round_cases ok c with ⟨padding, eq⟩ | ⟨no, value, eq⟩ |
      ⟨v, no, value, ⟨ge, left, more, ⟨full, eq⟩ | ⟨lt, eq⟩⟩ | ⟨lt, left, less, eq⟩⟩
    · have none : digitsBefore (c :: text) = [] := List.takeWhile_cons_of_neg (by simpa using padding)
      rw [base64Loop, eq, none]
      refine ⟨some s.di, s.dst, rfl, fun m => ?_⟩
      simp only [List.not_mem_nil, false_implies, implies_true, true_and, List.length_nil, Option.some.injEq]
      omega
    · have foreign : c ∉ alphabet := by
        rw [← base64Value_isSome, value]
        simp
      rw [base64Loop, eq, digits no]
      refine ⟨none, s.dst, rfl, fun m => ?_⟩
      simp [foreign]
    · rw [base64Loop, eq, digits no]
      refine ⟨none, s.dst, rfl, fun m => ?_⟩
      simp only [List.length_cons, reduceCtorEq, false_iff, not_and]
      omega
    · have digit : c ∈ alphabet := by
        rw [← base64Value_isSome, value]
        rfl
      have ok' := ok.round eq
      obtain ⟨ret, dst', done, returns⟩ := ih ok' ok'.few lt
      rw [base64Loop, eq, digits no]
      refine ⟨ret, dst', done, fun m => ?_⟩
      simp only [returns, left, List.forall_mem_cons, digit, true_and, List.length_cons]
      refine and_congr_right fun _ => and_congr_left fun _ => ?_
      omega
    · have digit : c ∈ alphabet := by
        rw [← base64Value_isSome, value]
        rfl
      have ok' := ok.round eq
      obtain ⟨ret, dst', done, returns⟩ := ih ok' ok'.few room
      rw [base64Loop, eq, digits no]
      refine ⟨ret, dst', done, fun m => ?_⟩
      simp only [returns, left, List.forall_mem_cons, digit, true_and, List.length_cons]
      refine and_congr_right fun _ => and_congr_left fun _ => ?_
      omega

/-- Base64. The standard text for some bytes, padded or not, is decoded into every buffer with room for
them: their number is returned, they are at the front of the buffer, and the rest of it stays as it is.
For every text and every buffer the decoder ends without an index out of range; it returns a number if
and only if what stands before the first padding character are digits, and the whole bytes among their
bits fit the buffer. Before every round less than a byte is pending. -/
theorem base64_decoding :
    (∀ bytes text dst, Encoded bytes text → bytes.length ≤ dst.length →
      base64DecodeTo text dst = some (some bytes.length, bytes ++ dst.drop bytes.length)) ∧
    (∀ text dst, ∃ ret dst', base64DecodeTo text dst = some (ret, dst') ∧ dst'.length = dst.length ∧
      ∀ m, ret = some m ↔ (∀ c ∈ digitsBefore text, c ∈ alphabet) ∧
        m = 6 * (digitsBefore text).length / 8 ∧ m ≤ dst.length) ∧
    ∀ dst s os, (base64Rounds dst).Reach s os → s.Ok dst.length := by
  have start : ∀ dst, Decoding.Ok dst.length ⟨0, 0, 0, dst⟩ := by
    intro dst
    exact ⟨show (0 : UInt8).toNat < 8 by decide, Nat.zero_le _, rfl⟩
  refine ⟨fun bytes text dst encoded fits => ?_, fun text dst => ?_, fun dst s os reach => ?_⟩
  · obtain ⟨ret, dst', done, -, -, succeeds⟩ := base64Loop_spec (start dst) text
    obtain ⟨rfl, -, rfl⟩ := succeeds bytes (base64Decode_encoded encoded fits)
    exact done
  · obtain ⟨ret, dst', done, size, -⟩ := base64Loop_spec (start dst) text
    obtain ⟨ret', dst'', done', returns⟩ := base64Loop_returns (start dst) text
    cases done.symm.trans done'
    refine ⟨ret, dst', done, size, fun m => ?_⟩
    simpa using returns m
  · refine reach.invariant (P := fun s _ => s.Ok dst.length) (start dst) ?_
    intro s _ s' _ c _ ok _ st
    simp only [base64Rounds] at st
    split at st
    · rename_i s'' next
      cases st
      exact ok.round next
    · cases st

end EspcanBr.Http
