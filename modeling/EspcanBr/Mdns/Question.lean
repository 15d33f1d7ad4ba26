import EspcanBr.Base.Labels
import EspcanBr.Mdns.Packet

/-!
# Questions and answers

What `build_response` answers. A query is a header, its questions and whatever follows them; a question
is a name, a type and a class. Exactly a query whose first question asks for the host is answered, with
one address record that is read back by the walk over labels that reads questions (`response_iff`). The
other questions are not looked at, so a host that is asked for later is not found (`completeness_iff`).
-/

namespace EspcanBr.Mdns
open Base

/-- The bytes of a 16-bit number. -/
def beBytes (v : UInt16) : List UInt8 := [(v >>> 8).toUInt8, v.toUInt8]

lemma toNat_fromBeBytes (hi lo : UInt8) : (fromBeBytes hi lo).toNat = 256 * hi.toNat + lo.toNat := by
  have le := hi.toNat_lt
  have shifted : (hi.toUInt16 <<< 8).toNat = 2 ^ 8 * hi.toNat := by
    simp only [UInt16.toNat_shiftLeft, UInt8.toNat_toUInt16, UInt16.reduceToNat, Nat.shiftLeft_eq,
      Nat.reduceMod]
    omega
  rw [fromBeBytes, UInt16.toNat_or, shifted, UInt8.toNat_toUInt16]
  exact (Nat.two_pow_add_eq_or_of_lt lo.toNat_lt _).symm

lemma beBytes_fromBeBytes (hi lo : UInt8) : beBytes (fromBeBytes hi lo) = [hi, lo] := by
  have num := toNat_fromBeBytes hi lo
  have le := hi.toNat_lt
  have le' := lo.toNat_lt
  have high : (fromBeBytes hi lo >>> 8).toUInt8 = hi := by
    apply UInt8.toNat_inj.mp
    simp only [UInt16.toNat_toUInt8, UInt16.toNat_shiftRight, UInt16.reduceToNat, Nat.reduceMod,
      Nat.shiftRight_eq_div_pow, num]
    omega
  have low : (fromBeBytes hi lo).toUInt8 = lo := by
    apply UInt8.toNat_inj.mp
    simp only [UInt16.toNat_toUInt8, num]
    omega
  rw [beBytes, high, low]

lemma fromBeBytes_beBytes (v : UInt16) : fromBeBytes (v >>> 8).toUInt8 v.toUInt8 = v := by
  have lt := v.toNat_lt
  apply UInt16.toNat_inj.mp
  rw [toNat_fromBeBytes]
  simp only [UInt16.toNat_toUInt8, UInt16.toNat_shiftRight, UInt16.reduceToNat, Nat.reduceMod,
    Nat.shiftRight_eq_div_pow]
  omega

/-- The header of a message. -/
@[ext]
structure Header where
  id0 : UInt8
  id1 : UInt8
  flags : UInt16
  qdcount : UInt16
  ancount : UInt16
  nscount : UInt16
  arcount : UInt16

def Header.bytes (h : Header) : List UInt8 :=
  [h.id0, h.id1] ++ beBytes h.flags ++ beBytes h.qdcount ++ beBytes h.ancount ++ beBytes h.nscount ++
    beBytes h.arcount

/-- A question, with a name that is not compressed. -/
@[ext]
structure Question where
  labels : List (List UInt8)
  qtype : UInt16
  qclass : UInt16
  valid : ∀ label ∈ labels, ValidLabel label

def Question.bytes (q : Question) : List UInt8 := nameBytes q.labels ++ beBytes q.qtype ++ beBytes q.qclass

/-- The question asks for an address of the host, in whatever case; the top bit of the class asks for an
answer by unicast. -/
structure Question.Asks (q : Question) (host : List UInt8) : Prop where
  name : ∃ first second, q.labels = [first, second] ∧ eqIgnoreAsciiCase first host = true ∧
    eqIgnoreAsciiCase second (ascii "local") = true
  qtype : q.qtype = 1 ∨ q.qtype = 255
  qclass : q.qclass &&& 0x7FFF = 1

/-- A query that is not a response, and has questions. -/
structure Header.Query (h : Header) : Prop where
  flags : h.flags < 0x8000
  qdcount : h.qdcount ≠ 0

/-- The labels are the expected ones, as far as they go. -/
def matchLabels : List (List UInt8) → List (List UInt8) → Bool
  | _, [] => true
  | [], _ :: _ => false
  | expected :: rest, label :: labels => labelMatches label expected && matchLabels rest labels

lemma labelMatches_eq (label expected : List UInt8) :
    labelMatches label expected = eqIgnoreAsciiCase label expected := by
  rw [labelMatches, eqIgnoreAsciiCase]
  induction label generalizing expected with
  | nil =>
    cases expected with
    | nil => rfl
    | cons e es => rfl
  | cons a label ih =>
    cases expected with
    | nil => rfl
    | cons e es =>
      have rest := ih es
      by_cases same : toLower a = toLower e
      · simpa [same] using rest
      · simp [same]

/-- The walk over the labels of a question is the walk over labels, with a comparison at each. -/
lemma walkLabels_eq (expected : List (List UInt8)) (ok : Bool) (text : List UInt8) :
    walkLabels expected ok text = (readName text).map fun read =>
      (ok && matchLabels expected read.1, expected.drop read.1.length, read.2) := by
  fun_induction readName text generalizing expected ok with
  | case1 =>
    cases expected <;> simp [walkLabels, matchLabels]
  | case2 rest =>
    cases expected <;> simp [walkLabels, matchLabels]
  | case3 n rest ne bad =>
    cases expected <;> (rw [walkLabels, if_neg ne, if_pos bad]; rfl)
  | case4 n rest ne fits ih =>
    cases expected with
    | nil =>
      rw [walkLabels, if_neg ne, if_neg fits, ih, Option.map_map]
      congr 1
      funext read
      simp [matchLabels]
    | cons label expected =>
      rw [walkLabels, if_neg ne, if_neg fits, ih, Option.map_map]
      congr 1
      funext read
      simp [matchLabels, Bool.and_assoc]

/-- The two labels expected. -/
lemma matchLabels_two {host second : List UInt8} {labels : List (List UInt8)} :
    (matchLabels [host, second] labels = true ∧ [host, second].drop labels.length = []) ↔
      ∃ a b, labels = [a, b] ∧ eqIgnoreAsciiCase a host = true ∧ eqIgnoreAsciiCase b second = true := by
  rcases labels with _ | ⟨a, _ | ⟨b, _ | ⟨c, labels⟩⟩⟩
  · simp
  · simp
  · simp [matchLabels, labelMatches_eq]
  · simp [matchLabels]

/-- The bit that tells a response from a query. -/
lemma response_bit (flags : UInt16) : flags >>> 15 &&& 1 = 0 ↔ flags < 0x8000 := by
  have lt := flags.toNat_lt
  have bit : (flags >>> 15 &&& 1).toNat = flags.toNat / 32768 := by
    have one := Nat.and_one_is_mod (flags.toNat / 32768)
    simp only [UInt16.toNat_and, UInt16.toNat_shiftRight, UInt16.reduceToNat, Nat.reduceMod,
      Nat.shiftRight_eq_div_pow, Nat.reducePow, one]
    omega
  have bound : (0x8000 : UInt16).toNat = 32768 := rfl
  rw [← UInt16.toNat_inj, bit, UInt16.lt_iff_toNat_lt, bound, UInt16.toNat_zero]
  omega

/-- A query whose first question asks for the host is answered. -/
lemma buildResponse_asks {h : Header} {q : Question} {host : List UInt8} (query : h.Query)
    (asks : q.Asks host) (rest : List UInt8) (ip : Ipv4Addr) :
    buildResponse (h.bytes ++ q.bytes ++ rest) ip host = build [h.id0, h.id1] ip host := by
  have shape : h.bytes ++ q.bytes ++ rest = h.id0 :: h.id1 :: (h.flags >>> 8).toUInt8 :: h.flags.toUInt8 ::
      (h.qdcount >>> 8).toUInt8 :: h.qdcount.toUInt8 :: (h.ancount >>> 8).toUInt8 :: h.ancount.toUInt8 ::
      (h.nscount >>> 8).toUInt8 :: h.nscount.toUInt8 :: (h.arcount >>> 8).toUInt8 :: h.arcount.toUInt8 ::
      (nameBytes q.labels ++ ((q.qtype >>> 8).toUInt8 :: q.qtype.toUInt8 :: (q.qclass >>> 8).toUInt8 ::
        q.qclass.toUInt8 :: rest)) := by
    simp [Header.bytes, Question.bytes, beBytes]
  obtain ⟨matched, all⟩ := matchLabels_two.mpr asks.name
  have bit := (response_bit h.flags).mpr query.flags
  have known : ¬ (q.qtype ≠ 1 ∧ q.qtype ≠ 255) := by
    have qtype := asks.qtype
    tauto
  rw [shape, buildResponse]
  simp only [fromBeBytes_beBytes, walkLabels_eq, readName_nameBytes q.valid, Option.map_some, matched, all,
    bit, query.qdcount, known, asks.qclass, ne_eq, not_true_eq_false, if_false, or_self, Bool.and_true]

/-- Only such a query is answered. -/
lemma buildResponse_inv {query host r : List UInt8} {ip : Ipv4Addr}
    (built : buildResponse query ip host = some r) :
    ∃ h q rest, query = Header.bytes h ++ Question.bytes q ++ rest ∧ h.Query ∧ q.Asks host := by
  unfold buildResponse at built
  split at built
  · rename_i id0 id1 f0 f1 q0 q1 a0 a1 n0 n1 r0 r1 question
    split at built
    · cases built
    · rename_i bit
      split at built
      · cases built
      · rename_i some
        split at built
        · rename_i t0 t1 c0 c1 rest walked
          simp only at built
          split at built
          · cases built
          · rename_i known
            rw [walkLabels_eq] at walked
            obtain ⟨⟨labels, tail⟩, read, eq⟩ := Option.map_eq_some_iff.mp walked
            simp only [Bool.true_and, Prod.mk.injEq] at eq
            obtain ⟨matched, all, rfl⟩ := eq
            obtain ⟨name, valid⟩ := (readName_iff (List.cons_ne_nil _ _)).mp read
            refine ⟨⟨id0, id1, fromBeBytes f0 f1, fromBeBytes q0 q1, fromBeBytes a0 a1, fromBeBytes n0 n1,
              fromBeBytes r0 r1⟩, ⟨labels, fromBeBytes t0 t1, fromBeBytes c0 c1, valid⟩, rest, ?_, ?_, ?_⟩
            · simp [Header.bytes, Question.bytes, beBytes_fromBeBytes, name]
            · exact ⟨(response_bit _).mp (not_not.mp bit), some⟩
            · refine ⟨matchLabels_two.mp ⟨matched, all⟩, ?_, ?_⟩
              · by_contra other
                exact known (.inl (not_or.mp other))
              · by_contra other
                exact known (.inr other)
        · cases built
  · cases built

lemma beBytes_inj {v w : UInt16} (eq : beBytes v = beBytes w) : v = w := by
  simp only [beBytes, List.cons.injEq, and_true] at eq
  rw [← fromBeBytes_beBytes v, eq.1, eq.2, fromBeBytes_beBytes]

/-- A message has one header. -/
lemma Header.unique {h h' : Header} {body body' : List UInt8} (eq : h.bytes ++ body = h'.bytes ++ body') :
    h = h' ∧ body = body' := by
  obtain ⟨same, rest⟩ := List.append_inj eq rfl
  refine ⟨?_, rest⟩
  obtain ⟨same, arcount⟩ := List.append_inj' same rfl
  obtain ⟨same, nscount⟩ := List.append_inj' same rfl
  obtain ⟨same, ancount⟩ := List.append_inj' same rfl
  obtain ⟨same, qdcount⟩ := List.append_inj' same rfl
  obtain ⟨same, flags⟩ := List.append_inj' same rfl
  simp only [List.cons.injEq, and_true] at same
  exact Header.ext same.1 same.2 (beBytes_inj flags) (beBytes_inj qdcount) (beBytes_inj ancount)
    (beBytes_inj nscount) (beBytes_inj arcount)

/-- Some bytes start with one question. -/
lemma Question.unique {q q' : Question} {rest rest' : List UInt8}
    (eq : q.bytes ++ rest = q'.bytes ++ rest') : q = q' := by
  simp only [Question.bytes, List.append_assoc] at eq
  have read := readName_nameBytes q.valid (beBytes q.qtype ++ (beBytes q.qclass ++ rest))
  rw [eq, readName_nameBytes q'.valid, Option.some.injEq, Prod.mk.injEq] at read
  obtain ⟨labels, fields⟩ := read
  obtain ⟨qtype, fields⟩ := List.append_inj fields rfl
  obtain ⟨qclass, -⟩ := List.append_inj fields rfl
  exact Question.ext labels.symm (beBytes_inj qtype.symm) (beBytes_inj qclass.symm)

/-- The first question decides. -/
lemma buildResponse_isSome {h : Header} {q : Question} {host rest : List UInt8} {ip : Ipv4Addr}
    {r : List UInt8} (built : buildResponse (h.bytes ++ q.bytes ++ rest) ip host = some r) :
    h.Query ∧ q.Asks host := by
  obtain ⟨h', q', rest', eq, query, asks⟩ := buildResponse_inv built
  rw [List.append_assoc, List.append_assoc] at eq
  obtain ⟨rfl, questions⟩ := Header.unique eq
  cases Question.unique questions
  exact ⟨query, asks⟩

/-- A record of an answer. -/
structure Record where
  labels : List (List UInt8)
  rtype : UInt16
  rclass : UInt16
  ttl : List UInt8
  rdata : List UInt8

/-- Reads a record, its name by the walk over labels, and what follows it. -/
def readRecord (text : List UInt8) : Option (Record × List UInt8) :=
  match readName text with
  | some (labels, t0 :: t1 :: c0 :: c1 :: l0 :: l1 :: l2 :: l3 :: n0 :: n1 :: rest) =>
    let n := (fromBeBytes n0 n1).toNat
    if n ≤ rest.length then
      some (⟨labels, fromBeBytes t0 t1, fromBeBytes c0 c1, [l0, l1, l2, l3], rest.take n⟩, rest.drop n)
    else none
  | _ => none

/-- The answer to a query: its identifier, the bits of an authoritative response, and one record. -/
def answerHeader (h : Header) : Header := ⟨h.id0, h.id1, 0x8400, 0, 1, 0, 0⟩

/-- The address record of the host, in the class of the internet with the bit to flush caches. -/
def hostRecord (ip : Ipv4Addr) (host : List UInt8) : Record :=
  ⟨[host, ascii "local"], 1, 0x8001, [0, 0, 0, 120], ip.octets⟩

/-- The record that is built is read back, and nothing follows it. -/
lemma readRecord_record {host : List UInt8} (ne : host ≠ []) (short : host.length ≤ 32) (ip : Ipv4Addr) :
    readRecord (record ip host) = some (hostRecord ip host, []) := by
  have valid : ∀ label ∈ [host, ascii "local"], ValidLabel label := by
    have pos := List.length_pos_iff.mpr ne
    have letters : (ascii "local").length = 5 := by decide
    intro label mem
    simp only [List.mem_cons, List.not_mem_nil, or_false] at mem
    rcases mem with rfl | rfl
    · exact ⟨pos, by omega⟩
    · rw [ValidLabel, letters]
      decide
  have shape : record ip host = nameBytes [host, ascii "local"] ++
      [0x00, 0x01, 0x80, 0x01, 0x00, 0x00, 0x00, 0x78, 0x00, 0x04, ip.a, ip.b, ip.c, ip.d] := by
    have five : UInt8.ofNat (ascii "local").length = 5 := by decide
    simp [record, nameBytes, labelBytes, five, Ipv4Addr.octets]
  rw [shape, readRecord, readName_nameBytes valid]
  rfl

/-- The packet answers a query with the address of the host. -/
def AnswersHost (r : List UInt8) (h : Header) (ip : Ipv4Addr) (host : List UInt8) : Prop :=
  ∃ body, r = (answerHeader h).bytes ++ body ∧ readRecord body = some (hostRecord ip host, [])

lemma build_answers {host : List UInt8} (ne : host ≠ []) (short : host.length ≤ 32) (h : Header)
    (ip : Ipv4Addr) : ∃ r, build [h.id0, h.id1] ip host = some r ∧ AnswersHost r h ip host := by
  have numbers : beBytes 0x8400 = [0x84, 0x00] ∧ beBytes 0 = [0x00, 0x00] ∧ beBytes 1 = [0x00, 0x01] := by
    decide
  refine ⟨_, build_some rfl short ip, record ip host, ?_, readRecord_record ne short ip⟩
  simp [answerHeader, Header.bytes, numbers]

/-- `&query[a..b]`; `none` where the source panics. -/
def slice (query : List UInt8) (a b : ℕ) : Option (List UInt8) :=
  if a ≤ b ∧ b ≤ query.length then some ((query.drop a).take (b - a)) else none

/-- `u16::from_be_bytes` of the two bytes at a position; `none` where the source panics. -/
def readU16 (query : List UInt8) (pos : ℕ) : Option UInt16 := do
  let hi ← (query)[pos]?
  let lo ← (query)[pos + 1]?
  some (fromBeBytes hi lo)

/-- The loop over the labels, with the position in the query and the index of the label: `none` where the
source panics, `some none` where it returns without an answer. -/
def walkAt (query : List UInt8) (expected : List (List UInt8)) (pos idx : ℕ) (ok : Bool) :
    Option (Option (ℕ × ℕ × Bool)) :=
  if pos < query.length then
    match (query)[pos]? with
    | none => none
    | some n =>
      if n = 0 then some (some (pos + 1, idx, ok))
      else if n > 63 ∨ query.length < pos + 1 + n.toNat then some none
      else
        match slice query (pos + 1) (pos + 1 + n.toNat) with
        | none => none
        | some label =>
          walkAt query expected (pos + 1 + n.toNat) (idx + 1)
            (ok && (expected)[idx]?.any (labelMatches label))
  else some (some (pos, idx, ok))
  termination_by query.length - pos

/-- `build_response` with the positions of the source: `none` where it reads outside the query. -/
def buildResponseAt (query : List UInt8) (ip : Ipv4Addr) (host : List UInt8) :
    Option (Option (List UInt8)) :=
  if query.length < 12 then some none
  else do
    let flags ← readU16 query 2
    if flags >>> 15 &&& 1 ≠ 0 then some none
    else do
      let qdcount ← readU16 query 4
      if qdcount = 0 then some none
      else
        match ← walkAt query [host, ascii "local"] 12 0 true with
        | none => some none
        | some (pos, idx, ok) =>
          if ok = false ∨ idx ≠ 2 ∨ query.length < pos + 4 then some none
          else do
            let qtype ← readU16 query pos
            let qclass ← readU16 query (pos + 2)
            if (qtype ≠ 1 ∧ qtype ≠ 255) ∨ qclass &&& 0x7FFF ≠ 1 then some none
            else do
              let id ← slice query 0 2
              some (build id ip host)

/-- The byte at a position, and what follows it. -/
lemma drop_cons {query rest : List UInt8} {n : UInt8} {pos : ℕ} (eq : query.drop pos = n :: rest) :
    pos < query.length ∧ (query)[pos]? = some n ∧ query.drop (pos + 1) = rest := by
  have len := congrArg List.length eq
  rw [List.length_drop, List.length_cons] at len
  have first : (query.drop pos)[0]? = (query)[pos]? := List.getElem?_drop
  refine ⟨by omega, ?_, ?_⟩
  · rw [← first, eq]
    rfl
  · rw [← List.tail_drop, eq]
    rfl

/-- A label is compared with the one expected at its index. -/
lemma matchLabels_drop (expected : List (List UInt8)) (idx : ℕ) (label : List UInt8)
    (labels : List (List UInt8)) : matchLabels (expected.drop idx) (label :: labels) =
      ((expected)[idx]?.any (labelMatches label) && matchLabels (expected.drop (idx + 1)) labels) := by
  rcases Nat.lt_or_ge idx expected.length with lt | ge
  · rw [List.drop_eq_getElem_cons lt, List.getElem?_eq_getElem lt]
    rfl
  · rw [List.drop_eq_nil_of_le ge, List.getElem?_eq_none ge]
    rfl

/-- The loop reads inside the query, and is the walk over labels from its position on. -/
lemma walkAt_eq {query text : List UInt8} (expected : List (List UInt8)) {pos : ℕ} (idx : ℕ) (ok : Bool)
    (at_pos : query.drop pos = text) (le : pos ≤ query.length) :
    walkAt query expected pos idx ok = some ((readName text).map fun read =>
      (query.length - read.2.length, idx + read.1.length,
        ok && matchLabels (expected.drop idx) read.1)) := by
  have len : text.length = query.length - pos := by rw [← at_pos, List.length_drop]
  fun_induction readName text generalizing pos idx ok with
  | case1 =>
    rw [List.length_nil] at len
    rw [walkAt, if_neg (by omega)]
    have last : pos = query.length := by omega
    simp [matchLabels, last]
  | case2 rest =>
    obtain ⟨lt, here, -⟩ := drop_cons at_pos
    rw [List.length_cons] at len
    rw [walkAt, if_pos lt, here]
    have next : pos + 1 = query.length - rest.length := by omega
    simp [matchLabels, next]
  | case3 n rest ne bad =>
    obtain ⟨lt, here, -⟩ := drop_cons at_pos
    rw [List.length_cons] at len
    have bad' : n > 63 ∨ query.length < pos + 1 + n.toNat := bad.imp_right fun short => by omega
    rw [walkAt, if_pos lt, here]
    simp only
    rw [if_neg ne, if_pos bad']
    rfl
  | case4 n rest ne fits ih =>
    obtain ⟨lt, here, tail⟩ := drop_cons at_pos
    rw [List.length_cons] at len
    obtain ⟨short, long⟩ := not_or.mp fits
    have fits' : ¬ (n > 63 ∨ query.length < pos + 1 + n.toNat) := not_or.mpr ⟨short, by omega⟩
    have label : slice query (pos + 1) (pos + 1 + n.toNat) = some (rest.take n.toNat) := by
      rw [slice, if_pos (by omega), tail, Nat.add_sub_cancel_left]
    have next : query.drop (pos + 1 + n.toNat) = rest.drop n.toNat := by
      rw [← tail, List.drop_drop]
    rw [walkAt, if_pos lt, here]
    simp only
    rw [if_neg ne, if_neg fits', label]
    simp only
    rw [ih (idx + 1) _ next (by omega) (by rw [List.length_drop]; omega), Option.map_map]
    congr 2
    funext read
    simp only [Function.comp_apply, matchLabels_drop, List.length_cons, Bool.and_assoc, Prod.mk.injEq,
      and_true, true_and]
    omega

/-- A name that is read behind a front ends where its tail starts. -/
lemma readName_start {question tail : List UInt8} {labels : List (List UInt8)}
    (read : readName question = some (labels, tail)) (front : List UInt8) :
    ∃ start, front ++ question = start ++ tail ∧ (front ++ question).length - tail.length = start.length := by
  obtain ⟨name, rfl⟩ : tail <:+ question := by
    rcases (readName_sound read).2 with rfl | ⟨-, rfl⟩
    · exact List.suffix_append _ _
    · exact List.nil_suffix
  refine ⟨front ++ name, (List.append_assoc _ _ _).symm, ?_⟩
  rw [← List.append_assoc, List.length_append, Nat.add_sub_cancel]

/-- The type and the class behind the name of a question. -/
lemma readU16_fields (start rest : List UInt8) (t0 t1 c0 c1 : UInt8) :
    readU16 (start ++ t0 :: t1 :: c0 :: c1 :: rest) start.length = some (fromBeBytes t0 t1) ∧
      readU16 (start ++ t0 :: t1 :: c0 :: c1 :: rest) (start.length + 2) = some (fromBeBytes c0 c1) := by
  have at_end : ∀ (front more : List UInt8) hi lo,
      readU16 (front ++ hi :: lo :: more) front.length = some (fromBeBytes hi lo) := by
    intro front more hi lo
    simp [readU16]
  refine ⟨at_end start (c0 :: c1 :: rest) t0 t1, ?_⟩
  have again : start ++ t0 :: t1 :: c0 :: c1 :: rest = start ++ [t0, t1] ++ c0 :: c1 :: rest := by simp
  have next : start.length + 2 = (start ++ [t0, t1]).length := by simp
  rw [again, next]
  exact at_end (start ++ [t0, t1]) rest c0 c1

/-- The twelve bytes of a header, and the rest. -/
lemma exists_header {query : List UInt8} (long : 12 ≤ query.length) :
    ∃ id0 id1 f0 f1 q0 q1 a0 a1 n0 n1 r0 r1 question,
      query = id0 :: id1 :: f0 :: f1 :: q0 :: q1 :: a0 :: a1 :: n0 :: n1 :: r0 :: r1 :: question := by
  rcases query with _ | ⟨id0, _ | ⟨id1, _ | ⟨f0, _ | ⟨f1, _ | ⟨q0, _ | ⟨q1, _ | ⟨a0, _ | ⟨a1, _ | ⟨n0,
    _ | ⟨n1, _ | ⟨r0, _ | ⟨r1, question⟩⟩⟩⟩⟩⟩⟩⟩⟩⟩⟩⟩
  case cons.cons.cons.cons.cons.cons.cons.cons.cons.cons.cons.cons =>
    exact ⟨_, _, _, _, _, _, _, _, _, _, _, _, _, rfl⟩
  all_goals exact absurd long (by simp)

/-- `build_response` never reads outside the query, and is the one that takes it apart from the front. -/
lemma buildResponseAt_eq (query : List UInt8) (ip : Ipv4Addr) (host : List UInt8) :
    buildResponseAt query ip host = some (buildResponse query ip host) := by
  by_cases short : query.length < 12
  · rw [buildResponseAt, if_pos short]
    unfold buildResponse
    split
    · simp only [List.length_cons] at short
      omega
    · rfl
  obtain ⟨id0, id1, f0, f1, q0, q1, a0, a1, n0, n1, r0, r1, question, rfl⟩ :=
    exists_header (Nat.not_lt.mp short)
  have flags : readU16 (id0 :: id1 :: f0 :: f1 :: q0 :: q1 :: a0 :: a1 :: n0 :: n1 :: r0 :: r1 :: question) 2 =
      some (fromBeBytes f0 f1) := rfl
  have qdcount : readU16 (id0 :: id1 :: f0 :: f1 :: q0 :: q1 :: a0 :: a1 :: n0 :: n1 :: r0 :: r1 :: question)
      4 = some (fromBeBytes q0 q1) := rfl
  have id : slice (id0 :: id1 :: f0 :: f1 :: q0 :: q1 :: a0 :: a1 :: n0 :: n1 :: r0 :: r1 :: question) 0 2 =
      some [id0, id1] := by
    rw [slice, if_pos (by omega)]
    rfl
  have walk := walkAt_eq [host, ascii "local"] 0 true
    (show (id0 :: id1 :: f0 :: f1 :: q0 :: q1 :: a0 :: a1 :: n0 :: n1 :: r0 :: r1 :: question).drop 12 =
      question from rfl) (Nat.not_lt.mp short)
  rw [buildResponseAt, if_neg short, buildResponse]
  simp only [flags, qdcount, id, walk, Option.bind_eq_bind, Option.bind_some, walkLabels_eq, List.drop_zero,
    Bool.true_and, Nat.zero_add]
  by_cases bit : fromBeBytes f0 f1 >>> 15 &&& 1 ≠ 0
  · rw [if_pos bit, if_pos bit]
  rw [if_neg bit, if_neg bit]
  by_cases zero : fromBeBytes q0 q1 = 0
  · rw [if_pos zero, if_pos zero]
  rw [if_neg zero, if_neg zero]
  cases read : readName question with
  | none => rfl
  | some result =>
    obtain ⟨labels, tail⟩ := result
    obtain ⟨start, cut, pos⟩ := readName_start read [id0, id1, f0, f1, q0, q1, a0, a1, n0, n1, r0, r1]
    -- the query as a whole, up to the tail
    simp only [List.cons_append, List.nil_append] at cut pos
    generalize id0 :: id1 :: f0 :: f1 :: q0 :: q1 :: a0 :: a1 :: n0 :: n1 :: r0 :: r1 :: question =
      query at cut pos ⊢
    simp only [Option.map_some, pos]
    cases ok : matchLabels [host, ascii "local"] labels with
    | false => rw [if_pos (.inl rfl)]
    | true =>
      rcases labels with _ | ⟨a, _ | ⟨b, _ | ⟨c, labels⟩⟩⟩
      · rfl
      · rfl
      · -- both labels are there; what is left to read is behind them
        rcases tail with _ | ⟨t0, _ | ⟨t1, _ | ⟨c0, _ | ⟨c1, rest⟩⟩⟩⟩
        case cons.cons.cons.cons =>
          have long : ¬ query.length < start.length + 4 := by
            rw [cut]
            simp only [List.length_append, List.length_cons, Nat.not_lt]
            omega
          obtain ⟨qtype, qclass⟩ := readU16_fields start rest t0 t1 c0 c1
          rw [← cut] at qtype qclass
          rw [if_neg (by simp [long]), qtype, Option.bind_some, qclass, Option.bind_some]
          simp only [List.length_cons, List.length_nil, List.drop_succ_cons, List.drop_zero]
          split
          · rfl
          · rfl
        all_goals
          rw [if_pos (.inr (.inr (by rw [cut]; simp)))]
          rfl
      · simp [matchLabels] at ok

/-- Answers. `build_response` does not read outside the query. It answers exactly the queries whose first
question asks for an address of the host. The answer has the identifier of the query and one record,
which the walk over labels reads back to the end: the address of the host. -/
theorem response_iff {host : List UInt8} (ne : host ≠ []) (short : host.length ≤ 32) (query : List UInt8)
    (ip : Ipv4Addr) :
    buildResponseAt query ip host = some (buildResponse query ip host) ∧
    ((buildResponse query ip host).isSome = true ↔ ∃ h q rest,
      query = Header.bytes h ++ Question.bytes q ++ rest ∧ h.Query ∧ q.Asks host) ∧
    ∀ h body r, query = Header.bytes h ++ body → buildResponse query ip host = some r →
      AnswersHost r h ip host := by
  refine ⟨buildResponseAt_eq query ip host, ⟨fun built => ?_, ?_⟩, fun h body r eq built => ?_⟩
  · obtain ⟨r, built⟩ := Option.isSome_iff_exists.mp built
    exact buildResponse_inv built
  · rintro ⟨h, q, rest, rfl, asked, asks⟩
    obtain ⟨r, built, -⟩ := build_answers ne short h ip
    rw [buildResponse_asks asked asks, built]
    rfl
  · obtain ⟨h', q, rest, eq', asked, asks⟩ := buildResponse_inv built
    rw [eq', buildResponse_asks asked asks] at built
    rw [eq, List.append_assoc] at eq'
    obtain ⟨rfl, -⟩ := Header.unique eq'
    obtain ⟨r', built', answers⟩ := build_answers ne short h ip
    cases built.symm.trans built'
    exact answers

/-- A question about the host `espcan-br`. -/
def hostQuestion (qtype : UInt16) : Question where
  labels := [ascii "ESPCAN-br", ascii "local"]
  qtype := qtype
  qclass := 1
  valid := by
    simp only [ValidLabel]
    decide

lemma hostQuestion_asks : (hostQuestion 1).Asks (ascii "espcan-br") :=
  ⟨⟨_, _, rfl, by decide +kernel, by decide +kernel⟩, .inl rfl, by decide⟩

/-- It is answered. -/
theorem response_iff_host :
    (buildResponse (Header.bytes ⟨1, 2, 0, 1, 0, 0, 0⟩ ++ (hostQuestion 1).bytes ++ []) ⟨10, 0, 0, 1⟩
      (ascii "espcan-br")).isSome = true :=
  (response_iff (by decide) (by decide) _ _).2.1.mpr
    ⟨_, _, [], rfl, ⟨by decide, by decide⟩, hostQuestion_asks⟩

/-- Further questions. A query in which any question asks for the host is answered if and only if the
first one does. -/
theorem completeness_iff {host : List UInt8} (ne : host ≠ []) (short : host.length ≤ 32) (ip : Ipv4Addr)
    {h : Header} (query : h.flags < 0x8000) {questions : List Question}
    (count : h.qdcount.toNat = questions.length) (nonempty : questions ≠ []) (rest : List UInt8) :
    ((∃ q ∈ questions, q.Asks host) → ∃ r,
      buildResponse (h.bytes ++ questions.flatMap Question.bytes ++ rest) ip host = some r ∧
        AnswersHost r h ip host) ↔
    (∀ q ∈ questions, ¬ q.Asks host) ∨ ∃ first ∈ questions.head?, first.Asks host := by
  obtain ⟨first, more, rfl⟩ := List.exists_cons_of_ne_nil nonempty
  have asked : h.Query := by
    refine ⟨query, fun zero => ?_⟩
    rw [zero, List.length_cons] at count
    simp only [UInt16.toNat_zero] at count
    omega
  have shape : h.bytes ++ (first :: more).flatMap Question.bytes ++ rest =
      h.bytes ++ first.bytes ++ (more.flatMap Question.bytes ++ rest) := by
    simp
  rw [shape]
  constructor
  · intro complete
    by_cases any : ∃ q ∈ first :: more, q.Asks host
    · obtain ⟨r, built, -⟩ := complete any
      exact .inr ⟨first, rfl, (buildResponse_isSome built).2⟩
    · left
      intro q mem asks
      exact any ⟨q, mem, asks⟩
  · rintro (none | ⟨q, head, asks⟩) ⟨q', mem, asks'⟩
    · exact absurd asks' (none q' mem)
    · cases head
      rw [buildResponse_asks asked asks]
      exact build_answers ne short h ip

/-- A query for both kinds of addresses, the one that is asked for here first. -/
theorem completeness_iff_first :
    ∃ r, buildResponse (Header.bytes ⟨1, 2, 0, 2, 0, 0, 0⟩ ++
      [hostQuestion 1, hostQuestion 28].flatMap Question.bytes ++ []) ⟨10, 0, 0, 1⟩ (ascii "espcan-br") =
        some r ∧ AnswersHost r ⟨1, 2, 0, 2, 0, 0, 0⟩ ⟨10, 0, 0, 1⟩ (ascii "espcan-br") := by
  have query : Header.flags ⟨1, 2, 0, 2, 0, 0, 0⟩ < 0x8000 := by decide
  exact (completeness_iff (by decide) (by decide) _ query rfl (by simp) []).mpr
    (.inr ⟨_, rfl, hostQuestion_asks⟩) ⟨_, List.mem_cons_self, hostQuestion_asks⟩

/-- The other way round the host does not answer. -/
theorem second_question_missed :
    ¬ ∀ (host : List UInt8) (ip : Ipv4Addr) (h : Header) (questions : List Question) (rest : List UInt8),
      host ≠ [] → host.length ≤ 32 → h.flags < 0x8000 → h.qdcount.toNat = questions.length →
        (∃ q ∈ questions, q.Asks host) → ∃ r,
          buildResponse (h.bytes ++ questions.flatMap Question.bytes ++ rest) ip host = some r := by
  intro complete
  obtain ⟨r, built⟩ := complete (ascii "espcan-br") ⟨10, 0, 0, 1⟩ ⟨1, 2, 0, 2, 0, 0, 0⟩
    [hostQuestion 28, hostQuestion 1] [] (by decide) (by decide) (by decide) rfl
    ⟨hostQuestion 1, by simp, hostQuestion_asks⟩
  have shape : [hostQuestion 28, hostQuestion 1].flatMap Question.bytes ++ [] =
      (hostQuestion 28).bytes ++ (hostQuestion 1).bytes := by
    simp
  rw [List.append_assoc, shape, ← List.append_assoc] at built
  obtain ⟨-, asks⟩ := buildResponse_isSome built
  have other := asks.qtype
  revert other
  decide

end EspcanBr.Mdns
