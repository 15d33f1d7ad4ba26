import EspcanBr.Base.Text

/-!
# The packets of the mDNS responder

`build_announcement`, `build_response` and `append_a_record` of `src/mdns.rs`. A packet that is built is
a header with one answer, the A record of the host (`buildAnnouncement_eq`, `buildResponse_eq`).
-/

namespace EspcanBr.Mdns
open Base

/-- `Ipv4Addr`. -/
structure Ipv4Addr where
  a : UInt8
  b : UInt8
  c : UInt8
  d : UInt8
  deriving DecidableEq

def Ipv4Addr.octets (ip : Ipv4Addr) : List UInt8 := [ip.a, ip.b, ip.c, ip.d]

/-- The capacity of a packet. -/
def CAPACITY : ℕ := 512

/-- `extend_from_slice` and `push` on a packet. -/
def extend (r bytes : List UInt8) : Option (List UInt8) :=
  if r.length + bytes.length ≤ CAPACITY then some (r ++ bytes) else none

/-- `u16::from_be_bytes`. -/
def fromBeBytes (hi lo : UInt8) : UInt16 := hi.toUInt16 <<< 8 ||| lo.toUInt16

/-- `append_a_record`. -/
def appendARecord (r : List UInt8) (ip : Ipv4Addr) (host : List UInt8) : Option (List UInt8) := do
  let r ← extend r [UInt8.ofNat host.length]
  let r ← extend r host
  let r ← extend r [5]
  let r ← extend r (ascii "local")
  let r ← extend r [0]
  let r ← extend r [0x00, 0x01]
  let r ← extend r [0x80, 0x01]
  let r ← extend r [0x00, 0x00, 0x00, 0x78]
  let r ← extend r [0x00, 0x04]
  extend r ip.octets

/-- The header of a packet with an identifier, and the record. -/
def build (id : List UInt8) (ip : Ipv4Addr) (host : List UInt8) : Option (List UInt8) := do
  let r ← extend [] id
  let r ← extend r [0x84, 0x00]
  let r ← extend r [0x00, 0x00]
  let r ← extend r [0x00, 0x01]
  let r ← extend r [0x00, 0x00]
  let r ← extend r [0x00, 0x00]
  appendARecord r ip host

/-- `build_announcement`. -/
def buildAnnouncement (ip : Ipv4Addr) (host : List UInt8) : Option (List UInt8) :=
  build [0x00, 0x00] ip host

/-- A label is the one expected, up to the case of ASCII letters. -/
def labelMatches (label expected : List UInt8) : Bool :=
  label.length = expected.length && (label.zip expected).all fun (a, b) => toLower a = toLower b

/-- The loop over the labels of a question, with those still expected: whether they all matched, how many
of them were left over, and what follows the name; `none` for a label that is not well-formed. -/
def walkLabels (expected : List (List UInt8)) (ok : Bool) :
    (rest : List UInt8) → Option (Bool × List (List UInt8) × List UInt8)
  | [] => some (ok, expected, [])
  | n :: rest =>
    if n = 0 then some (ok, expected, rest)
    -- compressed names are not followed
    else if n > 63 ∨ rest.length < n.toNat then none
    else
      match expected with
      | [] => walkLabels [] false (rest.drop n.toNat)
      | label :: expected =>
        walkLabels expected (ok && labelMatches (rest.take n.toNat) label) (rest.drop n.toNat)
  termination_by rest => rest.length
  decreasing_by all_goals simp only [List.length_drop, List.length_cons]; omega

/-- `build_response`. -/
def buildResponse (query : List UInt8) (ip : Ipv4Addr) (host : List UInt8) : Option (List UInt8) :=
  match query with
  | id0 :: id1 :: f0 :: f1 :: q0 :: q1 :: _ :: _ :: _ :: _ :: _ :: _ :: question =>
    if fromBeBytes f0 f1 >>> 15 &&& 1 ≠ 0 then none
    else if fromBeBytes q0 q1 = 0 then none
    else
      match walkLabels [host, ascii "local"] true question with
      | some (true, [], t0 :: t1 :: c0 :: c1 :: _) =>
        let qtype := fromBeBytes t0 t1
        let qclass := fromBeBytes c0 c1
        if (qtype ≠ 1 ∧ qtype ≠ 255) ∨ qclass &&& 0x7FFF ≠ 1 then none else build [id0, id1] ip host
      | _ => none
  | _ => none

/-- The A record of a host. -/
def record (ip : Ipv4Addr) (host : List UInt8) : List UInt8 :=
  UInt8.ofNat host.length :: host ++ (5 :: ascii "local" ++ [0]) ++
    [0x00, 0x01, 0x80, 0x01, 0x00, 0x00, 0x00, 0x78, 0x00, 0x04] ++ ip.octets

/-- The packet is an answer with one record, the A record of the host with the address `ip`. -/
def Answers (packet : List UInt8) (ip : Ipv4Addr) : Prop :=
  ∃ id host, id.length = 2 ∧
    packet = id ++ [0x84, 0x00, 0x00, 0x00, 0x00, 0x01, 0x00, 0x00, 0x00, 0x00] ++ record ip host

lemma extend_eq_some {r bytes s : List UInt8} (h : extend r bytes = some s) : s = r ++ bytes := by
  rw [extend] at h
  split at h
  · exact (Option.some.inj h).symm
  · cases h

/-- Two extensions are one. -/
lemma extend_bind (r a b : List UInt8) :
    ((extend r a).bind fun s => extend s b) = extend r (a ++ b) := by
  simp only [extend, List.length_append]
  by_cases fits : r.length + (a.length + b.length) ≤ CAPACITY
  · rw [if_pos (by omega), if_pos fits, Option.bind_some, List.length_append, if_pos (by omega),
      List.append_assoc]
  · rw [if_neg fits]
    by_cases first : r.length + a.length ≤ CAPACITY
    · rw [if_pos first, Option.bind_some, List.length_append, if_neg (by omega)]
    · rw [if_neg first]
      rfl

/-- A packet is built at once, if there is room for it. -/
lemma build_extend (id host : List UInt8) (ip : Ipv4Addr) : build id ip host =
    extend [] (id ++ [0x84, 0x00, 0x00, 0x00, 0x00, 0x01, 0x00, 0x00, 0x00, 0x00] ++ record ip host) := by
  simp only [build, appendARecord, Option.bind_eq_bind, extend_bind]
  simp [record]

lemma build_eq {id host packet : List UInt8} {ip : Ipv4Addr} (two : id.length = 2)
    (built : build id ip host = some packet) : Answers packet ip := by
  rw [build_extend] at built
  have eq := extend_eq_some built
  exact ⟨id, host, two, eq⟩

/-- There is room for a host of at most 32 bytes. -/
lemma build_some {id host : List UInt8} (two : id.length = 2) (short : host.length ≤ 32) (ip : Ipv4Addr) :
    build id ip host = some (id ++ [0x84, 0x00, 0x00, 0x00, 0x00, 0x01, 0x00, 0x00, 0x00, 0x00] ++
      record ip host) := by
  have letters : (ascii "local").length = 5 := by decide
  rw [build_extend, extend, if_pos, List.nil_append]
  simp only [record, Ipv4Addr.octets, CAPACITY, List.length_append, List.length_cons, List.length_nil, two,
    letters]
  omega

lemma buildAnnouncement_eq {ip : Ipv4Addr} {host packet : List UInt8}
    (built : buildAnnouncement ip host = some packet) : Answers packet ip :=
  build_eq rfl built

lemma buildResponse_eq {query host packet : List UInt8} {ip : Ipv4Addr}
    (built : buildResponse query ip host = some packet) : Answers packet ip := by
  unfold buildResponse at built
  split at built
  · split at built
    · cases built
    · split at built
      · cases built
      · split at built
        · simp only at built
          split at built
          · cases built
          · exact build_eq rfl built
        · cases built
  · cases built

/-- The address that a packet answers with is determined by its bytes. -/
lemma Answers.unique {packet : List UInt8} {ip ip' : Ipv4Addr} (answers : Answers packet ip)
    (answers' : Answers packet ip') : ip = ip' := by
  obtain ⟨id, host, -, rfl⟩ := answers
  obtain ⟨id', host', -, eq⟩ := answers'
  rw [record, record] at eq
  have eq := ((List.append_assoc _ _ _).trans eq).trans (List.append_assoc _ _ _).symm
  obtain ⟨-, last⟩ := List.append_inj' eq rfl
  obtain ⟨a, b, c, d⟩ := ip
  obtain ⟨a', b', c', d'⟩ := ip'
  simpa [Ipv4Addr.octets] using last

end EspcanBr.Mdns
