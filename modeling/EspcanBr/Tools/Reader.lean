import EspcanBr.Tools.Slcan
import EspcanBr.Transport.Dispatch

/-!
# The host tools' reader

`Reader` of `tools/slcan_tool.py`: the thread that reads the adapter's bytes in chunks, splits them into
lines, and counts acknowledgements, refusals and frames. What is a line's end, a refusal or part of a
line does not depend on the chunks (`run_flatten`), and each reply and each frame line is counted as
what it is (`read_reply`, `read_frame`).
-/

namespace EspcanBr.Tools
open Base Slcan Transport

/-- The buffer of `Reader.run`, and the counters of `stats` it advances. -/
structure Reader where
  buf : List UInt8
  ack : ℕ
  nak : ℕ
  rx : ℕ
  deriving DecidableEq

namespace Reader

def new : Reader := ⟨[], 0, 0, 0⟩

/-- `Reader._dispatch`. -/
def dispatch (r : Reader) (raw : List UInt8) : Reader :=
  if raw = [] then { r with ack := r.ack + 1 }
  else if raw = [ch 'z'] ∨ raw = [ch 'Z'] then { r with ack := r.ack + 1 }
  else
    match decodeFrame raw with
    | some _ => { r with rx := r.rx + 1 }
    | none => r

/-- What `Reader.run` does with a byte. -/
def byte (r : Reader) (b : UInt8) : Reader :=
  if b = 0x0D then { r.dispatch r.buf with buf := [] }
  else if b = 0x07 then { r with nak := r.nak + 1 }
  else if b ≠ 0x0A then { r with buf := r.buf ++ [b] }
  else r

/-- The bytes of one chunk. -/
def read (r : Reader) (chunk : List UInt8) : Reader := chunk.foldl byte r

/-- `Reader.run` on the chunks it reads. -/
def run (r : Reader) (chunks : List (List UInt8)) : Reader := chunks.foldl read r

/-- Only the bytes count, not how they are cut into chunks. -/
lemma run_flatten (r : Reader) (chunks : List (List UInt8)) : r.run chunks = r.read chunks.flatten := by
  induction chunks generalizing r with
  | nil => rfl
  | cons chunk chunks ih =>
    rw [List.flatten_cons, read, List.foldl_append]
    exact ih (r.read chunk)

lemma read_append (r : Reader) (x y : List UInt8) : r.read (x ++ y) = (r.read x).read y := List.foldl_append

/-- A byte that is kept as part of a line. -/
def Plain (b : UInt8) : Prop := b ≠ 0x0D ∧ b ≠ 0x07 ∧ b ≠ 0x0A

instance (b : UInt8) : Decidable (Plain b) := inferInstanceAs (Decidable (_ ∧ _))

lemma plain_hex {c : UInt8} (hex : (hexVal c).isSome) : Plain c := by
  have all : ∀ c, (hexVal c).isSome → Plain c := all_bytes (by decide +kernel)
  exact all c hex

lemma byte_plain {b : UInt8} (plain : Plain b) (r : Reader) : r.byte b = { r with buf := r.buf ++ [b] } := by
  rw [byte, if_neg plain.1, if_neg plain.2.1, if_pos plain.2.2]

lemma read_plain {raw : List UInt8} (plain : ∀ b ∈ raw, Plain b) (r : Reader) :
    r.read raw = { r with buf := r.buf ++ raw } := by
  induction raw generalizing r with
  | nil => simp [read]
  | cons b raw ih =>
    have first : r.read (b :: raw) = (r.byte b).read raw := rfl
    rw [first, byte_plain (plain b List.mem_cons_self), ih fun c mem => plain c (List.mem_cons_of_mem _ mem)]
    simp only [List.append_assoc, List.singleton_append]

/-- A line is dispatched at its end. -/
lemma read_line {raw : List UInt8} (plain : ∀ b ∈ raw, Plain b) {r : Reader} (fresh : r.buf = []) :
    r.read (raw ++ [CR]) = { r.dispatch raw with buf := [] } := by
  have last : ∀ r : Reader, r.read [CR] = { r.dispatch r.buf with buf := [] } := by
    intro r
    rw [read, List.foldl_cons, List.foldl_nil, byte, if_pos (show CR = 0x0D from rfl)]
  rw [read_append, read_plain plain, last, fresh, List.nil_append]
  simp only [dispatch]
  split
  · rfl
  · split
    · rfl
    · split
      · rfl
      · rfl

end Reader

/-- The replies of a port, byte for byte. -/
inductive Reply : List UInt8 → Prop where
  | ok :
    Reply [CR]
  | sent11 :
    Reply [ch 'z', CR]
  | sent29 :
    Reply [ch 'Z', CR]
  | refused :
    Reply [BELL]
  | version :
    Reply [ch 'V', ch '1', ch '0', ch '1', ch '3', CR]
  | serial :
    Reply [ch 'N', ch '1', ch '2', ch '3', ch '4', CR]
  | flags {hi lo} :
    Reply [ch 'F', hexNibble hi, hexNibble lo, CR]

/-- The replies a host takes for an acknowledgement. -/
def acks (reply : List UInt8) : Bool := reply = [CR] ∨ reply = [ch 'z', CR] ∨ reply = [ch 'Z', CR]

/-- The reply a host takes for a refusal. -/
def naks (reply : List UInt8) : Bool := reply = [BELL]

lemma plain_hexNibble (n : UInt8) : Reader.Plain (hexNibble n) := by
  have all : ∀ n, Reader.Plain (hexNibble n) := all_bytes (by decide +kernel)
  exact all n

/-- A reply is counted once, as what it is, and leaves nothing in the buffer. -/
lemma read_reply {reply : List UInt8} (is : Reply reply) (a n x : ℕ) :
    Reader.read ⟨[], a, n, x⟩ reply = ⟨[], a + (acks reply).toNat, n + (naks reply).toNat, x⟩ := by
  cases is with
  | @flags hi lo =>
    have plain : ∀ b ∈ [ch 'F', hexNibble hi, hexNibble lo], Reader.Plain b := by
      simp only [List.forall_mem_cons]
      exact ⟨by decide, plain_hexNibble hi, plain_hexNibble lo, fun _ no => by cases no⟩
    exact Reader.read_line plain rfl
  | _ => rfl

/-- A frame line is counted once, as a frame, whatever frame it is. -/
lemma read_frame (f : CanFrame) (timestamp : Option UInt16) (a n x : ℕ) :
    Reader.read ⟨[], a, n, x⟩ (formatFrame f timestamp) = ⟨[], a, n, x + 1⟩ := by
  obtain ⟨digits, eq, upper⟩ := formatFrame_digits f timestamp
  have plain : ∀ b ∈ letter f.ext f.rtr :: digits, Reader.Plain b := by
    intro b mem
    rcases List.mem_cons.mp mem with rfl | mem
    · cases f.ext <;> cases f.rtr <;> decide
    · exact Reader.plain_hex (isSome_of_isUpperHex (upper b mem))
  have decoded := decodeFrame_formatted f timestamp
  rw [eq, List.dropLast_concat] at decoded
  have other : ¬ (letter f.ext f.rtr :: digits = [ch 'z'] ∨ letter f.ext f.rtr :: digits = [ch 'Z']) := by
    have letters : letter f.ext f.rtr ≠ ch 'z' ∧ letter f.ext f.rtr ≠ ch 'Z' := by
      cases f.ext <;> cases f.rtr <;> decide
    rintro (z | z)
    · exact letters.1 (List.cons.inj z).1
    · exact letters.2 (List.cons.inj z).1
  rw [eq, Reader.read_line plain rfl, Reader.dispatch, if_neg (List.cons_ne_nil _ _), if_neg other, decoded]

end EspcanBr.Tools
