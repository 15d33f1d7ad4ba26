import EspcanBr.Base.Text
import EspcanBr.Config

/-!
# Reading a request

The read loop of `handle_request` in `src/http.rs`, with the functions it takes a request apart with.
What the socket returns is a list of `Read`s; `receive` is the loop over them. The loop knows at every
moment how many bytes it needs (`needed`), whatever the pieces they arrive in, and ends when it has
them, when its buffer is full, or at the end of the stream (`receive_stops`).
-/

namespace EspcanBr.Http
open Base

/-- The end of the headers. -/
def BREAK : List UInt8 := ascii "\r\n\r\n"

/-- The size of the buffer. -/
def BUFFER : ℕ := 1024

/-- The largest `usize`. -/
def USIZE_MAX : ℕ := 2 ^ 32 - 1

/-- What a read of the socket returns: bytes, the end of the stream, or an error. -/
inductive Read where
  | data (first : UInt8) (rest : List UInt8)
  | eof
  | error
  deriving DecidableEq

/-- `find_subslice`. -/
def findSubslice (hay needle : List UInt8) : Option ℕ := find needle hay

/-- The value of a header line, if it is the one for the length. -/
def lengthLine (line : List UInt8) : Option ℕ := do
  let (k, v) ← splitOnce (ascii ":") line
  if eqIgnoreAsciiCase (trim k) (ascii "content-length") then parseUnsigned USIZE_MAX (trim v) else none

/-- `content_length`. -/
def contentLength (headers : List UInt8) : Option ℕ :=
  if validUtf8 headers then (split (ascii "\r\n") headers).findSome? lengthLine else none

/-- The bytes received, and how many are needed. -/
structure Reading where
  buffer : List UInt8
  need : Option ℕ
  deriving DecidableEq

/-- The loop ends before the next read. -/
def Reading.enough (r : Reading) : Bool := r.need.any (· ≤ r.buffer.length) || BUFFER ≤ r.buffer.length

/-- The bytes needed once the headers are in: up to the end of the body, capped at the buffer. -/
def needed (buffer : List UInt8) : Option ℕ :=
  (findSubslice buffer BREAK).map fun i =>
    let headerEnd := i + 4
    -- a request without the header, or with one that is no number, has no body
    let clen := (contentLength (buffer.take headerEnd)).getD 0
    min (min (headerEnd + clen) USIZE_MAX) BUFFER

/-- A read that returned bytes, as many as the buffer has room for. -/
def Reading.take (r : Reading) (bytes : List UInt8) : Reading :=
  let buffer := r.buffer ++ bytes.take (BUFFER - r.buffer.length)
  { buffer := buffer, need := if r.need.isNone then needed buffer else r.need }

/-- What the loop ends in: a request, a client that closed without sending anything, an error of the
socket; or it still waits. -/
inductive Received where
  | request (buffer : List UInt8)
  | closed
  | failed
  | waiting
  deriving DecidableEq

/-- The read loop. -/
def Reading.receive (r : Reading) : List Read → Received
  | [] => if r.enough then .request r.buffer else .waiting
  | read :: reads =>
    if r.enough then .request r.buffer
    else
      match read with
      | .eof => if r.buffer = [] then .closed else .request r.buffer
      | .error => .failed
      | .data first rest => (r.take (first :: rest)).receive reads

/-- The read loop from its start. -/
def receive (reads : List Read) : Received := Reading.receive ⟨[], none⟩ reads

/-- `parse_request_line`. -/
def parseRequestLine (request : List UInt8) : List UInt8 × List UInt8 :=
  let words := splitWhitespace ((lines request).head?.getD [])
  ((words)[0]?.getD [], (words)[1]?.getD (ascii "/"))

/-- `request.split("\r\n\r\n").nth(1).unwrap_or("")`. -/
def bodyOf (request : List UInt8) : List UInt8 := (split BREAK request)[1]?.getD []

/-- `base64_value`. -/
def base64Value (c : UInt8) : Option UInt8 :=
  if 0x41 ≤ c ∧ c ≤ 0x5A then some (c - 0x41)
  else if 0x61 ≤ c ∧ c ≤ 0x7A then some (c - 0x61 + 26)
  else if 0x30 ≤ c ∧ c ≤ 0x39 then some (c - 0x30 + 52)
  else if c = 0x2B then some 62
  else if c = 0x2F then some 63
  else none

/-- The loop of `base64_decode` into a buffer of `size` bytes. -/
def base64From (size : ℕ) (acc : UInt32) (bits : UInt8) (out : List UInt8) :
    List UInt8 → Option (List UInt8)
  | [] => some out
  | c :: cs =>
    -- what follows the padding is not looked at
    if c = 0x3D then some out
    else
      match base64Value c with
      | none => none
      | some v =>
        let acc := acc <<< 6 ||| v.toUInt32
        let bits := bits + 6
        if 8 ≤ bits then
          let bits := bits - 8
          if size ≤ out.length then none
          else base64From size acc bits (out ++ [(acc >>> bits.toUInt32).toUInt8]) cs
        else base64From size acc bits out cs

/-- `base64_decode`. -/
def base64Decode (size : ℕ) (src : List UInt8) : Option (List UInt8) := base64From size 0 0 [] src

/-- The credentials in an `Authorization` line. -/
def authLine (line : List UInt8) : Option (List UInt8) := do
  let (k, v) ← splitOnce (ascii ":") line
  if eqIgnoreAsciiCase (trim k) (ascii "authorization") then
    let v := trim v
    if (ascii "Basic ").isPrefixOf v ∨ (ascii "basic ").isPrefixOf v then some (v.drop 6) else none
  else none

/-- `basic_auth_token`. -/
def basicAuthToken (request : List UInt8) : Option (List UInt8) :=
  ((lines request).takeWhile (· ≠ [])).findSome? authLine

/-- `authorized`; `none` where `verify` panics. -/
def authorized (sha256 : List UInt8 → List UInt8) (gpio0Held : Bool) (cfg : AuthConfig)
    (request : List UInt8) : Option Bool :=
  if gpio0Held then some true
  else if cfg.isSet = false then some true
  else
    match (basicAuthToken request).bind (base64Decode 128) with
    | none => some false
    | some creds =>
      if validUtf8 creds then
        match splitOnce (ascii ":") creds with
        | none => some false
        | some (user, pass) => cfg.verify sha256 user pass
      else some false

/-- The bytes the socket returns, up to the end of the stream or an error. -/
def received : List Read → List UInt8
  | .data first rest :: reads => first :: rest ++ received reads
  | _ => []

/-- One piece of a stream, if it is not empty. -/
def piece : List UInt8 → List Read
  | [] => []
  | first :: rest => [.data first rest]

lemma received_piece (bytes : List UInt8) (reads : List Read) :
    received (piece bytes ++ reads) = bytes ++ received reads := by
  cases bytes with
  | nil => rfl
  | cons first rest => rfl

/-- The bytes needed are known from the headers alone. -/
lemma needed_eq_some {buffer : List UInt8} {n : ℕ} :
    needed buffer = some n ↔ ∃ headers rest, FirstSplit BREAK buffer headers rest ∧
      n = min (min (headers.length + 4 + (contentLength (headers ++ BREAK)).getD 0) USIZE_MAX) BUFFER := by
  have front : ∀ {headers rest}, FirstSplit BREAK buffer headers rest →
      buffer.take (headers.length + 4) = headers ++ BREAK := by
    intro headers rest split
    have len : (headers ++ BREAK).length = headers.length + 4 := List.length_append
    rw [split.eq, ← len, List.take_left]
  rw [needed, findSubslice, Option.map_eq_some_iff]
  constructor
  · rintro ⟨i, found, rfl⟩
    obtain ⟨headers, rest, split, rfl⟩ := find_eq_some.mp found
    exact ⟨headers, rest, split, by simp only [front split]⟩
  · rintro ⟨headers, rest, split, rfl⟩
    exact ⟨headers.length, find_eq_some.mpr ⟨headers, rest, split, rfl⟩, by simp only [front split]⟩

/-- More bytes do not change how many are needed. -/
lemma needed_append {buffer : List UInt8} {n : ℕ} (need : needed buffer = some n) (more : List UInt8) :
    needed (buffer ++ more) = some n := by
  obtain ⟨headers, rest, split, eq⟩ := needed_eq_some.mp need
  exact needed_eq_some.mpr ⟨headers, rest ++ more, split.append more, eq⟩

/-- What the loop knows: how many bytes it needs, within its buffer. -/
structure Reading.Ok (r : Reading) : Prop where
  need : r.need = needed r.buffer
  room : r.buffer.length ≤ BUFFER

lemma Reading.Ok.take {r : Reading} (ok : r.Ok) (bytes : List UInt8) : (r.take bytes).Ok := by
  refine ⟨?_, ?_⟩
  · rw [Reading.take]
    cases need : r.need with
    | none => rfl
    | some n =>
      rw [ok.need] at need
      exact (needed_append need _).symm
  · have room := ok.room
    simp only [Reading.take, List.length_append, List.length_take]
    omega

/-- With enough bytes the loop ends before the next read. -/
lemma Reading.receive_enough {r : Reading} (enough : r.enough = true) (reads : List Read) :
    r.receive reads = .request r.buffer := by
  cases reads with
  | nil =>
    unfold Reading.receive
    exact if_pos enough
  | cons read reads =>
    unfold Reading.receive
    exact if_pos enough

lemma Reading.Ok.enough {r : Reading} (ok : r.Ok) (enough : r.enough = true) :
    (∃ n, needed r.buffer = some n ∧ n ≤ r.buffer.length) ∨ r.buffer.length = BUFFER := by
  rw [Reading.enough, Bool.or_eq_true, Option.any_eq_true] at enough
  rcases enough with ⟨n, need, le⟩ | full
  · rw [ok.need] at need
    exact .inl ⟨n, need, of_decide_eq_true le⟩
  · exact .inr (Nat.le_antisymm ok.room (of_decide_eq_true full))

/-- The loop ends with a prefix of what the socket returned, when it has the bytes it needs, when its
buffer is full, or at the end of the stream. -/
lemma Reading.receive_stops {r : Reading} (ok : r.Ok) {reads : List Read} {request : List UInt8}
    (done : r.receive reads = .request request) :
    request <+: r.buffer ++ received reads ∧
      (((∃ n, needed request = some n ∧ n ≤ request.length) ∨ request.length = BUFFER) ∨
        (.eof ∈ reads ∧ request = r.buffer ++ received reads ∧ request ≠ [])) := by
  induction reads generalizing r with
  | nil =>
    unfold Reading.receive at done
    split at done
    · cases done
      exact ⟨List.prefix_append _ _, .inl (ok.enough ‹_›)⟩
    · cases done
  | cons read reads ih =>
    by_cases enough : r.enough = true
    · rw [Reading.receive_enough enough] at done
      cases done
      exact ⟨List.prefix_append _ _, .inl (ok.enough enough)⟩
    · unfold Reading.receive at done
      rw [if_neg enough] at done
      cases read with
      | eof =>
        simp only at done
        split at done
        · cases done
        · cases done
          have none : received (.eof :: reads) = [] := rfl
          rw [none, List.append_nil]
          exact ⟨List.prefix_rfl, .inr ⟨List.mem_cons_self, rfl, ‹_›⟩⟩
      | error => cases done
      | data first rest =>
        simp only at done
        have ok' := ok.take (first :: rest)
        rcases Nat.le_total (first :: rest).length (BUFFER - r.buffer.length) with fits | exceeds
        · -- the socket's bytes all go into the buffer
          have buffer : (r.take (first :: rest)).buffer = r.buffer ++ (first :: rest) := by
            rw [Reading.take, List.take_of_length_le fits]
          obtain ⟨pre, why⟩ := ih ok' done
          rw [buffer, List.append_assoc] at pre why
          refine ⟨pre, why.imp_right fun ⟨eof, all, ne⟩ => ⟨List.mem_cons_of_mem _ eof, all, ne⟩⟩
        · -- the buffer is full, so the loop ends with it
          have full : (r.take (first :: rest)).buffer.length = BUFFER := by
            have room := ok.room
            simp only [Reading.take, List.length_append, List.length_take] at exceeds ⊢
            omega
          have enough' : (r.take (first :: rest)).enough = true := by
            rw [Reading.enough, full]
            simp
          rw [Reading.receive_enough enough'] at done
          cases done
          refine ⟨?_, .inl (ok'.enough enough')⟩
          rw [received, ← List.append_assoc]
          exact ((List.prefix_append_right_inj _).mpr (List.take_prefix _ _)).trans (List.prefix_append _ _)

/-- What the loop ends with is in its buffer. -/
lemma Reading.receive_room {r : Reading} (ok : r.Ok) {reads : List Read} {request : List UInt8}
    (done : r.receive reads = .request request) : request.length ≤ BUFFER := by
  induction reads generalizing r with
  | nil =>
    unfold Reading.receive at done
    split at done
    · cases done
      exact ok.room
    · cases done
  | cons read reads ih =>
    unfold Reading.receive at done
    split at done
    · cases done
      exact ok.room
    · cases read with
      | eof =>
        simp only at done
        split at done
        · cases done
        · cases done
          exact ok.room
      | error => cases done
      | data first rest => exact ih (ok.take (first :: rest)) done

/-- With the bytes it needs on their way the loop ends, with these or more of them. -/
lemma Reading.receive_done {r : Reading} (ok : r.Ok) {reads : List Read} {n : ℕ}
    (need : needed (r.buffer ++ received reads) = some n)
    (le : n ≤ (r.buffer ++ received reads).length) (cap : n ≤ BUFFER) :
    ∃ m, n ≤ m ∧ m ≤ BUFFER ∧ r.receive reads = .request ((r.buffer ++ received reads).take m) := by
  -- a loop that has enough has the bytes that are needed
  have ends : ∀ {r : Reading}, r.Ok → r.enough = true → ∀ {more}, needed (r.buffer ++ more) = some n →
      ∀ reads, ∃ m, n ≤ m ∧ m ≤ BUFFER ∧ r.receive reads = .request ((r.buffer ++ more).take m) := by
    intro r ok enough more need reads
    refine ⟨r.buffer.length, ?_, ok.room, ?_⟩
    · rcases ok.enough enough with ⟨n', need', le'⟩ | full
      · cases (needed_append need' more).symm.trans need
        exact le'
      · rw [full]
        exact cap
    · rw [Reading.receive_enough enough, List.take_left]
  -- and one that has all of them has enough
  have last : ∀ {r : Reading}, r.Ok → needed (r.buffer ++ []) = some n → n ≤ (r.buffer ++ []).length →
      r.enough = true := by
    intro r ok need le
    rw [List.append_nil] at need le
    rw [Reading.enough, ok.need, need, Option.any_some, decide_eq_true le, Bool.true_or]
  induction reads generalizing r with
  | nil => exact ends ok (last ok need le) need []
  | cons read reads ih =>
    by_cases enough : r.enough = true
    · exact ends ok enough need _
    · cases read with
      | eof => exact absurd (last ok need le) enough
      | error => exact absurd (last ok need le) enough
      | data first rest =>
        have ok' := ok.take (first :: rest)
        have step : r.receive (.data first rest :: reads) = (r.take (first :: rest)).receive reads := by
          rw [Reading.receive, if_neg enough]
        rw [step, received]
        rcases Nat.le_total (first :: rest).length (BUFFER - r.buffer.length) with fits | exceeds
        · have buffer : (r.take (first :: rest)).buffer = r.buffer ++ (first :: rest) := by
            rw [Reading.take, List.take_of_length_le fits]
          rw [received, ← List.append_assoc, ← buffer] at need le
          rw [← List.append_assoc, ← buffer]
          exact ih ok' need le
        · -- the buffer is full, so the loop ends with it
          have buffer : (r.take (first :: rest)).buffer =
              (r.buffer ++ (first :: rest ++ received reads)).take BUFFER := by
            rw [Reading.take, List.take_append, List.take_of_length_le ok.room,
              List.take_append_of_le_length exceeds]
          have full : (r.take (first :: rest)).enough = true := by
            have room := ok.room
            have length : BUFFER ≤ (r.take (first :: rest)).buffer.length := by
              simp only [Reading.take, List.length_append, List.length_take] at exceeds ⊢
              omega
            rw [Reading.enough, decide_eq_true length, Bool.or_true]
          exact ⟨BUFFER, cap, le_rfl, by rw [Reading.receive_enough full, buffer]⟩

/-- The headers are in, with as many bytes after them as they announce. -/
def Whole (request : List UInt8) : Prop :=
  ∃ headers rest, FirstSplit BREAK request headers rest ∧
    (contentLength (headers ++ BREAK)).getD 0 ≤ rest.length

/-- The bytes needed are those of a whole request, if these fit the buffer. -/
lemma whole_of_needed {request : List UInt8} {n : ℕ} (need : needed request = some n)
    (le : n ≤ request.length) : Whole request ∨ BUFFER ≤ request.length := by
  obtain ⟨headers, rest, split, rfl⟩ := needed_eq_some.mp need
  have total := congrArg List.length split.eq
  have brk : BREAK.length = 4 := rfl
  have max : BUFFER ≤ USIZE_MAX := by decide
  simp only [List.length_append, brk] at total
  rcases Nat.lt_or_ge request.length BUFFER with lt | ge
  · refine .inl ⟨headers, rest, split, ?_⟩
    omega
  · exact .inr ge

/-- When the loop ends: with a whole request, with a full buffer, or with all that a client sent before
it closed. -/
theorem receive_stops {reads : List Read} {request : List UInt8}
    (done : receive reads = .request request) :
    request <+: received reads ∧ (Whole request ∨ BUFFER ≤ request.length ∨
      (.eof ∈ reads ∧ request = received reads ∧ request ≠ [])) := by
  have start : Reading.Ok ⟨[], none⟩ := ⟨rfl, Nat.zero_le _⟩
  obtain ⟨pre, (⟨n, need, le⟩ | full) | eof⟩ := Reading.receive_stops start done
  · exact ⟨pre, (whole_of_needed need le).imp_right .inl⟩
  · exact ⟨pre, .inr (.inl full.ge)⟩
  · exact ⟨pre, .inr (.inr eof)⟩

/-- The body is what follows the headers, up to the next break. -/
lemma bodyOf_spec {request headers rest : List UInt8} (cut : FirstSplit BREAK request headers rest) :
    (¬ BREAK <:+: rest → bodyOf request = rest) ∧
      ∀ next more, FirstSplit BREAK rest next more → bodyOf request = next := by
  constructor
  · obtain ⟨piece, second, -, whole⟩ := split_second (by decide) cut
    rw [bodyOf, second, Option.getD_some]
    exact whole
  · intro next more again
    rw [bodyOf, split_second_cut (by decide) cut again, Option.getD_some]

lemma bodyOf_nil {request : List UInt8} (no : ¬ BREAK <:+: request) : bodyOf request = [] := by
  rw [bodyOf, split_single no]
  rfl

end EspcanBr.Http
