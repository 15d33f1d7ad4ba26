import EspcanBr.Http.Server

/-!
# Requests in pieces

TCP delivers a stream in pieces of any size, and the read loop ends with the request or with more of the
stream, as the pieces fall. The method, the path and the credentials stand in the headers, so they do not
depend on the pieces. The body that `handle_request` cuts off goes on to the end of what has arrived, so
it does (`segmentation`).
-/

namespace EspcanBr.Http
open Base Config

/-- The length of the body that the headers announce. -/
def bodyLength (headers : List UInt8) : ℕ := (contentLength (headers ++ BREAK)).getD 0

/-- The stream starts with a request that fits the buffer: the headers, and the bytes they announce. -/
structure FirstRequest (stream headers rest : List UInt8) : Prop where
  cut : FirstSplit BREAK stream headers rest
  body : bodyLength headers ≤ rest.length
  fits : headers.length + 4 + bodyLength headers ≤ BUFFER

/-- Whatever the pieces in which the stream arrives, `handle_request` finds the same method, path and
credentials, and does the same: it runs the same handler with the same body, with the same answer and the
same device. -/
def SameSeen (stream : List UInt8) : Prop :=
  ∀ reads reads', received reads = stream → received reads' = stream →
    ∃ request request', receive reads = .request request ∧ receive reads' = .request request' ∧
      parseRequestLine request = parseRequestLine request' ∧
      basicAuthToken request = basicAuthToken request' ∧
      ∀ sha256 io d, handleRequest sha256 io d reads = handleRequest sha256 io d reads'

/-- The request goes to a handler that saves its body. -/
def Saves (headers : List UInt8) : Prop :=
  ∃ h, route (parseRequestLine (headers ++ BREAK)).1 (parseRequestLine (headers ++ BREAK)).2 = .save h

/-- The request line is found in the headers. -/
lemma parseRequestLine_headers (headers rest : List UInt8) :
    parseRequestLine (headers ++ BREAK ++ rest) = parseRequestLine (headers ++ BREAK) := by
  have first : ∀ rest, (lines (headers ++ BREAK ++ rest)).head? = (headLines headers).head? := by
    intro rest
    obtain ⟨more, eq⟩ := lines_break headers rest
    rw [BREAK, eq, List.head?_append_of_ne_nil _ (headLines_ne_nil headers)]
  have bare := first []
  rw [List.append_nil] at bare
  rw [parseRequestLine, parseRequestLine, first, bare]

/-- The credentials are found in the headers. -/
lemma basicAuthToken_headers (headers rest : List UInt8) :
    basicAuthToken (headers ++ BREAK ++ rest) = basicAuthToken (headers ++ BREAK) := by
  have before : ∀ rest, (lines (headers ++ BREAK ++ rest)).takeWhile (· ≠ []) =
      (headLines headers).takeWhile (· ≠ []) := by
    intro rest
    obtain ⟨more, eq⟩ := lines_break headers rest
    rw [BREAK, eq]
    exact takeWhile_stop _ _ (by simp)
  have bare := before []
  rw [List.append_nil] at bare
  rw [basicAuthToken, basicAuthToken, before, bare]

/-- What `handle_request` does depends on the request line, the credentials, and the body if it goes to
a handler. -/
lemma respond_congr {request request' : List UInt8}
    (line : parseRequestLine request = parseRequestLine request')
    (token : basicAuthToken request = basicAuthToken request')
    (body : (∃ h, route (parseRequestLine request').1 (parseRequestLine request').2 = .save h) →
      bodyOf request = bodyOf request')
    (sha256 : List UInt8 → List UInt8) (io : Io) (d : Device) :
    respond sha256 io d request = respond sha256 io d request' := by
  have gate : authorized sha256 d.gpio0Held d.auth request =
      authorized sha256 d.gpio0Held d.auth request' := by
    rw [authorized, authorized, token]
  rw [respond, respond, gate, line]
  split
  · rfl
  · rfl
  · simp only
    split
    · rfl
    · rename_i h goes
      rw [body ⟨h, goes⟩]

section
variable {stream headers rest : List UInt8} (first : FirstRequest stream headers rest)
include first

/-- The end of the body. -/
lemma FirstRequest.needed_eq : needed stream = some (headers.length + 4 + bodyLength headers) := by
  have max : BUFFER ≤ USIZE_MAX := by decide
  have fits := first.fits
  refine needed_eq_some.mpr ⟨headers, rest, first.cut, ?_⟩
  rw [← bodyLength]
  omega

lemma FirstRequest.length_eq : stream.length = headers.length + 4 + rest.length := by
  have brk : BREAK.length = 4 := rfl
  rw [first.cut.eq, List.length_append, List.length_append, brk]

/-- What has arrived with so many bytes after the headers. -/
lemma FirstRequest.take_eq (j : ℕ) :
    stream.take (headers.length + 4 + j) = headers ++ BREAK ++ rest.take j := by
  have len : (headers ++ BREAK).length = headers.length + 4 := List.length_append
  rw [first.cut.eq, ← len, List.take_length_add_append]

lemma FirstRequest.cut_take (j : ℕ) :
    FirstSplit BREAK (headers ++ BREAK ++ rest.take j) headers (rest.take j) := by
  have cut := first.cut
  have eq : stream = headers ++ BREAK ++ rest.take j ++ rest.drop j := by
    rw [List.append_assoc, List.take_append_drop, cut.eq]
  have whole : FirstSplit BREAK (headers ++ BREAK ++ rest.take j ++ rest.drop j) headers
      (rest.take j ++ rest.drop j) := by
    rwa [List.take_append_drop, ← eq]
  exact whole.front

/-- In whatever pieces the stream arrives, the loop ends with the headers, the bytes they announce and
maybe more. -/
lemma FirstRequest.receive_eq {reads : List Read} (all : received reads = stream) :
    ∃ j, bodyLength headers ≤ j ∧ headers.length + 4 + j ≤ BUFFER ∧
      receive reads = .request (headers ++ BREAK ++ rest.take j) := by
  have start : Reading.Ok ⟨[], none⟩ := ⟨rfl, Nat.zero_le _⟩
  have body := first.body
  have length := first.length_eq
  subst all
  have need : needed ([] ++ received reads) = some (headers.length + 4 + bodyLength headers) :=
    first.needed_eq
  have enough : headers.length + 4 + bodyLength headers ≤ ([] ++ received reads).length := by
    rw [List.nil_append]
    omega
  obtain ⟨m, ge, le, done⟩ := Reading.receive_done start need enough first.fits
  have split : m = headers.length + 4 + (m - (headers.length + 4)) := by omega
  refine ⟨m - (headers.length + 4), by omega, by omega, ?_⟩
  rw [List.nil_append, split, first.take_eq] at done
  exact done

/-- The body is all that has arrived after the headers, up to a break. -/
lemma FirstRequest.bodyOf_take {j : ℕ} (no : ¬ BREAK <:+: rest.take j) :
    bodyOf (headers ++ BREAK ++ rest.take j) = rest.take j :=
  (bodyOf_spec (first.cut_take j)).1 no

/-- A break in the body ends it. -/
lemma FirstRequest.bodyOf_break {j : ℕ} (le : bodyLength headers ≤ j)
    (brk : BREAK <:+: rest.take (bodyLength headers)) :
    bodyOf (headers ++ BREAK ++ rest.take j) = bodyOf (headers ++ BREAK ++ rest.take (bodyLength headers)) := by
  obtain ⟨s, t, eq⟩ := brk
  obtain ⟨pre, post, again, -⟩ := FirstSplit.exists eq.symm
  have longer : rest.take (bodyLength headers) ++ (rest.take j).drop (bodyLength headers) = rest.take j := by
    have front : rest.take (bodyLength headers) = (rest.take j).take (bodyLength headers) := by
      rw [List.take_take, Nat.min_eq_left le]
    rw [front, List.take_append_drop]
  have again' := again.append ((rest.take j).drop (bodyLength headers))
  rw [longer] at again'
  rw [bodyOf, bodyOf, split_second_cut (by decide) (first.cut_take j) again',
    split_second_cut (by decide) (first.cut_take _) again]

end

/-- The stream in two pieces. -/
def cutAt (n : ℕ) (stream : List UInt8) : List Read := piece (stream.take n) ++ piece (stream.drop n)

lemma received_cutAt (n : ℕ) (stream : List UInt8) : received (cutAt n stream) = stream := by
  have last := received_piece (stream.drop n) []
  rw [List.append_nil] at last
  rw [cutAt, received_piece, last]
  simp [received]

/-- The loop ends with the first piece, if that holds the bytes needed. -/
lemma FirstRequest.receive_cutAt {stream headers rest : List UInt8} (first : FirstRequest stream headers rest)
    {j : ℕ} (ge : bodyLength headers ≤ j) (le : j ≤ rest.length) (fits : headers.length + 4 + j ≤ BUFFER) :
    receive (cutAt (headers.length + 4 + j) stream) = .request (headers ++ BREAK ++ rest.take j) := by
  have whole := first.take_eq j
  have need : needed (headers ++ BREAK ++ rest.take j) = some (headers.length + 4 + bodyLength headers) := by
    have max : BUFFER ≤ USIZE_MAX := by decide
    refine needed_eq_some.mpr ⟨headers, _, first.cut_take j, ?_⟩
    rw [← bodyLength]
    omega
  have length : (headers ++ BREAK ++ rest.take j).length = headers.length + 4 + j := by
    have brk : BREAK.length = 4 := rfl
    rw [List.length_append, List.length_append, List.length_take, Nat.min_eq_left le, brk]
  rw [cutAt, whole]
  generalize headers ++ BREAK ++ rest.take j = front at need length
  cases front with
  | nil =>
    rw [List.length_nil] at length
    omega
  | cons b bytes =>
    have taken : Reading.take ⟨[], none⟩ (b :: bytes) =
        ⟨b :: bytes, some (headers.length + 4 + bodyLength headers)⟩ := by
      have all : (b :: bytes).take BUFFER = b :: bytes := List.take_of_length_le (by omega)
      simp only [Reading.take, List.nil_append, List.length_nil, Nat.sub_zero, all, need]
      rfl
    have enough : (Reading.take ⟨[], none⟩ (b :: bytes)).enough = true := by
      rw [taken, Reading.enough, Option.any_some, length, decide_eq_true (by omega), Bool.true_or]
    have start : Reading.enough ⟨[], none⟩ = false := rfl
    rw [receive, piece, List.singleton_append, Reading.receive, start, if_neg Bool.false_ne_true,
      Reading.receive_enough enough, taken]

/-- A pressed button lets every request through. -/
lemma ran_held {d : Device} (held : d.gpio0Held = true) {reads : List Read} {request : List UInt8}
    (done : receive reads = .request request) {h : Handler}
    (goes : route (parseRequestLine request).1 (parseRequestLine request).2 = .save h)
    (sha256 : List UInt8 → List UInt8) (io : Io) :
    (handleRequest sha256 io d reads).ran = some (h, bodyOf request) := by
  have gate : authorized sha256 d.gpio0Held d.auth request = some true := by
    rw [authorized, if_pos held]
  rw [handleRequest, done]
  simp only [respond, gate, goes]

/-- A device without a stored configuration, with the button held. -/
def heldDevice : Device := { Device.new with gpio0Held := true }

/-- Requests in pieces. Of a stream that starts with a request that fits the buffer, `handle_request` sees
the same whatever the pieces if and only if nothing follows the body that the headers announce, or that
body fills the buffer or has a break in it, or the request is not one to save a configuration. -/
theorem segmentation {stream headers rest : List UInt8} (first : FirstRequest stream headers rest) :
    SameSeen stream ↔ rest.length = bodyLength headers ∨
      headers.length + 4 + bodyLength headers = BUFFER ∨ BREAK <:+: rest.take (bodyLength headers) ∨
      ¬ Saves headers := by
  constructor
  · intro same
    by_contra! ⟨longer, room, no, h, goes⟩
    have body := first.body
    have fits := first.fits
    -- the first piece ends with the body, or one byte later
    have exact := first.receive_cutAt le_rfl body fits
    have one := first.receive_cutAt (Nat.le_add_right (bodyLength headers) 1) (by omega) (by omega)
    obtain ⟨-, -, -, -, -, -, handled⟩ := same _ _ (received_cutAt _ stream) (received_cutAt _ stream)
    have goes' : ∀ more, route (parseRequestLine (headers ++ BREAK ++ more)).1
        (parseRequestLine (headers ++ BREAK ++ more)).2 = .save h := by
      intro more
      rw [parseRequestLine_headers]
      exact goes
    have ran := ran_held (d := heldDevice) rfl exact (goes' _) id ⟨.noPartition, fun _ => 0⟩
    have ran' := ran_held (d := heldDevice) rfl one (goes' _) id ⟨.noPartition, fun _ => 0⟩
    rw [handled, ran', first.bodyOf_take no] at ran
    have same : bodyOf (headers ++ BREAK ++ rest.take (bodyLength headers + 1)) =
        rest.take (bodyLength headers) :=
      (Prod.mk.inj (Option.some.inj ran)).2
    have lengths : (rest.take (bodyLength headers)).length = bodyLength headers ∧
        (rest.take (bodyLength headers + 1)).length = bodyLength headers + 1 := by
      rw [List.length_take, List.length_take]
      omega
    by_cases brk : BREAK <:+: rest.take (bodyLength headers + 1)
    · -- a break that ends with the byte after the body starts in the body
      obtain ⟨s, t, eq⟩ := brk
      obtain ⟨pre, post, again, -⟩ := FirstSplit.exists eq.symm
      rw [bodyOf, split_second_cut (by decide) (first.cut_take _) again, Option.getD_some] at same
      have four : BREAK.length = 4 := rfl
      have total := congrArg List.length again.eq
      rw [same] at total
      simp only [List.length_append] at total
      omega
    · rw [first.bodyOf_take brk] at same
      rw [same] at lengths
      omega
  · rintro cases reads reads' all all'
    obtain ⟨j, ge, fits, done⟩ := first.receive_eq all
    obtain ⟨j', ge', fits', done'⟩ := first.receive_eq all'
    refine ⟨_, _, done, done', ?_, ?_, fun sha256 io d => ?_⟩
    · rw [parseRequestLine_headers, parseRequestLine_headers]
    · rw [basicAuthToken_headers, basicAuthToken_headers]
    · rw [handleRequest, handleRequest, done, done']
      apply respond_congr
      · rw [parseRequestLine_headers, parseRequestLine_headers]
      · rw [basicAuthToken_headers, basicAuthToken_headers]
      · intro saves
        rw [parseRequestLine_headers] at saves
        rcases cases with whole | full | brk | other
        · rw [List.take_of_length_le (by omega), List.take_of_length_le (by omega)]
        · have same : j = j' := by omega
          rw [same]
        · rw [first.bodyOf_break ge brk, first.bodyOf_break ge' brk]
        · exact absurd saves other

/-- The headers of a request that saves a network. -/
def formHeaders : List UInt8 := ascii "POST /api/wifi HTTP/1.1\r\nContent-Length: 22"

/-- Its form. -/
def form : List UInt8 := ascii "ssid=home&password=key"

/-- The request on its own, in whatever pieces. -/
theorem segmentation_form : SameSeen (formHeaders ++ BREAK ++ form) := by
  have cut : FirstSplit BREAK (formHeaders ++ BREAK ++ form) formHeaders form :=
    splitOnce_iff.mp (by decide +kernel)
  have first : FirstRequest (formHeaders ++ BREAK ++ form) formHeaders form :=
    ⟨cut, by decide +kernel, by decide +kernel⟩
  exact (segmentation first).mpr (.inl (by decide +kernel))

/-- The next request on the same connection. -/
def next : List UInt8 := ascii "GET / HTTP/1.1\r\n\r\n"

/-- The beginning of the next request is taken for the end of the password, if it is there in time. -/
theorem password_runs_on :
    ¬ ∀ stream headers rest, FirstRequest stream headers rest → SameSeen stream := by
  intro same
  have cut : FirstSplit BREAK (formHeaders ++ BREAK ++ (form ++ next)) formHeaders (form ++ next) :=
    splitOnce_iff.mp (by decide +kernel)
  have first : FirstRequest (formHeaders ++ BREAK ++ (form ++ next)) formHeaders (form ++ next) :=
    ⟨cut, by decide +kernel, by decide +kernel⟩
  obtain ⟨-, -, -, -, -, -, handled⟩ := same _ _ _ first
    (piece (formHeaders ++ BREAK ++ (form ++ next))) (cutAt 69 (formHeaders ++ BREAK ++ (form ++ next)))
    (by decide +kernel) (by decide +kernel)
  -- the body is `form` in two pieces, and has `GET / HTTP/1.1` behind it in one
  have differs : (handleRequest id ⟨.written, fun _ => 0⟩ .new
      (piece (formHeaders ++ BREAK ++ (form ++ next)))).ran ≠
      (handleRequest id ⟨.written, fun _ => 0⟩ .new
        (cutAt 69 (formHeaders ++ BREAK ++ (form ++ next)))).ran := by
    decide +kernel
  rw [handled] at differs
  exact differs rfl

end EspcanBr.Http
