import EspcanBr.Base.Base64
import EspcanBr.Http.Boot

/-!
# The authentication gate

What a request without accepted credentials gets. `Carries` says which credentials a request carries: a
line of its head is an `Authorization: Basic` header, whose text is base64 of a user and a password.
What `authorized` hands to `verify` is carried so (`Presented.carries`), never taken from the body.
-/

namespace EspcanBr.Http
open Base Config

/-- What stands before the first break of a request, or all of it. -/
def Head (request head : List UInt8) : Prop :=
  (∃ rest, FirstSplit BREAK request head rest) ∨ (¬ BREAK <:+: request ∧ head = request)

/-- The line is an `Authorization: Basic` header with the given text. -/
def BasicLine (line token : List UInt8) : Prop :=
  ∃ key value, FirstSplit (ascii ":") line key value ∧
    eqIgnoreAsciiCase (trim key) (ascii "authorization") = true ∧
    (trim value = ascii "Basic " ++ token ∨ trim value = ascii "basic " ++ token)

/-- The bytes are UTF-8 of the form `user:pass`. -/
def Credentials (creds user pass : List UInt8) : Prop :=
  validUtf8 creds = true ∧ FirstSplit (ascii ":") creds user pass

/-- A line of the head has the credentials. -/
def Carries (request user pass : List UInt8) : Prop :=
  ∃ head line token creds, Head request head ∧ line ∈ lines head ∧ BasicLine line token ∧
    Base64 token creds ∧ Credentials creds user pass

/-- The credentials that `authorized` finds. -/
def Presented (request user pass : List UInt8) : Prop :=
  ∃ token creds, basicAuthToken request = some token ∧ base64Decode 128 token = some creds ∧
    Credentials creds user pass

lemma base64Value_digit {c v : UInt8} (value : base64Value c = some v) :
    v.toNat < 64 ∧ (alphabet)[v.toNat]? = some c := by
  have all : ∀ c, (base64Value c).all (fun v => v.toNat < 64 ∧ (alphabet)[v.toNat]? = some c) :=
    all_bytes (by decide +kernel)
  have here := all c
  rw [value] at here
  simpa using here

/-- The decoder's loop: the bits it wrote, those it holds and those of the digits to come are the bits of
the bytes it returns, up to a rest that fills no byte. -/
lemma base64From_sound {size : ℕ} {acc : UInt32} {bits : UInt8} {out text bytes : List UInt8}
    (few : bits.toNat < 8) (done : base64From size acc bits out text = some bytes) :
    ∃ values rest, Digits text values ∧ rest.length < 8 ∧
      byteBits out ++ bitsOf bits.toNat acc.toNat ++ digitBits values = byteBits bytes ++ rest := by
  -- on the text; fewer than eight bits are held before every character
  induction text generalizing acc bits out with
  | nil =>
    cases done
    refine ⟨[], bitsOf bits.toNat acc.toNat, ⟨[], .nil, .inl rfl⟩, ?_, by simp [digitBits]⟩
    rwa [length_bitsOf]
  | cons c text ih =>
    rw [base64From] at done
    split at done
    · rename_i padding
      cases done
      subst padding
      refine ⟨[], bitsOf bits.toNat acc.toNat, ⟨[], .nil, .inr ⟨text, rfl⟩⟩, ?_, by simp [digitBits]⟩
      rwa [length_bitsOf]
    · split at done
      · cases done
      · rename_i v value
        obtain ⟨lt, digit⟩ := base64Value_digit value
        have pushed := held_push acc few lt
        have more := toNat_add_six few
        dsimp only at done
        split at done
        · rename_i ge
          have moved := held_shift (acc <<< 6 ||| v.toUInt32) ge (by omega)
          have left : (bits + 6 - 8).toNat < 8 := by
            have left := toNat_sub_eight ge
            omega
          split at done
          · cases done
          · obtain ⟨values, rest, digits, short, eq⟩ := ih left done
            refine ⟨v.toNat :: values, rest, digits.cons digit, short, ?_⟩
            -- the bits held and those of the digit are the byte that goes out and the bits left
            rw [digitBits_cons, List.append_assoc, ← List.append_assoc (bitsOf bits.toNat _), ← pushed,
              ← moved, ← eq, byteBits_concat]
            simp only [List.append_assoc]
        · rename_i lt8
          obtain ⟨values, rest, digits, short, eq⟩ := ih (UInt8.lt_iff_toNat_lt.mp (UInt8.not_le.mp lt8)) done
          refine ⟨v.toNat :: values, rest, digits.cons digit, short, ?_⟩
          rw [digitBits_cons, ← eq, pushed]
          simp only [List.append_assoc]

/-- What is decoded is what the base64 text denotes. -/
lemma base64Decode_sound {size : ℕ} {text bytes : List UInt8}
    (done : base64Decode size text = some bytes) : Base64 text bytes := by
  obtain ⟨values, rest, digits, short, eq⟩ := base64From_sound (by decide) done
  exact ⟨values, rest, digits, eq, short⟩

/-- The credentials in a line stand in an `Authorization: Basic` header. -/
lemma authLine_basic {line token : List UInt8} (found : authLine line = some token) :
    BasicLine line token := by
  simp only [authLine, Option.bind_eq_bind, Option.bind_eq_some_iff] at found
  obtain ⟨⟨key, value⟩, cut, found⟩ := found
  simp only at found
  split at found
  · rename_i auth
    split at found
    · rename_i scheme
      cases found
      refine ⟨key, value, splitOnce_iff.mp cut, auth, ?_⟩
      -- both spellings have six letters
      rcases scheme with upper | lower
      · obtain ⟨rest, eq⟩ := List.isPrefixOf_iff_prefix.mp upper
        exact .inl (by rw [← eq, List.drop_left' (by decide)])
      · obtain ⟨rest, eq⟩ := List.isPrefixOf_iff_prefix.mp lower
        exact .inr (by rw [← eq, List.drop_left' (by decide)])
    · cases found
  · cases found

/-- What is found stands in a line of the head. -/
lemma basicAuthToken_head {request token : List UInt8} (found : basicAuthToken request = some token) :
    ∃ head line, Head request head ∧ line ∈ lines head ∧ BasicLine line token := by
  obtain ⟨line, mem, auth⟩ := List.exists_of_findSome?_eq_some found
  by_cases brk : BREAK <:+: request
  · obtain ⟨pre, post, eq⟩ := brk
    obtain ⟨head, rest, cut, -⟩ := FirstSplit.exists eq.symm
    rw [cut.eq] at mem
    exact ⟨head, line, .inl ⟨rest, cut⟩, lines_before head rest mem, authLine_basic auth⟩
  · exact ⟨request, line, .inr ⟨brk, rfl⟩, (List.takeWhile_prefix _).subset mem, authLine_basic auth⟩

/-- What `authorized` finds is carried by the request. -/
lemma Presented.carries {request user pass : List UInt8} (presented : Presented request user pass) :
    Carries request user pass := by
  obtain ⟨token, creds, found, decoded, credentials⟩ := presented
  obtain ⟨head, line, isHead, mem, basic⟩ := basicAuthToken_head found
  exact ⟨head, line, token, creds, isHead, mem, basic, base64Decode_sound decoded, credentials⟩

/-- The web interface is guarded: a login is configured, and the button is not held. -/
def Guarded (d : Device) : Prop := d.auth.isSet = true ∧ d.gpio0Held = false

/-- What `authorized` does under a login: it asks `verify` about the credentials it finds, or rejects. -/
lemma authorized_spec (sha256 : List UInt8 → List UInt8) {d : Device} (guarded : Guarded d)
    (request : List UInt8) :
    (∃ user pass, Presented request user pass ∧
      authorized sha256 d.gpio0Held d.auth request = d.auth.verify sha256 user pass) ∨
    ((∀ user pass, ¬ Presented request user pass) ∧
      authorized sha256 d.gpio0Held d.auth request = some false) := by
  obtain ⟨set, up⟩ := guarded
  rw [authorized, up, set]
  simp only [Bool.false_eq_true, if_false, Bool.true_eq_false]
  split
  · rename_i none
    refine .inr ⟨?_, rfl⟩
    rintro user pass ⟨token, creds, found, decoded, -⟩
    rw [found, Option.bind_some, decoded] at none
    cases none
  · rename_i creds some
    obtain ⟨token, found, decoded⟩ := Option.bind_eq_some_iff.mp some
    -- the credentials found are those of the first such line
    have same : ∀ {user pass}, Presented request user pass → Credentials creds user pass := by
      rintro user pass ⟨token', creds', found', decoded', credentials⟩
      cases found.symm.trans found'
      cases decoded.symm.trans decoded'
      exact credentials
    split
    · rename_i utf8
      split
      · rename_i uncut
        refine .inr ⟨fun user pass presented => ?_, rfl⟩
        cases uncut.symm.trans (splitOnce_iff.mpr (same presented).2)
      · rename_i user pass cut
        exact .inl ⟨user, pass, ⟨token, creds, found, decoded, utf8, splitOnce_iff.mp cut⟩, rfl⟩
    · rename_i other
      exact .inr ⟨fun user pass presented => other (same presented).1, rfl⟩

/-- `verify` panics where the stored length does not fit the buffer. -/
lemma verify_eq_none (sha256 : List UInt8 → List UInt8) {c : AuthConfig} (set : c.isSet = true)
    (user pass : List UInt8) : c.verify sha256 user pass = none ↔ 32 < c.userLen := by
  have bound : (32 : UInt8).toNat = 32 := rfl
  rw [AuthConfig.verify, set, if_neg (by decide), Option.map_eq_none_iff, Buffer.slice,
    UInt8.lt_iff_toNat_lt, bound, ← Nat.not_le]
  split
  · rename_i le
    constructor
    · intro no
      cases no
    · intro no
      exact absurd le no
  · rename_i no
    exact ⟨fun _ => no, fun _ => rfl⟩

/-- No credentials that the request carries are accepted. -/
def Unauthenticated (sha256 : List UInt8 → List UInt8) (c : AuthConfig) (request : List UInt8) : Prop :=
  ∀ user pass, Carries request user pass → c.verify sha256 user pass ≠ some true

/-- The connection gets the fixed 401, and the device is as it was. -/
def Rejected (d : Device) (handled : Handled) : Prop :=
  handled.outcome = some (.response unauthorized) ∧ handled.device = d

/-- An unauthenticated request is rejected, unless `verify` panics. -/
lemma respond_unauthenticated {sha256 : List UInt8 → List UInt8} {d : Device} (guarded : Guarded d)
    {request : List UInt8} (un : Unauthenticated sha256 d.auth request) (io : Io) :
    (respond sha256 io d request = ⟨d, none, some (.response unauthorized)⟩ ∧
      (d.auth.userLen ≤ 32 ∨ ∀ user pass, ¬ Presented request user pass)) ∨
    (respond sha256 io d request = ⟨d, none, none⟩ ∧
      ¬ (d.auth.userLen ≤ 32 ∨ ∀ user pass, ¬ Presented request user pass)) := by
  rcases authorized_spec sha256 guarded request with ⟨user, pass, presented, eq⟩ | ⟨no, eq⟩
  · have refused := un user pass presented.carries
    have panics := verify_eq_none sha256 guarded.1 user pass
    cases verdict : d.auth.verify sha256 user pass with
    | none =>
      right
      rw [respond, eq, verdict]
      refine ⟨rfl, ?_⟩
      rintro (fits | no)
      · exact absurd fits (UInt8.not_le.mpr (panics.mp verdict))
      · exact no user pass presented
    | some accepted =>
      cases accepted with
      | true => exact absurd verdict refused
      | false =>
        left
        rw [respond, eq, verdict]
        refine ⟨rfl, .inl ?_⟩
        rw [← UInt8.not_lt]
        intro long
        rw [panics.mpr long] at verdict
        cases verdict
  · left
    rw [respond, eq]
    exact ⟨rfl, .inr no⟩

/-- Unauthenticated requests. In any two states of the device with the same login, whatever else they
hold, a request that carries no accepted credentials gets the fixed 401 and changes nothing if and only
if the stored user fits its buffer, or no credentials are found to compare with it. In every case it
changes nothing, runs no handler and gets the same answer in both states, whether it came in whole or
not. -/
theorem unauthenticated_rejected (sha256 : List UInt8 → List UInt8) :
    (∀ io io' d d' reads request, Guarded d → Guarded d' → d.auth = d'.auth →
      receive reads = .request request → Unauthenticated sha256 d.auth request →
      ((Rejected d (handleRequest sha256 io d reads) ∧ Rejected d' (handleRequest sha256 io' d' reads)) ↔
        (d.auth.userLen ≤ 32 ∨ ∀ user pass, ¬ Presented request user pass))) ∧
    ∀ io io' d d' reads, Guarded d → Guarded d' → d.auth = d'.auth →
      (∀ request, receive reads = .request request → Unauthenticated sha256 d.auth request) →
      ∃ outcome, handleRequest sha256 io d reads = ⟨d, none, outcome⟩ ∧
        handleRequest sha256 io' d' reads = ⟨d', none, outcome⟩ := by
  have both : ∀ io io' d d' reads request, Guarded d → Guarded d' → d.auth = d'.auth →
      receive reads = .request request → Unauthenticated sha256 d.auth request →
      ∃ outcome, handleRequest sha256 io d reads = ⟨d, none, outcome⟩ ∧
        handleRequest sha256 io' d' reads = ⟨d', none, outcome⟩ ∧
        (outcome = some (.response unauthorized) ↔
          (d.auth.userLen ≤ 32 ∨ ∀ user pass, ¬ Presented request user pass)) := by
    intro io io' d d' reads request guarded guarded' same done un
    have un' : Unauthenticated sha256 d'.auth request := by
      rw [← same]
      exact un
    -- which case it is depends on the login and the request, not on the rest of the state
    rcases respond_unauthenticated guarded un io with ⟨eq, ok⟩ | ⟨eq, panics⟩
    · rcases respond_unauthenticated guarded' un' io' with ⟨eq', -⟩ | ⟨-, panics'⟩
      · refine ⟨some (.response unauthorized), ?_, ?_, fun _ => ok, fun _ => rfl⟩
        · rw [handleRequest, done]
          exact eq
        · rw [handleRequest, done]
          exact eq'
      · rw [← same] at panics'
        exact absurd ok panics'
    · rcases respond_unauthenticated guarded' un' io' with ⟨-, ok'⟩ | ⟨eq', -⟩
      · rw [← same] at ok'
        exact absurd ok' panics
      · refine ⟨none, ?_, ?_, fun no => ?_, fun ok => absurd ok panics⟩
        · rw [handleRequest, done]
          exact eq
        · rw [handleRequest, done]
          exact eq'
        · cases no
  constructor
  · intro io io' d d' reads request guarded guarded' same done un
    obtain ⟨outcome, eq, eq', exact⟩ := both io io' d d' reads request guarded guarded' same done un
    rw [eq, eq', ← exact]
    exact ⟨fun rejected => rejected.1.1, fun fixed => ⟨⟨fixed, rfl⟩, ⟨fixed, rfl⟩⟩⟩
  · intro io io' d d' reads guarded guarded' same un
    cases done : receive reads with
    | request request =>
      obtain ⟨outcome, eq, eq', -⟩ := both io io' d d' reads request guarded guarded' same done (un request done)
      exact ⟨outcome, eq, eq'⟩
    | closed => exact ⟨none, by rw [handleRequest, done], by rw [handleRequest, done]⟩
    | failed => exact ⟨none, by rw [handleRequest, done], by rw [handleRequest, done]⟩
    | waiting => exact ⟨none, by rw [handleRequest, done], by rw [handleRequest, done]⟩

/-- A login with a user that is said to be longer than its buffer. -/
def longLogin : AuthConfig := { AuthConfig.new.set id (fun _ => 0) (ascii "a") (ascii "b") with userLen := 33 }

/-- A device that found it in its flash. -/
def longDevice : Device := boot (Flash.write (fun _ => 0xFF) AUTH_CONFIG_OFFSET longLogin.asBytes) fun _ => true

/-- A request with a user and a password. -/
def userRequest : List Read :=
  match ascii "GET / HTTP/1.1\r\nAuthorization: Basic YTpi\r\n\r\n" with
  | first :: rest => [.data first rest]
  | [] => [.eof]

/-- Under a login whose length does not fit, a request with credentials is not answered. -/
theorem unanswered :
    ¬ ∀ sha256 io io' d d' reads request, Guarded d → Guarded d' → d.auth = d'.auth →
      receive reads = .request request → Unauthenticated sha256 d.auth request →
      Rejected d (handleRequest sha256 io d reads) ∧ Rejected d' (handleRequest sha256 io' d' reads) := by
  intro rejected
  have loaded : longDevice.auth = longLogin := by decide +kernel
  have guarded : Guarded longDevice := by
    rw [Guarded, loaded]
    exact ⟨by decide, rfl⟩
  obtain ⟨request, done⟩ : ∃ request, receive userRequest = .request request :=
    ⟨ascii "GET / HTTP/1.1\r\nAuthorization: Basic YTpi\r\n\r\n", by decide +kernel⟩
  have un : Unauthenticated id longDevice.auth request := by
    intro user pass _ accepted
    have long : longDevice.auth.verify id user pass = none := by
      rw [verify_eq_none id guarded.1, loaded]
      decide
    rw [long] at accepted
    cases accepted
  have none : (handleRequest id ⟨.written, fun _ => 0⟩ longDevice userRequest).outcome = none := by
    decide +kernel
  obtain ⟨⟨answer, -⟩, -⟩ := rejected id ⟨.written, fun _ => 0⟩ ⟨.written, fun _ => 0⟩ longDevice longDevice
    userRequest request guarded guarded rfl done un
  rw [none] at answer
  cases answer

end EspcanBr.Http
