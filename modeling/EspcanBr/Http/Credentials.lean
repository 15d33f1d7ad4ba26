import EspcanBr.Http.Fields
import EspcanBr.Http.Gate

/-!
# Logging in

The way of a login: the form that sets it, the setter with its salt and hash, and later requests that
present credentials in base64. Whatever the encodings, a login is accepted afterwards if and only if it is
the one that was set (`login_round_trip`).
-/

namespace EspcanBr.Http
open Base Config

/-- The decoder knows the digits, and takes none for padding. -/
lemma base64Value_of_digit {v : ℕ} (lt : v < 64) :
    digit v ≠ 0x3D ∧ base64Value (digit v) = some (UInt8.ofNat v) := by
  have all : ∀ v < 64, digit v ≠ 0x3D ∧ base64Value (digit v) = some (UInt8.ofNat v) := by decide +kernel
  exact all v lt

/-- The decoder does not fail on digits, with or without padding behind them, that fit its buffer. -/
lemma base64From_isSome {size : ℕ} {acc : UInt32} {bits : UInt8} {out tail : List UInt8} {values : List ℕ}
    (valid : ∀ v ∈ values, v < 64) (ends : Ends64 tail) (few : bits.toNat < 8)
    (room : 8 * out.length + bits.toNat + 6 * values.length < 8 * (size + 1)) :
    (base64From size acc bits out (values.map digit ++ tail)).isSome = true := by
  -- on the digits; fewer than eight bits are held before each
  induction values generalizing acc bits out with
  | nil =>
    rcases ends with rfl | ⟨more, rfl⟩
    · rfl
    · rw [List.map_nil, List.nil_append, base64From, if_pos rfl]
      rfl
  | cons v values ih =>
    obtain ⟨ne, value⟩ := base64Value_of_digit (valid v List.mem_cons_self)
    have rest : ∀ v ∈ values, v < 64 := fun v mem => valid v (List.mem_cons_of_mem _ mem)
    have more := toNat_add_six few
    rw [List.length_cons] at room
    rw [List.map_cons, List.cons_append, base64From, if_neg ne, value]
    dsimp only
    split
    · rename_i ge
      have left := toNat_sub_eight ge
      rw [if_neg (by omega)]
      apply ih rest
      · omega
      · rw [List.length_append, List.length_singleton]
        omega
    · rename_i lt
      have lt := UInt8.lt_iff_toNat_lt.mp (UInt8.not_le.mp lt)
      simp only [UInt8.reduceToNat] at lt
      apply ih rest
      · omega
      · omega

/-- The decoder reads the standard text, padded or not, of bytes that fit its buffer. -/
lemma base64Decode_encoded {size : ℕ} {bytes text : List UInt8} (encoded : Encoded bytes text)
    (le : bytes.length ≤ size) : base64Decode size text = some bytes := by
  obtain ⟨tail, ends, eq⟩ := encoded.exists_tail
  have digits : 6 * (encodeValues bytes).length < 8 * (bytes.length + 1) := by
    obtain ⟨rest, bits, short⟩ := digitBits_encodeValues bytes
    have lengths := congrArg List.length bits
    simp only [length_digitBits, List.length_append, length_byteBits] at lengths
    omega
  have some : (base64Decode size text).isSome = true := by
    rw [eq]
    apply base64From_isSome (fun v mem => encodeValues_lt mem) ends (by decide)
    simp only [List.length_nil, UInt8.reduceToNat]
    omega
  obtain ⟨decoded, done⟩ := Option.isSome_iff_exists.mp some
  rw [done, (base64Decode_sound done).unique encoded.base64]

/-- The line is an `Authorization` header. -/
def IsAuthorization (line : List UInt8) : Prop :=
  ∃ key value, FirstSplit (ascii ":") line key value ∧
    eqIgnoreAsciiCase (trim key) (ascii "authorization") = true

/-- The `Authorization` line for a token. -/
def authorization (token : List UInt8) : List UInt8 := ascii "Authorization: Basic " ++ token

/-- The headers are lines, of which exactly one is an `Authorization` header, the one for the token. -/
def OneLogin (headers token : List UInt8) : Prop :=
  ∃ before after, headers = (ascii "\r\n").intercalate (before ++ authorization token :: after) ∧
    ∀ line ∈ before ++ after, line ≠ [] ∧ LF ∉ line ∧ ¬ IsAuthorization line

/-- Another line has no credentials. -/
lemma authLine_other {line : List UInt8} (other : ¬ IsAuthorization line) : authLine line = none := by
  simp only [authLine, Option.bind_eq_bind]
  cases cut : splitOnce (ascii ":") line with
  | none => rfl
  | some pair =>
    obtain ⟨key, value⟩ := pair
    rw [Option.bind_some]
    dsimp only
    refine if_neg fun auth => other ⟨key, value, splitOnce_iff.mp cut, auth⟩

/-- The line for a token has the token. -/
lemma authLine_authorization {bytes token : List UInt8} (encoded : Encoded bytes token) (ne : token ≠ []) :
    authLine (authorization token) = some token := by
  have cut : splitOnce (ascii ":") (authorization token) =
      some (ascii "Authorization", ascii " Basic " ++ token) := by
    have front : splitOnce (ascii ":") (ascii "Authorization: Basic ") =
        some (ascii "Authorization", ascii " Basic ") := by decide +kernel
    exact splitOnce_iff.mpr ((splitOnce_iff.mp front).append token)
  have key : eqIgnoreAsciiCase (trim (ascii "Authorization")) (ascii "authorization") = true := by
    decide +kernel
  have value : trim (ascii " Basic " ++ token) = ascii "Basic " ++ token := by
    obtain ⟨front, last, eq⟩ := (List.eq_nil_or_concat' token).resolve_left ne
    have graph := encoded.graph last (by simp [eq])
    have letters : ascii "Basic " = 0x42 :: ascii "asic " := by decide
    have text : 0x42 :: (ascii "asic " ++ token) = (ascii "Basic " ++ front) ++ [last] := by
      simp [eq, letters]
    exact (trim_self (by decide) graph text).2
  have scheme : (ascii "Basic ").isPrefixOf (ascii "Basic " ++ token) = true :=
    List.isPrefixOf_iff_prefix.mpr (List.prefix_append _ _)
  simp only [authLine, cut, Option.bind_eq_bind, Option.bind_some, key, if_true, value, scheme, true_or]
  rw [List.drop_left' (by decide)]

/-- The token is found. -/
lemma basicAuthToken_oneLogin {headers bytes token : List UInt8} (header : OneLogin headers token)
    (encoded : Encoded bytes token) (ne : token ≠ []) (rest : List UInt8) :
    basicAuthToken (headers ++ BREAK ++ rest) = some token := by
  obtain ⟨before, after, eq, others⟩ := header
  have line : authorization token ≠ [] ∧ LF ∉ authorization token := by
    have lf : LF ∉ token := by
      intro mem
      have graph := encoded.graph LF mem
      revert graph
      decide
    refine ⟨by simp [authorization, ascii], fun mem => ?_⟩
    rcases List.mem_append.mp mem with front | back
    · revert front
      decide +kernel
    · exact lf back
  have all : ∀ l ∈ before ++ authorization token :: after, l ≠ [] ∧ LF ∉ l := by
    intro l mem
    rcases List.mem_append.mp mem with early | late
    · exact ⟨(others l (List.mem_append_left _ early)).1, (others l (List.mem_append_left _ early)).2.1⟩
    · rcases List.mem_cons.mp late with rfl | late
      · exact line
      · exact ⟨(others l (List.mem_append_right _ late)).1, (others l (List.mem_append_right _ late)).2.1⟩
  have none : before.findSome? authLine = none :=
    List.findSome?_eq_none_iff.mpr fun l mem => authLine_other (others l (List.mem_append_left _ mem)).2.2
  have whole : (before ++ authorization token :: after).takeWhile (· ≠ []) =
      before ++ authorization token :: after :=
    List.takeWhile_eq_self_iff.mpr fun l mem => decide_eq_true (all l mem).1
  obtain ⟨more, pieces⟩ := lines_break headers rest
  rw [basicAuthToken, BREAK, pieces, takeWhile_stop _ _ (by simp), eq,
    headLines_intercalate (by simp) fun l mem => (all l mem).2, whole, List.findSome?_append, none,
    List.findSome?_cons, authLine_authorization encoded ne]
  rfl

/-- What the loop ends with has the headers, if they fit the buffer. -/
lemma receive_headers {reads : List Read} {request headers rest : List UInt8}
    (done : receive reads = .request request) (cut : FirstSplit BREAK (received reads) headers rest)
    (fits : headers.length + 4 ≤ BUFFER) : ∃ more, request = headers ++ BREAK ++ more := by
  obtain ⟨⟨tail, eq⟩, stops⟩ := receive_stops done
  have front : headers ++ BREAK <+: received reads := ⟨rest, cut.eq.symm⟩
  have len : (headers ++ BREAK).length = headers.length + 4 := List.length_append
  have long : headers ++ BREAK <+: request := by
    rcases stops with ⟨headers', rest', cut', -⟩ | full | ⟨-, all, -⟩
    · have same := cut'.append tail
      rw [eq] at same
      obtain ⟨rfl, -⟩ := same.unique cut
      exact ⟨rest', cut'.eq.symm⟩
    · exact List.prefix_of_prefix_length_le front ⟨tail, eq⟩ (by omega)
    · rw [all]
      exact front
  obtain ⟨more, eq⟩ := long
  exact ⟨more, eq.symm⟩

/-- A salted hash of 32 bytes is that of the hash function. -/
lemma saltedHash_inj {sha256 : List UInt8 → List UInt8} (length : ∀ m, (sha256 m).length = 32)
    {salt pass pass' : List UInt8} (free : Set.InjOn sha256 {salt ++ pass, salt ++ pass'}) :
    AuthConfig.saltedHash sha256 salt pass' = AuthConfig.saltedHash sha256 salt pass ↔ pass' = pass := by
  have bytes : ∀ p, (AuthConfig.saltedHash sha256 salt p).bytes = sha256 (salt ++ p) := by
    intro p
    have zero : (Buffer.zero 32).bytes.length = 32 := Buffer.length_bytes _
    rw [AuthConfig.saltedHash, Buffer.copyFrom]
    simp only
    rw [List.take_of_length_le (length _).le, List.drop_eq_nil_of_le (by rw [zero, length]), List.append_nil]
  constructor
  · intro same
    have hashes : sha256 (salt ++ pass') = sha256 (salt ++ pass) := by
      rw [← bytes, ← bytes, same]
    exact List.append_cancel_left (free (by simp) (by simp) hashes)
  · rintro rfl
    rfl

/-- A user and a password that the setter takes whole. -/
structure Login (user pass : List UInt8) : Prop where
  user : user ≠ [] ∧ user.length ≤ 32 ∧ 0x3A ∉ user
  pass : pass ≠ [] ∧ pass.length ≤ 64

/-- The login that was set accepts itself and, as far as the hash tells passwords apart, no other. -/
lemma verify_set {sha256 : List UInt8 → List UInt8} (length : ∀ m, (sha256 m).length = 32)
    {user pass : List UInt8} (login : Login user pass) {random : ℕ → UInt32} {c : AuthConfig}
    (set : c = AuthConfig.new.set sha256 random user pass) {user' pass' : List UInt8}
    (free : Set.InjOn sha256 {c.salt.bytes ++ pass, c.salt.bytes ++ pass'}) :
    c.verify sha256 user' pass' = some true ↔ user' = user ∧ pass' = pass := by
  obtain ⟨ne, le, -⟩ := login.user
  have isSet : c.isSet = true := by
    rw [set]
    exact isSet_set.mpr ⟨ne, login.pass.1⟩
  have stored : c.user.slice c.userLen.toNat = some user ∧
      c.passHash = AuthConfig.saltedHash sha256 c.salt.bytes pass := by
    rw [set, AuthConfig.set, if_neg (by simpa using ⟨ne, login.pass.1⟩)]
    refine ⟨?_, rfl⟩
    simp only [length_byte (show 32 < 256 by decide)]
    rw [slice_copyFrom, List.take_of_length_le le]
  rw [AuthConfig.verify, isSet, if_neg (by decide), stored.1, stored.2, Option.map_some, Option.some.injEq,
    Bool.and_eq_true, decide_eq_true_eq, decide_eq_true_eq, saltedHash_inj length free]

/-- The form has an encoding of the value for the key. -/
def FormHas (body : List UInt8) (key : String) (value : List UInt8) : Prop :=
  ∃ pairs text, Form body pairs ∧ formValue pairs (ascii key) = some text ∧ Encodes text value

/-- The field is the value, if that fits. -/
lemma FormHas.field_eq {body : List UInt8} {key : String} {value : List UInt8} {size : ℕ}
    (has : FormHas body key value) (le : value.length ≤ size) : field size body (ascii key) = value := by
  obtain ⟨pairs, text, form, found, encodes⟩ := has
  rw [field_form form, submitted, found, Option.map_some, Option.getD_some, encodes.decode_eq,
    List.take_of_length_le le]

/-- The request submits a login form with the body, and it is saved. -/
def SavesLogin (sha256 : List UInt8 → List UInt8) (io : Io) (d : Device) (reads : List Read)
    (body : List UInt8) : Prop :=
  (handleRequest sha256 io d reads).ran = some (.auth, body) ∧
    ∃ outcome, (handleRequest sha256 io d reads).outcome = some outcome ∧ Succeeded outcome

/-- The input does not set another login, nor fail to read the one in flash. -/
def KeepsLogin (sha256 : List UInt8 → List UInt8) (p : Power) (e : Input) : Prop :=
  (∀ readable, e = .reset readable → readable .auth = true) ∧
  ∀ d io reads, p = .on d → e = .request io reads →
    ¬ Saving sha256 .auth io d reads fun outcome => ¬ Refused outcome

/-- If the input fails to save a configuration, nothing was written to the slot of the login. -/
def SparesLogin (sha256 : List UInt8 → List UInt8) (p : Power) (e : Input) : Prop :=
  ∀ d io reads, p = .on d → e = .request io reads → ∀ j, Saving sha256 j io d reads Failed →
    io.flash.Spares .auth

/-- A login that is saved is held, in flash and in memory. -/
lemma SavesLogin.holds {sha256 : List UInt8 → List UInt8} {io : Io} {d : Device} {reads : List Read}
    {body user pass : List UInt8} (saves : SavesLogin sha256 io d reads body) (login : Login user pass)
    (hasUser : FormHas body "user" user) (hasPass : FormHas body "pass" pass) :
    Holds .auth (AuthConfig.new.set sha256 io.random user pass)
      (.on (handleRequest sha256 io d reads).device) := by
  obtain ⟨ran, outcome, eq, succeeded⟩ := saves
  obtain ⟨c, loaded, same⟩ :=
    saving_in_sync ⟨.auth, body, outcome, ran, rfl, eq, succeeded.not_refused, succeeded.not_failed⟩
  have config : (handleRequest sha256 io d reads).device.auth =
      AuthConfig.new.set sha256 io.random user pass := by
    rcases handleRequest_cases sha256 io d reads with ⟨none, -⟩ | ⟨h', body', -, handled⟩
    · rw [none] at ran
      cases ran
    · rw [handled] at ran
      cases ran
      rw [handled, Handler.run, saveAuth_auth, hasUser.field_eq login.user.2.1,
        hasPass.field_eq login.pass.2, if_neg login.user.2.2]
  have held : c = AuthConfig.new.set sha256 io.random user pass := (same _ rfl).symm.trans config
  subst held
  exact ⟨loaded, same⟩

/-- It is held as long as no other is saved and a failing save spares it. -/
lemma steps_hold {sha256 : List UInt8 → List UInt8} {M : Machine Power Input Obs}
    (sys : M.step = step sha256) {c : AuthConfig} {p p' : Power} {os : List Obs} (start : Holds .auth c p)
    (run : M.Steps (fun p e => KeepsLogin sha256 p e ∧ SparesLogin sha256 p e) p os p') : Holds .auth c p' := by
  refine run.invariant (P := fun p _ => Holds .auth c p) start ?_
  rintro p os p' os' e _ holds ⟨keeps, spares⟩ st
  rw [sys] at st
  rcases step_holds holds keeps.1 st with holds' | ⟨d, io, reads, rfl, rfl, rfl⟩
  · exact holds'
  · exact request_holds holds (keeps.2 d io reads rfl rfl) (spares d io reads rfl rfl)

/-- A request that does not save a login leaves the one in memory. -/
lemma request_login {sha256 : List UInt8 → List UInt8} {io : Io} {d : Device} {reads : List Read}
    (keeps : ¬ Saving sha256 .auth io d reads fun outcome => ¬ Refused outcome) :
    (handleRequest sha256 io d reads).device.auth = d.auth := by
  rcases handleRequest_cases sha256 io d reads with ⟨-, eq⟩ | ⟨h, body, -, eq⟩
  · rw [eq]
  · by_cases refused : Refused (h.run sha256 io d body).2
    · rw [eq, (run_ends sha256 h io d body).refused refused]
    · have other : h ≠ .auth := by
        rintro rfl
        exact keeps ⟨.auth, body, _, congrArg Handled.ran eq, rfl, congrArg Handled.outcome eq, refused⟩
      rw [eq]
      exact run_auth other sha256 io d body

/-- Without a reset it stays in memory, whatever happens to the flash. -/
lemma steps_login {sha256 : List UInt8 → List UInt8} {M : Machine Power Input Obs}
    (sys : M.step = step sha256) {d : Device} {p' : Power} {os : List Obs}
    (run : M.Steps (fun p e => KeepsLogin sha256 p e ∧ Stays e) (.on d) os p') :
    ∃ d', p' = .on d' ∧ d'.auth = d.auth := by
  refine run.invariant (P := fun p _ => ∃ d', p = .on d' ∧ d'.auth = d.auth) ⟨d, rfl, rfl⟩ ?_
  rintro _ os p' os' e _ ⟨d', rfl, same⟩ ⟨keeps, stays⟩ st
  rw [sys] at st
  cases e with
  | reset readable => exact absurd rfl (stays readable)
  | request io reads =>
    cases st
    exact ⟨_, rfl, (request_login (keeps.2 d' io reads rfl rfl)).trans same⟩
  | gpio0 held =>
    cases st
    exact ⟨_, rfl, same⟩

/-- Credentials that `authorized` compares: UTF-8 of a size that it decodes, with a user that ends at
the first colon. -/
structure Comparable (user pass : List UInt8) : Prop where
  utf8 : validUtf8 (user ++ 0x3A :: pass) = true
  short : (user ++ 0x3A :: pass).length ≤ 128
  colon : 0x3A ∉ user

/-- The gate asks about the credentials that a request presents. -/
lemma authorized_oneLogin (sha256 : List UInt8 → List UInt8) {c : AuthConfig} (set : c.isSet = true)
    {headers token user pass : List UInt8} (credentials : Comparable user pass)
    (encoded : Encoded (user ++ 0x3A :: pass) token) (header : OneLogin headers token)
    (rest : List UInt8) :
    authorized sha256 false c (headers ++ BREAK ++ rest) = c.verify sha256 user pass := by
  have decoded := base64Decode_encoded encoded credentials.short
  have ne : token ≠ [] := by
    rintro rfl
    -- no text denotes no bytes
    have none : some [] = some (user ++ 0x3A :: pass) := decoded
    simp at none
  have cut : splitOnce (ascii ":") (user ++ 0x3A :: pass) = some (user, pass) :=
    splitOnce_iff.mpr (.of_not_mem credentials.colon pass)
  rw [authorized, set, basicAuthToken_oneLogin header encoded ne, Option.bind_some, decoded]
  simp only [Bool.false_eq_true, if_false, Bool.true_eq_false, credentials.utf8, if_true, cut]

/-- Logging in. After a login was saved from a form, in whatever encoding, every later request with the
button up and one `Authorization` header for comparable credentials, until another login is saved, is
authorized if and only if these are the user and the password of the form; after a reset this needs that no
save that failed has written to the slot of the login. The hash function is taken to tell the two salted
passwords apart. -/
theorem login_round_trip {sha256 : List UInt8 → List UInt8} (length : ∀ m, (sha256 m).length = 32)
    {user pass : List UInt8} (login : Login user pass) {io : Io} {d : Device} {reads : List Read}
    {body : List UInt8} (hasUser : FormHas body "user" user) (hasPass : FormHas body "pass" pass)
    (saves : SavesLogin sha256 io d reads body) {d' : Device} {os : List Obs}
    (later : (machine sha256 d.flash).Steps (fun p e => KeepsLogin sha256 p e ∧ Stays e)
        (.on (handleRequest sha256 io d reads).device) os (.on d') ∨
      (machine sha256 d.flash).Steps (fun p e => KeepsLogin sha256 p e ∧ SparesLogin sha256 p e)
        (.on (handleRequest sha256 io d reads).device) os (.on d'))
    (up : d'.gpio0Held = false) {reads' : List Read} {request headers rest : List UInt8}
    (done : receive reads' = .request request) (cut : FirstSplit BREAK (received reads') headers rest)
    (fits : headers.length + 4 ≤ BUFFER) {user' pass' token : List UInt8}
    (credentials : Comparable user' pass') (encoded : Encoded (user' ++ 0x3A :: pass') token)
    (header : OneLogin headers token)
    (free : Set.InjOn sha256 {d'.auth.salt.bytes ++ pass, d'.auth.salt.bytes ++ pass'}) :
    authorized sha256 d'.gpio0Held d'.auth request = some true ↔ user' = user ∧ pass' = pass := by
  have saved := saves.holds login hasUser hasPass
  have auth : d'.auth = AuthConfig.new.set sha256 io.random user pass := by
    rcases later with stays | spares
    · obtain ⟨_, eq, same⟩ := steps_login rfl stays
      cases eq
      exact same.trans (saved.2 _ rfl)
    · exact (steps_hold rfl saved spares).2 d' rfl
  have set : d'.auth.isSet = true := by
    rw [auth]
    exact isSet_set.mpr ⟨login.user.1, login.pass.1⟩
  obtain ⟨more, eq⟩ := receive_headers done cut fits
  rw [up, eq, authorized_oneLogin sha256 set credentials encoded header]
  exact verify_set length login auth free

/-- A hash of 32 bytes that is SHA-256 on two passwords behind a salt of zeros. -/
def tableHash (m : List UInt8) : List UInt8 :=
  if m = List.replicate 16 0 ++ ascii "p:w" then
    [0x3b, 0x46, 0x0f, 0x8b, 0xd3, 0xb6, 0x61, 0xf5, 0x78, 0xb1, 0xaf, 0xd0, 0xe6, 0x69, 0xd1, 0xad, 0x80, 0x5c, 0x13, 0x1c, 0xb9, 0x76, 0xe9, 0xbd, 0xd5, 0x77, 0x17, 0x65, 0xc3, 0xcc, 0xab, 0x83]
  else if m = List.replicate 16 0 ++ ascii "x" then
    [0xe3, 0x33, 0x41, 0x63, 0x81, 0xd4, 0x6a, 0x5a, 0x03, 0xdd, 0x56, 0xf2, 0x8c, 0x2b, 0xc5, 0x37, 0x78, 0x7f, 0xb7, 0x07, 0xb7, 0xb8, 0x18, 0x45, 0x0b, 0x9f, 0xe0, 0x22, 0xad, 0x03, 0xa6, 0x83]
  else List.replicate 32 0

/-- A client that sets the login of `me` with the password `p:w`. -/
def setLogin : List Read :=
  piece (ascii "POST /api/auth HTTP/1.1\r\nContent-Length: 18\r\n\r\nuser=m%65&pass=p:w")

/-- A later client with another password. -/
def wrongLogin : List UInt8 := ascii "GET / HTTP/1.1\r\nAuthorization: Basic bWU6eA=="

/-- It is refused. -/
theorem login_round_trip_wrong :
    authorized tableHash false (handleRequest tableHash ⟨.written, fun _ => 0⟩ .new setLogin).device.auth
      (wrongLogin ++ BREAK) ≠ some true := by
  have form : Form (ascii "user=m%65&pass=p:w")
      [(ascii "user", some (ascii "m%65")), (ascii "pass", some (ascii "p:w"))] := by
    refine ⟨by decide, by decide, by decide, fun pair mem value eq => ?_⟩
    simp only [List.mem_cons, List.not_mem_nil, or_false] at mem
    rcases mem with rfl | rfl
    · cases eq
      decide
    · cases eq
      decide
  have user : Encodes (ascii "m%65") (ascii "me") :=
    .byte (by decide) (.escape (show hexVal 0x36 = some 6 by decide) (show hexVal 0x35 = some 5 by decide) .nil)
  have pass : Encodes (ascii "p:w") (ascii "p:w") :=
    .byte (by decide) (.byte (by decide) (.byte (by decide) .nil))
  have saves : SavesLogin tableHash ⟨.written, fun _ => 0⟩ .new setLogin (ascii "user=m%65&pass=p:w") :=
    ⟨by decide +kernel, .response (loginSaved false), by decide +kernel, .inr ⟨false, rfl⟩⟩
  have cut : splitOnce BREAK (received (piece (wrongLogin ++ BREAK))) = some (wrongLogin, []) := by
    decide +kernel
  have header : OneLogin wrongLogin (ascii "bWU6eA==") := by
    refine ⟨[ascii "GET / HTTP/1.1"], [], by decide +kernel, fun line mem => ?_⟩
    cases List.mem_singleton.mp mem
    refine ⟨by decide, by decide, ?_⟩
    rintro ⟨key, value, cut, -⟩
    have none : splitOnce (ascii ":") (ascii "GET / HTTP/1.1") = none := by decide +kernel
    rw [splitOnce_iff.mpr cut] at none
    cases none
  have salt : (handleRequest tableHash ⟨.written, fun _ => 0⟩ .new setLogin).device.auth.salt.bytes =
      List.replicate 16 0 := by
    decide +kernel
  have free : Set.InjOn tableHash {List.replicate 16 0 ++ ascii "p:w", List.replicate 16 0 ++ ascii "x"} := by
    have differ : tableHash (List.replicate 16 0 ++ ascii "p:w") ≠
        tableHash (List.replicate 16 0 ++ ascii "x") := by
      decide +kernel
    rintro m (rfl | rfl) m' (rfl | rfl) eq
    · rfl
    · exact absurd eq differ
    · exact absurd eq.symm differ
    · rfl
  rw [← salt] at free
  have length : ∀ m, (tableHash m).length = 32 := by
    intro m
    rw [tableHash]
    split
    · rfl
    · split
      · rfl
      · rfl
  have credentials : Comparable (ascii "me") (ascii "x") := ⟨by decide, by decide, by decide⟩
  have encoded : Encoded (ascii "me" ++ 0x3A :: ascii "x") (ascii "bWU6eA==") := .inr (by decide +kernel)
  have done : receive (piece (wrongLogin ++ BREAK)) = .request (wrongLogin ++ BREAK) := by decide +kernel
  have up : (handleRequest tableHash ⟨.written, fun _ => 0⟩ .new setLogin).device.gpio0Held = false := by
    decide +kernel
  have login : Login (ascii "me") (ascii "p:w") := ⟨by decide, by decide⟩
  have round := login_round_trip length login ⟨_, _, form, rfl, user⟩ ⟨_, _, form, rfl, pass⟩ saves
    (.inl (.refl _)) up done (splitOnce_iff.mp cut) (by decide) credentials encoded header free
  rw [up] at round
  intro accepted
  have same := round.mp accepted
  revert same
  decide

end EspcanBr.Http
