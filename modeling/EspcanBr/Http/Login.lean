import EspcanBr.Http.Boot

/-!
# Keeping the login

What requests do to the login of the web interface. The form that sets it clears it where a field is
missing or blank (`Clears`); every other request leaves a login, and so does every run of them
(`login_kept`).
-/

namespace EspcanBr.Http
open Base Config

/-- A field of a form is missing or blank. -/
def Absent (body key : List UInt8) : Prop := findFormValue body key = none ∨ findFormValue body key = some []

/-- The form clears the login: the user or the password is missing or blank, and the user is not one
that is refused. -/
def Clearing (body : List UInt8) : Prop :=
  Absent body (ascii "user") ∨ (Absent body (ascii "pass") ∧ 0x3A ∉ field 32 body (ascii "user"))

/-- The request submits a login form that clears the login. -/
def Clears (sha256 : List UInt8 → List UInt8) (d : Device) (reads : List Read) : Prop :=
  ∃ body, Submits sha256 d reads .auth body ∧ Clearing body

/-- Decoding drops no text altogether. -/
lemma urlDecodeInto_eq_nil {room : ℕ} {text : List UInt8} :
    urlDecodeInto (room + 1) text = [] ↔ text = [] := by
  cases text with
  | nil => exact ⟨fun _ => rfl, fun _ => rfl⟩
  | cons b rest =>
    rw [urlDecodeInto]
    cases percent (b :: rest) with
    | none => simp
    | some v => simp

/-- A field is empty if and only if it is missing or blank. -/
lemma field_eq_nil {size : ℕ} {body key : List UInt8} : field (size + 1) body key = [] ↔ Absent body key := by
  rw [field, Absent]
  cases findFormValue body key with
  | none => simp
  | some v =>
    rw [Option.map_some, Option.getD_some, urlDecodeInto_eq_nil]
    simp

/-- The setter configures a login if and only if the user and the password are not empty. -/
lemma isSet_set {sha256 : List UInt8 → List UInt8} {random : ℕ → UInt32} {c : AuthConfig}
    {user password : List UInt8} :
    (c.set sha256 random user password).isSet = true ↔ user ≠ [] ∧ password ≠ [] := by
  rw [AuthConfig.set]
  split
  · rename_i empty
    simp only [AuthConfig.isSet, UInt8.lt_irrefl, false_and, and_false, decide_false, Bool.false_eq_true,
      false_iff]
    tauto
  · rename_i full
    have pos : 0 < UInt8.ofNat (min user.length 32) := length_pos fun nil => full (.inl nil)
    simp only [AuthConfig.isSet, pos, true_and, ne_eq]
    tauto

/-- What `save_auth` does: it refuses the user, clears the login, or sets a new one. -/
lemma saveAuth_auth (sha256 : List UInt8 → List UInt8) (io : Io) (d : Device) (body : List UInt8) :
    (Http.saveAuth sha256 io d body).1.auth = if 0x3A ∈ field 32 body (ascii "user") then d.auth else
      AuthConfig.new.set sha256 io.random (field 32 body (ascii "user")) (field 64 body (ascii "pass")) := by
  simp only [Http.saveAuth]
  split
  · rfl
  · rfl

/-- The other handlers leave the login in memory alone. -/
lemma run_auth {h : Handler} (ne : h ≠ .auth) (sha256 : List UInt8 → List UInt8) (io : Io) (d : Device)
    (body : List UInt8) : (h.run sha256 io d body).1.auth = d.auth := by
  apply run_config (k := .auth)
  cases h with
  | auth => exact absurd rfl ne
  | wifi => decide
  | device => decide
  | autoconnect => decide

/-- The login is the same one, or a new one with a user and a password. -/
def SameOrNew (sha256 : List UInt8 → List UInt8) (random : ℕ → UInt32) (c c' : AuthConfig) : Prop :=
  c' = c ∨ ∃ user password, user ≠ [] ∧ password ≠ [] ∧ c' = AuthConfig.new.set sha256 random user password

lemma SameOrNew.isSet {sha256 : List UInt8 → List UInt8} {random : ℕ → UInt32} {c c' : AuthConfig}
    (same : SameOrNew sha256 random c c') (set : c.isSet = true) : c'.isSet = true := by
  rcases same with rfl | ⟨user, password, ne, ne', rfl⟩
  · exact set
  · exact isSet_set.mpr ⟨ne, ne'⟩

/-- A login form that is not clearing keeps the login or sets a new one. -/
lemma saveAuth_keeps {body : List UInt8} (kept : ¬ Clearing body) (sha256 : List UInt8 → List UInt8)
    (io : Io) (d : Device) :
    SameOrNew sha256 io.random d.auth (Http.saveAuth sha256 io d body).1.auth := by
  rw [saveAuth_auth]
  split
  · exact .inl rfl
  · rename_i user
    refine .inr ⟨_, _, fun blank => ?_, fun blank => ?_, rfl⟩
    · exact kept (.inl (field_eq_nil.mp blank))
    · exact kept (.inr ⟨field_eq_nil.mp blank, user⟩)

/-- A login form that is clearing leaves no login. -/
lemma saveAuth_clears {body : List UInt8} (clearing : Clearing body) (sha256 : List UInt8 → List UInt8)
    (io : Io) (d : Device) : (Http.saveAuth sha256 io d body).1.auth.isSet = false := by
  have none : 0x3A ∉ field 32 body (ascii "user") := by
    rcases clearing with blank | ⟨-, user⟩
    · rw [field_eq_nil.mpr blank]
      exact List.not_mem_nil
    · exact user
  rw [saveAuth_auth, if_neg none, ← Bool.not_eq_true, isSet_set]
  rintro ⟨user, pass⟩
  rcases clearing with blank | ⟨blank, -⟩
  · exact user (field_eq_nil.mpr blank)
  · exact pass (field_eq_nil.mpr blank)

/-- A request that does not clear the login keeps it or sets a new one. -/
lemma request_keeps {sha256 : List UInt8 → List UInt8} {io : Io} {d : Device} {reads : List Read}
    (kept : ¬ Clears sha256 d reads) :
    SameOrNew sha256 io.random d.auth (handleRequest sha256 io d reads).device.auth := by
  rcases handleRequest_cases sha256 io d reads with ⟨-, same⟩ | ⟨h, body, submits, eq⟩
  · rw [same]
    exact .inl rfl
  · rw [eq]
    by_cases auth : h = .auth
    · subst auth
      apply saveAuth_keeps
      intro clearing
      exact kept ⟨body, submits, clearing⟩
    · exact .inl (run_auth auth sha256 io d body)

/-- The form of a request is determined by it. -/
lemma Submits.unique {sha256 : List UInt8 → List UInt8} {d : Device} {reads : List Read} {h h' : Handler}
    {body body' : List UInt8} (submits : Submits sha256 d reads h body)
    (submits' : Submits sha256 d reads h' body') : h = h' ∧ body = body' := by
  obtain ⟨request, done, -, goes, rfl⟩ := submits
  obtain ⟨request', done', -, goes', rfl⟩ := submits'
  cases done.symm.trans done'
  cases goes.symm.trans goes'
  exact ⟨rfl, rfl⟩

/-- What a request submits is handled. -/
lemma Submits.device {sha256 : List UInt8 → List UInt8} {d : Device} {reads : List Read} {h : Handler}
    {body : List UInt8} (submits : Submits sha256 d reads h body) (io : Io) :
    (handleRequest sha256 io d reads).device = (h.run sha256 io d body).1 := by
  obtain ⟨request, done, allowed, goes, rfl⟩ := submits
  rw [handleRequest, done]
  simp only [respond, allowed, goes]

/-- The flash holds a login. -/
def Stored (flash : Flash) : Prop := ∃ c, loadAuth flash true = some c ∧ c.isSet = true

/-- The input does not clear the login. -/
def Keeps (sha256 : List UInt8 → List UInt8) (p : Power) (e : Input) : Prop :=
  ∀ d io reads, p = .on d → e = .request io reads → ¬ Clears sha256 d reads

/-- The input is not a reset. -/
def Stays (e : Input) : Prop := ∀ readable, e ≠ .reset readable

/-- The flash works for the login: it is readable at a reset, and no write that fails has reached its slot. -/
def FlashWorks (sha256 : List UInt8 → List UInt8) (p : Power) (e : Input) : Prop :=
  (∀ readable, e = .reset readable → readable .auth = true) ∧
  ∀ d io reads h body, p = .on d → e = .request io reads → Submits sha256 d reads h body → h.Accepts body →
    io.flash.Spares .auth

/-- A login form that is not clearing and is written leaves a login in flash. -/
lemma saveAuth_stored {sha256 : List UInt8 → List UInt8} {io : Io} {d : Device} {body : List UInt8}
    (stored : Stored d.flash) (kept : ¬ Clearing body) (written : io.flash = .written) :
    Stored (Http.saveAuth sha256 io d body).1.flash := by
  simp only [Http.saveAuth]
  split
  · exact stored
  · rename_i user
    have full : field 32 body (ascii "user") ≠ [] ∧ field 64 body (ascii "pass") ≠ [] := by
      refine ⟨fun blank => kept (.inl (field_eq_nil.mp blank)), fun blank => ?_⟩
      exact kept (.inr ⟨field_eq_nil.mp blank, user⟩)
    simp only [written]
    exact ⟨_, loadAuth_written ⟨_, _, _, _, _, rfl⟩ _, isSet_set.mpr full⟩

/-- A request that does not clear the login leaves one in flash, if the flash works. -/
lemma request_stored {sha256 : List UInt8 → List UInt8} {io : Io} {d : Device} {reads : List Read}
    (stored : Stored d.flash) (kept : ¬ Clears sha256 d reads)
    (works : ∀ h body, Submits sha256 d reads h body → h.Accepts body → io.flash.Spares .auth) :
    Stored (handleRequest sha256 io d reads).device.flash := by
  rcases handleRequest_cases sha256 io d reads with ⟨-, same⟩ | ⟨h, body, submits, eq⟩
  · rw [same]
    exact stored
  · rw [eq]
    by_cases accepts : h.Accepts body
    · by_cases auth : h.kind = .auth ∧ io.flash = .written
      · obtain ⟨kind, written⟩ := auth
        cases h with
        | auth => exact saveAuth_stored stored (fun clearing => kept ⟨body, submits, clearing⟩) written
        | _ => cases kind
      · have same := run_spared auth (works h body submits accepts) sha256 d body
        obtain ⟨c, loaded, set⟩ := stored
        exact ⟨c, same.trans loaded, set⟩
    · rw [(run_refused accepts sha256 io d).2]
      exact stored

/-- After a reset the login is the one in flash. -/
lemma boot_isSet {flash : Flash} (stored : Stored flash) {readable : Kind → Bool}
    (found : readable .auth = true) : (boot flash readable).auth.isSet = true := by
  obtain ⟨c, loaded, set⟩ := stored
  have auth : (boot flash readable).auth = c := by
    rw [boot, found, loaded]
    rfl
  rw [auth]
  exact set

/-- Where a login is configured in a state that is up. -/
def LoggedIn (p : Power) : Prop := ∀ d, p = .on d → d.auth.isSet = true

/-- A step that does not clear the login keeps one, in memory and in flash. -/
lemma step_login {sha256 : List UInt8 → List UInt8} {p p' : Power} {e : Input} {os : List Obs}
    (set : LoggedIn p) (stored : Stored p.flash) (keeps : Keeps sha256 p e)
    (works : FlashWorks sha256 p e) (st : step sha256 p e = some (p', os)) :
    LoggedIn p' ∧ Stored p'.flash := by
  rcases step_cases st with ⟨readable, rfl, -, up⟩ | ⟨d, io, reads, rfl, rfl, -, rfl⟩ |
    ⟨d, held, rfl, rfl, -, rfl⟩
  · -- the memory is filled from the flash
    have login := boot_isSet stored (works.1 readable rfl)
    rcases up with rfl | rfl
    · refine ⟨fun d eq => ?_, stored⟩
      cases eq
      exact login
    · refine ⟨fun d eq => ?_, stored⟩
      cases eq
  · have kept := keeps d io reads rfl rfl
    refine ⟨fun d' eq => ?_, ?_⟩
    · cases eq
      exact (request_keeps kept).isSet (set d rfl)
    · exact request_stored stored kept fun h body => works.2 d io reads h body rfl rfl
  · refine ⟨fun d' eq => ?_, stored⟩
    cases eq
    exact set d rfl

/-- Without a reset the login in memory does not depend on the flash. -/
lemma step_stays {sha256 : List UInt8 → List UInt8} {d : Device} {p' : Power} {e : Input} {os : List Obs}
    (set : d.auth.isSet = true) (keeps : Keeps sha256 (.on d) e) (stays : Stays e)
    (st : step sha256 (.on d) e = some (p', os)) : ∃ d', p' = .on d' ∧ d'.auth.isSet = true := by
  cases e with
  | reset readable => exact absurd rfl (stays readable)
  | request io reads =>
    cases st
    exact ⟨_, rfl, (request_keeps (keeps d io reads rfl rfl)).isSet set⟩
  | gpio0 held =>
    cases st
    exact ⟨_, rfl, set⟩

/-- The login. A request leaves the same login or sets a new one with a user and a password, unless it
submits a form that clears it; then it leaves none. So every run of requests that do not clear it leaves
a login configured, and while the flash works also every run with resets from a state whose login is
stored. -/
theorem login_kept (sha256 : List UInt8 → List UInt8) :
    (∀ io d reads, d.auth.isSet = true →
      (¬ Clears sha256 d reads →
        SameOrNew sha256 io.random d.auth (handleRequest sha256 io d reads).device.auth) ∧
      (Clears sha256 d reads → (handleRequest sha256 io d reads).device.auth.isSet = false)) ∧
    (∀ d, d.auth.isSet = true → ∀ p os,
      (machine sha256 d.flash).Steps (fun p e => Keeps sha256 p e ∧ Stays e) (.on d) os p →
        ∃ d', p = .on d' ∧ d'.auth.isSet = true) ∧
    ∀ d, d.auth.isSet = true → Stored d.flash → ∀ p os,
      (machine sha256 d.flash).Steps (fun p e => Keeps sha256 p e ∧ FlashWorks sha256 p e) (.on d) os p →
        LoggedIn p ∧ Stored p.flash := by
  refine ⟨fun io d reads set => ⟨request_keeps, ?_⟩, fun d set p os run => ?_, fun d set stored p os run => ?_⟩
  · rintro ⟨body, submits, clearing⟩
    rw [submits.device io]
    exact saveAuth_clears clearing sha256 io d
  · refine run.invariant (P := fun p _ => ∃ d', p = .on d' ∧ d'.auth.isSet = true) ⟨d, rfl, set⟩ ?_
    rintro _ os p' os' e _ ⟨d', rfl, set⟩ ⟨keeps, stays⟩ st
    exact step_stays set keeps stays st
  · refine run.invariant (P := fun p _ => LoggedIn p ∧ Stored p.flash) ⟨?_, stored⟩ ?_
    · intro d' eq
      cases eq
      exact set
    · rintro p os p' os' e _ ⟨set, stored⟩ ⟨keeps, works⟩ st
      exact step_login set stored keeps works st

/-- A device with the login `a:b`. -/
def loginDevice : Device := { Device.new with auth := AuthConfig.new.set id (fun _ => 0) (ascii "a") (ascii "b") }

/-- Its owner sends the login form without the field for the password. -/
def halfForm : List Read :=
  match ascii "POST /api/auth HTTP/1.1\r\nAuthorization: Basic YTpi\r\nContent-Length: 6\r\n\r\nuser=a" with
  | first :: rest => [.data first rest, .eof]
  | [] => [.eof]

/-- A form without a password drops the login. -/
theorem login_dropped :
    ¬ ∀ sha256 io d reads, d.auth.isSet = true →
      (¬ ∃ body, Submits sha256 d reads .auth body ∧ findFormValue body (ascii "user") = some [] ∧
        findFormValue body (ascii "pass") = some []) →
      (handleRequest sha256 io d reads).device.auth.isSet = true := by
  intro keeps
  have dropped : (handleRequest id ⟨.written, fun _ => 0⟩ loginDevice halfForm).device.auth.isSet = false := by
    decide +kernel
  have kept := keeps id ⟨.written, fun _ => 0⟩ loginDevice halfForm (by decide +kernel) ?_
  · rw [dropped] at kept
    cases kept
  · rintro ⟨_, ⟨request, done, -, -, rfl⟩, user, -⟩
    have here : receive halfForm = .request (ascii
        "POST /api/auth HTTP/1.1\r\nAuthorization: Basic YTpi\r\nContent-Length: 6\r\n\r\nuser=a") := by
      decide +kernel
    cases done.symm.trans here
    revert user
    decide +kernel

end EspcanBr.Http
