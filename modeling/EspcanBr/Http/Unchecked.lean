import EspcanBr.Base.Utf8
import EspcanBr.Http.Accessors
import EspcanBr.Http.Fields

/-!
# Text that is not checked

Four handlers and four accessors pass bytes to `from_utf8_unchecked`, each of them a slice of an array.
The slices are within their arrays; that they are UTF-8 depends on the client (`unchecked_request`). What
a client sends that is UTF-8, in its form too and as far as the buffers hold it, is stored as such and
stays so over reboots (`unchecked_utf8`). The name of the device is checked, and so is the URL.
-/

namespace EspcanBr.Http
open Base Config

/-- The slice is within its array, and UTF-8. -/
def Sound (slice : Option (List UInt8)) : Prop := ∃ text, slice = some text ∧ validUtf8 text = true

/-- The front of an array of `n` bytes that was filled with some bytes, up to the last of these. -/
def filled (n : ℕ) (bytes : List UInt8) : Option (List UInt8) :=
  ((Buffer.zero n).copyFrom bytes).slice bytes.length

/-- What a handler passes on as text. -/
def Handler.unchecked (h : Handler) (body : List UInt8) : List (Option (List UInt8)) :=
  match h with
  | .wifi =>
    let ssid := field 32 body (ascii "ssid")
    let pass := field 64 body (ascii "password")
    if ssid = [] then [] else [filled 32 ssid, filled 64 pass]
  | .device =>
    let name := field 32 body (ascii "name")
    if name = [] ∨ ¬ name.all isNameChar then [] else [filled 32 name]
  | .autoconnect => []
  | .auth =>
    let user := field 32 body (ascii "user")
    let pass := field 64 body (ascii "pass")
    [filled 32 user, filled 64 pass]

def Route.unchecked (body : List UInt8) : Route → List (Option (List UInt8))
  | .page _ => []
  | .save h => h.unchecked body

/-- What `handle_request` passes on as text once the request is in: the request itself, and what the
handler that it runs passes on. -/
def respondUnchecked (sha256 : List UInt8 → List UInt8) (d : Device) (request : List UInt8) :
    List (Option (List UInt8)) :=
  filled BUFFER request ::
    if authorized sha256 d.gpio0Held d.auth request = some true then
      (route (parseRequestLine request).1 (parseRequestLine request).2).unchecked (bodyOf request)
    else []

/-- What `handle_request` passes on as text. -/
def unchecked (sha256 : List UInt8 → List UInt8) (d : Device) (reads : List Read) :
    List (Option (List UInt8)) :=
  match receive reads with
  | .request request => respondUnchecked sha256 d request
  | _ => []

/-- What the accessors of a configuration return. -/
def texts : (k : Kind) → k.Value → List (Option (List UInt8))
  | .wifi, c => [c.ssidStr, c.passwordStr]
  | .device, c => [c.nameStr]
  | .autoconnect, _ => []
  | .auth, c => [c.userStr]

def SoundTexts (k : Kind) (c : k.Value) : Prop := ∀ slice ∈ texts k c, Sound slice

/-- The value that a form has for a key is UTF-8 as far as the buffer holds it. -/
def FrontUtf8 (size : ℕ) (body : List UInt8) (key : String) : Prop :=
  validUtf8 ((submitted (formPairs body) key).take size) = true

/-- The fields that are not checked are UTF-8. -/
def CleanForm : Handler → List UInt8 → Prop
  | .wifi, body => submitted (formPairs body) "ssid" ≠ [] →
      FrontUtf8 32 body "ssid" ∧ FrontUtf8 64 body "password"
  | .device, _ => True
  | .autoconnect, _ => True
  | .auth, body => FrontUtf8 32 body "user" ∧ FrontUtf8 64 body "pass"

/-- The bytes that are received are UTF-8, and so are the fields of a form among them. -/
structure CleanRequest (sha256 : List UInt8 → List UInt8) (d : Device) (reads : List Read) : Prop where
  request : ∀ request, receive reads = .request request → validUtf8 request = true
  form : ∀ h body, Submits sha256 d reads h body → CleanForm h body

/-- A slice that holds what was written is sound if and only if this is UTF-8. -/
lemma sound_filled {n : ℕ} {bytes : List UInt8} (fits : bytes.length ≤ n) :
    Sound (filled n bytes) ↔ validUtf8 bytes = true := by
  have slice := slice_copyFrom (Buffer.zero n) bytes
  rw [List.take_of_length_le fits, Nat.min_eq_left fits] at slice
  rw [filled, slice]
  constructor
  · rintro ⟨text, eq, utf8⟩
    cases eq
    exact utf8
  · intro utf8
    exact ⟨bytes, rfl, utf8⟩

lemma field_eq (size : ℕ) (body : List UInt8) (key : String) :
    field size body (ascii key) = (submitted (formPairs body) key).take size :=
  field_form (form_pairs body) size key

lemma sound_field (size : ℕ) (body : List UInt8) (key : String) :
    Sound (filled size (field size body (ascii key))) ↔ FrontUtf8 size body key := by
  have fits : (field size body (ascii key)).length ≤ size := by
    rw [field_eq]
    exact List.length_take_le _ _
  rw [sound_filled fits, field_eq]
  exact Iff.rfl

/-- The characters of a name are ASCII. -/
lemma utf8_name {name : List UInt8} (chars : name.all isNameChar = true) : validUtf8 name = true := by
  have all : ∀ b, isNameChar b = true → b < 0x80 := all_bytes (by decide +kernel)
  exact validUtf8_ascii fun b mem => all b (List.all_eq_true.mp chars b mem)

/-- What a handler passes on is sound if and only if its form is clean. -/
lemma unchecked_form (h : Handler) (body : List UInt8) :
    (∀ slice ∈ h.unchecked body, Sound slice) ↔ CleanForm h body := by
  cases h with
  | wifi =>
    have blank : field 32 body (ascii "ssid") = [] ↔ submitted (formPairs body) "ssid" = [] := by
      simp [field_eq]
    simp only [Handler.unchecked, CleanForm, blank]
    split
    · rename_i none
      simp [none]
    · rename_i some
      simp only [List.forall_mem_cons, List.not_mem_nil, false_implies, implies_true, and_true, sound_field]
      exact ⟨fun both _ => both, fun both => both some⟩
  | device =>
    simp only [Handler.unchecked, CleanForm, iff_true]
    split
    · simp
    · rename_i valid
      rw [not_or, not_not] at valid
      rintro slice mem
      rw [List.mem_singleton.mp mem, sound_field, FrontUtf8, ← field_eq]
      exact utf8_name valid.2
  | autoconnect => simp [Handler.unchecked, CleanForm]
  | auth => simp [Handler.unchecked, CleanForm, sound_field]

/-- What a request passes on is sound if and only if it is clean. -/
lemma unchecked_request (sha256 : List UInt8 → List UInt8) (d : Device) (reads : List Read) :
    (∀ slice ∈ unchecked sha256 d reads, Sound slice) ↔ CleanRequest sha256 d reads := by
  rw [unchecked]
  split
  · rename_i request done
    have room : request.length ≤ BUFFER := Reading.receive_room ⟨rfl, Nat.zero_le _⟩ done
    simp only [respondUnchecked, List.forall_mem_cons, sound_filled room]
    constructor
    · rintro ⟨utf8, rest⟩
      refine ⟨fun request' done' => ?_, ?_⟩
      · cases done.symm.trans done'
        exact utf8
      · rintro h body ⟨request', done', allowed, goes, rfl⟩
        cases done.symm.trans done'
        rw [if_pos allowed, goes] at rest
        exact (unchecked_form h _).mp rest
    · intro clean
      refine ⟨clean.request request done, ?_⟩
      split
      · rename_i allowed
        cases goes : route (parseRequestLine request).1 (parseRequestLine request).2 with
        | page r =>
          intro slice mem
          cases mem
        | save h => exact (unchecked_form h _).mpr (clean.form h _ ⟨request, done, allowed, goes, rfl⟩)
      · intro slice mem
        cases mem
  · rename_i other
    refine ⟨fun _ => ⟨fun request done => absurd done (other request), ?_⟩, ?_⟩
    · rintro h body ⟨request, done, -⟩
      exact absurd done (other request)
    · intro _ slice mem
      cases mem

/-- What a write that fails leaves in a slot is no configuration, or one whose texts are UTF-8. -/
def CleanWrite (flash : Flash) (io : FlashIo) : Prop :=
  ∀ start left, io = .failed start left → ∀ k c,
    loadKind k (flash.write start left) = some c → SoundTexts k c

/-- The input is no request, or a clean one with a clean write. -/
def Clean (sha256 : List UInt8 → List UInt8) (p : Power) (e : Input) : Prop :=
  ∀ d io reads, p = .on d → e = .request io reads → CleanRequest sha256 d reads ∧
    ∀ h body, Submits sha256 d reads h body → h.Accepts body → CleanWrite d.flash io.flash

/-- A slice that an accessor takes. -/
lemma sound_slice {n : ℕ} {b : Buffer n} {len : UInt8} {text value : List UInt8}
    (blank : validUtf8 text = true) (slice : b.slice len.toNat = some value)
    (utf8 : validUtf8 value = true) : Sound (if len = 0 then some text else b.slice len.toNat) := by
  split
  · exact ⟨text, rfl, blank⟩
  · exact ⟨value, slice, utf8⟩

/-- A form that is saved is accepted. -/
lemma accepts_of_saved {sha256 : List UInt8 → List UInt8} {h : Handler} {io : Io} {d : Device}
    {body : List UInt8} (saved : ¬ Refused (h.run sha256 io d body).2) : h.Accepts body := by
  by_contra no
  exact saved (run_refused no sha256 io d).1

/-- The user of a login that was set. -/
lemma sound_user (sha256 : List UInt8 → List UInt8) (random : ℕ → UInt32) {user : List UInt8}
    (utf8 : validUtf8 (user.take 32) = true) (pass : List UInt8) :
    Sound (AuthConfig.new.set sha256 random user pass).userStr := by
  rw [AuthConfig.set]
  split
  · exact ⟨[], rfl, rfl⟩
  · refine sound_slice rfl ?_ utf8
    simp only [length_byte (show 32 < 256 by decide)]
    exact slice_copyFrom _ user

/-- The texts that a handler stores are those of the form. -/
lemma saved_texts (sha256 : List UInt8 → List UInt8) {h : Handler} {io : Io} {d : Device}
    {body : List UInt8} (clean : CleanForm h body) (saved : ¬ Refused (h.run sha256 io d body).2) :
    SoundTexts h.kind ((h.run sha256 io d body).1.config h.kind) := by
  have form := form_pairs body
  have accepts := accepts_of_saved saved
  cases h with
  | wifi =>
    have kept := saveWifi_kept form io d saved
    have some : submitted (formPairs body) "ssid" ≠ [] := by
      rw [Handler.Accepts, field_eq] at accepts
      intro none
      rw [none] at accepts
      exact accepts rfl
    obtain ⟨ssid, password⟩ := clean some
    intro slice mem
    rcases List.mem_pair.mp mem with rfl | rfl
    · exact sound_slice rfl kept.ssid.1 ssid
    · exact sound_slice rfl kept.password.1 password
  | device =>
    have kept := saveDevice_kept form io d saved
    intro slice mem
    obtain ⟨-, chars⟩ := accepts
    rw [field_eq] at chars
    rw [List.mem_singleton.mp mem]
    exact ⟨_, kept.1, utf8_name chars⟩
  | autoconnect =>
    intro slice mem
    cases mem
  | auth =>
    have login : (Handler.auth.run sha256 io d body).1.auth = AuthConfig.new.set sha256 io.random
        (field 32 body (ascii "user")) (field 64 body (ascii "pass")) := by
      have colon : 0x3A ∉ field 32 body (ascii "user") := accepts
      simp only [Handler.run, Http.saveAuth, if_neg colon]
    have user : Sound (Handler.auth.run sha256 io d body).1.auth.userStr := by
      rw [login, field_eq]
      refine sound_user sha256 io.random ?_ _
      rw [List.take_take]
      exact clean.1
    intro slice mem
    rw [List.mem_singleton.mp mem]
    exact user

/-- The accessors return sound texts, for what is in flash and for what is in memory. -/
structure TextsOk (p : Power) : Prop where
  flash : ∀ k c, loadKind k p.flash = some c → SoundTexts k c
  memory : ∀ d, p = .on d → ∀ k, SoundTexts k (d.config k)

/-- A device without a stored configuration has sound texts. -/
lemma new_texts (k : Kind) : SoundTexts k (Device.new.config k) := by
  have all : ∀ slice ∈ texts k (Device.new.config k), slice.any validUtf8 = true := by
    cases k with
    | wifi => decide +kernel
    | device => decide +kernel
    | autoconnect => decide +kernel
    | auth => decide +kernel
  intro slice mem
  obtain ⟨text, eq, utf8⟩ := (Option.any_eq_true _ _).mp (all slice mem)
  exact ⟨text, eq, utf8⟩

/-- A handler with a clean form and a clean write keeps the texts sound. -/
lemma run_texts {sha256 : List UInt8 → List UInt8} {h : Handler} {io : Io} {d : Device}
    {body : List UInt8} (ok : TextsOk (.on d)) (form : CleanForm h body)
    (write : h.Accepts body → CleanWrite d.flash io.flash) :
    TextsOk (.on (h.run sha256 io d body).1) := by
  by_cases saved : Refused (h.run sha256 io d body).2
  · rw [(run_ends sha256 h io d body).refused saved]
    exact ok
  · have stored := saved_texts sha256 form saved
    refine ⟨fun k c loaded => ?_, fun d' eq k => ?_⟩
    · rcases run_saves sha256 h io.random body with ⟨outcome, refused, same⟩ | ⟨c', saves⟩
      · have eq := same io.flash d
        rw [eq] at saved
        exact absurd refused saved
      · have saves := saves io.flash d
        by_cases here : h.kind = k ∧ io.flash = .written
        · obtain ⟨rfl, written⟩ := here
          cases (saves.loads written).symm.trans loaded
          exact stored
        · cases what : io.flash with
          | failed start left =>
            rw [Power.flash, saves.left what] at loaded
            exact write (accepts_of_saved saved) start left what k c loaded
          | _ =>
            have same := saves.spared here (by rw [what]; trivial)
            exact ok.flash k c (same.symm.trans loaded)
    · cases eq
      by_cases kind : h.kind = k
      · subst kind
        exact stored
      · rw [run_config kind sha256 io d body]
        exact ok.memory d rfl k

/-- A clean step keeps the texts sound. -/
lemma step_texts {sha256 : List UInt8 → List UInt8} {p p' : Power} {e : Input} {os : List Obs}
    (ok : TextsOk p) (clean : Clean sha256 p e) (st : step sha256 p e = some (p', os)) : TextsOk p' := by
  rcases step_cases st with ⟨readable, rfl, rfl, up⟩ | ⟨d, io, reads, rfl, rfl, rfl, rfl⟩ |
    ⟨d, held, rfl, rfl, rfl, rfl⟩
  · rcases up with rfl | rfl
    · refine ⟨ok.flash, fun d eq k => ?_⟩
      cases eq
      rcases boot_cases p.flash readable k with loaded | blank
      · exact ok.flash k _ loaded
      · rw [blank]
        exact new_texts k
    · exact ⟨ok.flash, fun d eq => by cases eq⟩
  · obtain ⟨request, write⟩ := clean d io reads rfl rfl
    rcases handleRequest_cases sha256 io d reads with ⟨-, same⟩ | ⟨h, body, submits, eq⟩
    · rw [same]
      exact ok
    · rw [eq]
      exact run_texts ok (request.form h body submits) (write h body submits)
  · refine ⟨ok.flash, fun d' eq => ?_⟩
    cases eq
    exact ok.memory d rfl

/-- Text that is not checked. In every run from an empty store in which the requests are clean, every
slice that is passed on as text is within its array and UTF-8: those of the accessors, on what is in
memory and on what is in flash, and those of every clean request. Those of a request are so only if it is
clean; of a field that is UTF-8 itself the front is so if and only if the buffer does not end inside a
character. -/
theorem unchecked_utf8 (sha256 : List UInt8 → List UInt8) :
    (∀ flash, (∀ k, loadKind k flash = none) → ∀ p os, (machine sha256 flash).Run (Clean sha256) p os →
      TextsOk p ∧ ∀ d io reads, p = .on d → Clean sha256 p (.request io reads) →
        ∀ slice ∈ unchecked sha256 d reads, Sound slice) ∧
    (∀ d reads, (∀ slice ∈ unchecked sha256 d reads, Sound slice) ↔ CleanRequest sha256 d reads) ∧
    ∀ size body key, validUtf8 (submitted (formPairs body) key) = true →
      (FrontUtf8 size body key ↔ Boundary (submitted (formPairs body) key) size) := by
  refine ⟨fun flash blank p os run => ⟨?_, ?_⟩, unchecked_request sha256, fun size body key utf8 => ?_⟩
  · refine run.invariant (P := fun p _ => TextsOk p) ?_ ?_
    · refine ⟨fun k c loaded => ?_, fun d eq => by cases eq⟩
      cases (blank k).symm.trans loaded
    · intro p os p' os' e _ ok clean st
      exact step_texts ok clean st
  · intro d io reads on clean
    exact (unchecked_request sha256 d reads).mpr (clean d io reads on rfl).1
  · exact validUtf8_take utf8 size

/-- A client that sends the byte `FF`, in two digits, as the name of a network. -/
def badRequestBytes : List Read :=
  piece (ascii "POST /api/wifi HTTP/1.1\r\nContent-Length: 8\r\n\r\nssid=%ff") ++ [.eof]

/-- The name is stored, and returned as text. -/
theorem no_text_stored :
    ¬ ∀ sha256 flash, (∀ k, loadKind k flash = none) → ∀ p os, (machine sha256 flash).Reach p os →
      TextsOk p ∧ ∀ d reads, p = .on d → ∀ slice ∈ unchecked sha256 d reads, Sound slice := by
  intro sound
  have blank : ∀ k, loadKind k (fun _ => 0xFF) = none := by
    intro k
    cases k with
    | wifi => decide +kernel
    | device => decide +kernel
    | autoconnect => decide +kernel
    | auth => decide +kernel
  obtain ⟨p, os, reach, stored⟩ :=
    (machine id fun _ => 0xFF).run_exec (fun _ _ => True)
      [.reset fun _ => true, .request ⟨.written, fun _ => 0⟩ badRequestBytes]
      (fun p _ => (loadKind .wifi p.flash).map WifiConfig.ssidStr = some (some [0xFF])) (by decide +kernel)
  obtain ⟨c, loaded, ssid⟩ := Option.map_eq_some_iff.mp stored
  have texts := (sound id (fun _ => 0xFF) blank p os reach).1.flash .wifi c loaded
  obtain ⟨text, eq, utf8⟩ := texts c.ssidStr List.mem_cons_self
  cases ssid.symm.trans eq
  cases utf8

end EspcanBr.Http
