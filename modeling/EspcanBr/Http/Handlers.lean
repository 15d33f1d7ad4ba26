import EspcanBr.Http.Server
import EspcanBr.Store

/-!
# What the handlers save

A handler refuses its form and leaves the device alone, or builds a configuration from it, writes that to
its slot in flash and sets it in memory, whether the write succeeded or not (`run_saves`). A write that failed
may have left anything anywhere, so a slot loads the same only if it was spared (`run_spared`). A request runs
at most one handler (`handleRequest_cases`).
-/

namespace EspcanBr.Http
open Base Config

/-- The slot a handler saves to. -/
def Handler.kind : Handler → Kind
  | .wifi => .wifi
  | .device => .device
  | .autoconnect => .autoconnect
  | .auth => .auth

/-- The configuration of a kind in memory. -/
def Device.config (d : Device) : (k : Kind) → k.Value
  | .wifi => d.wifi
  | .device => d.device
  | .autoconnect => d.autoconnect
  | .auth => d.auth

/-- The form is refused. -/
def Refused (outcome : Outcome) : Prop :=
  outcome = .response badRequest ∨ outcome = .response badName ∨ outcome = .response badUser

/-- The write failed. -/
def Failed (outcome : Outcome) : Prop := outcome = .response saveFailed

/-- The configuration is saved: the device resets, or tells so. -/
def Succeeded (outcome : Outcome) : Prop :=
  outcome = .reset ∨ ∃ disabled, outcome = .response (loginSaved disabled)

/-- The three do not go together. -/
lemma Refused.not_failed {outcome : Outcome} (refused : Refused outcome) : ¬ Failed outcome := by
  rintro rfl
  revert refused
  simp only [Refused, Outcome.response.injEq]
  decide +kernel

lemma Succeeded.not_failed {outcome : Outcome} (succeeded : Succeeded outcome) : ¬ Failed outcome := by
  rintro rfl
  rcases succeeded with reset | ⟨disabled, saved⟩
  · cases reset
  · revert saved
    cases disabled <;> decide +kernel

lemma Succeeded.not_refused {outcome : Outcome} (succeeded : Succeeded outcome) : ¬ Refused outcome := by
  rcases succeeded with rfl | ⟨disabled, rfl⟩
  · simp [Refused]
  · simp only [Refused, Outcome.response.injEq]
    cases disabled <;> decide +kernel

/-- A save of one configuration: what a handler makes of a device with a configuration that it built. -/
structure Saved (k : Kind) (io : Io) (d d' : Device) (outcome : Outcome) (c : k.Value) : Prop where
  built : Built k c
  config : d'.config k = c
  others : ∀ j, j ≠ k → d'.config j = d.config j
  flash : d'.flash = Call.run d.flash ⟨k, c, built, io.flash⟩
  outcome : if io.flash = .written then Succeeded outcome else Failed outcome

/-- A handler refuses a form and leaves the device alone, or saves the configuration that it builds from
the form. That does not depend on what becomes of the write. -/
lemma run_saves (sha256 : List UInt8 → List UInt8) (h : Handler) (random : ℕ → UInt32) (body : List UInt8) :
    (∃ refused, Refused refused ∧ ∀ flash d, h.run sha256 ⟨flash, random⟩ d body = (d, refused)) ∨
    ∃ c, ∀ flash d, Saved h.kind ⟨flash, random⟩ d (h.run sha256 ⟨flash, random⟩ d body).1
      (h.run sha256 ⟨flash, random⟩ d body).2 c := by
  cases h with
  | wifi =>
    simp only [Handler.run, saveWifi]
    split
    · exact .inl ⟨_, .inl rfl, fun _ _ => rfl⟩
    · rename_i ne
      refine .inr ⟨_, fun flash d => ⟨⟨_, _, _, ne, rfl⟩, rfl, ?_, rfl, ?_⟩⟩
      · intro j ne
        cases j with
        | wifi => exact absurd rfl ne
        | _ => rfl
      · cases flash with
        | written => exact .inl rfl
        | noPartition => exact rfl
        | failed start left => exact rfl
  | device =>
    simp only [Handler.run, Http.saveDevice]
    split
    · exact .inl ⟨_, .inr (.inl rfl), fun _ _ => rfl⟩
    · rename_i valid
      refine .inr ⟨_, fun flash d => ⟨⟨_, _, _, fun none => valid (.inl none), rfl⟩, rfl, ?_, rfl, ?_⟩⟩
      · intro j ne
        cases j with
        | device => exact absurd rfl ne
        | _ => rfl
      · cases flash with
        | written => exact .inl rfl
        | noPartition => exact rfl
        | failed start left => exact rfl
  | autoconnect =>
    refine .inr ⟨_, fun flash d => ⟨⟨_, _, _, rfl⟩, rfl, ?_, rfl, ?_⟩⟩
    · intro j ne
      cases j with
      | autoconnect => exact absurd rfl ne
      | _ => rfl
    · cases flash with
      | written => exact .inl rfl
      | noPartition => exact rfl
      | failed start left => exact rfl
  | auth =>
    simp only [Handler.run, Http.saveAuth]
    split
    · exact .inl ⟨_, .inr (.inr rfl), fun _ _ => rfl⟩
    · refine .inr ⟨_, fun flash d => ⟨⟨_, _, _, _, _, rfl⟩, rfl, ?_, rfl, ?_⟩⟩
      · intro j ne
        cases j with
        | auth => exact absurd rfl ne
        | _ => rfl
      · cases flash with
        | written => exact .inr ⟨_, rfl⟩
        | noPartition => exact rfl
        | failed start left => exact rfl

/-- The form is one that the handler saves. -/
def Handler.Accepts : Handler → List UInt8 → Prop
  | .wifi, body => field 32 body (ascii "ssid") ≠ []
  | .device, body => field 32 body (ascii "name") ≠ [] ∧ (field 32 body (ascii "name")).all isNameChar
  | .autoconnect, _ => True
  | .auth, body => 0x3A ∉ field 32 body (ascii "user")

/-- It refuses any other and leaves the device alone. -/
lemma run_refused {h : Handler} {body : List UInt8} (no : ¬ h.Accepts body) (sha256 : List UInt8 → List UInt8)
    (io : Io) (d : Device) : Refused (h.run sha256 io d body).2 ∧ (h.run sha256 io d body).1 = d := by
  cases h with
  | wifi =>
    have none : field 32 body (ascii "ssid") = [] := not_not.mp no
    simp only [Handler.run, saveWifi, if_pos none]
    exact ⟨.inl rfl, trivial⟩
  | device =>
    have bad : field 32 body (ascii "name") = [] ∨ ¬ (field 32 body (ascii "name")).all isNameChar = true := by
      rw [← not_not (a := field 32 body (ascii "name") = []), ← not_and_or]
      exact no
    simp only [Handler.run, Http.saveDevice, if_pos bad]
    exact ⟨.inr (.inl rfl), trivial⟩
  | autoconnect => exact absurd trivial no
  | auth =>
    have colon : 0x3A ∈ field 32 body (ascii "user") := not_not.mp no
    simp only [Handler.run, Http.saveAuth, if_pos colon]
    exact ⟨.inr (.inr rfl), trivial⟩

/-- A write that succeeds is loaded. -/
lemma Saved.loads {k : Kind} {io : Io} {d d' : Device} {outcome : Outcome} {c : k.Value}
    (saved : Saved k io d d' outcome c) (written : io.flash = .written) :
    loadKind k d'.flash = some (d'.config k) := by
  obtain ⟨built, config, -, flash, -⟩ := saved
  rw [flash, config, written]
  exact loadKind_written built d.flash

lemma Saved.written {k : Kind} {io : Io} {d d' : Device} {outcome : Outcome} {c : k.Value}
    (saved : Saved k io d d' outcome c) (no : ¬ Failed outcome) : io.flash = .written := by
  by_contra other
  have failed := saved.outcome
  rw [if_neg other] at failed
  exact no failed

/-- A write that fails leaves some bytes somewhere. -/
lemma Saved.left {k : Kind} {io : Io} {d d' : Device} {outcome : Outcome} {c : k.Value}
    (saved : Saved k io d d' outcome c) {start : ℕ} {left : List UInt8} (failed : io.flash = .failed start left) :
    d'.flash = d.flash.write start left := by
  obtain ⟨built, -, -, flash, -⟩ := saved
  rw [flash, failed, run_eq]
  rfl

/-- A slot loads the same after a save that does not write to it. -/
lemma Saved.spared {k j : Kind} {io : Io} {d d' : Device} {outcome : Outcome} {c : k.Value}
    (saved : Saved k io d d' outcome c) (other : ¬ (k = j ∧ io.flash = .written)) (spares : io.flash.Spares j) :
    loadKind j d'.flash = loadKind j d.flash := by
  rw [saved.flash]
  exact loadKind_apart other spares d.flash

/-- A handler does not change the configurations of other kinds in memory. -/
lemma run_config {k : Kind} {h : Handler} (ne : h.kind ≠ k) (sha256 : List UInt8 → List UInt8) (io : Io)
    (d : Device) (body : List UInt8) : (h.run sha256 io d body).1.config k = d.config k := by
  rcases run_saves sha256 h io.random body with ⟨outcome, -, same⟩ | ⟨c, saves⟩
  · have eq := same io.flash d
    rw [eq]
  · exact (saves io.flash d).others k ne.symm

/-- Nor what a slot loads that it does not write to. -/
lemma run_spared {k : Kind} {h : Handler} {io : Io} (other : ¬ (h.kind = k ∧ io.flash = .written))
    (spares : io.flash.Spares k) (sha256 : List UInt8 → List UInt8) (d : Device) (body : List UInt8) :
    loadKind k (h.run sha256 io d body).1.flash = loadKind k d.flash := by
  rcases run_saves sha256 h io.random body with ⟨outcome, -, same⟩ | ⟨c, saves⟩
  · have eq := same io.flash d
    rw [eq]
  · exact (saves io.flash d).spared other spares

/-- A request that may proceed goes to a handler, with a body. -/
def Submits (sha256 : List UInt8 → List UInt8) (d : Device) (reads : List Read) (h : Handler)
    (body : List UInt8) : Prop :=
  ∃ request, receive reads = .request request ∧
    authorized sha256 d.gpio0Held d.auth request = some true ∧
    route (parseRequestLine request).1 (parseRequestLine request).2 = .save h ∧
    body = bodyOf request

/-- A request runs the handler it goes to, or leaves the device as it is. -/
lemma handleRequest_cases (sha256 : List UInt8 → List UInt8) (io : Io) (d : Device) (reads : List Read) :
    ((handleRequest sha256 io d reads).ran = none ∧ (handleRequest sha256 io d reads).device = d) ∨
    ∃ h body, Submits sha256 d reads h body ∧ handleRequest sha256 io d reads =
      ⟨(h.run sha256 io d body).1, some (h, body), some (h.run sha256 io d body).2⟩ := by
  rw [handleRequest]
  split
  · rename_i request done
    rcases respond_cases sha256 io d request with same | ⟨h, allowed, goes, eq⟩
    · exact .inl same
    · exact .inr ⟨h, bodyOf request, ⟨request, done, allowed, goes, rfl⟩, eq⟩
  · exact .inl ⟨rfl, rfl⟩

end EspcanBr.Http
