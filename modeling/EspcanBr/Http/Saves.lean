import EspcanBr.Http.Login

/-!
# Saves that fail

A form that is refused changes nothing, but one that could not be written is in force until the next boot.
Memory and flash agree on a configuration from a save that succeeded until one of its kind fails, or one of
another kind that has written to its slot (`saves_in_sync`).
-/

namespace EspcanBr.Http
open Base Config

/-- How a handler ends, with what it leaves. A failed write leaves the configuration in memory that the
form has, as a write that succeeds does. -/
structure Ends (sha256 : List UInt8 → List UInt8) (h : Handler) (io : Io) (d : Device)
    (body : List UInt8) : Prop where
  ends : Refused (h.run sha256 io d body).2 ∨ Failed (h.run sha256 io d body).2 ∨
    Succeeded (h.run sha256 io d body).2
  refused : Refused (h.run sha256 io d body).2 → (h.run sha256 io d body).1 = d
  failed : Failed (h.run sha256 io d body).2 → io.flash ≠ .written ∧
    (h.run sha256 io d body).1.config h.kind =
      (h.run sha256 ⟨.written, io.random⟩ d body).1.config h.kind
  succeeded : Succeeded (h.run sha256 io d body).2 →
    loadKind h.kind (h.run sha256 io d body).1.flash = some ((h.run sha256 io d body).1.config h.kind)
  others : ∀ k, k ≠ h.kind → (h.run sha256 io d body).1.config k = d.config k ∧
    (io.flash.Spares k → loadKind k (h.run sha256 io d body).1.flash = loadKind k d.flash)

lemma run_ends (sha256 : List UInt8 → List UInt8) (h : Handler) (io : Io) (d : Device)
    (body : List UInt8) : Ends sha256 h io d body := by
  have others : ∀ k, k ≠ h.kind → (h.run sha256 io d body).1.config k = d.config k ∧
      (io.flash.Spares k → loadKind k (h.run sha256 io d body).1.flash = loadKind k d.flash) := by
    intro k ne
    refine ⟨run_config ne.symm sha256 io d body, fun spares => ?_⟩
    exact run_spared (fun here => ne here.1.symm) spares sha256 d body
  rcases run_saves sha256 h io.random body with ⟨outcome, refused, same⟩ | ⟨c, saves⟩
  · have eq := same io.flash d
    refine ⟨?_, ?_, ?_, ?_, others⟩
    · rw [eq]
      exact .inl refused
    · rw [eq]
      exact fun _ => rfl
    · rw [eq]
      exact fun failed => absurd failed refused.not_failed
    · rw [eq]
      exact fun succeeded => absurd refused succeeded.not_refused
  · have saved := saves io.flash d
    refine ⟨?_, fun refused => ?_, fun failed => ⟨fun written => ?_, ?_⟩, fun succeeded => ?_, others⟩
    · by_cases failed : Failed (h.run sha256 io d body).2
      · exact .inr (.inl failed)
      · have succeeded := saved.outcome
        rw [if_pos (saved.written failed)] at succeeded
        exact .inr (.inr succeeded)
    · have succeeded := saved.outcome
      rw [if_pos (saved.written refused.not_failed)] at succeeded
      exact absurd refused succeeded.not_refused
    · have succeeded := saved.outcome
      rw [if_pos written] at succeeded
      exact succeeded.not_failed failed
    · exact saved.config.trans (saves .written d).config.symm
    · exact saved.loads (saved.written succeeded.not_failed)

/-- What is neither refused nor failed was written. -/
lemma run_written {sha256 : List UInt8 → List UInt8} {h : Handler} {io : Io} {d : Device} {body : List UInt8}
    (accepted : ¬ Refused (h.run sha256 io d body).2) (no : ¬ Failed (h.run sha256 io d body).2) : io.flash = .written := by
  rcases run_saves sha256 h io.random body with ⟨outcome, refused, same⟩ | ⟨c, saves⟩
  · have eq := same io.flash d
    rw [eq] at accepted
    exact absurd refused accepted
  · exact (saves io.flash d).written no

/-- A request saves a configuration of a kind, and ends so. -/
def Saving (sha256 : List UInt8 → List UInt8) (k : Kind) (io : Io) (d : Device) (reads : List Read)
    (ends : Outcome → Prop) : Prop :=
  ∃ h body outcome, (handleRequest sha256 io d reads).ran = some (h, body) ∧ h.kind = k ∧
    (handleRequest sha256 io d reads).outcome = some outcome ∧ ends outcome

/-- The input does not fail to read a configuration of the kind, nor to save one; and if it fails to save
another, nothing was written to the slot of the kind. -/
def KeepsSaved (sha256 : List UInt8 → List UInt8) (k : Kind) (p : Power) (e : Input) : Prop :=
  (∀ readable, e = .reset readable → readable k = true) ∧
  ∀ d io reads, p = .on d → e = .request io reads → ∀ j, Saving sha256 j io d reads Failed →
    j ≠ k ∧ io.flash.Spares k

/-- The flash has the configuration, and so has the memory of a device that is up. -/
def Holds (k : Kind) (c : k.Value) (p : Power) : Prop :=
  loadKind k p.flash = some c ∧ ∀ d, p = .on d → d.config k = c

/-- The flash has a configuration of the kind, and the memory of a device that is up has the same one. -/
def InSync (k : Kind) (p : Power) : Prop := ∃ c, Holds k c p

lemma boot_config {k : Kind} {flash : Flash} {c : k.Value} (loaded : loadKind k flash = some c)
    {readable : Kind → Bool} (found : readable k = true) : (boot flash readable).config k = c := by
  cases k with
  | wifi =>
    have loaded : load flash true = some c := loaded
    simp [boot, Device.config, found, loaded]
  | device =>
    have loaded : loadDevice flash true = some c := loaded
    simp [boot, Device.config, found, loaded]
  | autoconnect =>
    have loaded : loadAutoconnect flash true = some c := loaded
    simp [boot, Device.config, found, loaded]
  | auth =>
    have loaded : loadAuth flash true = some c := loaded
    simp [boot, Device.config, found, loaded]

/-- A step other than a request keeps a configuration that a reset can read. -/
lemma step_holds {sha256 : List UInt8 → List UInt8} {k : Kind} {c : k.Value} {p p' : Power} {e : Input}
    {os : List Obs} (holds : Holds k c p) (found : ∀ readable, e = .reset readable → readable k = true)
    (st : step sha256 p e = some (p', os)) :
    Holds k c p' ∨ ∃ d io reads, p = .on d ∧ e = .request io reads ∧
      p' = .on (handleRequest sha256 io d reads).device := by
  obtain ⟨loaded, same⟩ := holds
  rcases step_cases st with ⟨readable, rfl, -, up⟩ | ⟨d, io, reads, on, request, -, handled⟩ |
    ⟨d, held, rfl, rfl, -, rfl⟩
  · rcases up with rfl | rfl
    · refine .inl ⟨loaded, fun d eq => ?_⟩
      cases eq
      exact boot_config loaded (found readable rfl)
    · refine .inl ⟨loaded, fun d eq => ?_⟩
      cases eq
  · exact .inr ⟨d, io, reads, on, request, handled⟩
  · refine .inl ⟨loaded, fun d' eq => ?_⟩
    cases eq
    exact same d rfl

/-- A request that does not save a configuration of the kind leaves it alone, where a save that fails has
spared it. -/
lemma request_holds {sha256 : List UInt8 → List UInt8} {k : Kind} {c : k.Value} {io : Io} {d : Device}
    {reads : List Read} (holds : Holds k c (.on d))
    (keeps : ¬ Saving sha256 k io d reads fun outcome => ¬ Refused outcome)
    (spares : ∀ j, Saving sha256 j io d reads Failed → io.flash.Spares k) :
    Holds k c (.on (handleRequest sha256 io d reads).device) := by
  rcases handleRequest_cases sha256 io d reads with ⟨-, eq⟩ | ⟨h, body, -, eq⟩
  · rw [eq]
    exact holds
  · have saving : ∀ {P : Outcome → Prop}, P (h.run sha256 io d body).2 → Saving sha256 h.kind io d reads P := by
      intro P ends
      refine ⟨h, body, _, ?_, rfl, ?_, ends⟩
      · rw [eq]
      · rw [eq]
    rw [eq]
    have ends := run_ends sha256 h io d body
    by_cases refused : Refused (h.run sha256 io d body).2
    · rw [ends.refused refused]
      exact holds
    · by_cases kind : h.kind = k
      · subst kind
        exact absurd (saving refused) keeps
      · obtain ⟨config, flash⟩ := ends.others k (Ne.symm kind)
        have spared : io.flash.Spares k := by
          by_cases failed : Failed (h.run sha256 io d body).2
          · exact spares h.kind (saving failed)
          · rw [run_written refused failed]
            trivial
        refine ⟨(flash spared).trans holds.1, fun d' eq => ?_⟩
        cases eq
        exact config.trans (holds.2 d rfl)

/-- A request that saves is handled. -/
lemma Saving.exists_run {sha256 : List UInt8 → List UInt8} {k : Kind} {io : Io} {d : Device}
    {reads : List Read} {P : Outcome → Prop} (saving : Saving sha256 k io d reads P) :
    ∃ (h : Handler) (body : List UInt8), h.kind = k ∧
      (handleRequest sha256 io d reads).device = (h.run sha256 io d body).1 ∧
      P (h.run sha256 io d body).2 := by
  obtain ⟨h, body, outcome, ran, kind, eq, ends⟩ := saving
  rcases handleRequest_cases sha256 io d reads with ⟨none, -⟩ | ⟨h', body', -, handled⟩
  · rw [none] at ran
    cases ran
  · rw [handled] at ran eq ⊢
    cases ran
    cases eq
    exact ⟨h, body, kind, rfl, ends⟩

/-- A save that does not fail and is not refused brings memory and flash into agreement. -/
lemma saving_in_sync {sha256 : List UInt8 → List UInt8} {k : Kind} {io : Io} {d : Device}
    {reads : List Read} (saved : Saving sha256 k io d reads fun outcome => ¬ Refused outcome ∧ ¬ Failed outcome) :
    InSync k (.on (handleRequest sha256 io d reads).device) := by
  obtain ⟨h, body, rfl, device, accepted, written⟩ := saved.exists_run
  have ends := run_ends sha256 h io d body
  have succeeded := (ends.ends.resolve_left accepted).resolve_left written
  rw [device]
  refine ⟨_, ends.succeeded succeeded, fun d' eq => ?_⟩
  cases eq
  rfl

/-- A request that does not fail to save, or spares the slot, keeps memory and flash in agreement. -/
lemma request_in_sync {sha256 : List UInt8 → List UInt8} {k : Kind} {io : Io} {d : Device}
    {reads : List Read} (sync : InSync k (.on d))
    (keeps : ∀ j, Saving sha256 j io d reads Failed → j ≠ k ∧ io.flash.Spares k) :
    InSync k (.on (handleRequest sha256 io d reads).device) := by
  by_cases saving : Saving sha256 k io d reads fun outcome => ¬ Refused outcome
  · obtain ⟨h, body, outcome, ran, kind, eq, accepted⟩ := saving
    refine saving_in_sync ⟨h, body, outcome, ran, kind, eq, accepted, fun failed => ?_⟩
    exact (keeps k ⟨h, body, outcome, ran, kind, eq, failed⟩).1 rfl
  · obtain ⟨c, holds⟩ := sync
    exact ⟨c, request_holds holds saving fun j failed => (keeps j failed).2⟩

/-- A step that fails neither to save nor to read keeps memory and flash in agreement. -/
lemma step_in_sync {sha256 : List UInt8 → List UInt8} {k : Kind} {p p' : Power} {e : Input}
    {os : List Obs} (sync : InSync k p) (keeps : KeepsSaved sha256 k p e)
    (st : step sha256 p e = some (p', os)) : InSync k p' := by
  obtain ⟨c, holds⟩ := sync
  rcases step_holds holds keeps.1 st with holds' | ⟨d, io, reads, rfl, rfl, rfl⟩
  · exact ⟨c, holds'⟩
  · exact request_in_sync ⟨c, holds⟩ (keeps.2 d io reads rfl rfl)

/-- Saves. A form that is refused changes nothing. A save of a configuration leaves the others alone, those in
flash as far as a write that failed did not reach their slots; if it succeeds, what is in memory is what the
load function returns, and if the write fails, what is in memory is what a write that succeeds would have left
there. So in every run, from a save that succeeds and until one of the same kind fails, or one of another kind
that has written to the slot, the memory has what the load function returns. -/
theorem saves_in_sync (sha256 : List UInt8 → List UInt8) :
    (∀ h io d body, Ends sha256 h io d body) ∧
    ∀ k io d reads, Saving sha256 k io d reads Succeeded → ∀ p os,
      (machine sha256 d.flash).Steps (KeepsSaved sha256 k) (.on (handleRequest sha256 io d reads).device)
        os p → InSync k p := by
  refine ⟨run_ends sha256, fun k io d reads saved p os run => ?_⟩
  obtain ⟨h, body, outcome, ran, kind, eq, succeeded⟩ := saved
  have start := saving_in_sync ⟨h, body, outcome, ran, kind, eq, succeeded.not_refused, succeeded.not_failed⟩
  refine run.invariant (P := fun p _ => InSync k p) start ?_
  intro p os p' os' e _ sync keeps st
  exact step_in_sync sync keeps st

/-- A login that could not be written is asked for, although the client was told that it is not saved. -/
theorem failed_save_kept :
    ¬ ∀ sha256 h io d body, Refused (Handler.run sha256 h io d body).2 ∨ Failed (h.run sha256 io d body).2 →
      ∀ k, (h.run sha256 io d body).1.config k = d.config k := by
  intro atomic
  have failed : Failed (Handler.auth.run id ⟨.noPartition, fun _ => 0⟩ .new (ascii "user=a&pass=b")).2 := by
    rw [Failed]
    decide +kernel
  have kept := atomic id .auth ⟨.noPartition, fun _ => 0⟩ .new (ascii "user=a&pass=b") (.inr failed) .auth
  revert kept
  simp only [Device.config]
  decide +kernel

end EspcanBr.Http
