import EspcanBr.Autoconnect.Task

/-!
# The published status

`AUTOCONNECT_STATE` at every wait of `autoconnect_task`. Where the task serves no link the status is not
`CONNECTED`, up to the moment when `run_port` returns: from there to the next round that sets a status,
the old one is still shown.
-/

namespace EspcanBr.Autoconnect
open Base

/-- A link is established and served: the task is inside `send_token` or `run_port`. -/
def serving : Pc → Bool
  | .sending _ _ | .serving _ => true
  | _ => false

/-- The status is `CONNECTED` if and only if a link is served. -/
def Live (t : Task) : Prop := t.shared.status = .connected ↔ serving t.pc = true

instance (t : Task) : Decidable (Live t) := inferInstanceAs (Decidable (_ ↔ _))

/-- The event is the end of a link that was served. -/
def ends : Event → Bool
  | .served => true
  | _ => false

lemma Live.idle {t : Task} (status : t.shared.status ≠ .connected) (pc : serving t.pc = false) :
    Live t := by
  constructor
  · intro connected
    exact absurd connected status
  · intro up
    rw [pc] at up
    cases up

lemma Live.status {t : Task} (live : Live t) (pc : serving t.pc = false) :
    t.shared.status ≠ .connected := by
  intro connected
  have up := live.mp connected
  rw [pc] at up
  cases up

/-- The task goes on with a link under the status `CONNECTED`. -/
lemma Live.link (t : Task) (url : ParsedUrl) : Live (t.link url).1 := by
  rw [Task.link]
  split
  · exact ⟨fun _ => rfl, fun _ => rfl⟩
  · exact ⟨fun _ => rfl, fun _ => rfl⟩

/-- The loop sets another status, or keeps the old one. -/
lemma attempt_live {t t' : Task} {cfg wifi os} (att : Attempt t cfg wifi t' os)
    (status : t.shared.status ≠ .connected) : Live t' := by
  cases att with
  | noWifi _ _ => exact .idle status rfl
  | disabled _ => exact .idle (by simp [Task.setState]) rfl
  | badConfig _ _ _ => exact .idle (by simp [Task.setState]) rfl
  | query _ _ _ _ => exact .idle (by simp [Task.setState]) rfl
  | dial _ _ _ _ => exact .idle (by simp [Task.setState]) rfl

/-- A step keeps the status live if and only if it does not end a link. -/
lemma step_live {C : Crypto} {t t' : Task} {e os} (step : TaskStep C t e t' os) (live : Live t) :
    Live t' ↔ ends e = false := by
  have kept : ∀ {e : Event}, ends e = false → Live t' → (Live t' ↔ ends e = false) := by
    intro e other live
    exact ⟨fun _ => other, fun _ => live⟩
  -- a status that is not touched at a wait without a link
  have same : ∀ {pc} {sh : Shared}, t.pc = pc → serving pc = false → sh.status = t.shared.status →
      sh.status ≠ .connected := by
    intro pc sh eq rest status
    rw [status]
    apply live.status
    rw [eq]
    exact rest
  -- nothing sets a status when `run_port` returns
  have ended : ∀ {url : ParsedUrl} {t' : Task}, t.pc = .serving url → serving t'.pc = false →
      t'.shared.status = t.shared.status → (Live t' ↔ ends .served = false) := by
    intro url t' pc rest status
    have connected : t.shared.status = .connected := live.mpr (by rw [pc]; rfl)
    refine ⟨fun live' => ?_, fun other => ?_⟩
    · exact absurd (status.trans connected) (live'.status rest)
    · cases other
  cases step with
  | locked pc att => exact kept rfl (attempt_live att (same pc rfl rfl))
  | timer pc => exact kept rfl (.idle (same pc rfl rfl) rfl)
  | resolved pc => exact kept rfl (.idle (same pc rfl rfl) rfl)
  | dnsFail _ => exact kept rfl (.idle (by simp [Task.setState]) rfl)
  | connectedTls pc _ => exact kept rfl (.idle (same pc rfl rfl) rfl)
  | connectedTcp _ _ _ => exact kept rfl (.link _ _)
  | tcpFail _ => exact kept rfl (.idle (by simp [Task.setState]) rfl)
  | certificate pc => exact kept rfl (.idle (same pc rfl rfl) rfl)
  | accepted pc _ => exact kept rfl (.idle (same pc rfl rfl) rfl)
  | rejected pc _ eq =>
    refine kept rfl (.idle ?_ rfl)
    subst eq
    simp only
    split
    · simp [Task.setState]
    · exact same pc rfl rfl
  | opened _ => exact kept rfl (.link _ _)
  | tlsFail pc eq =>
    refine kept rfl (.idle ?_ rfl)
    subst eq
    simp only
    split
    · exact same pc rfl rfl
    · simp [Task.setState]
  | sent pc _ =>
    refine kept rfl ⟨fun _ => rfl, fun _ => ?_⟩
    apply live.mpr
    rw [pc]
    rfl
  | tokenSent pc _ =>
    refine kept rfl ⟨fun _ => rfl, fun _ => ?_⟩
    apply live.mpr
    rw [pc]
    rfl
  | closed pc => exact kept rfl (.idle (same pc rfl rfl) rfl)
  | servedTls pc _ => exact ended pc rfl rfl
  | servedTcp pc _ => exact ended pc rfl rfl

/-- Until a link ends the status is live: in every run in which `run_port` does not return, it is
`CONNECTED` if and only if a link is served, at every wait. When `run_port` returns it no longer is. -/
theorem status_live (C : Crypto) :
    (∀ t os, (machine C).Run (fun _ e => ends e = false) t os → Live t) ∧
    ∀ t os e t' os', (machine C).Run (fun _ e => ends e = false) t os →
      (machine C).step t e = some (t', os') → (Live t' ↔ ends e = false) := by
  have all : ∀ t os, (machine C).Run (fun _ e => ends e = false) t os → Live t := by
    intro t os run
    refine run.invariant (P := fun t _ => Live t) ?_ ?_
    · exact .idle (by simp [machine]) rfl
    · intro v os v' os' e _ live other st
      exact (step_live (step_sound st) live).mpr other
  refine ⟨all, fun t os e t' os' run st => ?_⟩
  exact step_live (step_sound st) (all t os run)

/-- A configuration of a link without TLS. -/
def tcpConfig : AutoConnectConfig := AutoConnectConfig.new.set true (ascii "tcp://10.0.0.1:2000/")

/-- A link that ended is shown as connected, also while the Wi-Fi is down. -/
theorem ended_link_shown : ¬ ∀ C t os, (machine C).Reach t os → Live t := by
  intro live
  obtain ⟨t, os, reach, stale⟩ :=
    (machine sampleCrypto).run_exec (fun _ _ => True)
      [.locked tcpConfig true, .connected true, .served, .timer, .locked tcpConfig false]
      (fun t _ => ¬ Live t) (by decide +kernel)
  exact stale (live _ _ _ reach)

end EspcanBr.Autoconnect
