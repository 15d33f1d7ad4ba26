import EspcanBr.Autoconnect.Task
import EspcanBr.Base.Clock

/-!
# The pace of the auto-connect task

The timers of `autoconnect_task` against a clock, in milliseconds. Between two connections that the task
tries to make at least three seconds pass, whatever the resolver, the network and the server do, and after a
server had another key than the pinned one the next try comes after 90 seconds (`autoconnect_paced`).
-/

namespace EspcanBr.Autoconnect
open Base Machine

/-- The wait before a timer fires. -/
def wait (t : Task) : Event → ℕ
  | .timer =>
    match t.pc with
    | .sleeping secs _ => secs * 1000
    | _ => 0
  | _ => 0

/-- The task with a clock. -/
def paced (C : Crypto) : Machine (Clocked Task) (Timed Event) (ℕ × Obs) := (machine C).timed wait

/-- A connection is tried. -/
def isDial : Obs → Bool
  | .dial _ _ => true
  | _ => false

/-- A round of the loop starts. -/
def isRound : Obs → Bool
  | .attempt => true
  | _ => false

/-- The verifier has returned an error. -/
def rejects : Pc → Bool
  | .opening _ _ .failed => true
  | _ => false

/-- What the pace relies on: after an error of the verifier the TLS library gives the handshake up. -/
def TlsAborts (t : Task) (e : Event) : Prop := rejects t.pc = true → e = .opened false

/-- The task waits for a timer. -/
def sleeps : Pc → Bool
  | .sleeping _ _ => true
  | _ => false

/-- The time until the next connection is tried. -/
def dialDelay (t : Task) : ℕ :=
  match t.pc with
  | .locking | .resolving _ _ => 0
  | .sleeping secs _ => secs * 1000
  | _ => 3000

/-- The time until the next round. -/
def roundDelay (t : Task) : ℕ :=
  match t.pc with
  | .locking => 0
  | .sleeping secs _ => secs * 1000
  | _ => 3000

/-- The time until the next connection is tried, as far as a mismatch of the pin delays it. -/
def mismatchDelay (t : Task) : ℕ :=
  match t.pc with
  | .sleeping secs _ => secs * 1000
  | .opening _ _ .failed | .closing => if t.shared.status = .pinMismatch then 90000 else 0
  | _ => 0

lemma wait_timer {t : Task} {secs linked} (pc : t.pc = .sleeping secs linked) : wait t .timer = secs * 1000 := by
  rw [wait, pc]

lemma link_pc (t : Task) (url : ParsedUrl) : (∃ left, (t.link url).1.pc = .sending url left) ∨
    (t.link url).1.pc = .serving url := by
  rw [Task.link]
  split
  · exact .inl ⟨_, rfl⟩
  · exact .inr rfl

/-- A link shows no connection and no round. -/
lemma link_shows (t : Task) (url : ParsedUrl) : ∀ o ∈ (t.link url).2, isDial o = false ∧ isRound o = false := by
  intro o mem
  rw [Task.link] at mem
  split at mem
  · cases List.mem_singleton.mp mem
    exact ⟨rfl, rfl⟩
  · cases List.mem_singleton.mp mem
    exact ⟨rfl, rfl⟩

lemma finish_delay (t : Task) : 3000 ≤ dialDelay t.finish ∧ 3000 ≤ roundDelay t.finish := by
  simp only [dialDelay, roundDelay, Task.finish, PIN_MISMATCH_BACKOFF_S]
  constructor
  · split <;> decide
  · split <;> decide

/-- What a step does to the delays, and what it has waited for where it shows something. -/
structure Paced (t : Task) (e : Event) (t' : Task) (os : List Obs) : Prop where
  dialLowers : dialDelay t ≤ wait t e + dialDelay t'
  roundLowers : roundDelay t ≤ wait t e + roundDelay t'
  dial : ∀ o ∈ os, isDial o = true → dialDelay t ≤ wait t e ∧ 3000 ≤ dialDelay t'
  round : ∀ o ∈ os, isRound o = true → roundDelay t ≤ wait t e ∧ 3000 ≤ roundDelay t'
  once : os.Pairwise fun x y => (isDial x = true → isDial y = false) ∧ (isRound x = true → isRound y = false)

/-- A step that shows neither. -/
lemma Paced.quiet {t t' : Task} {e : Event} {os : List Obs} (dial : dialDelay t ≤ wait t e + dialDelay t')
    (round : roundDelay t ≤ wait t e + roundDelay t')
    (none : ∀ o ∈ os, isDial o = false ∧ isRound o = false) : Paced t e t' os := by
  refine ⟨dial, round, fun o mem yes => ?_, fun o mem yes => ?_, ?_⟩
  · rw [(none o mem).1] at yes
    cases yes
  · rw [(none o mem).2] at yes
    cases yes
  · apply List.pairwise_of_forall_mem_list
    intro x _ y mem
    exact ⟨fun _ => (none y mem).1, fun _ => (none y mem).2⟩

lemma step_paced {C : Crypto} {t t' : Task} {e : Event} {os : List Obs} (step : TaskStep C t e t' os) :
    Paced t e t' os := by
  have nothing : ∀ o ∈ ([] : List Obs), isDial o = false ∧ isRound o = false := by
    intro o mem
    cases mem
  have one : ∀ {shown : Obs}, isDial shown = false ∧ isRound shown = false →
      ∀ o ∈ [shown], isDial o = false ∧ isRound o = false := by
    intro shown none o mem
    cases List.mem_singleton.mp mem
    exact none
  -- between a wait without a timer and one where both delays are at least three seconds
  have on : ∀ {t' : Task} {e : Event} {os}, dialDelay t ≤ 3000 → roundDelay t ≤ 3000 → 3000 ≤ dialDelay t' →
      3000 ≤ roundDelay t' → (∀ o ∈ os, isDial o = false ∧ isRound o = false) → Paced t e t' os := by
    intro t' e os dial round dial' round' none
    exact .quiet (by omega) (by omega) none
  -- the waits without a timer
  have busy : ∀ {pc : Pc}, t.pc = pc → sleeps pc = false → dialDelay t ≤ 3000 ∧ roundDelay t ≤ 3000 := by
    intro pc eq awake
    rw [dialDelay, roundDelay, eq]
    cases pc with
    | sleeping => cases awake
    | locking => exact ⟨Nat.zero_le _, Nat.zero_le _⟩
    | resolving => exact ⟨Nat.zero_le _, le_rfl⟩
    | connecting | opening | sending | serving | closing => exact ⟨le_rfl, le_rfl⟩
  have linked : ∀ (t : Task) (url : ParsedUrl), 3000 ≤ dialDelay (t.link url).1 ∧
      3000 ≤ roundDelay (t.link url).1 := by
    intro t url
    rw [dialDelay, roundDelay]
    rcases link_pc t url with ⟨left, pc⟩ | pc
    · rw [pc]
      exact ⟨le_rfl, le_rfl⟩
    · rw [pc]
      exact ⟨le_rfl, le_rfl⟩
  cases step with
  | @locked cfg wifi _ os pc att =>
    have zero : dialDelay t = 0 ∧ roundDelay t = 0 := by
      rw [dialDelay, roundDelay, pc]
      exact ⟨rfl, rfl⟩
    -- a round starts, and the time to the next one is not over
    have round : ∀ {t'}, 3000 ≤ roundDelay t' → ∀ o ∈ Obs.attempt :: os, isRound o = true →
        roundDelay t ≤ wait t (.locked cfg wifi) ∧ 3000 ≤ roundDelay t' := by
      intro t' next o _ _
      exact ⟨zero.2.le.trans (Nat.zero_le _), next⟩
    have rest : ∀ {t'}, os = [] → 3000 ≤ roundDelay t' → Paced t (.locked cfg wifi) t' (.attempt :: os) := by
      rintro t' rfl next
      refine ⟨by omega, by omega, fun o mem dial => ?_, round next, List.pairwise_singleton _ _⟩
      cases List.mem_singleton.mp mem
      cases dial
    cases att with
    | disabled _ => exact rest rfl le_rfl
    | noWifi _ _ => exact rest rfl le_rfl
    | badConfig _ _ _ => exact rest rfl (by decide : 3000 ≤ 30 * 1000)
    | query _ _ _ _ =>
      refine ⟨by omega, by omega, fun o mem dial => ?_, round le_rfl, ?_⟩
      · rcases List.mem_cons.mp mem with rfl | mem
        · cases dial
        · cases List.mem_singleton.mp mem
          cases dial
      · simp [isDial, isRound]
    | dial _ _ _ _ =>
      refine ⟨by omega, by omega, fun o mem dial => ?_, round le_rfl, ?_⟩
      · exact ⟨by omega, le_rfl⟩
      · simp [isDial, isRound]
  | timer pc =>
    refine .quiet ?_ ?_ fun o mem => ?_
    · rw [wait_timer pc, dialDelay, pc]
      exact Nat.le_add_right _ _
    · rw [wait_timer pc, roundDelay, pc]
      exact Nat.le_add_right _ _
    · split at mem
      · exact one ⟨rfl, rfl⟩ o mem
      · cases mem
  | resolved pc =>
    have zero : dialDelay t = 0 := by
      rw [dialDelay, pc]
    obtain ⟨-, round⟩ := busy pc rfl
    refine ⟨by omega, ?_, ?_, ?_, List.pairwise_singleton _ _⟩
    · exact round.trans (Nat.le_add_left _ _)
    · intro o mem _
      exact ⟨by omega, le_rfl⟩
    · intro o mem round
      cases List.mem_singleton.mp mem
      cases round
  | dnsFail pc =>
    obtain ⟨dial, round⟩ := busy pc rfl
    exact on dial round (by decide : 3000 ≤ 5 * 1000) (by decide : 3000 ≤ 5 * 1000) nothing
  | connectedTls pc _ =>
    obtain ⟨dial, round⟩ := busy pc rfl
    exact on dial round le_rfl le_rfl (one ⟨rfl, rfl⟩)
  | @connectedTcp url pin ip t' pc _ eq =>
    obtain ⟨dial, round⟩ := busy pc rfl
    obtain ⟨dial', round'⟩ := linked t' url
    refine on dial round dial' round' fun o mem => ?_
    rcases List.mem_cons.mp mem with rfl | mem
    · exact ⟨rfl, rfl⟩
    · exact link_shows t' url o mem
  | tcpFail pc =>
    obtain ⟨dial, round⟩ := busy pc rfl
    exact on dial round (by decide : 3000 ≤ 5 * 1000) (by decide : 3000 ≤ 5 * 1000) nothing
  | certificate pc =>
    obtain ⟨dial, round⟩ := busy pc rfl
    exact on dial round le_rfl le_rfl (one ⟨rfl, rfl⟩)
  | accepted pc _ =>
    obtain ⟨dial, round⟩ := busy pc rfl
    exact on dial round le_rfl le_rfl (one ⟨rfl, rfl⟩)
  | rejected pc _ eq =>
    obtain ⟨dial, round⟩ := busy pc rfl
    exact on dial round le_rfl le_rfl (one ⟨rfl, rfl⟩)
  | @opened url v handshake pc =>
    obtain ⟨dial, round⟩ := busy pc rfl
    obtain ⟨dial', round'⟩ := linked t url
    exact on dial round dial' round' (link_shows t url)
  | tlsFail pc eq =>
    obtain ⟨dial, round⟩ := busy pc rfl
    exact on dial round le_rfl le_rfl nothing
  | sent pc _ =>
    obtain ⟨dial, round⟩ := busy pc rfl
    exact on dial round le_rfl le_rfl nothing
  | tokenSent pc _ =>
    obtain ⟨dial, round⟩ := busy pc rfl
    exact on dial round le_rfl le_rfl (one ⟨rfl, rfl⟩)
  | servedTls pc _ =>
    obtain ⟨dial, round⟩ := busy pc rfl
    exact on dial round le_rfl le_rfl nothing
  | servedTcp pc _ =>
    obtain ⟨dial, round⟩ := busy pc rfl
    exact on dial round (finish_delay t).1 (finish_delay t).2 nothing
  | closed pc =>
    obtain ⟨dial, round⟩ := busy pc rfl
    exact on dial round (finish_delay t).1 (finish_delay t).2 nothing

/-- Where no mismatch delays the next try. -/
lemma mismatchDelay_zero {t : Task} (awake : sleeps t.pc = false) (open_ : t.pc ≠ .closing)
    (going : rejects t.pc = false) : mismatchDelay t = 0 := by
  rw [mismatchDelay]
  split
  · rename_i pc
    rw [pc] at awake
    cases awake
  · rename_i pc
    rw [pc] at going
    cases going
  · rename_i pc
    exact absurd pc open_
  · rfl

/-- A step keeps the delay of a mismatch, if the handshake is given up. -/
lemma step_mismatch {C : Crypto} {t t' : Task} {e : Event} {os : List Obs} (step : TaskStep C t e t' os)
    (aborts : TlsAborts t e) : mismatchDelay t ≤ wait t e + mismatchDelay t' ∧
      ∀ o ∈ os, isDial o = true → mismatchDelay t ≤ wait t e := by
  have free : ∀ {t' : Task} {e : Event} {os : List Obs}, mismatchDelay t = 0 →
      mismatchDelay t ≤ wait t e + mismatchDelay t' ∧ ∀ o ∈ os, isDial o = true → mismatchDelay t ≤ wait t e := by
    intro t' e os zero
    rw [zero]
    exact ⟨Nat.zero_le _, fun _ _ _ => Nat.zero_le _⟩
  -- the waits at which nothing is owed
  have idle : ∀ {pc : Pc}, t.pc = pc → sleeps pc = false → pc ≠ .closing → rejects pc = false →
      mismatchDelay t = 0 := by
    rintro pc rfl awake open_ going
    exact mismatchDelay_zero awake open_ going
  -- a handshake that goes on
  have going : ∀ {url v handshake}, t.pc = .opening url v handshake → e ≠ .opened false →
      mismatchDelay t = 0 := by
    intro url v handshake pc other
    apply idle pc rfl
    · intro eq
      cases eq
    · cases rejected : rejects (.opening url v handshake) with
      | false => rfl
      | true =>
        rw [← pc] at rejected
        exact absurd (aborts rejected) other
  cases step with
  | locked pc _ => exact free (idle pc rfl (by simp) rfl)
  | @timer secs linked pc =>
    have owed : mismatchDelay t = secs * 1000 := by
      rw [mismatchDelay, pc]
    rw [owed, wait_timer pc]
    exact ⟨Nat.le_add_right _ _, fun _ _ _ => le_rfl⟩
  | resolved pc => exact free (idle pc rfl (by simp) rfl)
  | dnsFail pc => exact free (idle pc rfl (by simp) rfl)
  | connectedTls pc _ => exact free (idle pc rfl (by simp) rfl)
  | connectedTcp pc _ _ => exact free (idle pc rfl (by simp) rfl)
  | tcpFail pc => exact free (idle pc rfl (by simp) rfl)
  | certificate pc => exact free (going pc (by simp))
  | accepted pc _ => exact free (going pc (by simp))
  | rejected pc _ _ => exact free (going pc (by simp))
  | opened pc => exact free (going pc (by simp))
  | @tlsFail url v handshake t' pc eq =>
    refine ⟨?_, fun o mem => ?_⟩
    · by_cases mismatch : t.shared.status = .pinMismatch
      · rw [if_pos mismatch] at eq
        have all : mismatchDelay { t' with pc := .closing } = 90000 := by
          rw [eq]
          exact if_pos mismatch
        rw [all, mismatchDelay, pc]
        split
        · rename_i eq
          cases eq
        · rw [if_pos mismatch]
          exact Nat.le_add_left _ _
        · rename_i eq
          cases eq
        · exact Nat.zero_le _
      · rw [mismatchDelay, pc]
        split
        · rename_i eq
          cases eq
        · rw [if_neg mismatch]
          exact Nat.zero_le _
        · rename_i eq
          cases eq
        · exact Nat.zero_le _
    · cases mem
  | sent pc _ => exact free (idle pc rfl (by simp) rfl)
  | tokenSent pc _ => exact free (idle pc rfl (by simp) rfl)
  | servedTls pc _ => exact free (idle pc rfl (by simp) rfl)
  | servedTcp pc _ => exact free (idle pc rfl (by simp) rfl)
  | closed pc =>
    refine ⟨?_, fun o mem => ?_⟩
    · rw [mismatchDelay, pc]
      simp only
      split
      · rename_i mismatch
        have all : mismatchDelay t.finish = 90 * 1000 := by
          rw [mismatchDelay, Task.finish, if_pos mismatch]
          rfl
        rw [all]
        exact Nat.le_add_left _ _
      · exact Nat.zero_le _
    · cases mem

lemma dial_delays (C : Crypto) :
    Delays (machine C) (fun _ _ => True) wait (isDial · = true) dialDelay where
  lowers := fun _ st => (step_paced (step_sound st)).dialLowers
  shows := fun _ st o mem dial => ((step_paced (step_sound st)).dial o mem dial).1

lemma round_delays (C : Crypto) :
    Delays (machine C) (fun _ _ => True) wait (isRound · = true) roundDelay where
  lowers := fun _ st => (step_paced (step_sound st)).roundLowers
  shows := fun _ st o mem round => ((step_paced (step_sound st)).round o mem round).1

lemma mismatch_delays (C : Crypto) :
    Delays (machine C) TlsAborts wait (isDial · = true) mismatchDelay where
  lowers := fun aborts st => (step_mismatch (step_sound st) aborts).1
  shows := fun aborts st => (step_mismatch (step_sound st) aborts).2

/-- The delay behind a signature that is rejected for the key. -/
lemma rejected_delay {C : Crypto} {t t' : Task} {url v handshake verify os} (pc : t.pc = .opening url v handshake)
    (mismatch : (v.verifySignature C verify).2.1 = true) (step : TaskStep C t (.signature verify) t' os) :
    mismatchDelay t' = 90000 := by
  cases step with
  | accepted pc' ok =>
    rw [pc] at pc'
    cases pc'
    rw [verifySignature_mismatch ok] at mismatch
    cases mismatch
  | rejected pc' _ eq =>
    rw [pc] at pc'
    cases pc'
    rw [if_pos mismatch] at eq
    subst eq
    rfl

/-- The delay behind a configuration that is not usable. -/
lemma unusable_delay {C : Crypto} {t t' : Task} {cfg : AutoConnectConfig} {os} (enabled : cfg.enabled = true)
    (unusable : ∀ url, parseUrl cfg.urlStr = some url → Task.usablePin url = none)
    (step : TaskStep C t (.locked cfg true) t' os) : roundDelay t' = 30000 := by
  have parsed : ∀ {url pin}, parseUrl cfg.urlStr = some url → Task.usablePin url ≠ some pin := by
    intro url pin parsed usable
    rw [unusable url parsed] at usable
    cases usable
  cases step with
  | locked _ att =>
    cases att with
    | disabled no =>
      rw [enabled] at no
      cases no
    | noWifi _ no => cases no
    | badConfig _ _ _ => rfl
    | query _ _ found usable => exact absurd usable (parsed found)
    | dial _ _ found usable => exact absurd usable (parsed found)

/-- The pace. In every run of the task, whatever the resolver, the network, the server and the user do, two
rounds and two tries to connect are at least three seconds apart, so in so many milliseconds there are not
more tries than three seconds in them, and one. Behind a signature that is rejected for the key, the next try
comes after 90 seconds at least, if the TLS library gives the handshake up; and behind a configuration that is
not usable, the next round after 30. -/
theorem autoconnect_paced (C : Crypto) :
    (∀ c tr, (paced C).Reach c tr →
      tr.Pairwise (Apart (isRound · = true) (isRound · = true) 3000) ∧
      tr.Pairwise (Apart (isDial · = true) (isDial · = true) 3000) ∧
      tr.countP (isDial ·.2) * 3000 ≤ c.now + 3000) ∧
    (∀ c url v handshake verify c' os, c.state.pc = .opening url v handshake →
      (v.verifySignature C verify).2.1 = true →
      (paced C).step c (.input (.signature verify)) = some (c', os) →
      ∀ c'' tr, (paced C).Steps (Timely TlsAborts) c' tr c'' → ∀ y ∈ tr, isDial y.2 = true →
        c.now + 90000 ≤ y.1) ∧
    ∀ c cfg c' os, cfg.enabled = true →
      (∀ url, parseUrl cfg.urlStr = some url → Task.usablePin url = none) →
      (paced C).step c (.input (.locked cfg true)) = some (c', os) →
      ∀ c'' tr, (paced C).Steps (fun _ _ => True) c' tr c'' → ∀ y ∈ tr, isRound y.2 = true →
        c.now + 30000 ≤ y.1 := by
  have timely : ∀ {c c' tr}, (paced C).Steps (fun _ _ => True) c tr c' →
      (paced C).Steps (Timely fun _ _ => True) c tr c' :=
    fun run => run.mono fun _ _ _ _ _ => trivial
  refine ⟨fun c tr run => ?_, ?_, ?_⟩
  · have dials : tr.Pairwise (Apart (isDial · = true) (isDial · = true) 3000) := by
      refine (dial_delays C).apart ?_ ?_ (timely run)
      · intro s e t os _ st o mem dial
        exact ((step_paced (step_sound st)).dial o mem dial).2
      · intro s e t os _ st
        refine (step_paced (step_sound st)).once.imp fun once dial => ?_
        rw [once.1 dial]
        exact Bool.false_ne_true
    refine ⟨?_, dials, countP_apart dials (stamp_le run)⟩
    refine (round_delays C).apart ?_ ?_ (timely run)
    · intro s e t os _ st o mem round
      exact ((step_paced (step_sound st)).round o mem round).2
    · intro s e t os _ st
      refine (step_paced (step_sound st)).once.imp fun once round => ?_
      rw [once.2 round]
      exact Bool.false_ne_true
  · intro c url v handshake verify c' os pc mismatch st c'' tr run y mem dial
    rcases timed_cases st with ⟨_, eq, -⟩ | ⟨_, t, shown, eq, -, inner, rfl, rfl⟩
    · cases eq
    · cases eq
      have owed : mismatchDelay t = 90000 := rejected_delay pc mismatch (step_sound inner)
      have later := (mismatch_delays C).later run y mem dial
      simp only [owed] at later
      exact later
  · intro c cfg c' os enabled unusable st c'' tr run y mem round
    rcases timed_cases st with ⟨_, eq, -⟩ | ⟨_, t, shown, eq, -, inner, rfl, rfl⟩
    · cases eq
    · cases eq
      have owed : roundDelay t = 30000 := unusable_delay enabled unusable (step_sound inner)
      have later := (round_delays C).later (timely run) y mem round
      simp only [owed] at later
      exact later

end EspcanBr.Autoconnect
