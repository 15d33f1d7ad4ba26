import EspcanBr.System.Manager

/-!
# Sessions and the controller's mode

What a host was told about its session (`session`) and the mode the shared controller runs in. The mode
is fixed by whichever port opens first; an `O` or `L` that meets a controller in the other mode is
acknowledged all the same. `Agrees` excludes that case, and under it the controller runs in the mode of
every session: `Held` is preserved by the port's own steps, and the steps of the others leave the
controller alone while the port is open.
-/

namespace EspcanBr.System
open Base Slcan Can Transport

variable {ι : Type*} [DecidableEq ι] {SUBS : UInt32} {iface : ι → Iface}

/-- The listen-only flag an `O` or `L` asks for. -/
def opensAs (cmd : UInt8) : Option Bool :=
  if cmd = ch 'L' then some true else if cmd = ch 'O' then some false else none

/-- The session a host was told of, after one more observation of its port. -/
def acknowledge (s : Option Bool) : Obs → Option Bool
  | .connected => none
  | .returned => none
  | .line (cmd :: _) _ => if cmd = ch 'C' then none else s
  | .sent (.reply (cmd :: _) bytes) 0 => if bytes = [CR] then (opensAs cmd).or s else s
  | _ => s

/-- The listen-only flag of the last `O` or `L` answered with CR, unless a `C` or the end of the link
came after it. -/
def session (os : List Obs) : Option Bool := os.foldl acknowledge none

/-- The mode a session stands for. -/
def modeOf (listenOnly : Bool) : TwaiMode := if listenOnly then .listenOnly else .normal

/-- The `O` or `L` that a completed line repeats. -/
def again (p : Port) : Assembled → Option Bool
  | .line cmd _ _ => if p.opened then opensAs cmd else none
  | _ => none

/-- The `O` or `L` an event executes: the first one of a session when the lock is granted, a repeated
one when its line is complete. -/
def opens (p : Port) (e : Event) : Option Bool :=
  match p.pc, e with
  | .lock _ _ (.open listenOnly) _, .granted _ => some listenOnly
  | .select, .read bytes => again p (assemble p.line bytes)
  | .writing _ left rest, .write n =>
    if n = left.length then again p (assemble p.line rest) else none
  | .writing _ _ rest, .fail => again p (assemble p.line rest)
  | _, _ => none

/-- The controller is off or runs in the mode asked for. -/
def Finds (listenOnly : Bool) (can : CanManager) : Prop :=
  ∀ twai ∈ can.twai, twai.mode = modeOf listenOnly

instance (listenOnly : Bool) (can : CanManager) : Decidable (Finds listenOnly can) :=
  inferInstanceAs (Decidable (∀ twai ∈ can.twai, twai.mode = modeOf listenOnly))

/-- An `O` or `L` with this flag is executed only where it finds the controller off or in its mode. -/
def Agrees (listenOnly : Bool) (w : World (Statics SUBS) Port ι) :
    Input ι Event (List EspTwaiFrame) → Prop
  | .task i e => opens (w.task i) e = some listenOnly → Finds listenOnly w.shared.can
  | .env _ => True

instance (listenOnly : Bool) (w : World (Statics SUBS) Port ι) (e) :
    Decidable (Agrees listenOnly w e) :=
  match e with
  | .task i e =>
    inferInstanceAs (Decidable (opens (w.task i) e = some listenOnly → Finds listenOnly w.shared.can))
  | .env _ => inferInstanceAs (Decidable True)

/-- The controller runs in the mode asked for. -/
def Runs (listenOnly : Bool) (can : CanManager) : Prop :=
  ∃ twai, can.twai = some twai ∧ twai.mode = modeOf listenOnly

/-- The port is about to acknowledge an `O` or `L`. -/
def Promised (listenOnly : Bool) (p : Port) : Prop :=
  ∃ cmd args left rest, p.pc = .writing (.reply (cmd :: args) [CR]) left rest ∧
    opensAs cmd = some listenOnly

/-- A session the host was told of, or is about to be told of, has the port open and the controller in
its mode; a port that is about to close has none. -/
structure Held (listenOnly : Bool) (can : CanManager) (p : Port) (s : Option Bool) : Prop where
  hold : s = some listenOnly ∨ Promised listenOnly p → p.opened = true ∧ Runs listenOnly can
  closing : ∀ cmd args rest, p.pc = .lock cmd args .close rest → s = none

lemma Finds.runs {listenOnly : Bool} {can : CanManager} (finds : Finds listenOnly can)
    (on : can.twai.isSome) : Runs listenOnly can := by
  obtain ⟨twai, run⟩ := Option.isSome_iff_exists.mp on
  exact ⟨twai, run, finds twai run⟩

lemma opensAs_some {cmd : UInt8} {listenOnly : Bool} (h : opensAs cmd = some listenOnly) :
    cmd = if listenOnly then ch 'L' else ch 'O' := by
  rw [opensAs] at h
  split at h
  · cases h
    exact ‹_›
  · split at h
    · cases h
      exact ‹_›
    · cases h

variable {listenOnly : Bool}

lemma not_asked {cmd c : UInt8} (asks : opensAs cmd = some listenOnly) (eq : cmd = c)
    (notL : c ≠ ch 'L') (notO : c ≠ ch 'O') : False := by
  have letter := opensAs_some asks
  rw [eq] at letter
  split at letter
  · exact notL letter
  · exact notO letter

/-- The only immediate acknowledgement of an `O` or `L` is that of a repeated one. -/
lemma reopen_of_promised {cmd args opened ts ts' counted reply}
    (disp : Dispatch cmd args opened ts ⟨ts', counted, .reply reply⟩) (cr : reply = [CR])
    (asks : opensAs cmd = some listenOnly) : opened = true := by
  cases disp with
  | version _ => cases cr
  | serial _ => cases cr
  | noop eq =>
    rcases eq with eq | eq | eq
    · exact (not_asked asks eq (by decide) (by decide)).elim
    · exact (not_asked asks eq (by decide) (by decide)).elim
    · exact (not_asked asks eq (by decide) (by decide)).elim
  | timestamp eq _ => exact (not_asked asks eq (by decide) (by decide)).elim
  | reopen _ up => exact up
  | reclose eq _ => exact (not_asked asks eq (by decide) (by decide)).elim
  | garbled _ _ _ => cases cr
  | notOpen _ _ => cases cr
  | refused _ _ => cases cr

/-- The only acknowledgement of an `O` or `L` after a call on the manager is that of an `open`. -/
lemma open_of_promised {cmd args opened ts ts' counted op}
    (disp : Dispatch cmd args opened ts ⟨ts', counted, .lock op⟩)
    (asks : opensAs cmd = some listenOnly) : op = .open listenOnly := by
  cases disp with
  | flags eq => exact (not_asked asks eq (by decide) (by decide)).elim
  | bitrate eq _ => exact (not_asked asks eq (by decide) (by decide)).elim
  | «open» _ _ =>
    rw [opensAs_some asks]
    cases listenOnly with
    | true => rfl
    | false => rfl
  | close eq _ => exact (not_asked asks eq (by decide) (by decide)).elim
  | transmit tx _ _ =>
    rcases tx with eq | eq | eq | eq
    · exact (not_asked asks eq (by decide) (by decide)).elim
    · exact (not_asked asks eq (by decide) (by decide)).elim
    · exact (not_asked asks eq (by decide) (by decide)).elim
    · exact (not_asked asks eq (by decide) (by decide)).elim

lemma session_append (os os' : List Obs) : session (os ++ os') = os'.foldl acknowledge (session os) := by
  rw [session, List.foldl_append, ← session]

/-- What a complete or failed write shows adds no session but the one promised. -/
lemma acknowledge_sent {p : Port} {item left rest s} (pc : p.pc = .writing item left rest)
    (missing : ℕ) (told : acknowledge s (.sent item missing) = some listenOnly) :
    s = some listenOnly ∨ Promised listenOnly p := by
  unfold acknowledge at told
  split at told
  · cases told
  · cases told
  · rename_i eq
    cases eq
  · rename_i cmd args bytes eq
    cases eq
    split at told
    · rename_i cr
      subst cr
      cases asks : opensAs cmd with
      | none =>
        rw [asks] at told
        exact .inl told
      | some lo =>
        rw [asks] at told
        cases told
        exact .inr ⟨cmd, args, left, rest, pc, asks⟩
    · exact .inl told
  · exact .inl told

/-- The bytes loop keeps a session, and repeats one only where the controller agrees. -/
lemma advance_held {st st' : Statics SUBS} {p p' : Port} {bytes os} {s : Option Bool}
    (adv : Advance st p bytes st' p' os)
    (hold : s = some listenOnly → p.opened = true ∧ Runs listenOnly st.can)
    (up : p.opened = true → st.can.twai.isSome)
    (agrees : again p (assemble p.line bytes) = some listenOnly → Finds listenOnly st.can) :
    Held listenOnly st'.can p' (os.foldl acknowledge s) := by
  have keeps := advance_keeps adv
  have line : ∀ cmd args o, acknowledge s (.line (cmd :: args) o) = some listenOnly →
      p.opened = true ∧ Runs listenOnly st.can := by
    intro cmd args o told
    refine hold ?_
    rw [acknowledge] at told
    split at told
    · cases told
    · exact told
  rw [keeps.can]
  cases adv with
  | more _ pc =>
    refine ⟨fun told => ?_, fun cmd args rest eq => ?_⟩
    · rcases told with told | ⟨cmd, args, left, rest, eq, -⟩
      · exact hold told
      · rcases pc with rfl | rfl
        · cases eq
        · cases eq
    · rcases pc with rfl | rfl
      · cases eq
      · cases eq
  | overlong _ =>
    refine ⟨fun told => ?_, nofun⟩
    rcases told with told | ⟨cmd, args, left, rest, eq, -⟩
    · exact hold told
    · cases eq
  | @lock cmd args op rest ts counted _ disp =>
    refine ⟨fun told => ?_, fun cmd' args' rest' eq => ?_⟩
    · rcases told with told | ⟨cmd, args, left, rest, eq, -⟩
      · exact line cmd args p.opened told
      · cases eq
    · cases eq
      cases disp with
      | close c _ => exact if_pos c
  | @reply cmd args reply rest ts counted asm disp =>
    refine ⟨fun told => ?_, nofun⟩
    rcases told with told | ⟨cmd', args', left, rest', eq, asks⟩
    · exact line cmd args p.opened told
    · cases eq
      have opened := reopen_of_promised disp rfl asks
      rw [asm, again, if_pos opened] at agrees
      exact ⟨opened, (agrees asks).runs (up opened)⟩

lemma acknowledge_effects (s : Option Bool) (es : List Effect) :
    (es.map Obs.effect).foldl acknowledge s = s := by
  induction es with
  | nil => rfl
  | cons e es ih => exact ih

/-- A call on the manager keeps a session, and starts one only where the controller agrees. -/
lemma granted_held {cmd args op rest ts ts' counted} {p : Port} {s : Option Bool}
    (disp : Dispatch cmd args p.opened ts ⟨ts', counted, .lock op⟩) (io : TwaiIo) (st : Statics SUBS)
    (pc : p.pc = .lock cmd args op rest) (held : Held listenOnly st.can p s)
    (ok : Started st.can)
    (agrees : op = .open listenOnly → Finds listenOnly st.can) :
    Held listenOnly (op.run cmd io st p.opened).statics.can
      { p with
        opened := (op.run cmd io st p.opened).opened,
        pc := .writing (.reply (cmd :: args) (op.run cmd io st p.opened).reply)
          (op.run cmd io st p.opened).reply rest } s := by
  refine ⟨fun told => ?_, nofun⟩
  have man := run_managed disp rfl io st
  rcases told with told | ⟨cmd', args', left, rest', eq, asks⟩
  · obtain ⟨up, twai, run, mode⟩ := held.hold (.inl told)
    cases disp with
    | flags _ => exact ⟨up, twai, run, mode⟩
    | bitrate _ _ =>
      have on := ok.on.mp (Option.isSome_iff_exists.mpr ⟨twai, run⟩)
      simp only [CanOp.run, CanManager.setBitrate, if_pos on]
      exact ⟨up, twai, run, mode⟩
    | «open» _ down =>
      rw [up] at down
      cases down
    | close _ _ =>
      -- the acknowledgement of `C` ended the session before the lock was granted
      rw [held.closing _ _ _ pc] at told
      cases told
    | @transmit f _ _ _ =>
      simp only [CanOp.run]
      rcases st.transmit_cases io.transmit f with eq | ⟨twai', esp, -, -, eq⟩
      · rw [eq]
        exact ⟨up, twai, run, mode⟩
      · rw [eq]
        exact ⟨up, twai, run, mode⟩
  · have own : cmd' = cmd := by
      injection eq with item
      injection item with line
      injection line with head
      exact head.symm
    subst own
    obtain rfl := open_of_promised disp asks
    refine ⟨rfl, ?_⟩
    simp only [CanOp.run]
    rw [Runs, CanManager.twai_open]
    split
    · exact ⟨_, rfl, rfl⟩
    · exact (agrees rfl).runs (ok.on.mpr ‹_›)

/-- A session is kept where the port turns to nothing but the rest of the same reply. -/
lemma Held.turns {can : CanManager} {p q : Port} {s : Option Bool} (held : Held listenOnly can p s)
    (opened : p.opened = q.opened)
    (writing : ∀ item left rest, q.pc = .writing item left rest →
      ∃ left', p.pc = .writing item left' rest ∨ ∀ line bytes, item ≠ .reply line bytes)
    (lock : ∀ cmd args rest, q.pc ≠ .lock cmd args .close rest) : Held listenOnly can q s := by
  refine ⟨fun told => ?_, fun cmd args rest eq => absurd eq (lock cmd args rest)⟩
  rw [← opened]
  refine held.hold (told.imp_right ?_)
  rintro ⟨cmd, args, left, rest, eq, asks⟩
  obtain ⟨left', eq | ne⟩ := writing _ _ _ eq
  · exact ⟨cmd, args, left', rest, eq, asks⟩
  · exact absurd rfl (ne _ _)

/-- The end of a write, complete or failed, keeps a session, and starts the one promised. -/
lemma resume_held {st st' : Statics SUBS} {p p' : Port} {item left rest os missing} {s : Option Bool}
    (pc : p.pc = .writing item left rest) (res : Resume st p rest item st' p' os)
    (held : Held listenOnly st.can p s) (up : p.opened = true → st.can.twai.isSome)
    (agrees : again p (assemble p.line rest) = some listenOnly → Finds listenOnly st.can) :
    Held listenOnly st'.can p' (os.foldl acknowledge (acknowledge s (.sent item missing))) := by
  have hold : acknowledge s (.sent item missing) = some listenOnly →
      p.opened = true ∧ Runs listenOnly st.can :=
    fun told => held.hold (acknowledge_sent pc missing told)
  cases res with
  | frame =>
    refine ⟨fun told => ?_, by simp⟩
    rcases told with told | ⟨cmd, args, left, rest, eq, -⟩
    · exact hold told
    · cases eq
  | advance _ adv => exact advance_held adv hold up agrees

/-- A step of the port keeps its session, as long as what it executes agrees with the controller. -/
lemma step_held {st st' : Statics SUBS} {p p' : Port} {e os} {s : Option Bool}
    (step : Step st p e st' p' os) (ok : p.Ok) (started : Started st.can)
    (up : p.opened = true → st.can.twai.isSome) (held : Held listenOnly st.can p s)
    (agrees : opens p e = some listenOnly → Finds listenOnly st.can) :
    Held listenOnly st'.can p' (os.foldl acknowledge s) := by
  cases step with
  | connect _ _ =>
    refine ⟨fun told => ?_, by simp⟩
    rcases told with told | ⟨cmd, args, left, rest, eq, -⟩
    · cases told
    · cases eq
  | start linked =>
    -- the flag is down before `run_port`, so there is no session yet
    refine ⟨fun told => ?_, by simp⟩
    rw [Port.Ok, linked] at ok
    rcases told with told | ⟨cmd, args, left, rest, eq, -⟩
    · have open' := (held.hold (.inl told)).1
      rw [ok] at open'
      cases open'
    · cases eq
  | read select adv =>
    simp only [opens, select] at agrees
    exact advance_held adv (fun told => held.hold (.inl told)) up agrees
  | eofOpen _ _ => exact held.turns rfl (by simp) (by simp)
  | eofClosed _ _ =>
    refine ⟨fun told => ?_, by simp⟩
    rcases told with told | ⟨cmd, args, left, rest, eq, -⟩
    · cases told
    · cases eq
  | recvOpen _ _ _ =>
    refine held.turns rfl (fun item left rest eq => ?_) (by simp)
    cases eq
    exact ⟨[], .inr (by simp)⟩
  | recvClosed select _ _ =>
    refine held.turns rfl (fun item left rest eq => ⟨left, .inl eq⟩) (fun cmd args rest eq => ?_)
    rw [select] at eq
    cases eq
  | @granted cmd args op rest io pc =>
    have okPc := ok
    rw [Port.Ok, pc] at okPc
    obtain ⟨ts, ts', counted, disp⟩ := okPc
    rw [acknowledge_effects]
    refine granted_held disp io st pc held started fun eq => ?_
    simp only [opens, pc, eq] at agrees
    exact agrees trivial
  | @write item left rest n pc _ _ =>
    refine held.turns rfl (fun item' left' rest' eq => ?_) (by simp)
    cases eq
    exact ⟨left, .inl pc⟩
  | wrote pc res =>
    simp only [opens, pc, if_true] at agrees
    exact resume_held pc res held up agrees
  | fail pc res =>
    simp only [opens, pc] at agrees
    exact resume_held pc res held up agrees
  | flush _ => exact held.turns rfl (by simp) (by simp)
  | frameFlush _ =>
    rw [Iface.can_countOut]
    exact held.turns rfl (by simp) (by simp)
  | teardown _ =>
    refine ⟨fun told => ?_, by simp⟩
    rcases told with told | ⟨cmd, args, left, rest, eq, -⟩
    · cases told
    · cases eq
  | drop _ => exact held.turns rfl (by simp) (by simp)

/-- A frame is handed over in the mode the controller runs in. -/
lemma step_handed {st st' : Statics SUBS} {p p' : Port} {e os frame mode}
    (step : Step st p e st' p' os) (mem : .effect (.handed frame mode) ∈ os) :
    ∃ twai, st.can.twai = some twai ∧ mode = twai.mode := by
  cases step with
  | read _ adv =>
    obtain none | ⟨_, eq⟩ := mem_loop [] (advance_shows adv) mem
    · cases none
    · cases eq
  | @wrote item left rest st' p' os _ res =>
    obtain none | ⟨_, eq⟩ := mem_loop [.out left, .sent item 0] (resume_shows res) mem
    · simp at none
    · cases eq
  | @fail item left rest st' p' os _ res =>
    obtain none | ⟨_, eq⟩ := mem_loop [.sent item left.length] (resume_shows res) mem
    · simp at none
    · cases eq
  | @granted cmd args op rest io _ =>
    obtain ⟨eff, mem, eq⟩ := List.mem_map.mp mem
    cases eq
    cases op with
    | statusFlags => cases mem
    | setBitrate d =>
      simp only [CanOp.run] at mem
      split at mem
      · simp at mem
      · cases mem
    | «open» lo =>
      simp only [CanOp.run, starts] at mem
      split at mem
      · simp at mem
      · simp at mem
    | close => simp [CanOp.run] at mem
    | transmit f =>
      simp only [CanOp.run] at mem
      rcases st.transmit_cases io.transmit f with eq | ⟨twai, esp, run, -, eq⟩
      · rw [eq] at mem
        cases mem
      · rw [eq] at mem
        simp only [List.map_cons, List.map_nil, List.mem_singleton, Effect.handed.injEq] at mem
        exact ⟨twai, run, mem.2⟩
  | _ => simp at mem

variable [Fintype ι] {w : World (Statics SUBS) Port ι} {tr : List (Shown ι Obs CanFrame)}

/-- The controller of an open port is left alone by the steps of the others. -/
lemma Managers.other_runs (inv : Managers w tr) {i j : ι} {e st p os} (ne : j ≠ i)
    (step : Step w.shared (w.task j) e st p os) (up : (w.task i).opened = true)
    (runs : Runs listenOnly w.shared.can) : Runs listenOnly st.can := by
  obtain ⟨twai, run, mode⟩ := runs
  have inv' := inv.step (Moves.port step)
  have up' : ((Function.update w.task j p) i).opened = true := by
    rw [Function.update_of_ne ne.symm]
    exact up
  have on := inv'.started.on.mpr (inv'.exists_open.mp ⟨i, up'⟩)
  rcases ((step_managed step (inv.ok j)).on_bus inv.started run).2 with keep | off
  · exact ⟨twai, keep, mode⟩
  · simp only [off] at on
    cases on

/-- In every run whose commands agree with the controller, it runs in the mode of every session. -/
lemma sessions_held (run : (machine SUBS iface).Run (Agrees listenOnly) w tr) (i : ι) :
    Held listenOnly w.shared.can (w.task i) (session (taskTrace i tr)) := by
  refine Tasks.task_invariant (J := fun st p os _ => Held listenOnly st.can p (session os)) i run
    ?_ ?_ ?_ ?_
  · refine ⟨fun told => ?_, nofun⟩
    rcases told with told | ⟨cmd, args, left, rest, eq, -⟩
    · cases told
    · cases eq
  · intro v os e sh p os' run agrees st held
    have inv := managers run.free
    have up : (v.task i).opened = true → v.shared.can.twai.isSome := fun up =>
      inv.started.on.mpr (inv.exists_open.mp ⟨i, up⟩)
    rw [session_append]
    exact step_held (step_sound st) (inv.ok i) inv.started up held agrees
  · intro v os j e sh p os' ne run agrees st held
    refine ⟨fun told => ?_, held.closing⟩
    obtain ⟨up, runs⟩ := held.hold told
    exact ⟨up, (managers run.free).other_runs ne (step_sound st) up runs⟩
  · intro v os rx sh os' _ _ st held
    have round : v.shared.canRxTask rx = (sh, os') := Option.some.inj st
    have can := canRxTask_can v.shared rx
    rw [round] at can
    rw [can]
    exact held

/-- No frame is handed over in normal mode for a port whose session is a listen-only one, in every run
in which each executed `L` finds the controller off or in listen-only mode. -/
theorem listen_only_sessions (run : (machine SUBS iface).Run (Agrees true) w tr) {i e w' os frame mode}
    (st : (machine SUBS iface).step w (.task i e) = some (w', os))
    (mem : .task i (.effect (.handed frame mode)) ∈ os)
    (told : session (taskTrace i tr) = some true) : mode ≠ .normal := by
  obtain ⟨-, twai, run', listen⟩ := (sessions_held run i).hold (.inl told)
  cases machine_sound st with
  | @port i e sh p os step =>
    obtain ⟨o, mem, eq⟩ := List.mem_map.mp mem
    cases eq
    obtain ⟨twai', on, rfl⟩ := step_handed step mem
    rw [run'] at on
    cases on
    rw [listen]
    exact nofun

theorem listen_only_sessions_at :
    ∃ w tr w' os,
      (machine (ι := Fin 2) 4 fun _ => .tcp).Run (Agrees true) w tr ∧
      (machine (ι := Fin 2) 4 fun _ => .tcp).step w (.task 1 (.granted calm)) = some (w', os) ∧
      .task 1 (.effect (.handed frame123 .listenOnly)) ∈ os ∧
      session (taskTrace 1 tr) = some true ∧ TwaiMode.listenOnly ≠ .normal := by
  obtain ⟨w, tr, run, told, handed⟩ := Machine.run_exec (machine (ι := Fin 2) 4 fun _ => .tcp)
    (Agrees true)
    (link 0 ++ command 0 ['L'] 1 ++ link 1 ++ command 1 ['L'] 1 ++ send123 1)
    (fun w tr => session (taskTrace 1 tr) = some true ∧
      ((machine (ι := Fin 2) 4 fun _ => .tcp).step w (.task 1 (.granted calm))).map Prod.snd =
        some [.task 1 (.effect (.handed frame123 .listenOnly))])
    (by decide +kernel)
  obtain ⟨⟨w', os⟩, st, rfl⟩ := Option.map_eq_some_iff.mp handed
  exact ⟨w, tr, w', _, run, st, List.mem_singleton.mpr rfl, told,
    listen_only_sessions run st (List.mem_singleton.mpr rfl) told⟩

/-- Without the condition a listen-only session transmits: the first port opened in normal mode. -/
theorem listen_only_transmits :
    ¬ ∀ w tr, (machine (ι := Fin 2) 4 fun _ => .tcp).Reach w tr → ∀ i e w' os frame mode,
      (machine (ι := Fin 2) 4 fun _ => .tcp).step w (.task i e) = some (w', os) →
      .task i (.effect (.handed frame mode)) ∈ os →
      session (taskTrace i tr) = some true → mode ≠ .normal := by
  obtain ⟨w, tr, run, told, handed⟩ := Machine.run_exec (machine (ι := Fin 2) 4 fun _ => .tcp)
    (fun _ _ => True)
    (link 0 ++ command 0 ['O'] 1 ++ link 1 ++ command 1 ['L'] 1 ++ send123 1)
    (fun w tr => session (taskTrace 1 tr) = some true ∧
      ((machine (ι := Fin 2) 4 fun _ => .tcp).step w (.task 1 (.granted calm))).map Prod.snd =
        some [.task 1 (.effect (.handed frame123 .normal))])
    (by decide +kernel)
  obtain ⟨⟨w', os⟩, st, rfl⟩ := Option.map_eq_some_iff.mp handed
  intro safe
  exact safe w tr run 1 _ w' _ frame123 .normal st (List.mem_singleton.mpr rfl) told rfl

/-- The controller runs in normal mode in every state in which some port's session is a normal one, in
every run in which each executed `O` finds the controller off or in normal mode. -/
theorem normal_sessions (run : (machine SUBS iface).Run (Agrees false) w tr) (i : ι)
    (told : session (taskTrace i tr) = some false) :
    ∃ twai, w.shared.can.twai = some twai ∧ twai.mode = .normal :=
  ((sessions_held run i).hold (.inl told)).2

theorem normal_sessions_at :
    ∃ w tr, (machine (ι := Fin 2) 4 fun _ => .tcp).Run (Agrees false) w tr ∧
      session (taskTrace 1 tr) = some false ∧
      ∃ twai, w.shared.can.twai = some twai ∧ twai.mode = .normal := by
  obtain ⟨w, tr, run, told⟩ := Machine.run_exec (machine (ι := Fin 2) 4 fun _ => .tcp)
    (Agrees false) (link 0 ++ command 0 ['O'] 1 ++ link 1 ++ command 1 ['O'] 1)
    (fun _ tr => session (taskTrace 1 tr) = some false) (by decide +kernel)
  exact ⟨w, tr, run, told, normal_sessions run 1 told⟩

/-- Without the condition a normal session has a listen-only controller: the first port opened so. -/
theorem normal_session_listens :
    ¬ ∀ w tr, (machine (ι := Fin 2) 4 fun _ => .tcp).Reach w tr → ∀ i,
      session (taskTrace i tr) = some false →
      ∃ twai, w.shared.can.twai = some twai ∧ twai.mode = .normal := by
  obtain ⟨w, tr, run, told, on⟩ := Machine.run_exec (machine (ι := Fin 2) 4 fun _ => .tcp)
    (fun _ _ => True) (link 0 ++ command 0 ['L'] 1 ++ link 1 ++ command 1 ['O'] 1)
    (fun w tr => session (taskTrace 1 tr) = some false ∧
      w.shared.can.twai = some ⟨DEFAULT_BAUD, .listenOnly⟩)
    (by decide +kernel)
  intro normal
  obtain ⟨twai, on', mode⟩ := normal w tr run 1 told
  rw [on] at on'
  cases on'
  cases mode

end EspcanBr.System
