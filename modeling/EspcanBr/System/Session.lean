import EspcanBr.System.Receive

/-!
# Sessions

What a port writes from the `O` or `L` that opened it until it is closed. Its messages are those that
were still unread in its subscription when the command was executed, and those polled since; it writes
every one it takes (`stretch_session`). It takes all that was polled since if it never lets more than
`RX_CAP` of these wait (`stretch_since`).
-/

namespace EspcanBr.System
open Base Slcan Can Transport

variable {ι : Type*} [DecidableEq ι] {SUBS : UInt32} {iface : ι → Iface}

/-- The port has executed an `O` or `L` and is about to write the answer. -/
def Opening (p : Port) : Prop :=
  p.opened = true ∧ ∃ cmd args rest, (cmd = ch 'O' ∨ cmd = ch 'L') ∧
    p.pc = .writing (.reply (cmd :: args) [CR]) [CR] rest

/-- Port `i` takes a message. -/
def takes (i : ι) : Input ι Event (List EspTwaiFrame) → Bool
  | .task j (.recv _) => j = i
  | _ => false

/-- When the port takes a message, no more than `RX_CAP` messages from `id` on wait for it. -/
def Prompt (i : ι) (id : ℕ) (w : World (Statics SUBS) Port ι)
    (e : Input ι Event (List EspTwaiFrame)) : Prop :=
  takes i e = true → w.shared.rxBus.behind (max (w.task i).sub id) ≤ RX_CAP

instance (i : ι) (id : ℕ) (w : World (Statics SUBS) Port ι) (e : Input ι Event (List EspTwaiFrame)) :
    Decidable (Prompt i id w e) :=
  inferInstanceAs (Decidable (_ → _))

lemma Managed.stays {can can' : CanManager} {opened opened' es}
    (man : Managed can opened can' opened' es) (up : opened = true) (on : .closed ∉ es) :
    opened' = true := by
  cases man with
  | keep _ => exact up
  | bitrate _ _ => exact up
  | «open» _ => rfl
  | close _ => exact absurd List.mem_cons_self on

lemma Managed.closed {can can' : CanManager} {opened opened' es}
    (man : Managed can opened can' opened' es) (off : .closed ∈ es) : opened' = false := by
  cases man with
  | keep handed =>
    obtain ⟨_, _, eq⟩ := handed _ off
    cases eq
  | bitrate _ _ => simp at off
  | «open» _ =>
    rw [starts] at off
    split at off
    · simp at off
    · simp at off
  | close _ => rfl

/-- Only an `O` or `L` opens a port. -/
lemma step_opens {st st' : Statics SUBS} {p p' : Port} {e os} (step : Step st p e st' p' os)
    (ok : p.Ok) (down : p.opened = false) (up : p'.opened = true) : Opening p' := by
  have keeps : p'.opened ≠ p.opened := by
    rw [down, up]
    exact nofun
  cases step with
  | start _ => cases up
  | read _ adv => exact absurd (advance_keeps adv).opened keeps
  | @granted cmd args op rest io lock =>
    rw [Port.Ok, lock] at ok
    obtain ⟨ts, ts', counted, disp⟩ := ok
    cases disp with
    | «open» letter _ => exact ⟨rfl, cmd, args, rest, letter, rfl⟩
    | close _ _ => cases up
    | _ => exact absurd rfl keeps
  | wrote _ res => exact absurd (resume_keeps res).opened keeps
  | fail _ res => exact absurd (resume_keeps res).opened keeps
  | teardown _ => cases up
  | _ => exact absurd rfl keeps

/-- A port that writes a frame is open. -/
lemma step_writes {st st' : Statics SUBS} {p p' : Port} {e os} (step : Step st p e st' p' os)
    (inv : pendingFrame p ≠ [] → p.opened = true) : pendingFrame p' ≠ [] → p'.opened = true := by
  intro writes
  cases step with
  | read _ adv => exact absurd (advance_fresh adv).1 writes
  | recvOpen _ _ up => exact up
  | recvClosed pc _ _ =>
    rw [pendingFrame, pc] at writes
    exact absurd rfl writes
  | write pc _ _ =>
    rw [pendingFrame, pc] at inv
    exact inv writes
  | wrote _ res => exact absurd (resume_fresh res).1 writes
  | fail _ res => exact absurd (resume_fresh res).1 writes
  | _ => exact absurd rfl writes

/-- Until it is closed a port that is open stays open, keeps its subscription, and takes its messages
under a flag that is up. -/
lemma step_session {st st' : Statics SUBS} {p p' : Port} {e os} (step : Step st p e st' p' os)
    (ok : p.Ok) (up : p.opened = true) (on : .effect .closed ∉ os) :
    p'.opened = true ∧ .connected ∉ os ∧ tookOpen os = taken os := by
  have stays := (step_managed step ok).stays up (mt mem_effects.mp on)
  refine ⟨stays, ?_⟩
  have loop : ∀ {os : List Obs}, os = [] ∨ (∃ line, os = [Obs.line line p.opened]) →
      .connected ∉ os ∧ tookOpen os = taken os := by
    rintro os (rfl | ⟨line, rfl⟩)
    · exact ⟨nofun, rfl⟩
    · exact ⟨nofun, rfl⟩
  cases step with
  | connect idle _ =>
    rw [Port.Ok, idle] at ok
    rw [ok] at up
    cases up
  | read _ adv => exact loop (advance_shows adv)
  | granted _ =>
    refine ⟨fun mem => ?_, ?_⟩
    · obtain ⟨_, _, eq⟩ := List.mem_map.mp mem
      cases eq
    · rw [(quiet_effects _).tookOpen, (quiet_effects _).taken]
  | recvClosed _ _ down =>
    rw [down] at up
    cases up
  | wrote _ res =>
    obtain ⟨same, eq⟩ := loop (resume_shows res)
    exact ⟨by simpa using same, eq⟩
  | fail _ res =>
    obtain ⟨same, eq⟩ := loop (resume_shows res)
    exact ⟨by simpa using same, eq⟩
  | _ => exact ⟨by simp, rfl⟩

/-- A port that is prompt misses nothing of what was published since. -/
lemma step_since {st st' : Statics SUBS} {p p' : Port} {e os} (step : Step st p e st' p' os)
    (same : .connected ∉ os) {id due tk} (since : st.rxBus.Since p.sub id due tk)
    (prompt : ∀ millis, e = .recv millis → st.rxBus.behind (max p.sub id) ≤ RX_CAP) :
    st'.rxBus.Since p'.sub id due (tk ++ taken os) := by
  obtain ⟨queue, nextId⟩ := step_log step
  rcases step_takes step same with ⟨sub, none, -⟩ | ⟨_, _, _, recv, next, took, -⟩
  · rw [none, List.append_nil, sub]
    exact since.congr queue nextId
  · rw [took]
    exact (since.next (prompt _ recv) next).congr queue nextId

/-- What the receive task polls becomes due. -/
lemma canRx_since {st : Statics SUBS} {pos id due tk} (since : st.rxBus.Since pos id due tk)
    (rx : List EspTwaiFrame) :
    (st.canRxTask rx).1.rxBus.Since pos id (due ++ (st.canRxTask rx).2) tk := by
  refine Statics.drain_bus (P := fun q fs => q.Since pos id (due ++ fs) tk) ?_ [] ?_ 16 rx
  · intro q fs f since
    rw [← List.append_assoc]
    exact since.publish f
  · rwa [List.append_nil]

/-- Without a failure of the link every write is complete. -/
lemma framesWritten_eq {os : List Obs} (whole : ∀ item missing, .sent item missing ∈ os → missing = 0) :
    framesWritten os = framesSent os := by
  induction os with
  | nil => rfl
  | cons o os ih =>
    have tail := ih fun item missing mem => whole item missing (List.mem_cons_of_mem _ mem)
    cases o with
    | sent item missing =>
      cases whole item missing List.mem_cons_self
      exact congrArg (framesOf item ++ ·) tail
    | _ => exact tail

section Stretches
variable {C : World (Statics SUBS) Port ι → Input ι Event (List EspTwaiFrame) → Prop}
  {s w : World (Statics SUBS) Port ι} {tr os : List (Shown ι Obs CanFrame)}

/-- A session goes on until the port is closed. -/
lemma stretch_session (run : (machine SUBS iface).Steps C s os w) (i : ι) (ok : (s.task i).Ok)
    (up : (s.task i).opened = true) (on : .effect .closed ∉ taskTrace i os) :
    (w.task i).opened = true ∧ .connected ∉ taskTrace i os ∧
      tookOpen (taskTrace i os) = taken (taskTrace i os) := by
  have all : (w.task i).Ok ∧ (.effect .closed ∉ taskTrace i os → (w.task i).opened = true ∧
      .connected ∉ taskTrace i os ∧ tookOpen (taskTrace i os) = taken (taskTrace i os)) := by
    refine Tasks.task_invariant (J := fun _ p os _ => p.Ok ∧ (.effect .closed ∉ os → p.opened = true ∧
      .connected ∉ os ∧ tookOpen os = taken os)) i run ?_ ?_ ?_ ?_
    · exact ⟨ok, fun _ => ⟨up, nofun, rfl⟩⟩
    · rintro v os e sh p os' _ _ st ⟨ok, inv⟩
      refine ⟨(step_sound st).ok ok, fun on => ?_⟩
      rw [List.mem_append, not_or] at on
      obtain ⟨up, same, eq⟩ := inv on.1
      obtain ⟨up', same', eq'⟩ := step_session (step_sound st) ok up on.2
      refine ⟨up', ?_, ?_⟩
      · rw [List.mem_append, not_or]
        exact ⟨same, same'⟩
      · rw [tookOpen_append, taken_append, eq, eq']
    · rintro v os j e sh p os' _ _ _ _ inv
      exact inv
    · rintro v os d sh os' _ _ _ inv
      exact inv
  exact all.2 on

/-- A port that is prompt over a stretch misses nothing of what is polled in it. -/
lemma stretch_since (run : (machine SUBS iface).Steps C s os w) (i : ι)
    (le : (s.task i).sub ≤ s.shared.rxBus.nextId) (same : .connected ∉ taskTrace i os)
    (prompt : ∀ v e, C v e → Prompt i s.shared.rxBus.nextId v e) :
    w.shared.rxBus.Since (w.task i).sub s.shared.rxBus.nextId (envTrace os)
      (taken (taskTrace i os)) := by
  refine Tasks.task_invariant (J := fun sh p os ws => .connected ∉ os →
    sh.rxBus.Since p.sub s.shared.rxBus.nextId ws (taken os)) i run ?_ ?_ ?_ ?_ same
  · intro _
    exact PubSub.Since.start le
  · intro v os e sh p os' _ c st since same
    rw [List.mem_append, not_or] at same
    rw [taken_append]
    refine step_since (step_sound st) same.2 (since same.1) fun millis recv => ?_
    exact prompt _ _ c (by simp [takes, recv])
  · intro v os j e sh p os' _ _ _ st since same
    obtain ⟨queue, nextId⟩ := step_log (step_sound st)
    exact (since same).congr queue nextId
  · intro v os rx sh os' _ _ st since same
    have round : v.shared.canRxTask rx = (sh, os') := Option.some.inj st
    have next := canRx_since (since same) rx
    rwa [round] at next

/-- A port that writes a frame is open, over every run. -/
lemma run_writes (run : (machine SUBS iface).Run C w tr) (i : ι) :
    pendingFrame (w.task i) ≠ [] → (w.task i).opened = true := by
  refine Tasks.task_invariant (J := fun _ p _ _ => pendingFrame p ≠ [] → p.opened = true) i run
    ?_ ?_ ?_ ?_
  · intro writes
    exact absurd rfl writes
  · intro v os e sh p os' _ _ st inv
    exact step_writes (step_sound st) inv
  · intro v os j e sh p os' _ _ _ _ inv
    exact inv
  · intro v os d sh os' _ _ _ inv
    exact inv

/-- A port that is open was opened by a step and has not been closed since. -/
lemma session_start [Fintype ι] (reach : (machine SUBS iface).Reach w tr) {i : ι}
    (up : (w.task i).opened = true) :
    ∃ s tr0 e s' os0 os, (machine SUBS iface).Reach s tr0 ∧
      (machine SUBS iface).step s e = some (s', os0) ∧ (s.task i).opened = false ∧
      Opening (s'.task i) ∧ (machine SUBS iface).Steps (fun _ _ => True) s' os w ∧
      .effect .closed ∉ taskTrace i os ∧ tr = tr0 ++ os0 ++ os := by
  refine reach.invariant (P := fun w tr => (w.task i).opened = true →
    ∃ s tr0 e s' os0 os, (machine SUBS iface).Reach s tr0 ∧
      (machine SUBS iface).step s e = some (s', os0) ∧ (s.task i).opened = false ∧
      Opening (s'.task i) ∧ (machine SUBS iface).Steps (fun _ _ => True) s' os w ∧
      .effect .closed ∉ taskTrace i os ∧ tr = tr0 ++ os0 ++ os) ?_ ?_ up
  · intro up
    cases up
  · intro v tr v' os' e reach inv _ st up
    have ok := (managers reach).ok i
    -- a session that is there already goes on with this step
    have goes : (v.task i).opened = true → .effect .closed ∉ taskTrace i os' →
        ∃ s tr0 e s' os0 os, (machine SUBS iface).Reach s tr0 ∧
          (machine SUBS iface).step s e = some (s', os0) ∧ (s.task i).opened = false ∧
          Opening (s'.task i) ∧ (machine SUBS iface).Steps (fun _ _ => True) s' os v' ∧
          .effect .closed ∉ taskTrace i os ∧ tr ++ os' = tr0 ++ os0 ++ os := by
      intro up on
      obtain ⟨s, tr0, e, s', os0, os, reach, first, down, opening, run, on', eq⟩ := inv up
      refine ⟨s, tr0, e, s', os0, os ++ os', reach, first, down, opening, run.snoc trivial st, ?_, ?_⟩
      · rw [taskTrace_append, List.mem_append, not_or]
        exact ⟨on', on⟩
      · rw [eq, List.append_assoc]
    cases machine_sound st with
    | @port j e sh p os step =>
      rcases eq_or_ne j i with rfl | ne
      · simp only [Function.update_self] at up
        cases old : (v.task j).opened with
        | true =>
          refine goes old fun off => ?_
          rw [taskTrace_task] at off
          have down := (step_managed step ok).closed (mem_effects.mpr off)
          rw [down] at up
          cases up
        | false =>
          -- this step is the one that opened it
          refine ⟨v, tr, _, _, _, [], reach, st, old, ?_, .refl _, nofun, (List.append_nil _).symm⟩
          simp only [Function.update_self]
          exact step_opens step ok old up
      · simp only [Function.update_of_ne ne.symm] at up
        refine goes up ?_
        rw [taskTrace_ne ne]
        exact nofun
    | canRx =>
      refine goes up ?_
      rw [taskTrace_env]
      exact nofun

end Stretches

/-- Port `i` has read an `O`. -/
def openLine (i : ι) : List (Input ι Event (List EspTwaiFrame)) := [.task i (.read [ch 'O', CR])]

/-- Port `i` takes a frame and the link takes its line of 6 bytes. -/
def forward (i : ι) : List (Input ι Event (List EspTwaiFrame)) :=
  [.task i (.recv 0), .task i (.write 6), .task i .flush]

/-- A frame with the identifier 1. -/
def frame001 : EspTwaiFrame :=
  ⟨.standard ⟨1, by decide⟩, false, 0, [], frame123.dlc_le, frame123.length_data⟩

variable [Fintype ι] {s w : World (Statics SUBS) Port ι} {tr os : List (Shown ι Obs CanFrame)}

/-- Received frames, over every run from an `O` or `L` to a moment at which the port is still open and
back in `select` with nothing to take. The frames it wrote are some of those that were still unread and
of those polled since, in order, and as many as were not skipped; if whenever it took a message no more
than `RX_CAP` of those polled since were waiting, they are all of them, each once, after some that were
still unread. Every write that ended was complete if the link never failed. -/
theorem open_ports_receive {i : ι} (reach : (machine SUBS iface).Reach s tr)
    (opening : Opening (s.task i)) (run : (machine SUBS iface).Steps (fun _ _ => True) s os w)
    (on : .effect .closed ∉ taskTrace i os) (select : (w.task i).pc = .select)
    (idle : w.shared.rxBus.nextMessagePure (w.task i).sub = none) :
    (framesSent (taskTrace i os)).Sublist (s.shared.rxBus.avail (s.task i).sub ++ envTrace os) ∧
    (framesSent (taskTrace i os)).length + skipped (taskTrace i os) =
      s.shared.rxBus.behind (s.task i).sub + (envTrace os).length ∧
    ((machine SUBS iface).Steps (Prompt i s.shared.rxBus.nextId) s os w →
      ∃ old, old.Sublist (s.shared.rxBus.avail (s.task i).sub) ∧
        framesSent (taskTrace i os) = old ++ envTrace os) ∧
    ((∀ item missing, .sent item missing ∈ taskTrace i os → missing = 0) →
      framesWritten (taskTrace i os) = framesSent (taskTrace i os)) := by
  obtain ⟨up, cmd, args, rest, -, pc⟩ := opening
  obtain ⟨-, same, opened⟩ := stretch_session run i ((managers reach).ok i) up on
  have le := sub_le reach i
  have frames := stretch_frames run i
  have noFrame : pendingFrame (s.task i) = [] := by
    rw [pendingFrame, pc]
    rfl
  have doneFrame : pendingFrame (w.task i) = [] := by rw [pendingFrame, select]
  rw [noFrame, doneFrame, List.append_nil, List.nil_append, opened] at frames
  have unread := PubSub.avail_of_none idle
  have behind := PubSub.behind_eq_zero unread
  have fol := stretch_follows run i le same
  have sub := fol.sublist
  have count := fol.count
  rw [unread, List.append_nil] at sub
  rw [behind, Nat.add_zero] at count
  rw [frames]
  refine ⟨sub, count, fun prompt => ?_, fun whole => ?_⟩
  · obtain ⟨old, eq⟩ := (stretch_since prompt i le same fun _ _ c => c).taken_eq behind
    rw [eq] at sub
    exact ⟨old, (List.append_sublist_append_right _).mp sub, eq⟩
  · rw [← frames]
    exact framesWritten_eq whole

theorem open_ports_receive_at :
    ∃ s tr w os, (machine (ι := Fin 2) 4 fun _ => .tcp).Reach s tr ∧ Opening (s.task 0) ∧
      (machine (ι := Fin 2) 4 fun _ => .tcp).Steps (fun _ _ => True) s os w ∧
      (envTrace os).length = 1 ∧
      ∃ old, old.Sublist (s.shared.rxBus.avail (s.task 0).sub) ∧
        framesSent (taskTrace 0 os) = old ++ envTrace os := by
  obtain ⟨_, _, s, _, w, os, reach, st, run, ⟨up, pc⟩, first, one, on, select, idle⟩ :=
    Machine.run_step_exec (machine (ι := Fin 2) 4 fun _ => .tcp)
      (Prompt 0 0) (link 0 ++ openLine 0) (.task 0 (.granted calm))
      (([.task 0 (.write 1), .task 0 .flush, .env [frame123]] : Inputs (Fin 2)) ++ forward 0)
      (fun _ s w os => ((s.task 0).opened = true ∧
        (s.task 0).pc = .writing (.reply [ch 'O'] [CR]) [CR] []) ∧ s.shared.rxBus.nextId = 0 ∧
        (envTrace os).length = 1 ∧ .effect .closed ∉ taskTrace 0 os ∧ (w.task 0).pc = .select ∧
        w.shared.rxBus.nextMessagePure (w.task 0).sub = none)
      (by decide +kernel)
  have opening : Opening (s.task 0) := ⟨up, _, _, _, .inl rfl, pc⟩
  have reach := reach.snoc trivial st
  have receive := open_ports_receive reach opening run.free on select idle
  rw [first] at receive
  exact ⟨s, _, w, os, reach, opening, run.free, one, receive.2.2.1 run⟩

/-- A port in the middle of a slow write misses a frame when 17 more are polled. -/
theorem slow_port_misses :
    ¬ ∀ s tr w os, (machine (ι := Fin 2) 4 fun _ => .tcp).Reach s tr → Opening (s.task 0) →
      (machine (ι := Fin 2) 4 fun _ => .tcp).Steps (fun _ _ => True) s os w →
      .effect .closed ∉ taskTrace 0 os → (w.task 0).pc = .select →
      w.shared.rxBus.nextMessagePure (w.task 0).sub = none →
      ∀ f ∈ envTrace os, f ∈ framesSent (taskTrace 0 os) := by
  obtain ⟨_, _, s, _, w, os, reach, st, run, ⟨up, pc⟩, on, select, idle, polled, missed⟩ :=
    Machine.run_step_exec (machine (ι := Fin 2) 4 fun _ => .tcp)
      (fun _ _ => True) (link 0 ++ openLine 0) (.task 0 (.granted calm))
      (([.task 0 (.write 1), .task 0 .flush, .env [frame123], .task 0 (.recv 0), .env [frame001],
        .env (List.replicate 16 frame123), .task 0 (.write 6), .task 0 .flush] : Inputs (Fin 2)) ++
        (List.replicate 16 (forward 0)).flatten)
      (fun _ s w os => ((s.task 0).opened = true ∧
        (s.task 0).pc = .writing (.reply [ch 'O'] [CR]) [CR] []) ∧
        .effect .closed ∉ taskTrace 0 os ∧ (w.task 0).pc = .select ∧
        w.shared.rxBus.nextMessagePure (w.task 0).sub = none ∧
        fromEsp frame001 ∈ envTrace os ∧ fromEsp frame001 ∉ framesSent (taskTrace 0 os))
      (by decide +kernel)
  intro complete
  have opening : Opening (s.task 0) := ⟨up, _, _, _, .inl rfl, pc⟩
  exact missed (complete s _ w os (reach.snoc trivial st) opening run on select idle _ polled)

/-- Sessions, in every reachable state. A port that writes a frame is open. A port that is open was
opened by an `O` or `L` and not closed since, and the frames it wrote since, the one in progress
included, were polled since or are among the at most `RX_CAP` ones that were unread in its subscription
when the command was executed. -/
theorem session_frames (reach : (machine SUBS iface).Reach w tr) (i : ι) :
    (pendingFrame (w.task i) ≠ [] → (w.task i).opened = true) ∧
    ((w.task i).opened = true → ∃ s tr0 e s' os0 os, (machine SUBS iface).Reach s tr0 ∧
      (machine SUBS iface).step s e = some (s', os0) ∧ (s.task i).opened = false ∧
      Opening (s'.task i) ∧ (machine SUBS iface).Steps (fun _ _ => True) s' os w ∧
      .effect .closed ∉ taskTrace i os ∧ tr = tr0 ++ os0 ++ os ∧
      (framesSent (taskTrace i os) ++ pendingFrame (w.task i)).Sublist
        (s'.shared.rxBus.avail (s'.task i).sub ++ envTrace os) ∧
      (s'.shared.rxBus.avail (s'.task i).sub).length ≤ RX_CAP) := by
  refine ⟨run_writes reach i, fun up => ?_⟩
  obtain ⟨s, tr0, e, s', os0, os, reach, st, down, opening, run, on, eq⟩ := session_start reach up
  have reach' := reach.snoc trivial st
  obtain ⟨_, same, opened⟩ := stretch_session run i ((managers reach').ok i) opening.1 on
  have frames := stretch_frames run i
  have sub := (stretch_follows run i (sub_le reach' i) same).sublist
  have none : pendingFrame (s'.task i) = [] := by
    obtain ⟨-, cmd, args, rest, -, pc⟩ := opening
    rw [pendingFrame, pc]
    rfl
  rw [none, List.nil_append, opened] at frames
  refine ⟨s, tr0, e, s', os0, os, reach, st, down, opening, run, on, eq, ?_,
    PubSub.avail_length_le _ _⟩
  rw [frames]
  exact (List.sublist_append_left _ _).trans sub

theorem session_frames_at :
    ∃ w tr, (machine (ι := Fin 2) 4 fun _ => .tcp).Reach w tr ∧
      pendingFrame (w.task 1) = [fromEsp frame123] ∧ (w.task 1).opened = true := by
  obtain ⟨w, tr, reach, writes⟩ := Machine.run_exec (machine (ι := Fin 2) 4 fun _ => .tcp)
    (fun _ _ => True)
    (link 1 ++ command 1 ['O'] 1 ++ ([.env [frame123], .task 1 (.recv 0)] : Inputs (Fin 2)))
    (fun w _ => pendingFrame (w.task 1) = [fromEsp frame123]) (by decide +kernel)
  have session := session_frames reach 1
  exact ⟨w, tr, reach, writes, session.1 (writes ▸ nofun)⟩

/-- A frame polled for another port is written by a port that opens later. -/
theorem stale_frame_written :
    ¬ ∀ s tr e s' os0 w os, (machine (ι := Fin 2) 4 fun _ => .tcp).Reach s tr →
      (machine (ι := Fin 2) 4 fun _ => .tcp).step s e = some (s', os0) →
      (s.task 1).opened = false → (s'.task 1).opened = true →
      (machine (ι := Fin 2) 4 fun _ => .tcp).Steps (fun _ _ => True) s' os w →
      .effect .closed ∉ taskTrace 1 os →
      ∀ f ∈ framesSent (taskTrace 1 os), f ∈ envTrace os := by
  obtain ⟨s, tr, s', os0, w, os, reach, st, run, down, up, on, written, late⟩ :=
    Machine.run_step_exec (machine (ι := Fin 2) 4 fun _ => .tcp) (fun _ _ => True)
      (link 0 ++ command 0 ['O'] 1 ++ link 1 ++ ([.env [frame123]] : Inputs (Fin 2)) ++ openLine 1)
      (.task 1 (.granted calm)) (([.task 1 (.write 1), .task 1 .flush] : Inputs (Fin 2)) ++ forward 1)
      (fun s s' _ os => (s.task 1).opened = false ∧ (s'.task 1).opened = true ∧
        .effect .closed ∉ taskTrace 1 os ∧ fromEsp frame123 ∈ framesSent (taskTrace 1 os) ∧
        fromEsp frame123 ∉ envTrace os)
      (by decide +kernel)
  intro isolated
  exact late (isolated s tr _ s' os0 w os reach st down up run on _ written)

end EspcanBr.System
