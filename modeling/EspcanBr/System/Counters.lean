import EspcanBr.System.Receive
import EspcanBr.System.Transmit

/-!
# The counters of what comes in

`RX_COUNT` counts the frames that `poll_rx` returned, and `SER_IN` and `TCP_IN` the transmit lines that
parse, received on the ports of either interface whether or not the port is open. No frame is handed to the
controller that was not counted there first (`counters_exact`).
-/

namespace EspcanBr.System
open Base Slcan Can Transport

variable {ι : Type*} [DecidableEq ι] {SUBS : UInt32} {iface : ι → Iface}

/-- The counter `Iface::count_in` advances. -/
def inCount (x : Iface) (st : Statics SUBS) : UInt32 :=
  match x with
  | .serial => st.serIn
  | .tcp => st.tcpIn

/-- The dispatched lines that parse as a frame. -/
def frameLinesIn (os : List Obs) : List (List UInt8) :=
  os.filterMap fun
    | .line line _ => if (parseTx line).isSome then some line else none
    | _ => none

@[simp] lemma frameLinesIn_append (os os' : List Obs) :
    frameLinesIn (os ++ os') = frameLinesIn os ++ frameLinesIn os' := List.filterMap_append

@[simp] lemma handedTo_append (os os' : List Obs) : handedTo (os ++ os') = handedTo os ++ handedTo os' :=
  List.filterMap_append

@[simp] lemma frameLinesIn_effects (es : List Effect) : frameLinesIn (es.map .effect) = [] := by
  simp [frameLinesIn]

lemma frameLinesIn_line (line : List UInt8) (opened : Bool) :
    (frameLinesIn [.line line opened]).length = (parseTx line).isSome.toNat := by
  cases parsed : (parseTx line).isSome <;> simp [frameLinesIn, parsed]

/-- Only a transmit command parses as a frame. -/
lemma isTx_of_parseTx {cmd : UInt8} {args : List UInt8} (parsed : (parseTx (cmd :: args)).isSome = true) :
    isTx cmd := by
  by_contra no
  have none_ : kind cmd = none := by
    rw [isTx, not_or, not_or, not_or] at no
    simp [kind, no]
  simp [parseTx, none_] at parsed

/-- What `dispatch` counts is a line that parses. -/
lemma counted_eq {cmd : UInt8} {args : List UInt8} {opened timestamp ts counted : Bool} {await : Await}
    (d : Dispatch cmd args opened timestamp ⟨ts, counted, await⟩) : counted = (parseTx (cmd :: args)).isSome := by
  have no : ¬ isTx cmd → false = (parseTx (cmd :: args)).isSome := by
    intro quiet
    rw [eq_comm, Bool.eq_false_iff]
    exact fun parsed => quiet (isTx_of_parseTx parsed)
  cases d with
  | transmit _ _ parsed => rw [parsed, Option.isSome_some]
  | garbled _ _ parsed => rw [parsed, Option.isSome_none]
  | notOpen => rfl
  | refused quiet _ => exact no quiet
  | version letter | serial letter | flags letter | timestamp letter _ | bitrate letter _
  | close letter _ | reclose letter _ =>
    subst letter
    exact no (by decide)
  | noop letter =>
    rcases letter with rfl | rfl | rfl <;> exact no (by decide)
  | «open» letter _ | reopen letter _ =>
    rcases letter with rfl | rfl <;> exact no (by decide)

/-- `count_in` advances the interface's own counter only. -/
lemma inCount_countIn (x y : Iface) (st : Statics SUBS) :
    inCount x (y.countIn st) = inCount x st + UInt32.ofNat (if y = x then 1 else 0) := by
  cases x <;> cases y <;> simp [inCount, Iface.countIn]

/-- A frame line that waits for the manager, and is not handed over yet. -/
def offered (p : Port) : ℕ :=
  match p.pc with
  | .lock _ _ (.transmit _) _ => 1
  | _ => 0

/-- What the bytes loop counts is the line it shows, which a frame that waits for the manager is. -/
lemma advance_in {st st' : Statics SUBS} {p p' : Port} {bytes os} (adv : Advance st p bytes st' p' os)
    (x : Iface) :
    inCount x st' = inCount x st + UInt32.ofNat (if p.iface = x then (frameLinesIn os).length else 0) ∧
      offered p' ≤ (frameLinesIn os).length := by
  have shown : ∀ {cmd : UInt8} {args : List UInt8} {counted : Bool},
      counted = (parseTx (cmd :: args)).isSome →
      inCount x (if counted then p.iface.countIn st else st) = inCount x st +
        UInt32.ofNat (if p.iface = x then (frameLinesIn [.line (cmd :: args) p.opened]).length else 0) := by
    intro cmd args counted eq
    rw [frameLinesIn_line, ← eq]
    cases counted with
    | true => exact inCount_countIn x p.iface st
    | false => simp
  have nothing : inCount x st = inCount x st +
      UInt32.ofNat (if p.iface = x then (frameLinesIn []).length else 0) := by
    have zero : (if p.iface = x then (frameLinesIn []).length else 0) = 0 := by
      split <;> rfl
    rw [zero]
    exact (UInt32.add_zero _).symm
  cases adv with
  | more _ pc =>
    refine ⟨nothing, ?_⟩
    rcases pc with rfl | rfl <;> exact Nat.zero_le _
  | overlong _ => exact ⟨nothing, Nat.zero_le _⟩
  | lock _ d =>
    refine ⟨shown (counted_eq d), ?_⟩
    rw [frameLinesIn_line, ← counted_eq d]
    cases d with
    | transmit => exact Nat.le_refl _
    | _ => exact Nat.zero_le _
  | reply _ d => exact ⟨shown (counted_eq d), Nat.zero_le _⟩

lemma resume_in {st st' : Statics SUBS} {p p' : Port} {rest item os} (res : Resume st p rest item st' p' os)
    (x : Iface) :
    inCount x st' = inCount x st + UInt32.ofNat (if p.iface = x then (frameLinesIn os).length else 0) ∧
      offered p' ≤ (frameLinesIn os).length := by
  cases res with
  | frame =>
    refine ⟨?_, Nat.zero_le _⟩
    have zero : (if p.iface = x then (frameLinesIn []).length else 0) = 0 := by
      split <;> rfl
    rw [zero]
    exact (UInt32.add_zero _).symm
  | advance _ adv => exact advance_in adv x

/-- A call on the manager leaves the counters of lines alone. -/
lemma run_in (x : Iface) (op : CanOp) (cmd : UInt8) (io : TwaiIo) (st : Statics SUBS) (opened : Bool) :
    inCount x (op.run cmd io st opened).statics = inCount x st := by
  cases op with
  | transmit f =>
    simp only [CanOp.run]
    rcases st.transmit_cases io.transmit f with eq | ⟨twai, esp, -, -, eq⟩
    · rw [eq]
    · rw [eq]
      cases x <;> rfl
  | _ => cases x <;> rfl

/-- A call on the manager hands over one frame at most, and only to transmit. -/
lemma run_handed (op : CanOp) (cmd : UInt8) (io : TwaiIo) (st : Statics SUBS) (opened : Bool) :
    (handedBy (op.run cmd io st opened).effects).length ≤ match op with
      | .transmit _ => 1
      | _ => 0 := by
  cases op with
  | transmit f =>
    simp only [CanOp.run]
    rcases st.transmit_cases io.transmit f with eq | ⟨twai, esp, -, -, eq⟩
    · rw [eq]
      exact Nat.zero_le _
    · rw [eq]
      exact Nat.le_refl _
  | setBitrate d =>
    simp only [CanOp.run]
    cases (st.can.setBitrate d).1 <;> exact Nat.le_refl _
  | «open» listenOnly =>
    simp only [CanOp.run, starts]
    split <;> exact Nat.le_refl _
  | _ => exact Nat.le_refl _

/-- A step counts the frame lines it dispatches on the port's own interface, and hands over only what
such a line offers. -/
lemma step_in {st st' : Statics SUBS} {p p' : Port} {e os} (step : Step st p e st' p' os) (x : Iface) :
    inCount x st' = inCount x st + UInt32.ofNat (if p.iface = x then (frameLinesIn os).length else 0) ∧
      (handedTo os).length + offered p' ≤ offered p + (frameLinesIn os).length := by
  have still : ∀ {os : List Obs} {st' : Statics SUBS}, frameLinesIn os = [] → inCount x st' = inCount x st →
      inCount x st' = inCount x st + UInt32.ofNat (if p.iface = x then (frameLinesIn os).length else 0) := by
    intro os st' nothing same
    have zero : (if p.iface = x then (frameLinesIn os).length else 0) = 0 := by
      rw [nothing]
      split <;> rfl
    rw [same, zero]
    exact (UInt32.add_zero _).symm
  have loop : ∀ {os : List Obs} {st' : Statics SUBS} {p' : Port} (front : List Obs),
      frameLinesIn front = [] → handedTo front = [] → os = [] ∨ (∃ line, os = [Obs.line line p.opened]) →
      inCount x st' = inCount x st + UInt32.ofNat (if p.iface = x then (frameLinesIn os).length else 0) ∧
        offered p' ≤ (frameLinesIn os).length →
      inCount x st' = inCount x st +
          UInt32.ofNat (if p.iface = x then (frameLinesIn (front ++ os)).length else 0) ∧
        (handedTo (front ++ os)).length + offered p' ≤ offered p + (frameLinesIn (front ++ os)).length := by
    intro os st' p' front lines handed shows counts
    have none_ : handedTo os = [] := by
      rcases shows with rfl | ⟨line, rfl⟩ <;> rfl
    rw [frameLinesIn_append, handedTo_append, lines, handed, none_, List.nil_append]
    refine ⟨counts.1, ?_⟩
    have offered := counts.2
    simp only [List.append_nil, List.length_nil]
    omega
  cases step with
  | read _ adv => exact loop [] rfl rfl (advance_shows adv) (advance_in adv x)
  | @wrote item left rest st' p' os _ res =>
    exact loop [.out left, .sent item 0] rfl rfl (resume_shows res) (resume_in res x)
  | @fail item left rest st' p' os _ res =>
    exact loop [.sent item left.length] rfl rfl (resume_shows res) (resume_in res x)
  | @granted cmd args op rest io pc =>
    refine ⟨still (frameLinesIn_effects _) (run_in x _ _ _ _ _), ?_⟩
    have most := run_handed op cmd io st p.opened
    rw [handedTo_effects, frameLinesIn_effects, List.length_nil, Nat.add_zero]
    cases op with
    | _ => simpa [offered, pc] using most
  | frameFlush pc =>
    refine ⟨still rfl ?_, Nat.zero_le _⟩
    cases x <;> cases p.iface <;> rfl
  | recvClosed pc _ _ => exact ⟨still rfl rfl, by simp [handedTo, offered, pc]⟩
  | connect _ _ => exact ⟨still rfl (by cases x <;> rfl), Nat.zero_le _⟩
  | teardown _ => exact ⟨still rfl (by cases x <;> rfl), Nat.zero_le _⟩
  | drop _ => exact ⟨still rfl (by cases x <;> rfl), Nat.zero_le _⟩
  | _ => exact ⟨still rfl rfl, Nat.zero_le _⟩

variable {w : World (Statics SUBS) Port ι} {tr : List (Shown ι Obs CanFrame)}
  {C : World (Statics SUBS) Port ι → Input ι Event (List EspTwaiFrame) → Prop}

/-- The counter of an interface counts the frame lines of its ports. -/
lemma ins_eq [Fintype ι] (run : (machine SUBS iface).Run C w tr) (x : Iface) :
    inCount x w.shared =
      UInt32.ofNat (∑ i, if iface i = x then (frameLinesIn (taskTrace i tr)).length else 0) := by
  refine run.invariant (P := fun w tr => inCount x w.shared =
    UInt32.ofNat (∑ i, if iface i = x then (frameLinesIn (taskTrace i tr)).length else 0)) ?_ ?_
  · have none_ : ∑ i, (if iface i = x then
        (frameLinesIn (taskTrace i ([] : List (Shown ι Obs CanFrame)))).length else 0) = 0 := by
      refine Finset.sum_eq_zero fun i _ => ?_
      split <;> rfl
    rw [none_]
    cases x <;> rfl
  · intro v os v' os' e run inv _ st
    cases machine_sound st with
    | @port i e sh p os' step =>
      have add : ∀ (j : ι) (a b : List Obs),
          (if iface j = x then (frameLinesIn (a ++ b)).length else 0) =
            (if iface j = x then (frameLinesIn a).length else 0) +
              if iface j = x then (frameLinesIn b).length else 0 := by
        intro j a b
        split
        · rw [frameLinesIn_append, List.length_append]
        · rfl
      rw [sum_taskTrace (F := fun j os => if iface j = x then (frameLinesIn os).length else 0) add,
        UInt32.ofNat_add, ← inv, ← port_iface run i]
      exact (step_in step x).1
    | @canRx rx =>
      have same : inCount x (v.shared.canRxTask rx).1 = inCount x v.shared := by
        rw [Statics.canRxTask, Statics.drain_frame]
        cases x <;> rfl
      simp only [taskTrace_append, taskTrace_env, List.append_nil, same]
      exact inv

/-- A round of the receive task counts the frames it polls. -/
lemma drain_rxCount (st : Statics SUBS) (n : ℕ) (rx : List EspTwaiFrame) :
    (st.drain n rx).1.rxCount = st.rxCount + UInt32.ofNat (st.drain n rx).2.length := by
  induction n generalizing st rx with
  | zero => exact (UInt32.add_zero _).symm
  | succ n ih =>
    rw [Statics.drain]
    split
    · exact (UInt32.add_zero _).symm
    · rename_i f st' rest poll
      obtain ⟨e, rfl, rfl, rfl, -⟩ := Statics.pollRx_eq_some poll
      simp only [ih, List.length_cons, Statics.publish, UInt32.ofNat_add]
      rw [UInt32.add_assoc, UInt32.add_comm 1]
      rfl

/-- The ports leave the counter of received frames alone. -/
lemma step_rxCount {st st' : Statics SUBS} {p p' : Port} {e os} (step : Step st p e st' p' os) :
    st'.rxCount = st.rxCount := by
  have counted : ∀ b : Bool, (if b then p.iface.countIn st else st).rxCount = st.rxCount := by
    intro b
    cases b <;> cases p.iface <;> rfl
  have loop : ∀ {bytes : List UInt8} {st' : Statics SUBS} {p' : Port} {os : List Obs},
      Advance st p bytes st' p' os → st'.rxCount = st.rxCount := by
    intro bytes st' p' os adv
    cases adv with
    | more _ _ => rfl
    | overlong _ => rfl
    | lock _ _ => exact counted _
    | reply _ _ => exact counted _
  have resume : ∀ {rest : List UInt8} {item : Item} {st' : Statics SUBS} {p' : Port} {os : List Obs},
      Resume st p rest item st' p' os → st'.rxCount = st.rxCount := by
    intro rest item st' p' os res
    cases res with
    | frame => rfl
    | advance _ adv => exact loop adv
  cases step with
  | read _ adv => exact loop adv
  | wrote _ res => exact resume res
  | fail _ res => exact resume res
  | @granted cmd args op rest io _ =>
    cases op with
    | transmit f =>
      simp only [CanOp.run]
      rcases st.transmit_cases io.transmit f with eq | ⟨twai, esp, -, -, eq⟩ <;> rw [eq]
    | _ => rfl
  | frameFlush _ => cases p.iface <;> rfl
  | _ => rfl

lemma rxCount_eq (run : (machine SUBS iface).Run C w tr) :
    w.shared.rxCount = UInt32.ofNat (envTrace tr).length := by
  refine run.invariant (P := fun w tr => w.shared.rxCount = UInt32.ofNat (envTrace tr).length) rfl ?_
  intro v os v' os' e _ inv _ st
  cases machine_sound st with
  | port step =>
    simp only [envTrace_append, envTrace_task, List.append_nil, step_rxCount step]
    exact inv
  | canRx =>
    simp only [envTrace_append, envTrace_env, List.length_append, UInt32.ofNat_add, ← inv]
    exact drain_rxCount _ _ _

/-- What is handed over for a port, and what waits to be, was counted. -/
lemma handed_le (run : (machine SUBS iface).Run C w tr) (i : ι) :
    (handedTo (taskTrace i tr)).length + offered (w.task i) ≤ (frameLinesIn (taskTrace i tr)).length := by
  refine Tasks.task_invariant (J := fun _ p os _ =>
    (handedTo os).length + offered p ≤ (frameLinesIn os).length) i run (Nat.le_refl _) ?_ ?_ ?_
  · intro v os e sh p os' _ _ st le
    have next := (step_in (step_sound st) .serial).2
    rw [handedTo_append, frameLinesIn_append, List.length_append, List.length_append]
    omega
  · intro _ _ _ _ _ _ _ _ _ _ _ le
    exact le
  · intro _ _ _ _ _ _ _ _ le
    exact le

/-- The counters, over every run of any number of ports and the receive task in any order: `RX_COUNT` is the
number of frames polled, and `SER_IN` and `TCP_IN` are the numbers of received lines that parse as a
frame on the ports of either interface, all of them modulo `2 ^ 32`. For no port are more frames handed to the
controller than frame lines were counted, the one that waits for the manager included. -/
theorem counters_exact [Fintype ι] (run : (machine SUBS iface).Reach w tr) :
    w.shared.rxCount.toNat = (envTrace tr).length % 2 ^ 32 ∧
    (∀ x, (inCount x w.shared).toNat =
      (∑ i, if iface i = x then (frameLinesIn (taskTrace i tr)).length else 0) % 2 ^ 32) ∧
    ∀ i, (handedTo (taskTrace i tr)).length + offered (w.task i) ≤ (frameLinesIn (taskTrace i tr)).length := by
  refine ⟨?_, fun x => ?_, handed_le run⟩
  · rw [rxCount_eq run, UInt32.toNat_ofNat']
  · rw [ins_eq run x, UInt32.toNat_ofNat']

/-- A frame line is counted on a port that is not open. -/
theorem counters_exact_closed :
    ∃ w tr, (machine 4 fun b : Bool => if b then .tcp else .serial).Reach w tr ∧ w.shared.tcpIn.toNat = 1 ∧
      (∑ i, if (if i then Iface.tcp else .serial) = .tcp then (frameLinesIn (taskTrace i tr)).length else 0) %
        2 ^ 32 = 1 := by
  obtain ⟨w, tr, run, one⟩ :=
    (machine 4 fun b : Bool => if b then .tcp else .serial).run_exec (fun _ _ => True) (link true ++ send123 true)
      (fun w _ => w.shared.tcpIn.toNat = 1) (by decide +kernel)
  exact ⟨w, tr, run, one, ((counters_exact run).2.1 .tcp).symm.trans one⟩

end EspcanBr.System
