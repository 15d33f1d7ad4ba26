import EspcanBr.System.Firmware

/-!
# The manager and the ports' flags

The manager counts the ports that have the channel open, and the flags it counts live in the ports.
`Managed` says what a step of a port does to the manager and to the port's own flag together; `Managers`
is the invariant that keeps the count, the controller and its bitrate in step with all flags and with
the last accepted `Sn`.
-/

namespace EspcanBr.System
open Base Slcan Can Transport

variable {ι : Type*} [DecidableEq ι] {SUBS : UInt32} {iface : ι → Iface}

/-- What a step did through the manager. -/
def effects (os : List Obs) : List Effect :=
  os.filterMap fun
    | .effect e => some e
    | _ => none

@[simp] lemma effects_map (es : List Effect) : effects (es.map .effect) = es := by
  simp [effects]

lemma mem_effects {os : List Obs} {e : Effect} : e ∈ effects os ↔ .effect e ∈ os := by
  simp only [effects, List.mem_filterMap]
  constructor
  · rintro ⟨o, mem, eq⟩
    cases o with
    | effect e' =>
      cases eq
      exact mem
    | _ => cases eq
  · intro mem
    exact ⟨_, mem, rfl⟩

/-- What a step of a port does to the manager and to the port's flag. -/
inductive Managed (can : CanManager) (opened : Bool) : CanManager → Bool → List Effect → Prop where
  | keep {es} :
    (∀ e ∈ es, ∃ frame mode, e = .handed frame mode) →
    Managed can opened can opened es
  | bitrate {digit baud} :
    can.openCount = 0 →
    baudFromS digit = some baud →
    Managed can opened { can with baud := baud } opened [.bitrate digit]
  | open {listenOnly} :
    opened = false →
    Managed can opened (can.open listenOnly) true (starts can listenOnly ++ [.opened listenOnly])
  | close :
    opened = true →
    Managed can opened can.close false [.closed]

lemma Managed.nothing (can : CanManager) (opened : Bool) : Managed can opened can opened [] :=
  .keep fun _ mem => by cases mem

/-- The call that `dispatch` chose under a flag keeps the manager and the flag in step. -/
lemma run_managed {cmd args opened ts d} {op : CanOp} (disp : Dispatch cmd args opened ts d)
    (lock : d.await = .lock op) (io : TwaiIo) (st : Statics SUBS) :
    Managed st.can opened (op.run cmd io st opened).statics.can (op.run cmd io st opened).opened
      (op.run cmd io st opened).effects := by
  cases disp with
  | flags =>
    cases lock
    exact .nothing _ _
  | @bitrate d =>
    cases lock
    simp only [CanOp.run, CanManager.setBitrate]
    split
    · exact .nothing _ _
    · rename_i closed
      split
      · exact .bitrate (not_not.mp closed) ‹_›
      · exact .nothing _ _
  | «open» _ down =>
    cases lock
    exact .open down
  | close _ up =>
    cases lock
    exact .close up
  | @transmit f =>
    cases lock
    simp only [CanOp.run]
    rcases st.transmit_cases io.transmit f with eq | ⟨twai, esp, -, -, eq⟩
    · rw [eq]
      exact .nothing _ _
    · rw [eq]
      refine .keep fun e mem => ⟨esp, twai.mode, ?_⟩
      simpa using mem
  | _ => cases lock

/-- A step of a port keeps the manager and the port's flag in step. -/
lemma step_managed {st st' : Statics SUBS} {p p' : Port} {e os} (step : Step st p e st' p' os)
    (ok : p.Ok) : Managed st.can p.opened st'.can p'.opened (effects os) := by
  have loop : ∀ {st' p' os} (front : List Obs), Keeps st p st' p' → effects front = [] →
      os = [] ∨ (∃ line, os = [Obs.line line p.opened]) →
      Managed st.can p.opened st'.can p'.opened (effects (front ++ os)) := by
    intro st' p' os front keeps none shows
    rw [keeps.can, keeps.opened]
    rcases shows with rfl | ⟨line, rfl⟩
    · rw [List.append_nil, none]
      exact .nothing _ _
    · rw [effects, List.filterMap_append, ← effects, none]
      exact .nothing _ _
  cases step with
  | start linked =>
    rw [Port.Ok, linked] at ok
    rw [ok]
    exact .nothing _ _
  | read _ adv => exact loop [] (advance_keeps adv) rfl (advance_shows adv)
  | @wrote item left rest st' p' os _ res =>
    exact loop [.out left, .sent item 0] (resume_keeps res) rfl (resume_shows res)
  | @fail item left rest st' p' os _ res =>
    exact loop [.sent item left.length] (resume_keeps res) rfl (resume_shows res)
  | @granted cmd args op rest io wait =>
    rw [Port.Ok, wait] at ok
    obtain ⟨ts, ts', counted, disp⟩ := ok
    rw [effects_map]
    exact run_managed disp rfl io st
  | teardown tear =>
    rw [Port.Ok, tear] at ok
    exact .close ok
  | frameFlush _ =>
    rw [Iface.can_countOut]
    exact .nothing _ _
  | _ => exact .nothing _ _

/-- The bitrate an effect sets. -/
def accepted : Effect → Option BaudRate
  | .bitrate digit => baudFromS digit
  | _ => none

/-- The bitrate of the last `Sn` that any port had accepted, or the default. -/
def lastBitrate (tr : List (Shown ι Obs CanFrame)) : BaudRate :=
  (tr.filterMap fun
    | .task _ (.effect e) => accepted e
    | _ => none).getLast?.getD DEFAULT_BAUD

omit [DecidableEq ι] in
lemma lastBitrate_task (tr : List (Shown ι Obs CanFrame)) (i : ι) (os : List Obs) :
    lastBitrate (tr ++ os.map (.task i)) =
      ((effects os).filterMap accepted).getLast?.getD (lastBitrate tr) := by
  have own : (os.map (Shown.task (ω := CanFrame) i)).filterMap (fun
      | .task _ (.effect e) => accepted e
      | _ => none) = (effects os).filterMap accepted := by
    rw [List.filterMap_map, effects, List.filterMap_filterMap]
    refine congrArg (List.filterMap · os) (funext fun o => ?_)
    cases o <;> rfl
  rw [lastBitrate, List.filterMap_append, own, List.getLast?_append]
  cases ((effects os).filterMap accepted).getLast? <;> rfl

omit [DecidableEq ι] in
lemma lastBitrate_env (tr : List (Shown ι Obs CanFrame)) (fs : List CanFrame) :
    lastBitrate (tr ++ fs.map .env) = lastBitrate tr := by
  simp [lastBitrate]

/-- The controller runs exactly while the count is positive, at the manager's bitrate. -/
structure Started (can : CanManager) : Prop where
  on : can.twai.isSome ↔ can.openCount ≠ 0
  baud : ∀ twai, can.twai = some twai → twai.baud = can.baud

variable {can can' : CanManager} {opened opened' : Bool} {es : List Effect}

lemma toNat_succ {n : UInt32} (room : n.toNat + 1 < 2 ^ 32) : (n + 1).toNat = n.toNat + 1 := by
  rw [UInt32.toNat_add]
  exact Nat.mod_eq_of_lt room

lemma toNat_pred {n : UInt32} (pos : 0 < n.toNat) : (n - 1).toNat + 1 = n.toNat := by
  have le : (1 : UInt32) ≤ n := UInt32.le_iff_toNat_le.mpr pos
  rw [UInt32.toNat_sub_of_le _ _ le]
  exact Nat.sub_add_cancel pos

lemma gt_zero {n : UInt32} (pos : 0 < n.toNat) : n > 0 := UInt32.lt_iff_toNat_lt.mpr pos

/-- The count follows the flag, as long as it neither is zero under a flag that is up nor overflows. -/
lemma Managed.count (man : Managed can opened can' opened' es)
    (up : opened = true → 0 < can.openCount.toNat)
    (room : opened = false → opened' = true → can.openCount.toNat + 1 < 2 ^ 32) :
    can'.openCount.toNat + opened.toNat = can.openCount.toNat + opened'.toNat := by
  cases man with
  | keep _ => rfl
  | bitrate _ _ => rfl
  | «open» down =>
    subst down
    rw [CanManager.openCount_open, toNat_succ (room rfl rfl)]
    rfl
  | close open' =>
    subst open'
    have pos := up rfl
    rw [CanManager.openCount_close, if_pos (gt_zero pos)]
    exact toNat_pred pos

/-- The controller keeps running exactly while the count is positive, at the manager's bitrate. -/
lemma Managed.started (man : Managed can opened can' opened' es) (ok : Started can)
    (up : opened = true → 0 < can.openCount.toNat)
    (room : opened = false → opened' = true → can.openCount.toNat + 1 < 2 ^ 32) : Started can' := by
  cases man with
  | keep _ => exact ok
  | bitrate closed _ =>
    refine ⟨ok.on, fun twai run => ?_⟩
    have on := ok.on.mp (Option.isSome_iff_exists.mpr ⟨twai, run⟩)
    exact absurd closed on
  | @«open» listenOnly down =>
    have some' : (can.open listenOnly).twai.isSome := by
      rw [CanManager.twai_open]
      split
      · rfl
      · exact ok.on.mpr ‹_›
    have next : can.openCount + 1 ≠ 0 := by
      intro zero
      have succ := toNat_succ (room down rfl)
      rw [zero] at succ
      cases succ
    refine ⟨?_, fun twai run => ?_⟩
    · rw [CanManager.openCount_open]
      exact iff_of_true some' next
    · rw [CanManager.baud_open]
      rw [CanManager.twai_open] at run
      split at run
      · cases run
        rfl
      · exact ok.baud twai run
  | close open' =>
    have gt : can.openCount > 0 := gt_zero (up open')
    refine ⟨?_, fun twai run => ?_⟩
    · rw [CanManager.openCount_close, if_pos gt, CanManager.twai_close]
      have on := ok.on.mpr (UInt32.pos_iff_ne_zero.mp gt)
      split
      · simp [‹can.openCount = 1›]
      · simpa [pred_eq_zero, ‹¬ can.openCount = 1›] using on
    · rw [CanManager.baud_close]
      rw [CanManager.twai_close] at run
      split at run
      · cases run
      · exact ok.baud twai run

/-- The manager's bitrate is the last one accepted. -/
lemma Managed.bitrate_eq (man : Managed can opened can' opened' es) :
    can'.baud = (es.filterMap accepted).getLast?.getD can.baud := by
  cases man with
  | keep handed =>
    have none : es.filterMap accepted = [] := by
      rw [List.filterMap_eq_nil_iff]
      intro e mem
      obtain ⟨frame, mode, rfl⟩ := handed e mem
      rfl
    rw [none]
    rfl
  | bitrate _ baud =>
    simp [accepted, baud]
  | «open» _ =>
    rw [CanManager.baud_open, starts]
    split <;> rfl
  | close _ =>
    rw [CanManager.baud_close]
    rfl

/-- One for a port with a link. -/
def hasLink (p : Port) : ℕ := if p.pc = .idle then 0 else 1

lemma hasLink_busy {p : Port} (busy : p.pc ≠ .idle) : hasLink p = 1 := if_neg busy

lemma run_rxBus (op : CanOp) (cmd : UInt8) (io : TwaiIo) (st : Statics SUBS) (opened : Bool) :
    (op.run cmd io st opened).statics.rxBus = st.rxBus := by
  cases op with
  | transmit f =>
    simp only [CanOp.run]
    rcases st.transmit_cases io.transmit f with eq | ⟨twai, esp, -, -, eq⟩
    · rw [eq]
    · rw [eq]
  | _ => rfl

/-- What a step does to a port's subscription: it takes one, gives it back, or keeps it and leaves the bus
alone. -/
inductive Links (st : Statics SUBS) (p : Port) (st' : Statics SUBS) (p' : Port) : Prop where
  | take {bus pos} :
    p.pc = .idle →
    st.rxBus.subscriber = some (bus, pos) →
    st'.rxBus = bus →
    p'.pc ≠ .idle →
    Links st p st' p'
  | drop :
    p.pc = .linked ∨ p.pc = .returned →
    st'.rxBus = st.rxBus.unregister →
    p'.pc = .idle →
    Links st p st' p'
  | keep :
    p.pc ≠ .idle →
    st'.rxBus = st.rxBus →
    p'.pc ≠ .idle →
    Links st p st' p'

lemma step_links {st st' : Statics SUBS} {p p' : Port} {e os} (step : Step st p e st' p' os) :
    Links st p st' p' := by
  cases step with
  | connect idle sub => exact .take idle sub rfl (by simp)
  | drop pc => exact .drop pc rfl rfl
  | start pc => exact .keep (by simp [pc]) rfl (by simp)
  | read pc adv => exact .keep (by simp [pc]) (advance_keeps adv).rxBus adv.busy
  | eofOpen pc _ => exact .keep (by simp [pc]) rfl (by simp)
  | eofClosed pc _ => exact .keep (by simp [pc]) rfl (by simp)
  | recvOpen pc _ _ => exact .keep (by simp [pc]) rfl (by simp)
  | recvClosed pc _ _ => exact .keep (by simp [pc]) rfl (by simp [pc])
  | granted pc => exact .keep (by simp [pc]) (run_rxBus _ _ _ _ _) (by simp)
  | write pc _ _ => exact .keep (by simp [pc]) rfl (by simp)
  | wrote pc res => exact .keep (by simp [pc]) (resume_keeps res).rxBus res.busy
  | fail pc res => exact .keep (by simp [pc]) (resume_keeps res).rxBus res.busy
  | flush pc => exact .keep (by simp [pc]) rfl (by simp)
  | frameFlush pc => exact .keep (by simp [pc]) (Iface.rxBus_countOut _ _) (by simp)
  | teardown pc => exact .keep (by simp [pc]) rfl (by simp)

/-- A step of a port takes and gives back subscriber slots as links come and go. -/
lemma step_subscribers {st st' : Statics SUBS} {p p' : Port} {e os} (step : Step st p e st' p' os)
    (pos : p.pc ≠ .idle → 0 < st.rxBus.subscribers) (le : st.rxBus.subscribers ≤ SUBS.toNat) :
    st'.rxBus.subscribers + hasLink p = st.rxBus.subscribers + hasLink p' ∧
      st'.rxBus.subscribers ≤ SUBS.toNat := by
  cases step_links step with
  | take idle sub bus busy =>
    obtain ⟨free, rfl, -⟩ := PubSub.subscriber_eq_some sub
    rw [bus, hasLink, if_pos idle, hasLink_busy busy]
    exact ⟨rfl, free⟩
  | drop pc bus idle =>
    have busy : p.pc ≠ .idle := by
      rcases pc with eq | eq
      · exact eq ▸ by decide
      · exact eq ▸ by decide
    have pred := Nat.sub_add_cancel (pos busy)
    rw [bus, hasLink_busy busy, hasLink, if_pos idle]
    exact ⟨pred, (Nat.sub_le _ _).trans le⟩
  | keep busy bus busy' =>
    rw [bus, hasLink_busy busy, hasLink_busy busy']
    exact ⟨rfl, le⟩

lemma opened_le_hasLink {p : Port} (ok : p.Ok) : p.opened.toNat ≤ hasLink p := by
  rw [hasLink]
  split
  · rename_i idle
    rw [Port.Ok, idle] at ok
    rw [ok]
    exact Nat.le_refl 0
  · exact Bool.toNat_le _

variable [Fintype ι] {w : World (Statics SUBS) Port ι} {tr : List (Shown ι Obs CanFrame)}

/-- The manager agrees with the flags of all ports and with what was accepted. -/
structure Managers (w : World (Statics SUBS) Port ι) (tr : List (Shown ι Obs CanFrame)) : Prop where
  ok : ∀ i, (w.task i).Ok
  links : w.shared.rxBus.subscribers = ∑ i, hasLink (w.task i)
  slots : w.shared.rxBus.subscribers ≤ SUBS.toNat
  count : w.shared.can.openCount.toNat = ∑ i, (w.task i).opened.toNat
  started : Started w.shared.can
  last : w.shared.can.baud = lastBitrate tr

omit [DecidableEq ι] in
lemma Managers.up (inv : Managers w tr) (i : ι) (up : (w.task i).opened = true) :
    0 < w.shared.can.openCount.toNat := by
  have le := Finset.single_le_sum (f := fun j => (w.task j).opened.toNat)
    (fun _ _ => Nat.zero_le _) (Finset.mem_univ i)
  rw [inv.count]
  refine Nat.lt_of_lt_of_le ?_ le
  simp [up]

omit [DecidableEq ι] in
lemma Managers.linked (inv : Managers w tr) (i : ι) (busy : (w.task i).pc ≠ .idle) :
    0 < w.shared.rxBus.subscribers := by
  have le := Finset.single_le_sum (f := fun j => hasLink (w.task j))
    (fun _ _ => Nat.zero_le _) (Finset.mem_univ i)
  rw [inv.links]
  refine Nat.lt_of_lt_of_le ?_ le
  simp [hasLink_busy busy]

/-- A step of port `i` keeps the count from overflowing: no more ports are open than have links, and
no more have links than there are slots. -/
lemma Managers.room (inv : Managers w tr) {i e st p os} (step : Step w.shared (w.task i) e st p os)
    (down : (w.task i).opened = false) (up : p.opened = true) :
    w.shared.can.openCount.toNat + 1 < 2 ^ 32 := by
  obtain ⟨links, slots⟩ := step_subscribers step (inv.linked i) inv.slots
  have ok : ∀ j, (Function.update w.task i p j).Ok := by
    intro j
    rcases eq_or_ne j i with rfl | ne
    · rw [Function.update_self]
      exact step.ok (inv.ok j)
    · rw [Function.update_of_ne ne]
      exact inv.ok j
  have le : ∑ j, (Function.update w.task i p j).opened.toNat ≤
      ∑ j, hasLink (Function.update w.task i p j) :=
    Finset.sum_le_sum fun j _ => opened_le_hasLink (ok j)
  have flags := sum_update (fun q : Port => q.opened.toNat) w.task i p
  have linked := sum_update hasLink w.task i p
  have old := inv.links
  have count := inv.count
  have lt := SUBS.toNat_lt
  simp only [down, up, Bool.toNat_false, Bool.toNat_true] at flags
  omega

/-- Every step keeps the manager in agreement. -/
lemma Managers.step (inv : Managers w tr) {e w' os} (moves : Moves w e w' os) :
    Managers w' (tr ++ os) := by
  cases moves with
  | @port i e st p os step =>
    have man := step_managed step (inv.ok i)
    obtain ⟨links, slots⟩ := step_subscribers step (inv.linked i) inv.slots
    have flags := sum_update (fun q : Port => q.opened.toNat) w.task i p
    have linked := sum_update hasLink w.task i p
    have old := inv.links
    have oldCount := inv.count
    have count := man.count (inv.up i) (inv.room step)
    refine ⟨fun j => ?_, ?_, slots, ?_, man.started inv.started (inv.up i) (inv.room step), ?_⟩
    · rcases eq_or_ne j i with rfl | ne
      · simp only [Function.update_self]
        exact step.ok (inv.ok j)
      · simp only [Function.update_of_ne ne]
        exact inv.ok j
    · simp only
      omega
    · simp only
      omega
    · rw [lastBitrate_task, ← inv.last]
      exact man.bitrate_eq
  | @canRx rx =>
    have can := canRxTask_can w.shared rx
    have subs : (w.shared.canRxTask rx).1.rxBus.subscribers = w.shared.rxBus.subscribers :=
      Statics.drain_subscribers _ _ _
    refine ⟨inv.ok, ?_, ?_, ?_, ?_, ?_⟩
    · exact subs.trans inv.links
    · exact subs.le.trans inv.slots
    · simp only [can]
      exact inv.count
    · simp only [can]
      exact inv.started
    · rw [lastBitrate_env]
      simp only [can]
      exact inv.last

/-- In every reachable state the manager agrees with the flags of all ports. -/
lemma managers (run : (machine SUBS iface).Reach w tr) : Managers w tr := by
  refine run.invariant (P := Managers) ?_ ?_
  · have links : ∑ i : ι, hasLink (Port.new (iface i)) = 0 := Finset.sum_eq_zero fun _ _ => rfl
    have flags : ∑ i : ι, (Port.new (iface i)).opened.toNat = 0 := Finset.sum_eq_zero fun _ _ => rfl
    have off : Started CanManager.new :=
      ⟨iff_of_false Bool.false_ne_true (not_not.mpr rfl), fun _ run => by cases run⟩
    exact ⟨fun i => Port.Ok.new (iface i), links.symm, Nat.zero_le _, flags.symm, off, rfl⟩
  · intro t os u os' e _ inv _ st
    exact inv.step (machine_sound st)

omit [DecidableEq ι] in
/-- The count is positive exactly while some port has the channel open. -/
lemma Managers.exists_open (inv : Managers w tr) :
    (∃ j, (w.task j).opened = true) ↔ w.shared.can.openCount ≠ 0 := by
  constructor
  · rintro ⟨j, up⟩
    exact UInt32.pos_iff_ne_zero.mp (gt_zero (inv.up j up))
  · intro ne
    by_contra none
    have zero : w.shared.can.openCount.toNat = 0 := by
      rw [inv.count]
      refine Finset.sum_eq_zero fun j _ => ?_
      have down : (w.task j).opened = false := by
        rw [← Bool.not_eq_true]
        intro up
        exact none ⟨j, up⟩
      rw [down]
      rfl
    exact ne (UInt32.toNat_inj.mp zero)

/-- `open_twai` is only called while there is no controller. -/
lemma Managed.openTwai_off (man : Managed can opened can' opened' es) (ok : Started can) {twai}
    (mem : .openTwai twai ∈ es) : can.twai = none := by
  have off : can.openCount = 0 → can.twai = none := by
    intro zero
    cases run : can.twai with
    | none => rfl
    | some twai =>
      have on := ok.on.mp (by rw [run]; rfl)
      exact absurd zero on
  cases man with
  | keep handed =>
    obtain ⟨frame, mode, eq⟩ := handed _ mem
    cases eq
  | bitrate _ _ => simp at mem
  | «open» _ =>
    rw [starts] at mem
    split at mem
    · exact off ‹_›
    · simp at mem
  | close _ => simp at mem

/-- While the controller runs neither it nor the bitrate changes, unless it is stopped. -/
lemma Managed.on_bus (man : Managed can opened can' opened' es) (ok : Started can) {twai}
    (run : can.twai = some twai) :
    can'.baud = can.baud ∧ (can'.twai = some twai ∨ can'.twai = none) := by
  have on := ok.on.mp (Option.isSome_iff_exists.mpr ⟨twai, run⟩)
  cases man with
  | keep _ => exact ⟨rfl, .inl run⟩
  -- a bitrate is only set while no port is open
  | bitrate closed _ => exact absurd closed on
  | «open» _ =>
    rw [CanManager.twai_open, if_neg on]
    exact ⟨CanManager.baud_open _ _, .inl run⟩
  | close _ =>
    refine ⟨CanManager.baud_close _, ?_⟩
    rw [CanManager.twai_close]
    split
    · exact .inr rfl
    · exact .inl run

/-- A port that is done has left the manager alone if its flag was down, and closed it otherwise. -/
lemma step_returned {st st' : Statics SUBS} {p p' : Port} {e os} (step : Step st p e st' p' os)
    (mem : .returned ∈ os) :
    st' = st ∨ (p.pc = .teardown ∧ st'.can = st.can.close) := by
  cases step with
  | eofClosed _ _ => exact .inl rfl
  | teardown tear => exact .inr ⟨tear, rfl⟩
  | read _ adv =>
    obtain none | ⟨_, eq⟩ := mem_loop [] (advance_shows adv) mem
    · cases none
    · cases eq
  | @wrote item left rest st' p' os _ res =>
    obtain none | ⟨_, eq⟩ := mem_loop [.out left, .sent item 0] (resume_shows res) mem
    · simp at none
    · cases eq
  | @fail item left rest st' p' os _ res =>
    obtain none | ⟨_, eq⟩ := mem_loop [.sent item left.length] (resume_shows res) mem
    · simp at none
    · cases eq
  | granted _ => simp at mem
  | _ => simp at mem

/-- The manager and the ports, over every run: the count is the number of flags that are up, the
controller runs exactly while it is positive, at the manager's bitrate, which is the last one accepted;
a port without a running `run_port` has its flag down. Hence `open_twai` is only called without a
controller, the controller and the bitrate never change on the bus, and when a port is done the
controller stays as it was if another port is open and is off otherwise. -/
theorem manager_follows_ports (run : (machine SUBS iface).Reach w tr) :
    w.shared.can.openCount.toNat = (Finset.univ.filter fun i => (w.task i).opened = true).card ∧
    (w.shared.can.twai.isSome ↔ 0 < w.shared.can.openCount) ∧
    (∀ twai, w.shared.can.twai = some twai → twai.baud = w.shared.can.baud) ∧
    w.shared.can.baud = lastBitrate tr ∧
    (∀ i, (w.task i).pc = .idle ∨ (w.task i).pc = .linked ∨ (w.task i).pc = .returned →
      (w.task i).opened = false) ∧
    ∀ e w' os, (machine SUBS iface).step w e = some (w', os) →
      (∀ i twai, .task i (.effect (.openTwai twai)) ∈ os → w.shared.can.twai = none) ∧
      (∀ twai, w.shared.can.twai = some twai → w'.shared.can.baud = w.shared.can.baud ∧
        (w'.shared.can.twai = some twai ∨ w'.shared.can.twai = none)) ∧
      (∀ i, .task i .returned ∈ os → w'.shared.can.twai =
        if ∃ j, (w'.task j).opened = true then w.shared.can.twai else none) := by
  have inv := managers run
  refine ⟨?_, ?_, inv.started.baud, inv.last, fun i pc => ?_, fun e w' os st => ?_⟩
  · rw [inv.count, Finset.card_filter]
    refine Finset.sum_congr rfl fun i _ => ?_
    cases (w.task i).opened <;> rfl
  · rw [inv.started.on, UInt32.pos_iff_ne_zero]
  · have ok := inv.ok i
    rcases pc with pc | pc | pc
    · rwa [Port.Ok, pc] at ok
    · rwa [Port.Ok, pc] at ok
    · rwa [Port.Ok, pc] at ok
  · have inv' := inv.step (machine_sound st)
    cases machine_sound st with
    | @port i e sh p os step =>
      have man := step_managed step (inv.ok i)
      refine ⟨fun j twai mem => ?_, fun twai on => man.on_bus inv.started on, fun j mem => ?_⟩
      · obtain ⟨o, mem, eq⟩ := List.mem_map.mp mem
        cases eq
        exact man.openTwai_off inv.started (mem_effects.mpr mem)
      · obtain ⟨o, mem, eq⟩ := List.mem_map.mp mem
        cases eq
        split
        · rename_i other
          have on := inv'.started.on.mpr (inv'.exists_open.mp other)
          rcases step_returned step mem with rfl | ⟨-, close⟩
          · rfl
          · simp only [close, CanManager.twai_close] at on ⊢
            split at on
            · cases on
            · exact if_neg ‹_›
        · rename_i none
          have off := mt inv'.started.on.mp (fun ne => none (inv'.exists_open.mpr ne))
          exact Option.not_isSome_iff_eq_none.mp off
    | @canRx rx =>
      refine ⟨fun j twai mem => ?_, fun twai on => ?_, fun j mem => ?_⟩
      · simp at mem
      · rw [canRxTask_can]
        exact ⟨rfl, .inl on⟩
      · simp at mem

theorem manager_follows_ports_at :
    ∃ w tr, (machine (ι := Fin 2) 4 fun _ => .tcp).Reach w tr ∧
      (w.task 0).opened = true ∧ w.shared.can.twai = some ⟨.b1000K, .normal⟩ ∧
      w.shared.can.openCount.toNat =
        (Finset.univ.filter fun i => (w.task i).opened = true).card ∧
      w.shared.can.baud = lastBitrate tr := by
  obtain ⟨w, tr, run, up, on⟩ := Machine.run_exec (machine (ι := Fin 2) 4 fun _ => .tcp)
    (fun _ _ => True) (link 0 ++ command 0 ['S', '8'] 1 ++ command 0 ['O'] 1)
    (fun w _ => (w.task 0).opened = true ∧ w.shared.can.twai = some ⟨.b1000K, .normal⟩)
    (by decide +kernel)
  have follows := manager_follows_ports run
  exact ⟨w, tr, run, up, on, follows.1, follows.2.2.2.1⟩

end EspcanBr.System
