import EspcanBr.System.Manager
import EspcanBr.Tools.Slcan

/-!
# Received frames on their way to a link

What a port takes off its subscription and what it writes. Over any stretch of a run in which the port
keeps its subscription, the messages it took follow the channel (`step_follows`), the frames it wrote
are the ones it took under a flag that was up (`step_frames`), the bytes its link took are those of
its writes one after the other (`step_link`), and the counter of its interface counts the frames
(`outs_eq`).
-/

namespace EspcanBr.System
open Base Slcan Can Transport Tools

variable {ι : Type*} [DecidableEq ι] {SUBS : UInt32} {iface : ι → Iface}

/-- The frame an item carries. -/
def framesOf : Item → List CanFrame
  | .frame f _ => [f]
  | _ => []

/-- The frames of the writes that ended, completely or by a failure of the link. -/
def framesSent (os : List Obs) : List CanFrame :=
  os.flatMap fun
    | .sent item _ => framesOf item
    | _ => []

/-- The frame being written. -/
def pendingFrame (p : Port) : List CanFrame :=
  match p.pc with
  | .writing item _ _ => framesOf item
  | _ => []

/-- The frames taken off the subscription. -/
def taken (os : List Obs) : List CanFrame :=
  os.flatMap fun
    | .took f _ _ => [f]
    | _ => []

/-- The frames taken off the subscription under a flag that was up. -/
def tookOpen (os : List Obs) : List CanFrame :=
  os.flatMap fun
    | .took f _ true => [f]
    | _ => []

/-- The number of messages the subscription skipped. -/
def skipped (os : List Obs) : ℕ :=
  (os.map fun
    | .took _ lag _ => lag
    | _ => 0).sum

/-- The bytes the link took. -/
def outBytes (os : List Obs) : List UInt8 :=
  os.flatMap fun
    | .out bytes => bytes
    | _ => []

/-- The bytes of an item of which the link did not take the last `missing`. -/
def takenOf (item : Item) (missing : ℕ) : List UInt8 := item.bytes.take (item.bytes.length - missing)

/-- The bytes the link took of the writes that ended, one write after the other. -/
def sentBytes (os : List Obs) : List UInt8 :=
  os.flatMap fun
    | .sent item missing => takenOf item missing
    | _ => []

/-- The bytes the link took of the write in progress. -/
def partialBytes (p : Port) : List UInt8 :=
  match p.pc with
  | .writing item left _ => takenOf item left.length
  | _ => []

section Histories
variable (os os' : List Obs)

@[simp] lemma framesSent_append : framesSent (os ++ os') = framesSent os ++ framesSent os' :=
  List.flatMap_append

@[simp] lemma taken_append : taken (os ++ os') = taken os ++ taken os' := List.flatMap_append

@[simp] lemma tookOpen_append : tookOpen (os ++ os') = tookOpen os ++ tookOpen os' :=
  List.flatMap_append

@[simp] lemma skipped_append : skipped (os ++ os') = skipped os + skipped os' := by
  simp [skipped]

@[simp] lemma outBytes_append : outBytes (os ++ os') = outBytes os ++ outBytes os' :=
  List.flatMap_append

@[simp] lemma sentBytes_append : sentBytes (os ++ os') = sentBytes os ++ sentBytes os' :=
  List.flatMap_append

end Histories

/-- Observations that are not about the subscription or the link. -/
structure Quiet (os : List Obs) : Prop where
  frames : framesSent os = []
  taken : taken os = []
  tookOpen : tookOpen os = []
  skipped : skipped os = 0
  out : outBytes os = []
  sent : sentBytes os = []

lemma quiet_loop {p : Port} {os : List Obs} (shows : os = [] ∨ ∃ line, os = [Obs.line line p.opened]) :
    Quiet os := by
  rcases shows with rfl | ⟨line, rfl⟩
  · exact ⟨rfl, rfl, rfl, rfl, rfl, rfl⟩
  · exact ⟨rfl, rfl, rfl, rfl, rfl, rfl⟩

lemma quiet_effects (es : List Effect) : Quiet (es.map .effect) := by
  induction es with
  | nil => exact ⟨rfl, rfl, rfl, rfl, rfl, rfl⟩
  | cons e es ih =>
    exact ⟨ih.frames, ih.taken, ih.tookOpen, (Nat.zero_add _).trans ih.skipped, ih.out, ih.sent⟩

/-- Where the bytes loop waits no frame is being written, and nothing is written yet. -/
lemma advance_fresh {st st' : Statics SUBS} {p p' : Port} {bytes os}
    (adv : Advance st p bytes st' p' os) :
    pendingFrame p' = [] ∧ partialBytes p' = [] ∧
      ∀ item left rest, p'.pc = .writing item left rest → left = item.bytes := by
  cases adv with
  | more _ pc =>
    rcases pc with rfl | rfl
    · exact ⟨rfl, rfl, nofun⟩
    · exact ⟨rfl, rfl, nofun⟩
  | overlong _ =>
    refine ⟨rfl, rfl, fun item left rest eq => ?_⟩
    cases eq
    rfl
  | lock _ _ => exact ⟨rfl, rfl, nofun⟩
  | @reply cmd args reply rest ts counted _ _ =>
    refine ⟨rfl, ?_, fun item left rest eq => ?_⟩
    · simp [partialBytes, takenOf, Item.bytes]
    · cases eq
      rfl

lemma resume_fresh {st st' : Statics SUBS} {p p' : Port} {rest item os}
    (res : Resume st p rest item st' p' os) :
    pendingFrame p' = [] ∧ partialBytes p' = [] ∧
      ∀ item left rest, p'.pc = .writing item left rest → left = item.bytes := by
  cases res with
  | frame => exact ⟨rfl, rfl, nofun⟩
  | advance _ adv => exact advance_fresh adv

/-- The frames a step writes are the ones it took under a flag that was up, up to the one in progress. -/
lemma step_frames {st st' : Statics SUBS} {p p' : Port} {e os} (step : Step st p e st' p' os) :
    framesSent os ++ pendingFrame p' = pendingFrame p ++ tookOpen os := by
  have idle : ∀ {pc}, p.pc = pc → (∀ item left rest, pc ≠ .writing item left rest) →
      pendingFrame p = [] := by
    intro pc eq no
    rw [pendingFrame, eq]
    split
    · exact absurd rfl (no _ _ _)
    · rfl
  have ended : ∀ {item left rest}, p.pc = .writing item left rest → pendingFrame p = framesOf item := by
    intro item left rest pc
    rw [pendingFrame, pc]
  cases step with
  | read pc adv =>
    have quiet := quiet_loop (advance_shows adv)
    rw [quiet.frames, quiet.tookOpen, (advance_fresh adv).1, idle pc nofun]
  | granted pc =>
    have quiet := quiet_effects
    rw [(quiet _).frames, (quiet _).tookOpen, idle pc nofun]
    rfl
  | recvClosed pc _ _ =>
    rw [idle pc nofun, pendingFrame, pc]
    rfl
  | write pc _ _ =>
    rw [ended pc]
    exact (List.append_nil _).symm
  | @wrote item left rest st' p' os pc res =>
    have quiet := quiet_loop (resume_shows res)
    have front : framesSent (.out left :: .sent item 0 :: os) = framesOf item ++ framesSent os := rfl
    have none : tookOpen (.out left :: .sent item 0 :: os) = tookOpen os := rfl
    rw [front, none, quiet.frames, quiet.tookOpen, (resume_fresh res).1, ended pc, List.append_nil]
  | @fail item left rest st' p' os pc res =>
    have quiet := quiet_loop (resume_shows res)
    have front : framesSent (.sent item left.length :: os) = framesOf item ++ framesSent os := rfl
    have none : tookOpen (.sent item left.length :: os) = tookOpen os := rfl
    rw [front, none, quiet.frames, quiet.tookOpen, (resume_fresh res).1, ended pc, List.append_nil]
  | drop pc =>
    rcases pc with pc | pc
    · rw [idle pc nofun]
      rfl
    · rw [idle pc nofun]
      rfl
  | connect pc _ => rw [idle pc nofun]; rfl
  | start pc => rw [idle pc nofun]; rfl
  | eofOpen pc _ => rw [idle pc nofun]; rfl
  | eofClosed pc _ => rw [idle pc nofun]; rfl
  | recvOpen pc _ _ => rw [idle pc nofun]; rfl
  | flush pc => rw [idle pc nofun]; rfl
  | frameFlush pc => rw [idle pc nofun]; rfl
  | teardown pc => rw [idle pc nofun]; rfl

/-- What is left of a write is the end of its item. -/
def Tail (p : Port) : Prop := ∀ item left rest, p.pc = .writing item left rest → left <:+ item.bytes

lemma step_tail {st st' : Statics SUBS} {p p' : Port} {e os} (step : Step st p e st' p' os)
    (tail : Tail p) : Tail p' := by
  have fresh : ∀ {q : Port}, (∀ item left rest, q.pc = .writing item left rest → left = item.bytes) →
      Tail q := by
    intro q eq item left rest pc
    rw [eq item left rest pc]
  cases step with
  | read _ adv => exact fresh (advance_fresh adv).2.2
  | wrote _ res => exact fresh (resume_fresh res).2.2
  | fail _ res => exact fresh (resume_fresh res).2.2
  | granted _ =>
    intro item left rest pc
    injection pc with item left rest
    subst item left rest
    exact List.suffix_rfl
  | recvOpen _ _ _ =>
    intro item left rest pc
    cases pc
    exact List.suffix_rfl
  | recvClosed pc _ _ => exact fun item left rest eq => tail item left rest eq
  | write pc _ _ =>
    intro item left rest eq
    cases eq
    exact (List.drop_suffix _ _).trans (tail _ _ _ pc)
  | _ => exact nofun

/-- The bytes the link takes in a step complete the write in progress or go on with it. -/
lemma step_link {st st' : Statics SUBS} {p p' : Port} {e os} (step : Step st p e st' p' os)
    (tail : Tail p) : partialBytes p ++ outBytes os = sentBytes os ++ partialBytes p' := by
  have idle : ∀ {q : Port} {pc}, q.pc = pc → (∀ item left rest, pc ≠ .writing item left rest) →
      partialBytes q = [] := by
    intro q pc eq no
    rw [partialBytes, eq]
    split
    · exact absurd rfl (no _ _ _)
    · rfl
  have ended : ∀ {item left rest}, p.pc = .writing item left rest →
      partialBytes p = takenOf item left.length := by
    intro item left rest pc
    rw [partialBytes, pc]
  have start : ∀ item : Item, takenOf item item.bytes.length = [] := by
    intro item
    simp [takenOf]
  cases step with
  | read pc adv =>
    have quiet := quiet_loop (advance_shows adv)
    rw [quiet.out, quiet.sent, (advance_fresh adv).2.1, idle pc nofun]
  | @granted cmd args op rest io pc =>
    have quiet := quiet_effects (op.run cmd io st p.opened).effects
    rw [quiet.out, quiet.sent, idle pc nofun]
    exact (start (.reply (cmd :: args) _)).symm
  | @recvOpen millis frame lag pos timestamp pc _ _ =>
    rw [idle pc nofun]
    exact (start (.frame frame timestamp)).symm
  | recvClosed pc _ _ =>
    rw [idle pc nofun, partialBytes, pc]
    rfl
  | @write item left rest n pc pos lt =>
    -- the front of the item the link has, and the part it takes now
    obtain ⟨front, eq⟩ := tail _ _ _ pc
    have whole : item.bytes.length = front.length + left.length := by
      rw [← eq, List.length_append]
    have old : takenOf item left.length = front := by
      rw [takenOf, whole, Nat.add_sub_cancel, ← eq, List.take_left]
    have new : takenOf item (left.drop n).length = front ++ left.take n := by
      have len : item.bytes.length - (left.drop n).length = front.length + n := by
        rw [whole, List.length_drop]
        omega
      rw [takenOf, len, ← eq, List.take_length_add_append]
    have out : outBytes [.out (left.take n)] = left.take n := List.append_nil _
    rw [ended pc, old, out]
    exact new.symm
  | @wrote item left rest st' p' os pc res =>
    obtain ⟨front, eq⟩ := tail _ _ _ pc
    have quiet := quiet_loop (resume_shows res)
    have out : outBytes (.out left :: .sent item 0 :: os) = left ++ outBytes os := rfl
    have sent : sentBytes (.out left :: .sent item 0 :: os) = takenOf item 0 ++ sentBytes os := rfl
    have old : takenOf item left.length = front := by
      rw [takenOf, ← eq, List.length_append, Nat.add_sub_cancel, List.take_left]
    have all : takenOf item 0 = front ++ left := by
      rw [takenOf, Nat.sub_zero, List.take_length, eq]
    rw [out, sent, quiet.out, quiet.sent, (resume_fresh res).2.1, ended pc, old, all, List.append_nil,
      List.append_nil, List.append_nil]
  | @fail item left rest st' p' os pc res =>
    have quiet := quiet_loop (resume_shows res)
    have out : outBytes (.sent item left.length :: os) = outBytes os := rfl
    have sent : sentBytes (.sent item left.length :: os) = takenOf item left.length ++ sentBytes os :=
      rfl
    rw [out, sent, quiet.out, quiet.sent, (resume_fresh res).2.1, ended pc, List.append_nil,
      List.append_nil]
  | drop pc =>
    rcases pc with pc | pc
    · rw [idle pc nofun]
      rfl
    · rw [idle pc nofun]
      rfl
  | connect pc _ => rw [idle pc nofun]; rfl
  | start pc => rw [idle pc nofun]; rfl
  | eofOpen pc _ => rw [idle pc nofun]; rfl
  | eofClosed pc _ => rw [idle pc nofun]; rfl
  | flush pc => rw [idle pc nofun]; rfl
  | frameFlush pc => rw [idle pc nofun]; rfl
  | teardown pc => rw [idle pc nofun]; rfl

/-- A step of a port does not touch the messages of the channel. -/
lemma step_log {st st' : Statics SUBS} {p p' : Port} {e os} (step : Step st p e st' p' os) :
    st'.rxBus.queue = st.rxBus.queue ∧ st'.rxBus.nextId = st.rxBus.nextId := by
  cases step with
  | connect _ sub =>
    obtain ⟨-, rfl, rfl⟩ := PubSub.subscriber_eq_some sub
    exact ⟨rfl, rfl⟩
  | read _ adv =>
    rw [(advance_keeps adv).rxBus]
    exact ⟨rfl, rfl⟩
  | granted _ =>
    rw [run_rxBus]
    exact ⟨rfl, rfl⟩
  | wrote _ res =>
    rw [(resume_keeps res).rxBus]
    exact ⟨rfl, rfl⟩
  | fail _ res =>
    rw [(resume_keeps res).rxBus]
    exact ⟨rfl, rfl⟩
  | frameFlush _ =>
    rw [Iface.rxBus_countOut]
    exact ⟨rfl, rfl⟩
  | _ => exact ⟨rfl, rfl⟩

/-- A port that keeps its subscription stays where it is in it, or takes the next message. -/
lemma step_takes {st st' : Statics SUBS} {p p' : Port} {e os} (step : Step st p e st' p' os)
    (same : .connected ∉ os) :
    (p'.sub = p.sub ∧ taken os = [] ∧ skipped os = 0) ∨
    ∃ millis frame lag, e = .recv millis ∧ st.rxBus.nextMessagePure p.sub = some (frame, lag, p'.sub) ∧
      taken os = [frame] ∧ skipped os = lag := by
  have loop : ∀ (front : List Obs) {os : List Obs}, taken front = [] → skipped front = 0 → Quiet os →
      taken (front ++ os) = [] ∧ skipped (front ++ os) = 0 := by
    intro front os none zero quiet
    rw [taken_append, skipped_append, none, zero, quiet.taken, quiet.skipped]
    exact ⟨rfl, rfl⟩
  cases step with
  | connect _ _ => exact absurd List.mem_cons_self same
  | read _ adv =>
    have quiet := quiet_loop (advance_shows adv)
    exact .inl ⟨(advance_keeps adv).sub, quiet.taken, quiet.skipped⟩
  | granted _ => exact .inl ⟨rfl, (quiet_effects _).taken, (quiet_effects _).skipped⟩
  | recvOpen _ next _ => exact .inr ⟨_, _, _, rfl, next, rfl, rfl⟩
  | recvClosed _ next _ => exact .inr ⟨_, _, _, rfl, next, rfl, rfl⟩
  | @wrote item left rest st' p' os _ res =>
    have quiet := quiet_loop (resume_shows res)
    exact .inl ⟨(resume_keeps res).sub, loop [.out left, .sent item 0] rfl rfl quiet⟩
  | @fail item left rest st' p' os _ res =>
    have quiet := quiet_loop (resume_shows res)
    exact .inl ⟨(resume_keeps res).sub, loop [.sent item left.length] rfl rfl quiet⟩
  | _ => exact .inl ⟨rfl, rfl, rfl⟩

/-- The messages it takes follow the channel. -/
lemma step_follows {st st' : Statics SUBS} {p p' : Port} {e os} (step : Step st p e st' p' os)
    (same : .connected ∉ os) {due tk total lost} (fol : st.rxBus.Follows p.sub due tk total lost) :
    st'.rxBus.Follows p'.sub due (tk ++ taken os) total (lost + skipped os) := by
  obtain ⟨queue, nextId⟩ := step_log step
  rcases step_takes step same with ⟨sub, none, zero⟩ | ⟨_, _, _, -, next, took, lag⟩
  · rw [none, zero, List.append_nil, sub]
    exact fol.congr queue nextId
  · rw [took, lag]
    exact (fol.next next).congr queue nextId

/-- One for a frame that is written and not counted yet. -/
def flushing (p : Port) : ℕ := if p.pc = .frameFlush then 1 else 0

lemma step_iface {st st' : Statics SUBS} {p p' : Port} {e os} (step : Step st p e st' p' os) :
    p'.iface = p.iface := by
  cases step with
  | read _ adv => exact (advance_keeps adv).iface
  | wrote _ res => exact (resume_keeps res).iface
  | fail _ res => exact (resume_keeps res).iface
  | _ => rfl

lemma run_out (x : Iface) (op : CanOp) (cmd : UInt8) (io : TwaiIo) (st : Statics SUBS) (opened : Bool) :
    x.out (op.run cmd io st opened).statics = x.out st := by
  cases op with
  | transmit f =>
    simp only [CanOp.run]
    rcases st.transmit_cases io.transmit f with eq | ⟨twai, esp, -, -, eq⟩
    · rw [eq]
    · rw [eq]
      cases x <;> rfl
  | _ => cases x <;> rfl

lemma advance_flushing {st st' : Statics SUBS} {p p' : Port} {bytes os}
    (adv : Advance st p bytes st' p' os) : flushing p' = 0 := by
  cases adv with
  | more _ pc =>
    rcases pc with rfl | rfl
    · rfl
    · rfl
  | overlong _ => rfl
  | lock _ _ => rfl
  | reply _ _ => rfl

lemma resume_flushing {st st' : Statics SUBS} {p p' : Port} {rest item os}
    (res : Resume st p rest item st' p' os) : flushing p' = (framesOf item).length := by
  cases res with
  | frame => rfl
  | advance no adv =>
    rw [advance_flushing adv]
    cases item with
    | frame f ts => exact absurd rfl (no f ts)
    | _ => rfl

/-- A step counts the frames it writes on the port's own interface, once they are flushed. -/
lemma step_out {st st' : Statics SUBS} {p p' : Port} {e os} (step : Step st p e st' p' os) (x : Iface) :
    x.out st' + UInt32.ofNat (if p.iface = x then flushing p' else 0) =
      x.out st + UInt32.ofNat (if p.iface = x then flushing p + (framesSent os).length else 0) := by
  have idle : ∀ {pc}, p.pc = pc → pc ≠ .frameFlush → flushing p = 0 := by
    intro pc eq ne
    rw [flushing, eq, if_neg ne]
  have balance : x.out st' = x.out st → flushing p' = flushing p + (framesSent os).length →
      x.out st' + UInt32.ofNat (if p.iface = x then flushing p' else 0) =
        x.out st + UInt32.ofNat (if p.iface = x then flushing p + (framesSent os).length else 0) := by
    intro out flush
    rw [out, flush]
  have quiet : ∀ {pc}, p.pc = pc → pc ≠ .frameFlush → x.out st' = x.out st → flushing p' = 0 →
      framesSent os = [] →
      x.out st' + UInt32.ofNat (if p.iface = x then flushing p' else 0) =
        x.out st + UInt32.ofNat (if p.iface = x then flushing p + (framesSent os).length else 0) := by
    intro pc eq ne out flush none
    refine balance out ?_
    rw [flush, idle eq ne, none]
    rfl
  cases step with
  | read pc adv =>
    exact quiet pc nofun ((advance_keeps adv).out x) (advance_flushing adv)
      (quiet_loop (advance_shows adv)).frames
  | granted pc => exact quiet pc nofun (run_out _ _ _ _ _ _) rfl (quiet_effects _).frames
  | @wrote item left rest st' p' os pc res =>
    refine balance ((resume_keeps res).out x) ?_
    have front : framesSent (.out left :: .sent item 0 :: os) = framesOf item ++ framesSent os := rfl
    rw [front, (quiet_loop (resume_shows res)).frames, List.append_nil, idle pc nofun, Nat.zero_add]
    exact resume_flushing res
  | @fail item left rest st' p' os pc res =>
    refine balance ((resume_keeps res).out x) ?_
    have front : framesSent (.sent item left.length :: os) = framesOf item ++ framesSent os := rfl
    rw [front, (quiet_loop (resume_shows res)).frames, List.append_nil, idle pc nofun, Nat.zero_add]
    exact resume_flushing res
  | frameFlush pc =>
    have one : flushing p = 1 := by rw [flushing, if_pos pc]
    rw [Iface.out_countOut, one]
    rcases eq_or_ne p.iface x with eq | ne
    · rw [if_pos eq.symm, if_pos eq, if_pos eq]
      exact UInt32.add_zero _
    · rw [if_neg ne.symm, if_neg ne, if_neg ne]
      exact congrArg (· + _) (UInt32.add_zero _)
  | recvClosed pc _ _ =>
    refine quiet pc nofun rfl ?_ rfl
    rw [flushing, pc]
    rfl
  | drop pc =>
    rcases pc with pc | pc
    · exact quiet pc nofun rfl rfl rfl
    · exact quiet pc nofun rfl rfl rfl
  | connect pc _ => exact quiet pc nofun (by cases x <;> rfl) rfl rfl
  | start pc => exact quiet pc nofun rfl rfl rfl
  | eofOpen pc _ => exact quiet pc nofun rfl rfl rfl
  | eofClosed pc _ => exact quiet pc nofun rfl rfl rfl
  | recvOpen pc _ _ => exact quiet pc nofun rfl rfl rfl
  | write pc _ _ => exact quiet pc nofun rfl rfl rfl
  | flush pc => exact quiet pc nofun rfl rfl rfl
  | teardown pc => exact quiet pc nofun (by cases x <;> rfl) rfl rfl

section Stretches
variable {C : World (Statics SUBS) Port ι → Input ι Event (List EspTwaiFrame) → Prop}
  {s w : World (Statics SUBS) Port ι} {tr os : List (Shown ι Obs CanFrame)}

lemma port_iface (run : (machine SUBS iface).Run C w tr) (i : ι) : (w.task i).iface = iface i := by
  refine Tasks.task_invariant (J := fun _ p _ _ => p.iface = iface i) i run rfl ?_ ?_ ?_
  · intro v os e sh p os' _ _ st eq
    exact (step_iface (step_sound st)).trans eq
  · intro v os j e sh p os' _ _ _ _ eq
    exact eq
  · intro v os d sh os' _ _ _ eq
    exact eq

/-- The frames a port writes over a stretch of a run are the ones it took under a flag that was up. -/
lemma stretch_frames (run : (machine SUBS iface).Steps C s os w) (i : ι) :
    framesSent (taskTrace i os) ++ pendingFrame (w.task i) =
      pendingFrame (s.task i) ++ tookOpen (taskTrace i os) := by
  refine Tasks.task_invariant (J := fun _ p os _ =>
    framesSent os ++ pendingFrame p = pendingFrame (s.task i) ++ tookOpen os) i run ?_ ?_ ?_ ?_
  · exact (List.append_nil _).symm
  · intro v os e sh p os' _ _ st eq
    have balance := step_frames (step_sound st)
    rw [framesSent_append, tookOpen_append, List.append_assoc, balance, ← List.append_assoc, eq,
      List.append_assoc]
  · intro v os j e sh p os' _ _ _ _ eq
    exact eq
  · intro v os d sh os' _ _ _ eq
    exact eq

/-- The bytes a link takes over a stretch of a run are those of its writes, one after the other. -/
lemma stretch_link (run : (machine SUBS iface).Steps C s os w) (i : ι) (tail : Tail (s.task i)) :
    partialBytes (s.task i) ++ outBytes (taskTrace i os) =
      sentBytes (taskTrace i os) ++ partialBytes (w.task i) := by
  have both : Tail (w.task i) ∧ partialBytes (s.task i) ++ outBytes (taskTrace i os) =
      sentBytes (taskTrace i os) ++ partialBytes (w.task i) := by
    refine Tasks.task_invariant (J := fun _ p os _ =>
      Tail p ∧ partialBytes (s.task i) ++ outBytes os = sentBytes os ++ partialBytes p) i run ?_ ?_ ?_ ?_
    · exact ⟨tail, List.append_nil _⟩
    · rintro v os e sh p os' _ _ st ⟨tail, eq⟩
      have balance := step_link (step_sound st) tail
      refine ⟨step_tail (step_sound st) tail, ?_⟩
      rw [outBytes_append, sentBytes_append, ← List.append_assoc, eq, List.append_assoc, balance,
        List.append_assoc]
    · intro v os j e sh p os' _ _ _ _ both
      exact both
    · intro v os d sh os' _ _ _ both
      exact both
  exact both.2

/-- The receive task adds the frames it polled to what follows the channel. -/
lemma canRx_follows {st : Statics SUBS} {pos due tk total lost}
    (fol : st.rxBus.Follows pos due tk total lost) (rx : List EspTwaiFrame) :
    (st.canRxTask rx).1.rxBus.Follows pos (due ++ (st.canRxTask rx).2) tk
      (total + (st.canRxTask rx).2.length) lost := by
  refine Statics.drain_bus (P := fun q fs => q.Follows pos (due ++ fs) tk (total + fs.length) lost)
    ?_ [] ?_ 16 rx
  · intro q fs f fol
    have next := fol.publish f
    rwa [List.append_assoc, Nat.add_assoc, ← List.length_singleton (a := f), ← List.length_append]
      at next
  · rwa [List.append_nil]

/-- Over a stretch of a run in which a port keeps its subscription, the messages it takes follow what
was unread before and what is polled. -/
lemma stretch_follows (run : (machine SUBS iface).Steps C s os w) (i : ι)
    (le : (s.task i).sub ≤ s.shared.rxBus.nextId) (same : .connected ∉ taskTrace i os) :
    w.shared.rxBus.Follows (w.task i).sub
      (s.shared.rxBus.avail (s.task i).sub ++ envTrace os) (taken (taskTrace i os))
      (s.shared.rxBus.behind (s.task i).sub + (envTrace os).length) (skipped (taskTrace i os)) := by
  refine Tasks.task_invariant (J := fun sh p os ws => .connected ∉ os →
    sh.rxBus.Follows p.sub (s.shared.rxBus.avail (s.task i).sub ++ ws) (taken os)
      (s.shared.rxBus.behind (s.task i).sub + ws.length) (skipped os)) i run ?_ ?_ ?_ ?_ same
  · intro _
    rw [List.append_nil]
    exact PubSub.Follows.start le
  · intro v os e sh p os' _ _ st fol same
    rw [List.mem_append, not_or] at same
    rw [taken_append, skipped_append]
    exact step_follows (step_sound st) same.2 (fol same.1)
  · intro v os j e sh p os' _ _ _ st fol same
    obtain ⟨queue, nextId⟩ := step_log (step_sound st)
    exact (fol same).congr queue nextId
  · intro v os rx sh os' _ _ st fol same
    have round : v.shared.canRxTask rx = (sh, os') := Option.some.inj st
    have next := canRx_follows (fol same) rx
    rwa [round, List.append_assoc, Nat.add_assoc, ← List.length_append] at next

/-- A port never reads ahead of the channel. -/
lemma sub_le (run : (machine SUBS iface).Run C w tr) (i : ι) :
    (w.task i).sub ≤ w.shared.rxBus.nextId := by
  refine Tasks.task_invariant (J := fun sh p _ _ => p.sub ≤ sh.rxBus.nextId) i run (Nat.zero_le _)
    ?_ ?_ ?_
  · intro v os e sh p os' _ _ st le
    have step := step_sound st
    by_cases same : .connected ∈ os'
    · cases step with
      | connect _ sub =>
        obtain ⟨-, rfl, rfl⟩ := PubSub.subscriber_eq_some sub
        exact Nat.le_refl _
      | read _ adv =>
        obtain none | ⟨_, eq⟩ := mem_loop [] (advance_shows adv) same
        · cases none
        · cases eq
      | @wrote item left rest _ _ _ _ res =>
        obtain none | ⟨_, eq⟩ := mem_loop [.out left, .sent item 0] (resume_shows res) same
        · simp at none
        · cases eq
      | @fail item left rest _ _ _ _ res =>
        obtain none | ⟨_, eq⟩ := mem_loop [.sent item left.length] (resume_shows res) same
        · simp at none
        · cases eq
      | _ => simp at same
    -- without a new subscription the position only moves along the channel
    · exact (step_follows step same (PubSub.Follows.start le)).pos_le
  · intro v os j e sh p os' _ _ _ st le
    rw [(step_log (step_sound st)).2]
    exact le
  · intro v os rx sh os' _ _ st le
    have round : v.shared.canRxTask rx = (sh, os') := Option.some.inj st
    have next := (canRx_follows (PubSub.Follows.start le) rx).pos_le
    rwa [round] at next

/-- The frames polled are frames of the driver, over any stretch of a run. -/
lemma stretch_polled (run : (machine SUBS iface).Steps C s os w) :
    ∀ f ∈ envTrace os, ∃ e, f = fromEsp e := by
  refine run.invariant (P := fun _ os => ∀ f ∈ envTrace os, ∃ e, f = fromEsp e) nofun ?_
  intro v os v' os' e _ all _ st f mem
  rw [envTrace_append] at mem
  rcases List.mem_append.mp mem with mem | mem
  · exact all f mem
  · cases machine_sound st with
    | port _ =>
      rw [envTrace_task] at mem
      cases mem
    | canRx =>
      rw [envTrace_env] at mem
      exact Statics.drain_fromEsp _ _ _ f mem

/-- The out counter of an interface and the frames that are flushed but not counted yet make up the
frames its ports have written. -/
lemma outs_eq [Fintype ι] (run : (machine SUBS iface).Run C w tr) (x : Iface) :
    x.out w.shared + UInt32.ofNat (∑ i, if (w.task i).iface = x then flushing (w.task i) else 0) =
      UInt32.ofNat (∑ i, if iface i = x then (framesSent (taskTrace i tr)).length else 0) := by
  refine run.invariant (P := fun w tr =>
    x.out w.shared + UInt32.ofNat (∑ i, if (w.task i).iface = x then flushing (w.task i) else 0) =
      UInt32.ofNat (∑ i, if iface i = x then (framesSent (taskTrace i tr)).length else 0)) ?_ ?_
  · have none : ∑ i, (if iface i = x then
        (framesSent (taskTrace i ([] : List (Shown ι Obs CanFrame)))).length else 0) = 0 := by
      refine Finset.sum_eq_zero fun i _ => ?_
      split <;> rfl
    have idle : ∑ i, (if (Port.new (iface i)).iface = x then flushing (Port.new (iface i)) else 0) = 0 := by
      refine Finset.sum_eq_zero fun i _ => ?_
      split <;> rfl
    rw [none]
    have zero : x.out (Statics.new : Statics SUBS) = 0 := by cases x <;> rfl
    calc x.out (Statics.new : Statics SUBS) +
        UInt32.ofNat (∑ i, if (Port.new (iface i)).iface = x then flushing (Port.new (iface i)) else 0)
        = 0 + UInt32.ofNat 0 := by rw [idle, zero]
      _ = UInt32.ofNat 0 := rfl
  · intro v os v' os' e run inv _ st
    cases machine_sound st with
    | @port i e sh p os' step =>
      have add : ∀ (j : ι) (a b : List Obs),
          (if iface j = x then (framesSent (a ++ b)).length else 0) =
            (if iface j = x then (framesSent a).length else 0) +
              if iface j = x then (framesSent b).length else 0 := by
        intro j a b
        split
        · rw [framesSent_append, List.length_append]
        · rfl
      have sent := sum_taskTrace (F := fun j os => if iface j = x then (framesSent os).length else 0)
        add os i os'
      have flushed := sum_update (fun q : Port => if q.iface = x then flushing q else 0) v.task i p
      have own := step_out step x
      have le := Finset.single_le_sum
        (f := fun j => if (v.task j).iface = x then flushing (v.task j) else 0)
        (fun _ _ => Nat.zero_le _) (Finset.mem_univ i)
      -- the port that moved, and the rest of the sum
      obtain ⟨rest, split⟩ := Nat.exists_eq_add_of_le le
      have new : ∑ j, (if (Function.update v.task i p j).iface = x then
          flushing (Function.update v.task i p j) else 0) =
          (if p.iface = x then flushing p else 0) + rest := by omega
      have both : (if (v.task i).iface = x then flushing (v.task i) + (framesSent os').length else 0) =
          (if (v.task i).iface = x then flushing (v.task i) else 0) +
            if iface i = x then (framesSent os').length else 0 := by
        rw [port_iface run i]
        split
        · rfl
        · rfl
      rw [both, ← step_iface step] at own
      rw [split] at inv
      simp only
      rw [sent, new, UInt32.ofNat_add, ← UInt32.add_assoc, own, UInt32.ofNat_add, UInt32.ofNat_add, ← inv,
        step_iface step, UInt32.ofNat_add]
      ac_rfl
    | @canRx rx =>
      have same : x.out (v.shared.canRxTask rx).1 = x.out v.shared := by
        rw [Statics.canRxTask, Statics.drain_frame]
        cases x <;> rfl
      simp only [taskTrace_append, taskTrace_env, List.append_nil, same]
      exact inv

end Stretches

/-- The frame lines of the writes that ended. -/
def frameLines (os : List Obs) : List (List UInt8) :=
  os.flatMap fun
    | .sent (.frame f timestamp) _ => [formatFrame f timestamp]
    | _ => []

/-- The frames of the writes that ended and that the link took completely. -/
def framesWritten (os : List Obs) : List CanFrame :=
  os.flatMap fun
    | .sent item 0 => framesOf item
    | _ => []

/-- The port is in the middle of a write, the flush of a frame included. -/
def midWrite (p : Port) : Bool :=
  match p.pc with
  | .writing _ _ _ => true
  | .frameFlush => true
  | _ => false

lemma tookOpen_sublist (os : List Obs) : (tookOpen os).Sublist (taken os) := by
  induction os with
  | nil => exact List.Sublist.refl _
  | cons o os ih =>
    cases o with
    | took f lag opened =>
      cases opened with
      | true => exact ih.cons_cons f
      | false => exact ih.cons f
    | _ => exact ih

/-- The host decodes the frame lines to what was polled. -/
lemma decode_frameLines {os : List Obs} (polled : ∀ f ∈ framesSent os, ∃ e, f = fromEsp e) :
    (frameLines os).map (fun line => decodeFrame line.dropLast) =
      (framesSent os).map fun f => some (view f) := by
  induction os with
  | nil => rfl
  | cons o os ih =>
    cases o with
    | sent item missing =>
      cases item with
      | frame f timestamp =>
        obtain ⟨e, rfl⟩ := polled f List.mem_cons_self
        have head := decodeFrame_formatFrame (fromEsp_narrow e) timestamp
        have tail := ih fun g mem => polled g (List.mem_cons_of_mem _ mem)
        exact List.cons_eq_cons.mpr ⟨head, tail⟩
      | _ => exact ih polled
    | _ => exact ih polled

variable {s s' w : World (Statics SUBS) Port ι} {tr os os' : List (Shown ι Obs CanFrame)}

/-- Received frames, over every run from the moment a port takes its subscription. Its frame lines
decode to a subsequence of the frames polled since; the frames written, the one in progress included,
are those taken off the subscription under a flag that was up; the bytes the link took are those of the
port's writes one after the other; and while no port of an interface is in the middle of a write its
out counter is the number of frame lines whose write ended, modulo `2 ^ 32`. -/
theorem frames_received [Fintype ι] {i : ι} (reach : (machine SUBS iface).Reach s tr)
    (conn : (machine SUBS iface).step s (.task i .connect) = some (s', os'))
    (run : (machine SUBS iface).Steps (fun _ _ => True) s' os w)
    (same : .connected ∉ taskTrace i os) :
    (∃ fs : List CanFrame, fs.Sublist (envTrace os) ∧
      (frameLines (taskTrace i os)).map (fun line => decodeFrame line.dropLast) =
        fs.map fun f => some (view f)) ∧
    framesSent (taskTrace i os) ++ pendingFrame (w.task i) = tookOpen (taskTrace i os) ∧
    outBytes (taskTrace i os) = sentBytes (taskTrace i os) ++ partialBytes (w.task i) ∧
    ∀ x, (∀ j, iface j = x → midWrite (w.task j) = false) → (x.out w.shared).toNat =
      (∑ j, if iface j = x then (framesSent (taskTrace j (tr ++ os' ++ os))).length else 0) % 2 ^ 32 := by
  have full : (machine SUBS iface).Reach w (tr ++ os' ++ os) := (reach.snoc trivial conn).trans run
  have start : (s'.task i).pc = .linked ∧
      (s'.shared.rxBus.avail (s'.task i).sub = [] ∧ (s'.task i).sub ≤ s'.shared.rxBus.nextId) := by
    have le := sub_le (reach.snoc trivial conn) i
    cases machine_sound conn with
    | @port _ _ st p os step =>
      cases step with
      | connect _ sub =>
        obtain ⟨-, rfl, rfl⟩ := PubSub.subscriber_eq_some sub
        simp only [Function.update_self] at le ⊢
        exact ⟨trivial, PubSub.avail_eq_nil (Nat.sub_self _), le⟩
  obtain ⟨linked, fresh, le⟩ := start
  have frames := stretch_frames run i
  have link := stretch_link run i (by rw [Tail, linked]; simp)
  have fol := stretch_follows run i le same
  have noFrame : pendingFrame (s'.task i) = [] := by rw [pendingFrame, linked]
  have noBytes : partialBytes (s'.task i) = [] := by rw [partialBytes, linked]
  rw [noFrame, List.nil_append] at frames
  rw [noBytes, List.nil_append] at link
  rw [fresh, List.nil_append] at fol
  -- written, taken under a flag that was up, taken, polled: each is a part of the next
  have sub : (framesSent (taskTrace i os)).Sublist (envTrace os) := by
    have own : (framesSent (taskTrace i os)).Sublist (tookOpen (taskTrace i os)) := by
      rw [← frames]
      exact List.sublist_append_left _ _
    exact (own.trans (tookOpen_sublist _)).trans
      ((List.sublist_append_left _ _).trans fol.sublist)
  refine ⟨⟨_, sub, decode_frameLines fun f mem => stretch_polled run f (sub.subset mem)⟩, frames, link,
    fun x idle => ?_⟩
  have outs := outs_eq full x
  -- nothing is flushed but not counted
  have none : ∑ j, (if (w.task j).iface = x then flushing (w.task j) else 0) = 0 := by
    refine Finset.sum_eq_zero fun j _ => ?_
    rw [port_iface full j]
    split
    · have mid := idle j ‹_›
      rw [flushing, if_neg]
      intro flush
      rw [midWrite, flush] at mid
      cases mid
    · rfl
  rw [none] at outs
  have sum : x.out w.shared = UInt32.ofNat _ := (UInt32.add_zero _).symm.trans outs
  rw [sum, UInt32.toNat_ofNat']

theorem frames_received_at :
    ∃ s tr s' os' w os, (machine (ι := Fin 2) 4 fun _ => .tcp).Reach s tr ∧
      (machine (ι := Fin 2) 4 fun _ => .tcp).step s (.task 0 .connect) = some (s', os') ∧
      (machine (ι := Fin 2) 4 fun _ => .tcp).Steps (fun _ _ => True) s' os w ∧
      .connected ∉ taskTrace 0 os ∧
      frameLines (taskTrace 0 os) = [['t', '1', '2', '3', '0', '\r'].map ch] ∧
      ∃ fs : List CanFrame, fs.Sublist (envTrace os) ∧
        (frameLines (taskTrace 0 os)).map (fun line => decodeFrame line.dropLast) =
          fs.map fun f => some (view f) := by
  obtain ⟨s, tr, s', os', w, os, reach, conn, run, same, lines⟩ :=
    Machine.run_step_exec (machine (ι := Fin 2) 4 fun _ => .tcp) (fun _ _ => True) []
      (.task 0 .connect)
      (([.task 0 .start] : Inputs (Fin 2)) ++ command 0 ['O'] 1 ++
        ([.env [frame123], .task 0 (.recv 0), .task 0 (.write 6), .task 0 .flush] : Inputs (Fin 2)))
      (fun _ _ _ os => .connected ∉ taskTrace 0 os ∧
        frameLines (taskTrace 0 os) = [['t', '1', '2', '3', '0', '\r'].map ch])
      (by decide +kernel)
  exact ⟨s, tr, s', os', w, os, reach, conn, run, same, lines, (frames_received reach conn run same).1⟩

/-- A frame line that the link failed to take is counted all the same. -/
theorem cut_line_counted :
    ¬ ∀ w tr, (machine (ι := Fin 2) 4 fun _ => .tcp).Reach w tr →
      (∀ j, midWrite (w.task j) = false) →
      w.shared.tcpOut.toNat = (∑ j, (framesWritten (taskTrace j tr)).length) % 2 ^ 32 := by
  obtain ⟨w, tr, run, idle, out, none⟩ := Machine.run_exec (machine (ι := Fin 2) 4 fun _ => .tcp)
    (fun _ _ => True)
    (link 0 ++ command 0 ['O'] 1 ++
      ([.env [frame123], .task 0 (.recv 0), .task 0 .fail, .task 0 .flush] : Inputs (Fin 2)))
    (fun w tr => (∀ j, midWrite (w.task j) = false) ∧ w.shared.tcpOut = 1 ∧
      ∑ j, (framesWritten (taskTrace j tr)).length = 0)
    (by decide +kernel)
  intro counted
  have eq := counted w tr run idle
  rw [out, none] at eq
  cases eq

end EspcanBr.System
