import EspcanBr.System.Firmware

/-!
# Transmit commands and their answers

`served` reads a port's history as the lines it dispatched, each with the frames the controller took for
it and with its answer. `Answered` says what may stand in such an entry, and `Serving` relates the
newest one to where the port waits. The transmit counter counts what the controller took from all ports.
-/

namespace EspcanBr.System
open Base Slcan Can Transport

variable {ι : Type*} [DecidableEq ι] {SUBS : UInt32} {iface : ι → Iface}

/-- A dispatched line: the flag then, the frames handed over for it, and its answer once it is out. -/
structure Served where
  line : List UInt8
  opened : Bool
  handed : List EspTwaiFrame
  answer : Option (List UInt8)
  deriving DecidableEq

/-- The dispatched lines after one more observation, newest first. -/
def serve : List Served → Obs → List Served
  | rs, .line line opened => ⟨line, opened, [], none⟩ :: rs
  | r :: rs, .effect (.handed frame _) => { r with handed := r.handed ++ [frame] } :: rs
  | r :: rs, .sent (.reply _ bytes) 0 => { r with answer := some bytes } :: rs
  | rs, _ => rs

/-- The lines a port dispatched, newest first. -/
def served (os : List Obs) : List Served := os.foldl serve []

/-- The frames handed to the controller. -/
def handedTo (os : List Obs) : List EspTwaiFrame :=
  os.filterMap fun
    | .effect (.handed frame _) => some frame
    | _ => none

/-- The lines that were answered, with their answers. -/
def answers (os : List Obs) : List (List UInt8 × List UInt8) :=
  os.filterMap fun
    | .sent (.reply line bytes) 0 => some (line, bytes)
    | _ => none

/-- A transmit confirmation. -/
def isAck (bytes : List UInt8) : Prop := bytes = [ch 'z', CR] ∨ bytes = [ch 'Z', CR]

instance (bytes : List UInt8) : Decidable (isAck bytes) := inferInstanceAs (Decidable (_ ∨ _))

/-- The confirmation of a frame: `Z` for 29-bit identifiers. -/
def ackOf (e : EspTwaiFrame) : List UInt8 := [if e.id.isExtended then ch 'Z' else ch 'z', CR]

/-- The lines that were answered with a confirmation. -/
def confirmed (os : List Obs) : List (List UInt8 × List UInt8) :=
  (answers os).filter fun a => isAck a.2

/-- An answer to a line: a confirmation for the one frame that the line denotes and that was handed
over under a flag that was up, or another answer and no frame. -/
inductive Answered (line : List UInt8) (opened : Bool) : List EspTwaiFrame → List UInt8 → Prop where
  | taken {e} :
    opened = true →
    Denotes line e →
    Answered line opened [e] (ackOf e)
  | other {bytes} :
    ¬ isAck bytes →
    Answered line opened [] bytes

/-- An entry whose answer is out. -/
def Served.Done (r : Served) : Prop := ∃ bytes, r.answer = some bytes ∧ Answered r.line r.opened r.handed bytes

/-- The newest entry and where the port waits. -/
inductive Serving (p : Port) : List Served → Prop where
  | done {rs} :
    (∀ cmd args op rest, p.pc ≠ .lock cmd args op rest) →
    (∀ line bytes left rest, p.pc ≠ .writing (.reply line bytes) left rest) →
    (∀ r ∈ rs, r.Done) →
    Serving p rs
  | locked {cmd args op rest rs} :
    p.pc = .lock cmd args op rest →
    (∀ r ∈ rs, r.Done) →
    Serving p (⟨cmd :: args, p.opened, [], none⟩ :: rs)
  | replying {line bytes left rest opened handed rs} :
    p.pc = .writing (.reply line bytes) left rest →
    Answered line opened handed bytes →
    (∀ r ∈ rs, r.Done) →
    Serving p (⟨line, opened, handed, none⟩ :: rs)

lemma isAck_ackOf (e : EspTwaiFrame) : isAck (ackOf e) := by
  rw [ackOf]
  cases e.id.isExtended with
  | true => exact .inr rfl
  | false => exact .inl rfl

/-- `dispatch` confirms nothing by itself. -/
lemma reply_not_ack {cmd args opened ts ts' counted bytes}
    (disp : Dispatch cmd args opened ts ⟨ts', counted, .reply bytes⟩) : ¬ isAck bytes := by
  cases disp <;> decide

/-- The confirmation that `dispatch` picks by the letter is the one of the frame. -/
lemma ack_eq_ackOf {cmd args e} (den : Denotes (cmd :: args) e) : Transport.ack cmd = ackOf e := by
  have head := den.head
  rw [List.head?_cons, Option.some.injEq] at head
  rw [head, Transport.ack, ackOf]
  cases e.id.isExtended <;> cases e.isRemote <;> rfl

/-- The frames among the effects. -/
def handedBy (es : List Effect) : List EspTwaiFrame :=
  es.filterMap fun
    | .handed frame _ => some frame
    | _ => none

lemma cr_not_ack : ¬ isAck [CR] := by decide

lemma bell_not_ack : ¬ isAck [BELL] := by decide

/-- A call on the manager hands over the frame its line denotes and replies with a confirmation, or
hands over nothing and replies otherwise. -/
lemma run_answered {cmd args opened ts ts' counted op}
    (disp : Dispatch cmd args opened ts ⟨ts', counted, .lock op⟩) (io : TwaiIo) (st : Statics SUBS) :
    Answered (cmd :: args) opened (handedBy (op.run cmd io st opened).effects)
      (op.run cmd io st opened).reply := by
  cases disp with
  | flags =>
    refine .other fun acked => ?_
    rcases acked with eq | eq
    · cases eq
    · cases eq
  | @bitrate d =>
    simp only [CanOp.run, CanManager.setBitrate]
    split
    · exact .other bell_not_ack
    · split
      · exact .other cr_not_ack
      · exact .other bell_not_ack
  | «open» _ down =>
    have none : ∀ lo, handedBy (starts st.can lo ++ [.opened lo]) = [] := by
      intro lo
      rw [starts]
      split <;> rfl
    simp only [CanOp.run, none]
    exact .other cr_not_ack
  | close _ up => exact .other cr_not_ack
  | @transmit f _ up parsed =>
    simp only [CanOp.run]
    rcases st.transmit_cases io.transmit f with eq | ⟨twai, esp, -, conv, eq⟩
    · simp only [eq]
      exact .other bell_not_ack
    · simp only [eq]
      have den : Denotes (cmd :: args) esp := by
        refine toEsp_parseTx.mp ?_
        rw [parsed]
        exact conv
      have acked := Answered.taken up den
      rwa [← ack_eq_ackOf den] at acked

lemma serve_effects (r : Served) (rs : List Served) (es : List Effect) :
    (es.map Obs.effect).foldl serve (r :: rs) = { r with handed := r.handed ++ handedBy es } :: rs := by
  induction es generalizing r with
  | nil => simp [handedBy]
  | cons e es ih =>
    rw [List.map_cons, List.foldl_cons]
    cases e with
    | handed frame mode =>
      rw [serve, ih]
      simp [handedBy]
    | _ => exact ih r

/-- The bytes loop starts a new entry when the newest one is complete. -/
lemma advance_serving {st st' : Statics SUBS} {p p' : Port} {bytes os}
    (adv : Advance st p bytes st' p' os)
    {rs} (done : ∀ r ∈ rs, Served.Done r) : Serving p' (os.foldl serve rs) := by
  cases adv with
  | more _ pc =>
    refine .done ?_ ?_ done
    · rcases pc with rfl | rfl
      · exact nofun
      · exact nofun
    · rcases pc with rfl | rfl
      · exact nofun
      · exact nofun
  | overlong _ => exact .done nofun nofun done
  | lock _ _ => exact .locked rfl done
  | reply _ disp => exact .replying rfl (.other (reply_not_ack disp)) done

/-- What a complete write shows leaves a port between two lines. -/
lemma Serving.wrote {p : Port} {item left rest rs} (srv : Serving p rs)
    (pc : p.pc = .writing item left rest) (bytes : List UInt8) :
    ∀ r ∈ [Obs.out bytes, .sent item 0].foldl serve rs, Served.Done r := by
  have other : (∀ line bytes, item ≠ .reply line bytes) →
      [Obs.out bytes, .sent item 0].foldl serve rs = rs := by
    intro ne
    cases item with
    | reply line bytes => exact absurd rfl (ne line bytes)
    | _ => cases rs <;> rfl
  cases srv with
  | done _ no done =>
    rw [other]
    · exact done
    · intro line bytes eq
      exact no line bytes left rest (pc.trans (eq ▸ rfl))
  | locked lock _ =>
    rw [pc] at lock
    cases lock
  | replying reply answered done =>
    rw [pc] at reply
    cases reply
    intro r mem
    rcases List.mem_cons.mp mem with rfl | mem
    · exact ⟨_, rfl, answered⟩
    · exact done r mem

lemma Serving.completed {p : Port} {rs pc} (srv : Serving p rs) (eq : p.pc = pc)
    (noLock : ∀ cmd args op rest, pc ≠ .lock cmd args op rest)
    (noReply : ∀ line bytes left rest, pc ≠ .writing (.reply line bytes) left rest) :
    ∀ r ∈ rs, Served.Done r := by
  subst eq
  cases srv with
  | done _ _ done => exact done
  | locked lock _ => exact absurd lock (noLock _ _ _ _)
  | replying reply _ _ => exact absurd reply (noReply _ _ _ _)

/-- An entry has nothing handed over and no answer yet, or what was handed over fits its answer. -/
lemma Serving.entry {p : Port} {rs r} (srv : Serving p rs) (mem : r ∈ rs) :
    (r.answer = none ∧ r.handed = []) ∨
      ∃ bytes, Answered r.line r.opened r.handed bytes ∧ ∀ b, r.answer = some b → b = bytes := by
  have done : Served.Done r → ∃ bytes, Answered r.line r.opened r.handed bytes ∧
      ∀ b, r.answer = some b → b = bytes := by
    rintro ⟨bytes, out, ans⟩
    exact ⟨bytes, ans, fun b eq => Option.some.inj (eq.symm.trans out)⟩
  cases srv with
  | done _ _ all => exact .inr (done (all r mem))
  | locked _ all =>
    rcases List.mem_cons.mp mem with rfl | mem
    · exact .inl ⟨rfl, rfl⟩
    · exact .inr (done (all r mem))
  | replying _ ans all =>
    rcases List.mem_cons.mp mem with rfl | mem
    · exact .inr ⟨_, ans, nofun⟩
    · exact .inr (done (all r mem))

/-- Observations that say nothing about lines. -/
lemma serve_quiet (rs : List Served) (os : List Obs)
    (quiet : ∀ o ∈ os, (∀ line opened, o ≠ .line line opened) ∧
      (∀ frame mode, o ≠ .effect (.handed frame mode)) ∧
      ∀ line bytes, o ≠ .sent (.reply line bytes) 0) : os.foldl serve rs = rs := by
  induction os with
  | nil => rfl
  | cons o os ih =>
    obtain ⟨noLine, noHanded, noReply⟩ := quiet o List.mem_cons_self
    have same : serve rs o = rs := by
      unfold serve
      split
      · exact absurd rfl (noLine _ _)
      · exact absurd rfl (noHanded _ _)
      · exact absurd rfl (noReply _ _)
      · rfl
    rw [List.foldl_cons, same]
    exact ih fun o mem => quiet o (List.mem_cons_of_mem _ mem)

/-- A step without a failing write keeps the newest entry in step with the port. -/
lemma step_serving {st st' : Statics SUBS} {p p' : Port} {e os} (step : Step st p e st' p' os)
    (ok : p.Ok) (whole : e ≠ .fail) {rs} (srv : Serving p rs) : Serving p' (os.foldl serve rs) := by
  -- a step between two lines
  have rest : ∀ {pc}, p.pc = pc → (∀ cmd args op rest, pc ≠ .lock cmd args op rest) →
      (∀ line bytes left rest, pc ≠ .writing (.reply line bytes) left rest) →
      (∀ cmd args op rest, p'.pc ≠ .lock cmd args op rest) →
      (∀ line bytes left rest, p'.pc ≠ .writing (.reply line bytes) left rest) →
      (∀ o ∈ os, (∀ line opened, o ≠ .line line opened) ∧
        (∀ frame mode, o ≠ .effect (.handed frame mode)) ∧
        ∀ line bytes, o ≠ .sent (.reply line bytes) 0) → Serving p' (os.foldl serve rs) := by
    intro pc eq noLock noReply noLock' noReply' quiet
    rw [serve_quiet rs os quiet]
    exact .done noLock' noReply' (srv.completed eq noLock noReply)
  cases step with
  | connect pc _ => exact rest pc (by simp) (by simp) (by simp) (by simp) (by simp)
  | start pc => exact rest pc (by simp) (by simp) (by simp) (by simp) (by simp)
  | read pc adv => exact advance_serving adv (srv.completed pc (by simp) (by simp))
  | eofOpen pc _ => exact rest pc (by simp) (by simp) (by simp) (by simp) (by simp)
  | eofClosed pc _ => exact rest pc (by simp) (by simp) (by simp) (by simp) (by simp)
  | recvOpen pc _ _ => exact rest pc (by simp) (by simp) (by simp) (by simp) (by simp)
  | recvClosed pc _ _ =>
    refine rest pc (by simp) (by simp) ?_ ?_ (by simp)
    · exact pc ▸ (by simp)
    · exact pc ▸ (by simp)
  | @granted cmd args op left io pc =>
    cases srv with
    | done noLock _ _ => exact absurd pc (noLock _ _ _ _)
    | locked lock done =>
      rw [pc] at lock
      cases lock
      rw [Port.Ok, pc] at ok
      obtain ⟨ts, ts', counted, disp⟩ := ok
      rw [serve_effects]
      exact .replying rfl (run_answered disp io st) done
    | replying reply _ _ =>
      rw [pc] at reply
      cases reply
  | @write item left tail n pc _ _ =>
    have same : [Obs.out (left.take n)].foldl serve rs = rs := serve_quiet _ _ (by simp)
    rw [same]
    cases srv with
    | done noLock noReply done =>
      refine .done (by simp) ?_ done
      intro line bytes left' rest' eq
      cases eq
      exact noReply line bytes left tail pc
    | locked lock _ =>
      rw [pc] at lock
      cases lock
    | replying reply answered done =>
      rw [pc] at reply
      cases reply
      exact .replying rfl answered done
  | @wrote item left tail st' p' os pc res =>
    -- the reply is complete: a write that failed would leave the entry without an answer
    have done := srv.wrote pc left
    have split : (Obs.out left :: .sent item 0 :: os).foldl serve rs =
        os.foldl serve ([Obs.out left, .sent item 0].foldl serve rs) := rfl
    rw [split]
    cases res with
    | frame => exact .done (by simp) (by simp) done
    | advance _ adv => exact advance_serving adv done
  | fail _ _ => exact absurd rfl whole
  | flush pc => exact rest pc (by simp) (by simp) (by simp) (by simp) (by simp)
  | frameFlush pc => exact rest pc (by simp) (by simp) (by simp) (by simp) (by simp)
  | teardown pc => exact rest pc (by simp) (by simp) (by simp) (by simp) (by simp)
  | drop pc =>
    rcases pc with pc | pc
    · exact rest pc (by simp) (by simp) (by simp) (by simp) (by simp)
    · exact rest pc (by simp) (by simp) (by simp) (by simp) (by simp)

/-- The frame a confirmed line is about. -/
def Confirms (a : List UInt8 × List UInt8) (e : EspTwaiFrame) : Prop := Denotes a.1 e ∧ a.2 = ackOf e

/-- The confirmation that is still on its way to the link. -/
def pending (p : Port) : List (List UInt8 × List UInt8) :=
  match p.pc with
  | .writing (.reply line bytes) _ _ => if isAck bytes then [(line, bytes)] else []
  | _ => []

lemma advance_pending {st st' : Statics SUBS} {p p' : Port} {bytes os}
    (adv : Advance st p bytes st' p' os) :
    pending p' = [] := by
  cases adv with
  | more _ pc =>
    rcases pc with rfl | rfl
    · rfl
    · rfl
  | overlong _ => rfl
  | lock _ _ => rfl
  | reply _ disp => exact if_neg (reply_not_ack disp)

lemma Answered.confirms {line opened handed bytes} (ans : Answered line opened handed bytes) :
    List.Forall₂ Confirms (if isAck bytes then [(line, bytes)] else []) handed := by
  cases ans with
  | taken _ den =>
    rw [if_pos (isAck_ackOf _)]
    exact .cons ⟨den, rfl⟩ .nil
  | other no =>
    rw [if_neg no]
    exact .nil

lemma handedTo_effects (es : List Effect) : handedTo (es.map .effect) = handedBy es := by
  induction es with
  | nil => rfl
  | cons e es ih =>
    cases e with
    | handed frame mode => exact congrArg _ ih
    | _ => exact ih

/-- A step without a failing write hands over a frame exactly when a confirmation becomes due, and the
confirmations that are due are written or stay due. -/
lemma step_confirms {st st' : Statics SUBS} {p p' : Port} {e os} (step : Step st p e st' p' os)
    (ok : p.Ok) (whole : e ≠ .fail) :
    ∃ due, pending p ++ due = confirmed os ++ pending p' ∧ List.Forall₂ Confirms due (handedTo os) := by
  -- the bytes loop confirms nothing and hands nothing over
  have shows : ∀ {os : List Obs}, os = [] ∨ (∃ line, os = [Obs.line line p.opened]) →
      confirmed os = [] ∧ handedTo os = [] := by
    intro os shows
    rcases shows with rfl | ⟨line, rfl⟩
    · exact ⟨rfl, rfl⟩
    · exact ⟨rfl, rfl⟩
  have rest : ∀ {pc}, p.pc = pc → (∀ line bytes left rest, pc ≠ .writing (.reply line bytes) left rest) →
      pending p' = [] → confirmed os = [] ∧ handedTo os = [] →
      ∃ due, pending p ++ due = confirmed os ++ pending p' ∧
        List.Forall₂ Confirms due (handedTo os) := by
    intro pc eq noReply none none'
    have noPending : pending p = [] := by
      rw [pending, eq]
      split
      · exact absurd rfl (noReply _ _ _ _)
      · rfl
    rw [noPending, none, none'.1, none'.2]
    exact ⟨[], rfl, .nil⟩
  cases step with
  | connect pc _ => exact rest pc (by simp) rfl ⟨rfl, rfl⟩
  | start pc => exact rest pc (by simp) rfl ⟨rfl, rfl⟩
  | read pc adv => exact rest pc (by simp) (advance_pending adv) (shows (advance_shows adv))
  | eofOpen pc _ => exact rest pc (by simp) rfl ⟨rfl, rfl⟩
  | eofClosed pc _ => exact rest pc (by simp) rfl ⟨rfl, rfl⟩
  | recvOpen pc _ _ => exact rest pc (by simp) rfl ⟨rfl, rfl⟩
  | recvClosed pc _ _ =>
    refine rest pc (by simp) ?_ ⟨rfl, rfl⟩
    rw [pending, pc]
  | @granted cmd args op left io pc =>
    rw [Port.Ok, pc] at ok
    obtain ⟨ts, ts', counted, disp⟩ := ok
    have ans := (run_answered disp io st).confirms
    have noPending : pending p = [] := by rw [pending, pc]
    have noAnswer : ∀ es : List Effect, confirmed (es.map .effect) = [] := by
      intro es
      simp [confirmed, answers]
    rw [noPending, noAnswer, handedTo_effects]
    exact ⟨_, rfl, ans⟩
  | @write item left tail n pc _ _ =>
    refine ⟨[], ?_, .nil⟩
    have same : pending { p with pc := .writing item (left.drop n) tail } = pending p := by
      rw [pending, pending, pc]
      cases item <;> rfl
    rw [same, List.append_nil]
    rfl
  | @wrote item left tail st' p' os pc res =>
    have none := shows (resume_shows res)
    have handed : handedTo (.out left :: .sent item 0 :: os) = [] := none.2
    have answered : confirmed (.out left :: .sent item 0 :: os) = pending p := by
      have done : answers os = [] := by
        rcases resume_shows res with rfl | ⟨line, rfl⟩
        · rfl
        · rfl
      rw [pending, pc]
      cases item with
      | reply line bytes =>
        have all : answers (.out left :: .sent (.reply line bytes) 0 :: os) = [(line, bytes)] :=
          congrArg _ done
        simp only [confirmed, all, List.filter_cons, List.filter_nil, decide_eq_true_eq]
      | _ => exact none.1
    have idle : pending p' = [] := by
      cases res with
      | frame => rfl
      | advance _ adv => exact advance_pending adv
    rw [handed, answered, idle]
    exact ⟨[], rfl, .nil⟩
  | fail _ _ => exact absurd rfl whole
  | flush pc => exact rest pc (by simp) rfl ⟨rfl, rfl⟩
  | frameFlush pc => exact rest pc (by simp) rfl ⟨rfl, rfl⟩
  | teardown pc => exact rest pc (by simp) rfl ⟨rfl, rfl⟩
  | drop pc =>
    rcases pc with pc | pc
    · exact rest pc (by simp) rfl ⟨rfl, rfl⟩
    · exact rest pc (by simp) rfl ⟨rfl, rfl⟩

/-- A call on the manager counts the frame it hands over. -/
lemma run_txCount (op : CanOp) (cmd : UInt8) (io : TwaiIo) (st : Statics SUBS) (opened : Bool) :
    (op.run cmd io st opened).statics.txCount =
      st.txCount + UInt32.ofNat (handedBy (op.run cmd io st opened).effects).length := by
  have zero : st.txCount = st.txCount + UInt32.ofNat 0 := (UInt32.add_zero _).symm
  cases op with
  | statusFlags => exact zero
  | setBitrate d =>
    simp only [CanOp.run]
    cases (st.can.setBitrate d).1 with
    | true => exact zero
    | false => exact zero
  | «open» listenOnly =>
    simp only [CanOp.run, starts]
    split
    · exact zero
    · exact zero
  | close => exact zero
  | transmit f =>
    simp only [CanOp.run]
    rcases st.transmit_cases io.transmit f with eq | ⟨twai, esp, -, -, eq⟩
    · rw [eq]
      exact zero
    · rw [eq]
      rfl

/-- A step counts the frames it hands over. -/
lemma step_txCount {st st' : Statics SUBS} {p p' : Port} {e os} (step : Step st p e st' p' os) :
    st'.txCount = st.txCount + UInt32.ofNat (handedTo os).length := by
  have loop : ∀ {st' : Statics SUBS} {p' os} (front : List Obs), Keeps st p st' p' →
      handedTo front = [] → os = [] ∨ (∃ line, os = [Obs.line line p.opened]) →
      st'.txCount = st.txCount + UInt32.ofNat (handedTo (front ++ os)).length := by
    intro st' p' os front keeps none shows
    have nothing : handedTo (front ++ os) = [] := by
      rw [handedTo, List.filterMap_append, ← handedTo, none]
      rcases shows with rfl | ⟨line, rfl⟩
      · rfl
      · rfl
    rw [nothing, keeps.txCount]
    exact (UInt32.add_zero _).symm
  cases step with
  | read _ adv => exact loop [] (advance_keeps adv) rfl (advance_shows adv)
  | @wrote item left rest st' p' os _ res =>
    exact loop [.out left, .sent item 0] (resume_keeps res) rfl (resume_shows res)
  | @fail item left rest st' p' os _ res =>
    exact loop [.sent item left.length] (resume_keeps res) rfl (resume_shows res)
  | granted _ =>
    rw [handedTo_effects]
    exact run_txCount _ _ _ _ _
  | frameFlush _ =>
    rw [Iface.txCount_countOut]
    exact (UInt32.add_zero _).symm
  | _ => exact (UInt32.add_zero _).symm

/-- The input is not the failure of a write. -/
def succeeds : Input ι Event (List EspTwaiFrame) → Bool
  | .task _ .fail => false
  | _ => true

/-- A run in which no write to a link fails. -/
abbrev Whole (SUBS : UInt32) (iface : ι → Iface) (w : World (Statics SUBS) Port ι)
    (tr : List (Shown ι Obs CanFrame)) : Prop :=
  (machine SUBS iface).Run (fun _ e => succeeds e = true) w tr

omit [DecidableEq ι] in
lemma ne_fail {i : ι} {e : Event} (whole : succeeds (.task i e) = true) : e ≠ .fail := by
  rintro rfl
  cases whole

variable {w : World (Statics SUBS) Port ι} {tr : List (Shown ι Obs CanFrame)}

/-- The flag of a port is known in every run. -/
lemma port_ok {C} (run : (machine SUBS iface).Run C w tr) (i : ι) : (w.task i).Ok :=
  Tasks.task_invariant (J := fun _ p _ _ => p.Ok) i run (Port.Ok.new _)
    (fun _ _ st ok => (step_sound st).ok ok) (fun _ _ _ _ ok => ok) (fun _ _ _ ok => ok)

lemma port_serving (run : Whole SUBS iface w tr) (i : ι) :
    Serving (w.task i) (served (taskTrace i tr)) := by
  refine Tasks.task_invariant (J := fun _ p os _ => Serving p (served os)) i run ?_ ?_ ?_ ?_
  · exact .done nofun nofun nofun
  · intro v os e sh p os' run c st srv
    have next := step_serving (step_sound st) (port_ok run i) (ne_fail c) srv
    rwa [served, List.foldl_append]
  · intro v os j e sh p os' _ _ _ _ srv
    exact srv
  · intro v os d sh os' _ _ _ srv
    exact srv

lemma port_confirms (run : Whole SUBS iface w tr) (i : ι) :
    List.Forall₂ Confirms (confirmed (taskTrace i tr) ++ pending (w.task i))
      (handedTo (taskTrace i tr)) := by
  refine Tasks.task_invariant (J := fun _ p os _ =>
    List.Forall₂ Confirms (confirmed os ++ pending p) (handedTo os)) i run .nil ?_ ?_ ?_
  · intro v os e sh p os' run c st all
    obtain ⟨due, balance, confirms⟩ :=
      step_confirms (step_sound st) (port_ok run i) (ne_fail c)
    have both := List.rel_append all confirms
    have answered : confirmed (taskTrace i os ++ os') =
        confirmed (taskTrace i os) ++ confirmed os' := by
      simp [confirmed, answers]
    rw [answered, handedTo, List.filterMap_append, List.append_assoc, ← balance, ← List.append_assoc]
    exact both
  · intro v os j e sh p os' _ _ _ _ all
    exact all
  · intro v os d sh os' _ _ _ all
    exact all

/-- The transmit counter counts the frames handed over for all ports. -/
lemma txCount_eq [Fintype ι] {C} (run : (machine SUBS iface).Run C w tr) :
    w.shared.txCount = UInt32.ofNat (∑ i, (handedTo (taskTrace i tr)).length) := by
  refine run.invariant (P := fun w tr =>
    w.shared.txCount = UInt32.ofNat (∑ i, (handedTo (taskTrace i tr)).length)) ?_ ?_
  · have none : ∑ i : ι, (handedTo (taskTrace i ([] : List (Shown ι Obs CanFrame)))).length = 0 :=
      Finset.sum_eq_zero fun _ _ => rfl
    rw [none]
    rfl
  · intro v os v' os' e _ inv _ st
    cases machine_sound st with
    | @port i e sh p os' step =>
      have add : ∀ (_ : ι) (a b : List Obs),
          (handedTo (a ++ b)).length = (handedTo a).length + (handedTo b).length := by
        intro _ a b
        simp [handedTo]
      rw [sum_taskTrace (F := fun _ os => (handedTo os).length) add, UInt32.ofNat_add, ← inv]
      exact step_txCount step
    | @canRx rx =>
      have same : (v.shared.canRxTask rx).1.txCount = v.shared.txCount := by
        rw [Statics.canRxTask, Statics.drain_frame]
      simp only [taskTrace_append, taskTrace_env, List.append_nil]
      rw [same]
      exact inv

/-- The bound on an identifier of either width. -/
def idBound (ext : Bool) : ℕ := if ext then 0x1FFFFFFF else 0x7FF

lemma num_le (e : EspTwaiFrame) : e.id.num ≤ idBound e.id.isExtended := by
  cases e.id with
  | standard s => exact s.le
  | extended s => exact s.le

/-- Transmit commands over every run whose link writes succeed. For every port the frames handed over
are, in order, the ones its confirmed lines denote (the confirmation of the last may still be on its
way). Every line hands over at most one frame: one, which it denotes, if it is confirmed, none if it
is answered otherwise, was received under a flag that is down, or has an identifier out of range. While
no reply is being written the transmit counter is the number of confirmations, modulo `2 ^ 32`. -/
theorem transmits_confirmed [Fintype ι] (run : Whole SUBS iface w tr) :
    (∀ i, List.Forall₂ (fun a e => Denotes a.1 e ∧
        a.2 = [if e.id.isExtended then ch 'Z' else ch 'z', CR])
      (confirmed (taskTrace i tr) ++ pending (w.task i)) (handedTo (taskTrace i tr))) ∧
    (∀ i, ∀ r ∈ served (taskTrace i tr),
      (r.handed = [] ∨ ∃ e, r.handed = [e] ∧ Denotes r.line e) ∧
      (∀ bytes, r.answer = some bytes → (r.handed ≠ [] ↔ isAck bytes)) ∧
      (r.opened = false → r.handed = []) ∧
      ∀ ext rtr id dlc payload, TxLine r.line ext rtr id dlc payload → idBound ext < id →
        r.handed = []) ∧
    ((∀ i line bytes left rest, (w.task i).pc ≠ .writing (.reply line bytes) left rest) →
      w.shared.txCount.toNat = (∑ i, (confirmed (taskTrace i tr)).length) % 2 ^ 32) := by
  -- the third part: without a reply on its way everything handed over is confirmed
  refine ⟨port_confirms run, fun i r mem => ?_, fun none => ?_⟩
  · rcases (port_serving run i).entry mem with ⟨out, none⟩ | ⟨bytes, ans, out⟩
    · rw [none, out]
      exact ⟨.inl rfl, nofun, fun _ => rfl, fun _ _ _ _ _ _ _ => rfl⟩
    · generalize r.handed = handed at ans ⊢
      cases ans with
      | @taken e up den =>
        refine ⟨.inr ⟨e, rfl, den⟩, fun b eq => ?_, fun down => ?_, fun ext rtr id dlc payload tx gt => ?_⟩
        · rw [out b eq]
          exact iff_of_true nofun (isAck_ackOf e)
        · rw [up] at down
          cases down
        · obtain ⟨rfl, rfl⟩ := TxLine.id_unique tx den
          exact absurd (num_le e) (Nat.not_le.mpr gt)
      | other no =>
        refine ⟨.inl rfl, fun b eq => ?_, fun _ => rfl, fun _ _ _ _ _ _ _ => rfl⟩
        rw [out b eq]
        exact iff_of_false (not_not.mpr rfl) no
  · have idle : ∀ i, pending (w.task i) = [] := by
      intro i
      rw [pending]
      split
      · exact absurd ‹_› (none i _ _ _ _)
      · rfl
    rw [txCount_eq run, UInt32.toNat_ofNat']
    refine congrArg (· % 2 ^ 32) (Finset.sum_congr rfl fun i _ => ?_)
    have all := (port_confirms run i).length_eq
    rw [idle, List.append_nil] at all
    exact all.symm

theorem transmits_confirmed_at :
    ∃ w tr, Whole (ι := Fin 2) 4 (fun _ => .tcp) w tr ∧
      confirmed (taskTrace 0 tr) = [(['t', '1', '2', '3', '1', 'A', '5'].map ch, [ch 'z', CR])] ∧
      List.Forall₂ (fun a e => Denotes a.1 e ∧
          a.2 = [if e.id.isExtended then ch 'Z' else ch 'z', CR])
        (confirmed (taskTrace 0 tr) ++ pending (w.task 0)) (handedTo (taskTrace 0 tr)) := by
  obtain ⟨w, tr, run, acked⟩ := Machine.run_exec (machine (ι := Fin 2) 4 fun _ => .tcp)
    (fun _ e => succeeds e = true)
    (link 0 ++ command 0 ['O'] 1 ++ command 0 ['t', '1', '2', '3', '1', 'A', '5'] 2)
    (fun _ tr => confirmed (taskTrace 0 tr) =
      [(['t', '1', '2', '3', '1', 'A', '5'].map ch, [ch 'z', CR])])
    (by decide +kernel)
  exact ⟨w, tr, run, acked, (transmits_confirmed run).1 0⟩

end EspcanBr.System
