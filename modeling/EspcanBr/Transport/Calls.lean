import EspcanBr.Transport.Talk

/-!
# The calls of a port

The calls on the manager that a port makes, as a function of the reactions to its stream (`asks`). What the
manager answers does not enter: no flag of the port depends on it. `run_asks` is that function's meaning for
a run, and `answered_in_order` says that the answers are those to the calls, in order.
-/

namespace EspcanBr.Transport
open Base Slcan Can

variable {SUBS : UInt32}

/-- The port's flag and the calls made. -/
structure Asked where
  opened : Bool
  ops : List CanOp
  deriving DecidableEq

/-- What a reaction adds to them. -/
def Asked.next (a : Asked) : Reaction → Asked
  | .overlong => a
  | .line [] => a
  | .line (cmd :: args) =>
    match (dispatch cmd args a.opened false).await with
    | .reply _ => a
    | .lock op => ⟨op.opens a.opened, a.ops ++ [op]⟩

/-- The calls over a list of reactions. -/
def asks (opened : Bool) (heard : List Reaction) : Asked := heard.foldl Asked.next ⟨opened, []⟩

/-- The call that a line dispatched under the flag `opened` makes. -/
def callOf (opened : Bool) : List UInt8 → List CanOp
  | [] => []
  | cmd :: args =>
    match (dispatch cmd args opened false).await with
    | .reply _ => []
    | .lock op => [op]

/-- The calls of the lines dispatched. -/
def asked (os : List Obs) : List CanOp :=
  os.flatMap fun
    | .line line opened => callOf opened line
    | _ => []

/-- The call the port waits to make. -/
def Port.waiting (p : Port) : List CanOp :=
  match p.pc with
  | .lock _ _ op _ => [op]
  | _ => []

/-- A call can be answered so. -/
def Gives (SUBS : UInt32) (op : CanOp) (a : Answer) : Prop :=
  ∃ (io : TwaiIo) (st : Statics SUBS), op.answer io st = a

/-- An oracle that gives these answers. -/
def answering (answers : List Answer) (i : ℕ) : Answer := answers[i]?.getD ⟨0, true⟩

lemma answering_get {answers : List Answer} {i : ℕ} {a : Answer} (get : answers[i]? = some a) :
    answering answers i = a := by
  rw [answering, get, Option.getD_some]

@[simp] lemma asked_append (os os' : List Obs) : asked (os ++ os') = asked os ++ asked os' :=
  List.flatMap_append

@[simp] lemma asked_effects (es : List Effect) : asked (es.map .effect) = [] := by
  simp [asked]

section Asks
variable (oracle : ℕ → Answer) (opened : Bool)

lemma asks_snoc (heard : List Reaction) (r : Reaction) :
    asks opened (heard ++ [r]) = (asks opened heard).next r := by
  rw [asks, List.foldl_append]
  rfl

/-- A line adds its call. -/
lemma asks_line (heard : List Reaction) (line : List UInt8) :
    (asks opened (heard ++ [.line line])).ops =
      (asks opened heard).ops ++ callOf (asks opened heard).opened line := by
  rw [asks_snoc]
  cases line with
  | nil => exact (List.append_nil _).symm
  | cons cmd args =>
    rw [Asked.next, callOf]
    cases (dispatch cmd args (asks opened heard).opened false).await with
    | reply bytes => exact (List.append_nil _).symm
    | lock op => rfl

/-- A rejection makes no call. -/
lemma asks_rejects (heard : List Reaction) (item : Item) :
    asks opened (heard ++ item.rejects) = asks opened heard := by
  cases item with
  | overlong => rw [Item.rejects, asks_snoc, Asked.next]
  | frame f timestamp => exact congrArg _ (List.append_nil heard)
  | reply line bytes => exact congrArg _ (List.append_nil heard)

/-- The calls of a talk. -/
lemma asks_talk (heard : List Reaction) :
    (asks opened heard).opened = (talk oracle opened heard).opened ∧
      (asks opened heard).ops.length = (talk oracle opened heard).calls := by
  induction heard using List.reverseRecOn with
  | nil => exact ⟨rfl, rfl⟩
  | append_singleton heard r ih =>
    obtain ⟨flag, count⟩ := ih
    rw [asks_snoc, talk_snoc]
    cases r with
    | overlong => exact ⟨flag, count⟩
    | line line =>
      cases line with
      | nil => exact ⟨flag, count⟩
      | cons cmd args =>
        rw [Asked.next, Talk.next, flag]
        cases (dispatch cmd args (talk oracle opened heard).opened false).await with
        | reply bytes => exact ⟨flag, count⟩
        | lock op =>
          refine ⟨rfl, ?_⟩
          rw [List.length_append, count]
          rfl

/-- What was asked stays. -/
lemma asks_append (heard more : List Reaction) :
    (asks opened heard).ops <+: (asks opened (heard ++ more)).ops := by
  induction more using List.reverseRecOn with
  | nil => simp
  | append_singleton more r ih =>
    rw [← List.append_assoc]
    refine ih.trans ?_
    cases r with
    | overlong => rw [asks_snoc, Asked.next]
    | line line =>
      rw [asks_line]
      exact List.prefix_append _ _

end Asks

section Runs
variable {iface : Iface} {opened timestamp : Bool} {sub : ℕ} {C : Port → Statics SUBS × Event → Prop}
  {p : Port} {tr : List Note}

/-- Where a port hears, its flag is that of what it heard. -/
lemma run_flag (run : (link SUBS (.entry iface opened timestamp sub)).Run C p tr)
    (hears : p.pc = .select ∨ ∃ item left rest, p.pc = .writing item left rest) :
    (asks opened (reacted (shown tr) ++ p.rejecting)).opened = p.opened := by
  have talks := run_talks run fun i a => answering_get
  rw [(asks_talk (answering (returns tr)) opened _).1]
  rcases hears with pc | ⟨item, left, rest, pc⟩
  · rw [(talks_select talks pc).2.2]
  · rw [(talks_writing talks pc).2.2]

/-- The lines a step dispatches make the calls of what it heard. -/
lemma step_asks {st st' : Statics SUBS} {p' : Port} {e : Event} {os : List Obs} {heard : List Reaction}
    (step : Step st p e st' p' os) (other : e ≠ .start)
    (flag : (p.pc = .select ∨ ∃ item left rest, p.pc = .writing item left rest) →
      (asks opened (heard ++ p.rejecting)).opened = p.opened) :
    (asks opened (heard ++ reacted os)).ops = (asks opened heard).ops ++ asked os := by
  have quiet : ∀ {os : List Obs}, reacted os = [] → asked os = [] →
      (asks opened (heard ++ reacted os)).ops = (asks opened heard).ops ++ asked os := by
    intro os react none
    rw [react, none, List.append_nil, List.append_nil]
  -- the bytes loop, after a write that rejected what `item` rejects
  have loop : ∀ (item : Item) {os : List Obs},
      (asks opened (heard ++ item.rejects)).opened = p.opened →
      (os = [] ∨ ∃ line, os = [.line line p.opened]) →
      (asks opened (heard ++ (item.rejects ++ reacted os))).ops = (asks opened heard).ops ++ asked os := by
    rintro item os flag (rfl | ⟨line, rfl⟩)
    · rw [← List.append_assoc]
      simp only [reacted, asked, List.filterMap_nil, List.append_nil, List.flatMap_nil, asks_rejects]
    · have one : reacted [.line line p.opened] = [.line line] := rfl
      have call : asked [.line line p.opened] = callOf p.opened line := List.append_nil _
      rw [one, call, ← List.append_assoc, asks_line, flag, asks_rejects]
  cases step with
  | read pc adv =>
    have flag := flag (.inl pc)
    rw [Port.rejecting, pc] at flag
    exact loop (.reply [] []) flag (advance_shows adv)
  | @wrote item left rest st' p' os pc res =>
    have flag := flag (.inr ⟨_, _, _, pc⟩)
    rw [Port.rejecting, pc] at flag
    have all := loop item flag (resume_shows res)
    cases item <;> exact all
  | @fail item left rest st' p' os pc res =>
    have flag := flag (.inr ⟨_, _, _, pc⟩)
    rw [Port.rejecting, pc] at flag
    have all := loop item flag (resume_shows res)
    cases item <;> exact all
  | granted pc => exact quiet (reacted_effects _) (asked_effects _)
  | start _ => exact absurd rfl other
  | connect _ _ | eofOpen _ _ | eofClosed _ _ | recvOpen _ _ _ | recvClosed _ _ _ | write _ _ _ | flush _
  | frameFlush _ | teardown _ | drop _ => exact quiet rfl rfl

/-- In every run the lines dispatched make the calls of what was heard. -/
lemma run_asks (run : (link SUBS (.entry iface opened timestamp sub)).Run C p tr) :
    (asks opened (reacted (shown tr))).ops = asked (shown tr) := by
  refine run.invariant (P := fun _ tr => (asks opened (reacted (shown tr))).ops = asked (shown tr)) rfl ?_
  rintro p tr p' tr' ⟨st, e⟩ run eq - moves
  obtain ⟨st', os, own, other, rfl⟩ := link_sound moves
  have all := step_asks (step_sound own) other (run_flag run)
  rw [shown_append, shown_append, shown_noted, shown_shown, List.nil_append, reacted_append, asked_append,
    all, eq]

/-- The bytes loop waits for the call of the line it dispatches. -/
lemma loop_waiting {p' : Port} {os : List Obs} (shows : os = [] ∨ ∃ line, os = [.line line p.opened])
    (none : os = [] → p'.waiting = [])
    (awaits : ∀ cmd args o, .line (cmd :: args) o ∈ os → Awaits p p' cmd args)
    (full : ∀ o, .line [] o ∉ os) : asked os = p'.waiting := by
  rcases shows with rfl | ⟨line, rfl⟩
  · rw [none rfl]
    rfl
  · have call : asked [.line line p.opened] = callOf p.opened line := List.append_nil _
    rw [call]
    cases line with
    | nil => exact absurd (List.mem_singleton_self _) (full p.opened)
    | cons cmd args =>
      have leads := awaits cmd args p.opened (List.mem_singleton_self _)
      rw [Awaits, dispatch_await _ _ _ _ false] at leads
      rw [callOf, Port.waiting]
      cases await : (dispatch cmd args p.opened false).await with
      | lock op =>
        rw [await] at leads
        obtain ⟨rest, pc⟩ := leads
        rw [pc]
      | reply bytes =>
        rw [await] at leads
        obtain ⟨rest, pc⟩ := leads
        rw [pc]

lemma advance_none {st st' : Statics SUBS} {p p' : Port} {bytes : List UInt8} {os : List Obs}
    (adv : Advance st p bytes st' p' os) : (os = [] → p'.waiting = []) ∧ ∀ o, .line [] o ∉ os := by
  cases adv with
  | more _ pc =>
    refine ⟨fun _ => ?_, fun o mem => by cases mem⟩
    rcases pc with rfl | rfl
    · rfl
    · rfl
  | overlong _ => exact ⟨fun _ => rfl, fun o mem => by cases mem⟩
  | lock _ _ =>
    exact ⟨fun no => absurd no (List.cons_ne_nil _ _), fun o mem => by cases List.mem_singleton.mp mem⟩
  | reply _ _ =>
    exact ⟨fun no => absurd no (List.cons_ne_nil _ _), fun o mem => by cases List.mem_singleton.mp mem⟩

lemma resume_none {st st' : Statics SUBS} {p p' : Port} {rest : List UInt8} {item : Item} {os : List Obs}
    (res : Resume st p rest item st' p' os) : (os = [] → p'.waiting = []) ∧ ∀ o, .line [] o ∉ os := by
  cases res with
  | frame => exact ⟨fun _ => rfl, fun o mem => by cases mem⟩
  | advance _ adv => exact advance_none adv

/-- A step answers the call that waits, or dispatches a line whose call waits after it. -/
lemma step_answered {st st' : Statics SUBS} {p' : Port} {e : Event} {os : List Obs}
    (step : Step st p e st' p' os) (awaits : ∀ cmd args o, .line (cmd :: args) o ∈ os → Awaits p p' cmd args) :
    ∃ done, p.waiting ++ asked os = done ++ p'.waiting ∧
      List.Forall₂ (Gives SUBS) done (returns (noted st p e)) := by
  have idle : ∀ {pc : Pc}, p.pc = pc → (∀ cmd args op rest, pc ≠ .lock cmd args op rest) → p.waiting = [] := by
    rintro pc rfl other
    rw [Port.waiting]
    split
    · exact absurd ‹_› (other _ _ _ _)
    · rfl
  have quiet : asked os = [] → p.waiting = [] → p'.waiting = [] → returns (noted st p e) = [] →
      ∃ done, p.waiting ++ asked os = done ++ p'.waiting ∧
        List.Forall₂ (Gives SUBS) done (returns (noted st p e)) := by
    intro none before after silent
    rw [none, before, after, silent]
    exact ⟨[], rfl, .nil⟩
  cases step with
  | read pc adv =>
    obtain ⟨none, full⟩ := advance_none adv
    refine ⟨[], ?_, .nil⟩
    rw [idle pc (by simp), List.nil_append, List.nil_append]
    exact loop_waiting (advance_shows adv) none awaits full
  | @wrote item left rest st' p' os pc res =>
    obtain ⟨none, full⟩ := resume_none res
    have loop : asked os = p'.waiting := loop_waiting (resume_shows res) none
      (fun cmd args o mem => awaits cmd args o (List.mem_cons_of_mem _ (List.mem_cons_of_mem _ mem))) full
    refine ⟨[], ?_, .nil⟩
    rw [idle pc (by simp), List.nil_append, List.nil_append]
    exact loop
  | @fail item left rest st' p' os pc res =>
    obtain ⟨none, full⟩ := resume_none res
    have loop : asked os = p'.waiting := loop_waiting (resume_shows res) none
      (fun cmd args o mem => awaits cmd args o (List.mem_cons_of_mem _ mem)) full
    refine ⟨[], ?_, .nil⟩
    rw [idle pc (by simp), List.nil_append, List.nil_append]
    exact loop
  | @granted cmd args op rest io pc =>
    have answered : returns (noted st p (.granted io)) = [op.answer io st] := by
      rw [noted, pc]
      rfl
    refine ⟨[op], ?_, ?_⟩
    · rw [asked_effects, Port.waiting, pc]
      rfl
    · rw [answered]
      exact .cons ⟨io, st, rfl⟩ .nil
  | teardown pc =>
    refine quiet rfl (idle pc (by simp)) rfl ?_
    rw [noted, pc]
    rfl
  | connect pc _ | start pc | eofOpen pc _ | eofClosed pc _ | recvOpen pc _ _ | write pc _ _ | flush pc
  | frameFlush pc => exact quiet rfl (idle pc (by simp)) rfl rfl
  | recvClosed pc _ _ => exact quiet rfl (idle pc (by simp)) (idle pc (by simp)) rfl
  | drop pc =>
    rcases pc with pc | pc
    · exact quiet rfl (idle pc (by simp)) rfl rfl
    · exact quiet rfl (idle pc (by simp)) rfl rfl

lemma waiting_still (still : p.pc.still = true) : p.waiting = [] := by
  rw [Port.waiting]
  cases pc : p.pc with
  | lock cmd args op rest =>
    rw [pc] at still
    cases still
  | _ => rfl

/-- In every run the answers are those to the calls, in order, but for the call that waits. -/
lemma answered_in_order (run : (link SUBS (.entry iface opened timestamp sub)).Run C p tr) :
    ∃ done, asked (shown tr) = done ++ p.waiting ∧ List.Forall₂ (Gives SUBS) done (returns tr) := by
  refine run.invariant (P := fun p tr => ∃ done, asked (shown tr) = done ++ p.waiting ∧
    List.Forall₂ (Gives SUBS) done (returns tr)) ⟨[], rfl, .nil⟩ ?_
  rintro p tr p' tr' ⟨st, e⟩ - ⟨done, calls, answers⟩ - moves
  obtain ⟨st', os, own, -, rfl⟩ := link_sound moves
  obtain ⟨more, next, given⟩ := step_answered (step_sound own) fun cmd args o mem => step_awaits own mem
  refine ⟨done ++ more, ?_, ?_⟩
  · rw [shown_append, shown_append, shown_noted, shown_shown, List.nil_append, asked_append, calls,
      List.append_assoc, next, List.append_assoc]
  · rw [returns_append, returns_append, returns_shown, List.append_nil]
    exact List.rel_append answers given

end Runs
end EspcanBr.Transport
