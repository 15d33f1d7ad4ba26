import EspcanBr.Base.Machine
import EspcanBr.Transport.Port

/-!
# The lines of a byte stream

What one call of `run_port` makes of the bytes it reads, in whatever reads they arrive and whatever the
shared statics are at each of its steps. `reactions` lists the lines it dispatches and the bytes that do
not fit its buffer, as a function of the stream alone; `run_reacts` is that function's meaning for a run.
-/

namespace EspcanBr.Transport
open Base Slcan Can

variable {SUBS : UInt32}

/-- What the bytes loop comes to: a line, or a byte that does not fit the buffer. -/
inductive Reaction where
  | line (line : List UInt8)
  | overlong
  deriving DecidableEq

/-- A line that ends is dispatched, unless it is empty. -/
def ended : List UInt8 → List Reaction
  | [] => []
  | cmd :: args => [.line (cmd :: args)]

/-- The reactions to a stream of bytes, with `line` assembled before. -/
def reactions (line : List UInt8) : List UInt8 → List Reaction
  | [] => []
  | b :: rest =>
    if b = CR then ended line ++ reactions [] rest
    else if b = ch '\n' then reactions line rest
    else if line.length < LINE then reactions (line ++ [b]) rest
    else .overlong :: reactions [] rest

/-- What is assembled after a stream of bytes. -/
def leftover (line : List UInt8) : List UInt8 → List UInt8
  | [] => line
  | b :: rest =>
    if b = CR then leftover [] rest
    else if b = ch '\n' then leftover line rest
    else if line.length < LINE then leftover (line ++ [b]) rest
    else leftover [] rest

/-- The bytes loop computes the first reaction. -/
lemma reactions_assemble (line bytes : List UInt8) :
    match assemble line bytes with
    | .more line' => reactions line bytes = [] ∧ leftover line bytes = line'
    | .line cmd args rest =>
      reactions line bytes = .line (cmd :: args) :: reactions [] rest ∧
        leftover line bytes = leftover [] rest
    | .overlong rest =>
      reactions line bytes = .overlong :: reactions [] rest ∧ leftover line bytes = leftover [] rest := by
  induction bytes generalizing line with
  | nil => exact ⟨rfl, rfl⟩
  | cons b rest ih =>
    rw [assemble.eq_def, reactions, leftover]
    simp only
    by_cases cr : b = CR
    · rw [if_pos cr, if_pos cr, if_pos cr]
      cases line with
      | nil => exact ih []
      | cons cmd args => exact ⟨rfl, rfl⟩
    · rw [if_neg cr, if_neg cr, if_neg cr]
      by_cases lf : b = ch '\n'
      · rw [if_pos lf, if_pos lf, if_pos lf]
        exact ih line
      · rw [if_neg lf, if_neg lf, if_neg lf]
        by_cases room : line.length < LINE
        · rw [if_pos room, if_pos room, if_pos room]
          exact ih _
        · rw [if_neg room, if_neg room, if_neg room]
          exact ⟨rfl, rfl⟩

/-- The reactions go on from what is assembled. -/
lemma reactions_append (line x y : List UInt8) :
    reactions line (x ++ y) = reactions line x ++ reactions (leftover line x) y ∧
      leftover line (x ++ y) = leftover (leftover line x) y := by
  induction x generalizing line with
  | nil => exact ⟨rfl, rfl⟩
  | cons b rest ih =>
    rw [List.cons_append, reactions, reactions, leftover, leftover]
    by_cases cr : b = CR
    · rw [if_pos cr, if_pos cr, if_pos cr, if_pos cr, List.append_assoc]
      obtain ⟨reacts, left⟩ := ih []
      exact ⟨congrArg _ reacts, left⟩
    · rw [if_neg cr, if_neg cr, if_neg cr, if_neg cr]
      by_cases lf : b = ch '\n'
      · rw [if_pos lf, if_pos lf, if_pos lf, if_pos lf]
        exact ih line
      · rw [if_neg lf, if_neg lf, if_neg lf, if_neg lf]
        by_cases room : line.length < LINE
        · rw [if_pos room, if_pos room, if_pos room, if_pos room]
          exact ih _
        · rw [if_neg room, if_neg room, if_neg room, if_neg room]
          obtain ⟨reacts, left⟩ := ih []
          exact ⟨congrArg _ reacts, left⟩

/-- What the manager returned to a call: the status flags, or whether it succeeded. -/
structure Answer where
  flags : UInt8
  ok : Bool
  deriving DecidableEq

/-- What a call returns. -/
def CanOp.answer (op : CanOp) (io : TwaiIo) (st : Statics SUBS) : Answer :=
  match op with
  | .statusFlags => ⟨st.can.statusFlags io.receiveErrorCount io.transmitErrorCount io.isBusOff, true⟩
  | .setBitrate d => ⟨0, (st.can.setBitrate d).1⟩
  | .open _ | .close => ⟨0, true⟩
  | .transmit frame => ⟨0, (st.transmit io.transmit frame).2.1⟩

/-- What happens on a link: the bytes of a read, what the manager returned, what the port shows. -/
inductive Note where
  | read (bytes : List UInt8)
  | answer (a : Answer)
  | shown (o : Obs)
  deriving DecidableEq

/-- What comes to the port with an event. -/
def noted (st : Statics SUBS) (p : Port) : Event → List Note
  | .read bytes => [.read bytes]
  | .granted io =>
    match p.pc with
    | .lock _ _ op _ => [.answer (op.answer io st)]
    | _ => []
  | _ => []

/-- One call of `run_port`: the port alone, under any statics at each step. -/
def link (SUBS : UInt32) (p : Port) : Machine Port (Statics SUBS × Event) Note where
  init := p
  step
    | _, (_, .start) => none
    | p, (st, e) => (p.step st e).map fun (_, p', os) => (p', noted st p e ++ os.map .shown)

/-- The bytes read. -/
def bytesRead (tr : List Note) : List UInt8 :=
  tr.flatMap fun
    | .read bytes => bytes
    | _ => []

/-- What the manager returned, call by call. -/
def returns (tr : List Note) : List Answer :=
  tr.filterMap fun
    | .answer a => some a
    | _ => none

/-- What the port showed. -/
def shown (tr : List Note) : List Obs :=
  tr.filterMap fun
    | .shown o => some o
    | _ => none

/-- The reactions that are done: a line is dispatched, the reply to an overlong one is written. -/
def reacted (os : List Obs) : List Reaction :=
  os.filterMap fun
    | .line line _ => some (.line line)
    | .sent .overlong _ => some .overlong
    | _ => none

section Histories
variable (tr tr' : List Note) (os : List Obs)

@[simp] lemma bytesRead_append : bytesRead (tr ++ tr') = bytesRead tr ++ bytesRead tr' := List.flatMap_append

@[simp] lemma returns_append : returns (tr ++ tr') = returns tr ++ returns tr' := List.filterMap_append

@[simp] lemma shown_append : shown (tr ++ tr') = shown tr ++ shown tr' := List.filterMap_append

@[simp] lemma bytesRead_shown : bytesRead (os.map .shown) = [] := by
  simp [bytesRead]

@[simp] lemma returns_shown : returns (os.map .shown) = [] := by
  simp [returns]

@[simp] lemma shown_shown : shown (os.map .shown) = os := by
  simp [shown]

@[simp] lemma reacted_append (os' : List Obs) : reacted (os ++ os') = reacted os ++ reacted os' :=
  List.filterMap_append

@[simp] lemma reacted_effects (es : List Effect) : reacted (es.map .effect) = [] := by
  simp [reacted]

end Histories

lemma shown_noted (st : Statics SUBS) (p : Port) (e : Event) : shown (noted st p e) = [] := by
  unfold noted
  split
  · rfl
  · split
    · rfl
    · rfl
  · rfl

/-- A step of a link is a step of its port. -/
lemma link_sound {p p' q : Port} {st : Statics SUBS} {e : Event} {tr : List Note}
    (h : (link SUBS q).step p (st, e) = some (p', tr)) :
    ∃ st' os, p.step st e = some (st', p', os) ∧ e ≠ .start ∧ tr = noted st p e ++ os.map .shown := by
  unfold link at h
  simp only at h
  split at h
  · cases h
  · rename_i other input
    cases input
    obtain ⟨⟨st', p'', os⟩, own, eq⟩ := Option.map_eq_some_iff.mp h
    cases eq
    refine ⟨st', os, own, ?_, rfl⟩
    rintro rfl
    exact other rfl

/-- Any other step of a port is one of a link. -/
lemma link_complete {p p' q : Port} {st st' : Statics SUBS} {e : Event} {os : List Obs} (other : e ≠ .start)
    (own : p.step st e = some (st', p', os)) :
    (link SUBS q).step p (st, e) = some (p', noted st p e ++ os.map .shown) := by
  cases e with
  | start => exact absurd rfl other
  | _ =>
    rw [link]
    simp only [own, Option.map_some]

/-- The bytes read that the loop has still to go through. -/
def Port.rest (p : Port) : List UInt8 :=
  match p.pc with
  | .lock _ _ _ rest | .writing _ _ rest => rest
  | _ => []

/-- An overlong line is rejected once its reply is written. -/
def Item.rejects : Item → List Reaction
  | .overlong => [.overlong]
  | _ => []

/-- The reply to an overlong line that is being written. -/
def Port.rejecting (p : Port) : List Reaction :=
  match p.pc with
  | .writing item _ _ => item.rejects
  | _ => []

/-- The reactions to the bytes read that are not done. -/
def Port.pending (p : Port) : List Reaction := p.rejecting ++ reactions p.line p.rest

/-- What is assembled once the bytes read are gone through. -/
def Port.left (p : Port) : List UInt8 := leftover p.line p.rest

/-- Frames are written between reads. -/
def Port.Apart (p : Port) : Prop :=
  ∀ frame timestamp left rest, p.pc = .writing (.frame frame timestamp) left rest → rest = []

lemma Advance.apart {st st' : Statics SUBS} {p p' : Port} {bytes : List UInt8} {os : List Obs}
    (adv : Advance st p bytes st' p' os) : p'.Apart := by
  intro frame timestamp left rest eq
  cases adv with
  | more _ pc =>
    rcases pc with rfl | rfl
    · cases eq
    · cases eq
  | overlong _ => cases eq
  | lock _ _ => cases eq
  | reply _ _ => cases eq

/-- The bytes loop does the first of the reactions, and leaves the others. -/
lemma advance_reacts {st st' : Statics SUBS} {p p' : Port} {bytes : List UInt8} {os : List Obs}
    (adv : Advance st p bytes st' p' os) :
    reacted os ++ p'.pending = reactions p.line bytes ∧ p'.left = leftover p.line bytes := by
  have first := reactions_assemble p.line bytes
  cases adv with
  | more came pc =>
    rw [came] at first
    obtain ⟨none, left⟩ := first
    rcases pc with rfl | rfl
    · exact ⟨none.symm, left.symm⟩
    · exact ⟨none.symm, left.symm⟩
  | overlong came =>
    -- the rejection is done once its reply is written, a line is as soon as it is dispatched
    rw [came] at first
    obtain ⟨reacts, left⟩ := first
    exact ⟨reacts.symm, left.symm⟩
  | lock came _ =>
    rw [came] at first
    obtain ⟨reacts, left⟩ := first
    exact ⟨reacts.symm, left.symm⟩
  | reply came _ =>
    rw [came] at first
    obtain ⟨reacts, left⟩ := first
    exact ⟨reacts.symm, left.symm⟩

lemma pending_lock {p : Port} {cmd args op rest} (pc : p.pc = .lock cmd args op rest) :
    p.pending = reactions p.line rest ∧ p.left = leftover p.line rest := by
  rw [Port.pending, Port.left, Port.rejecting, Port.rest, pc]
  exact ⟨rfl, rfl⟩

lemma pending_writing {p : Port} {item left rest} (pc : p.pc = .writing item left rest) :
    p.pending = item.rejects ++ reactions p.line rest ∧ p.left = leftover p.line rest := by
  rw [Port.pending, Port.left, Port.rejecting, Port.rest, pc]
  exact ⟨rfl, rfl⟩

/-- After a write the reactions go on with the rest of the bytes. -/
lemma resume_reacts {st st' : Statics SUBS} {p p' : Port} {item : Item} {left rest : List UInt8}
    {os : List Obs} (pc : p.pc = .writing item left rest) (apart : p.Apart)
    (res : Resume st p rest item st' p' os) (missing : ℕ) :
    reacted (.sent item missing :: os) ++ p'.pending = p.pending ∧ p'.left = p.left ∧ p'.Apart := by
  obtain ⟨pending, assembled⟩ := pending_writing pc
  rw [pending, assembled]
  cases res with
  | @frame frame timestamp =>
    have none := apart frame timestamp left rest pc
    subst none
    refine ⟨rfl, rfl, fun frame timestamp left rest eq => ?_⟩
    cases eq
  | advance no adv =>
    obtain ⟨reacts, after⟩ := advance_reacts adv
    refine ⟨?_, after, adv.apart⟩
    rw [← reacts]
    cases item with
    | frame frame timestamp => exact absurd rfl (no frame timestamp)
    | reply line bytes => rfl
    | overlong => rfl

/-- The port is between the lines of what it read, or not in the loop. -/
def Pc.still : Pc → Bool
  | .lock _ _ _ _ | .writing _ _ _ => false
  | _ => true

lemma still_of {p : Port} {pc : Pc} (eq : p.pc = pc) (still : pc.still = true) : p.pc.still = true := eq ▸ still

lemma pending_still {p : Port} (still : p.pc.still = true) : p.pending = [] ∧ p.left = p.line ∧ p.Apart := by
  obtain ⟨iface, pc, line, opened, timestamp, sub⟩ := p
  cases pc with
  | lock cmd args op rest => cases still
  | writing item left rest => cases still
  | _ =>
    refine ⟨rfl, rfl, fun frame timestamp left rest eq => ?_⟩
    cases eq

/-- What a step makes of the bytes it reads, if it reads any. -/
lemma step_reacts {st st' : Statics SUBS} {p p' : Port} {e : Event} {os : List Obs}
    (step : Step st p e st' p' os) (other : e ≠ .start) (apart : p.Apart) :
    reacted os ++ p'.pending = p.pending ++ reactions p.left (bytesRead (noted st p e)) ∧
      p'.left = leftover p.left (bytesRead (noted st p e)) ∧ p'.Apart := by
  -- a step that reads nothing, and keeps what is pending and assembled
  have same : ∀ {q : Port} {os : List Obs}, bytesRead (noted st p e) = [] →
      reacted os ++ q.pending = p.pending ∧ q.left = p.left ∧ q.Apart →
      reacted os ++ q.pending = p.pending ++ reactions p.left (bytesRead (noted st p e)) ∧
        q.left = leftover p.left (bytesRead (noted st p e)) ∧ q.Apart := by
    rintro q os none ⟨reacts, left, apart⟩
    rw [none, reactions, leftover, List.append_nil]
    exact ⟨reacts, left, apart⟩
  -- a step between two such waits
  have moves : ∀ {q : Port} {os : List Obs}, p.pc.still = true → q.pc.still = true → q.line = p.line →
      reacted os = [] → reacted os ++ q.pending = p.pending ∧ q.left = p.left ∧ q.Apart := by
    intro q os still still' line none
    obtain ⟨pending, left, -⟩ := pending_still still
    obtain ⟨pending', left', apart'⟩ := pending_still still'
    rw [pending, pending', left, left', line, none]
    exact ⟨rfl, rfl, apart'⟩
  cases step with
  | connect pc _ => exact same rfl (moves (still_of pc rfl) rfl rfl rfl)
  | start _ => exact absurd rfl other
  | read pc adv =>
    obtain ⟨pending, left, -⟩ := pending_still (still_of pc rfl)
    have bytes : ∀ b, bytesRead [Note.read b] = b := fun b => List.append_nil b
    obtain ⟨reacts, after⟩ := advance_reacts adv
    rw [noted, bytes, pending, left]
    exact ⟨reacts, after, adv.apart⟩
  | eofOpen pc _ => exact same rfl (moves (still_of pc rfl) rfl rfl rfl)
  | eofClosed pc _ => exact same rfl (moves (still_of pc rfl) rfl rfl rfl)
  | recvOpen pc _ _ =>
    obtain ⟨pending, left, -⟩ := pending_still (still_of pc rfl)
    refine same rfl ⟨pending.symm, left.symm, fun frame timestamp left rest eq => ?_⟩
    cases eq
    rfl
  | recvClosed pc _ _ => exact same rfl (moves (still_of pc rfl) (still_of pc rfl) rfl rfl)
  | granted pc =>
    obtain ⟨pending, left⟩ := pending_lock pc
    refine same (by rw [noted, pc]; rfl) ⟨?_, left.symm, fun frame timestamp left rest eq => ?_⟩
    · rw [reacted_effects, pending]
      rfl
    · cases eq
  | write pc _ _ =>
    obtain ⟨pending, left⟩ := pending_writing pc
    refine same rfl ⟨pending.symm, left.symm, fun frame timestamp left rest eq => ?_⟩
    cases eq
    exact apart _ _ _ _ pc
  | wrote pc res =>
    refine same rfl ?_
    exact resume_reacts pc apart res 0
  | fail pc res => exact same rfl (resume_reacts pc apart res _)
  | flush pc => exact same rfl (moves (still_of pc rfl) rfl rfl rfl)
  | frameFlush pc => exact same rfl (moves (still_of pc rfl) rfl rfl rfl)
  | teardown pc => exact same (by rw [noted, pc]; rfl) (moves (still_of pc rfl) rfl rfl rfl)
  | drop pc =>
    rcases pc with pc | pc
    · exact same rfl (moves (still_of pc rfl) rfl rfl rfl)
    · exact same rfl (moves (still_of pc rfl) rfl rfl rfl)

/-- A port that enters `run_port`, its flags as they may be. -/
def Port.entry (iface : Iface) (opened timestamp : Bool) (sub : ℕ) : Port :=
  ⟨iface, .select, [], opened, timestamp, sub⟩

section Runs
variable {iface : Iface} {opened timestamp : Bool} {sub : ℕ} {C : Port → Statics SUBS × Event → Prop}

/-- However the bytes arrive, what is done and what is pending are the reactions to their stream. -/
lemma run_reacts {p : Port} {tr : List Note}
    (run : (link SUBS (.entry iface opened timestamp sub)).Run C p tr) :
    reacted (shown tr) ++ p.pending = reactions [] (bytesRead tr) ∧
      p.left = leftover [] (bytesRead tr) ∧ p.Apart := by
  refine run.invariant (P := fun p tr => reacted (shown tr) ++ p.pending = reactions [] (bytesRead tr) ∧
    p.left = leftover [] (bytesRead tr) ∧ p.Apart) ?_ ?_
  · refine ⟨rfl, rfl, fun frame timestamp left rest eq => ?_⟩
    cases eq
  · rintro p tr p' tr' ⟨st, e⟩ - ⟨reacts, left, apart⟩ - moves
    obtain ⟨st', os, own, other, rfl⟩ := link_sound moves
    obtain ⟨reacts', left', apart'⟩ := step_reacts (step_sound own) other apart
    obtain ⟨more, after⟩ := reactions_append [] (bytesRead tr) (bytesRead (noted st p e))
    refine ⟨?_, ?_, apart'⟩
    · rw [shown_append, shown_append, shown_noted, shown_shown, bytesRead_append, bytesRead_append,
        bytesRead_shown, List.append_nil, List.nil_append, reacted_append, List.append_assoc, reacts',
        ← List.append_assoc, reacts, left, more]
    · rw [bytesRead_append, bytesRead_append, bytesRead_shown, List.append_nil, left', left, after]

end Runs

/-- The bytes of a line that count. -/
def kept (seg : List UInt8) : List UInt8 := seg.filter (· ≠ ch '\n')

/-- The reactions to a line by the bytes of it that count: a rejection for each full buffer and the byte
after it, and what remains as a line of its own. -/
def segment (x : List UInt8) : List Reaction :=
  List.replicate (x.length / (LINE + 1)) .overlong ++ ended (x.drop ((LINE + 1) * (x.length / (LINE + 1))))

/-- A line that fits the buffer. -/
lemma segment_short {x : List UInt8} (le : x.length ≤ LINE) : segment x = ended x := by
  have zero : x.length / (LINE + 1) = 0 := Nat.div_eq_of_lt (Nat.lt_succ_of_le le)
  rw [segment, zero]
  rfl

/-- A byte too many rejects what is assembled, and the line starts again. -/
lemma segment_overlong {a : List UInt8} (full : a.length = LINE + 1) (x : List UInt8) :
    segment (a ++ x) = .overlong :: segment x := by
  have len : (a ++ x).length / (LINE + 1) = x.length / (LINE + 1) + 1 := by
    rw [List.length_append, full, Nat.add_comm, Nat.add_div_right _ (Nat.succ_pos LINE)]
  have drop : (a ++ x).drop ((LINE + 1) * (x.length / (LINE + 1) + 1)) =
      x.drop ((LINE + 1) * (x.length / (LINE + 1))) := by
    rw [Nat.mul_succ, Nat.add_comm, ← full, ← List.drop_drop, List.drop_left]
  rw [segment, len, drop, List.replicate_succ, List.cons_append]
  rfl

/-- The reactions to a line of the stream. -/
lemma reactions_segment {line seg : List UInt8} (le : line.length ≤ LINE) (inner : CR ∉ seg)
    (after : List UInt8) :
    reactions line (seg ++ CR :: after) = segment (line ++ kept seg) ++ reactions [] after := by
  induction seg generalizing line with
  | nil =>
    have none : kept [] = [] := rfl
    rw [none, List.append_nil, List.nil_append, segment_short le, reactions, if_pos rfl]
  | cons b seg ih =>
    have other : b ≠ CR := fun eq => inner (eq ▸ List.mem_cons_self)
    have inner' : CR ∉ seg := fun mem => inner (List.mem_cons_of_mem _ mem)
    rw [List.cons_append, reactions, if_neg other]
    by_cases lf : b = ch '\n'
    · have skip : kept (b :: seg) = kept seg := List.filter_cons_of_neg (by simp [lf])
      rw [if_pos lf, skip]
      exact ih le inner'
    · have keep : kept (b :: seg) = b :: kept seg := List.filter_cons_of_pos (by simp [lf])
      have snoc : line ++ b :: kept seg = (line ++ [b]) ++ kept seg := by
        rw [List.append_assoc]
        rfl
      rw [if_neg lf, keep, snoc]
      by_cases room : line.length < LINE
      · rw [if_pos room]
        refine ih ?_ inner'
        rw [List.length_append]
        exact room
      · have full : (line ++ [b]).length = LINE + 1 := by
          rw [List.length_append, List.length_singleton]
          omega
        rw [if_neg room, segment_overlong full, List.cons_append, ih (Nat.zero_le _) inner']
        rfl

/-- The lines of a stream: what its ended segments keep, if anything. -/
def inputLines (stream : List UInt8) : List (List UInt8) :=
  ((stream.splitOn CR).dropLast.map kept).filter (· ≠ [])

/-- No segment of the stream, the last one included, is too long for the buffer. -/
def Fits (stream : List UInt8) : Prop := ∀ seg ∈ stream.splitOn CR, (kept seg).length ≤ LINE

instance (stream : List UInt8) : Decidable (Fits stream) :=
  inferInstanceAs (Decidable (∀ seg ∈ stream.splitOn CR, (kept seg).length ≤ LINE))

/-- A stream is a segment without an end, or one that ends and a stream. -/
lemma segments {P : List UInt8 → Prop} (last : ∀ seg, CR ∉ seg → P seg)
    (more : ∀ seg after, CR ∉ seg → P after → P (seg ++ CR :: after)) (stream : List UInt8) : P stream := by
  induction len : stream.length using Nat.strong_induction_on generalizing stream with
  | _ n ih =>
    by_cases ends : CR ∈ stream
    · obtain ⟨seg, after, rfl, inner⟩ := List.eq_append_cons_of_mem ends
      apply more seg after inner
      refine ih after.length ?_ after rfl
      rw [← len, List.length_append, List.length_cons]
      omega
    · exact last stream ends

lemma reactions_open {line seg : List UInt8} (inner : CR ∉ seg) (le : line.length + (kept seg).length ≤ LINE) :
    reactions line seg = [] := by
  induction seg generalizing line with
  | nil => rfl
  | cons b seg ih =>
    have other : b ≠ CR := fun eq => inner (eq ▸ List.mem_cons_self)
    have inner' : CR ∉ seg := fun mem => inner (List.mem_cons_of_mem _ mem)
    rw [reactions, if_neg other]
    by_cases lf : b = ch '\n'
    · have skip : kept (b :: seg) = kept seg := List.filter_cons_of_neg (by simp [lf])
      rw [if_pos lf]
      exact ih inner' (skip ▸ le)
    · have keep : kept (b :: seg) = b :: kept seg := List.filter_cons_of_pos (by simp [lf])
      rw [keep, List.length_cons] at le
      rw [if_neg lf, if_pos (by omega)]
      apply ih inner'
      rw [List.length_append, List.length_singleton]
      omega

/-- The reactions to a stream that fits are its lines. -/
lemma reactions_lines {stream : List UInt8} (fits : Fits stream) :
    reactions [] stream = (inputLines stream).map .line := by
  induction stream using segments with
  | last seg inner =>
    have one : seg.splitOn CR = [seg] := List.splitOn_eq_singleton inner
    have le := fits seg (by rw [one]; exact List.mem_singleton_self seg)
    rw [inputLines, one, reactions_open inner (by rw [List.length_nil, Nat.zero_add]; exact le)]
    rfl
  | more seg after inner ih =>
    have cut : (seg ++ CR :: after).splitOn CR = seg :: after.splitOn CR :=
      List.splitOn_append_cons_self_of_not_mem inner after
    have le := fits seg (by rw [cut]; exact List.mem_cons_self)
    have rest : Fits after := fun seg mem => fits seg (by rw [cut]; exact List.mem_cons_of_mem _ mem)
    rw [reactions_segment (Nat.zero_le _) inner, List.nil_append, segment_short le, ih rest, inputLines,
      inputLines, cut, List.dropLast_cons_of_ne_nil (List.splitOn_ne_nil _ _), List.map_cons]
    cases kept seg with
    | nil => rfl
    | cons cmd args => rfl

/-- After a line's end nothing is assembled. -/
lemma leftover_ends {before : List UInt8} (line : List UInt8) (ends : before.getLast? = some CR) :
    leftover line before = [] := by
  obtain ⟨front, rfl⟩ := List.getLast?_eq_some_iff.mp ends
  rw [(reactions_append line front [CR]).2, leftover, if_pos rfl]
  rfl

/-- A line too long for the buffer is rejected once and leaves nothing exactly if it has one byte too
many. -/
lemma segment_rejected {x : List UInt8} (long : LINE < x.length) :
    segment x = [.overlong] ↔ x.length = LINE + 1 := by
  obtain ⟨a, y, rfl, full⟩ : ∃ a y, x = a ++ y ∧ a.length = LINE + 1 :=
    ⟨x.take (LINE + 1), x.drop (LINE + 1), (List.take_append_drop _ _).symm, List.length_take_of_le long⟩
  rw [segment_overlong full, List.length_append, full]
  constructor
  · intro eq
    have none : segment y = [] := (List.cons.inj eq).2
    -- a line that is not empty leaves a rejection or a line
    by_contra more
    rcases Nat.lt_or_ge LINE y.length with long | le
    · have pos : 0 < y.length / (LINE + 1) := Nat.div_pos long (Nat.succ_pos LINE)
      rw [segment, List.append_eq_nil_iff, List.replicate_eq_nil_iff] at none
      exact pos.ne' none.1
    · rw [segment_short le] at none
      cases y with
      | nil => exact more rfl
      | cons cmd args => cases none
  · intro eq
    have none : y = [] := List.eq_nil_of_length_eq_zero (by omega)
    rw [none]
    rfl

/-- A line with more bytes than the buffer holds is rejected as a whole, by one reply and nothing else,
exactly if it has one byte too many: what comes after that byte is taken for a line of its own. -/
theorem overlong_rejected {iface : Iface} {opened timestamp : Bool} {sub : ℕ} {p : Port} {tr : List Note}
    (run : (link SUBS (.entry iface opened timestamp sub)).Reach p tr) {before seg after : List UInt8}
    (read : bytesRead tr = before ++ seg ++ CR :: after)
    (starts : before = [] ∨ before.getLast? = some CR) (inner : CR ∉ seg)
    (long : LINE < (kept seg).length) :
    reacted (shown tr) ++ p.pending = reactions [] before ++ segment (kept seg) ++ reactions [] after ∧
      (reacted (shown tr) ++ p.pending = reactions [] before ++ [.overlong] ++ reactions [] after ↔
        (kept seg).length = LINE + 1) := by
  have fresh : leftover [] before = [] := by
    rcases starts with rfl | ends
    · rfl
    · exact leftover_ends [] ends
  have whole : reacted (shown tr) ++ p.pending =
      reactions [] before ++ segment (kept seg) ++ reactions [] after := by
    rw [(run_reacts run).1, read, List.append_assoc, (reactions_append [] before _).1, fresh,
      reactions_segment (Nat.zero_le _) inner, List.append_assoc, List.nil_append]
  refine ⟨whole, ?_⟩
  rw [whole, List.append_left_inj, List.append_right_inj]
  exact segment_rejected long

/-- One byte `x` too many and `rest`, in two reads, and the link and the manager as they answer. -/
def noise (rest : List UInt8) (waits : List Event) : List (Statics 4 × Event) :=
  ([Event.read (List.replicate LINE (ch 'x')), .read (ch 'x' :: rest ++ [CR]), .write 1] ++ waits ++
    [Event.flush]).map fun e => (.new, e)

/-- The run the theorem is applied to. -/
theorem overlong_rejected_once : ∃ p tr,
    (link 4 (.entry .serial false false 0)).Reach p tr ∧
      bytesRead tr = [] ++ List.replicate (LINE + 1) (ch 'x') ++ CR :: [] ∧ p.pc = .select ∧
      reacted (shown tr) = [.overlong] := by
  obtain ⟨p, tr, run, read, pc, none⟩ :=
    (link 4 (.entry .serial false false 0)).run_exec (fun _ _ => True) (noise [] [])
      (fun p tr => bytesRead tr = [] ++ List.replicate (LINE + 1) (ch 'x') ++ CR :: [] ∧
        p.pc = .select ∧ p.pending = []) (by decide +kernel)
  have whole := (overlong_rejected run read (.inl rfl) (by decide) (by decide)).2.mpr (by decide)
  rw [none, List.append_nil] at whole
  exact ⟨p, tr, run, read, pc, whole⟩

/-- After 65 bytes of noise an `O` in the same line opens the port. -/
theorem remainder_dispatched : ∃ p tr,
    (link 4 (.entry .serial false false 0)).Reach p tr ∧
      bytesRead tr = List.replicate (LINE + 1) (ch 'x') ++ [ch 'O'] ++ [CR] ∧
      .line [ch 'O'] false ∈ shown tr ∧ .effect (.opened false) ∈ shown tr ∧ p.opened = true :=
  (link 4 (.entry .serial false false 0)).run_exec (fun _ _ => True)
    (noise [ch 'O'] [.granted ⟨fun _ => .ok, 0, 0, false⟩, .write 1])
    (fun p tr => bytesRead tr = List.replicate (LINE + 1) (ch 'x') ++ [ch 'O'] ++ [CR] ∧
      .line [ch 'O'] false ∈ shown tr ∧ .effect (.opened false) ∈ shown tr ∧ p.opened = true)
    (by decide +kernel)

end EspcanBr.Transport
