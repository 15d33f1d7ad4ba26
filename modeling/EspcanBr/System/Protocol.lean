import EspcanBr.System.Receive
import EspcanBr.Tools.Reader
import EspcanBr.Transport.Talk

/-!
# What a link carries

The output of one call of `run_port` as a sequence of units, replies and frame lines, over a link whose
writes succeed. The units are complete whatever the bytes read, and the replies among them are the talk
over the input lines. On the other side a host's reader counts each unit as what it is.
-/

namespace EspcanBr.System
open Base Slcan Can Transport Tools

variable {SUBS : UInt32}

/-- The write delivers, as far as it goes. -/
def delivers : Event → Bool
  | .fail => false
  | _ => true

/-- What the link has still to take of the write in progress. -/
def unsent (p : Port) : List UInt8 :=
  match p.pc with
  | .writing _ left _ => left
  | _ => []

/-- The units written, the one in progress included. -/
def units (p : Port) (tr : List Note) : List Item := itemsSent (shown tr) ++ p.current

/-- A unit is a frame line or a reply. -/
def Proper (item : Item) : Prop := (∃ f timestamp, item = .frame f timestamp) ∨ Reply item.bytes

lemma reply_dispatch {cmd args opened timestamp ts counted bytes}
    (d : Dispatch cmd args opened timestamp ⟨ts, counted, .reply bytes⟩) : Reply bytes := by
  cases d with
  | version _ => exact .version
  | serial _ => exact .serial
  | noop _ => exact .ok
  | timestamp _ _ => exact .ok
  | reopen _ _ => exact .ok
  | reclose _ _ => exact .ok
  | garbled _ _ _ => exact .refused
  | notOpen _ _ => exact .refused
  | refused _ _ => exact .refused

lemma reply_op (op : CanOp) (cmd : UInt8) (a : Answer) : Reply (op.reply cmd a) := by
  cases op with
  | statusFlags => exact .flags
  | setBitrate d =>
    rw [CanOp.reply]
    split
    · exact .ok
    · exact .refused
  | «open» listenOnly => exact .ok
  | close => exact .ok
  | transmit f =>
    rw [CanOp.reply]
    split
    · rw [Transport.ack]
      split
      · exact .sent29
      · exact .sent11
    · exact .refused

lemma advance_proper {st st' : Statics SUBS} {p p' : Port} {bytes : List UInt8} {os : List Obs}
    (adv : Advance st p bytes st' p' os) : ∀ item ∈ p'.current, Proper item := by
  intro item mem
  cases adv with
  | more _ pc =>
    rcases pc with rfl | rfl
    · cases mem
    · cases mem
  | overlong _ =>
    rw [List.mem_singleton.mp mem]
    exact .inr .refused
  | lock _ _ => cases mem
  | reply _ d =>
    rw [List.mem_singleton.mp mem]
    exact .inr (reply_dispatch d)

lemma resume_proper {st st' : Statics SUBS} {p p' : Port} {item : Item} {rest : List UInt8} {os : List Obs}
    (res : Resume st p rest item st' p' os) : ∀ item ∈ p'.current, Proper item := by
  cases res with
  | frame =>
    intro item mem
    cases mem
  | advance _ adv => exact advance_proper adv

/-- What is being written after a step is proper. -/
lemma step_proper {st st' : Statics SUBS} {p p' : Port} {e : Event} {os : List Obs}
    (step : Step st p e st' p' os) (proper : ∀ item ∈ p.current, Proper item) :
    ∀ item ∈ p'.current, Proper item := by
  cases step with
  | read _ adv => exact advance_proper adv
  | wrote _ res => exact resume_proper res
  | fail _ res => exact resume_proper res
  | recvOpen _ _ _ =>
    intro item mem
    rw [List.mem_singleton.mp mem]
    exact .inl ⟨_, _, rfl⟩
  | recvClosed pc _ _ =>
    rw [Port.current, pc] at proper ⊢
    exact proper
  | granted _ =>
    intro item mem
    rw [List.mem_singleton.mp mem]
    apply Or.inr
    rw [Item.bytes, run_reply]
    exact reply_op _ _ _
  | write pc _ _ =>
    rw [Port.current, pc] at proper
    exact proper
  | _ =>
    intro item mem
    cases mem

/-- A step ends the write in progress or none, and completely if the link delivers all. -/
lemma step_sent {st st' : Statics SUBS} {p p' : Port} {e : Event} {os : List Obs}
    (step : Step st p e st' p' os) (good : delivers e = true) {item : Item} {missing : ℕ}
    (mem : .sent item missing ∈ os) : item ∈ p.current ∧ missing = 0 := by
  have loop : ∀ {os : List Obs}, (os = [] ∨ ∃ line, os = [.line line p.opened]) → .sent item missing ∉ os := by
    rintro os (rfl | ⟨line, rfl⟩) mem
    · cases mem
    · cases List.mem_singleton.mp mem
  cases step with
  | read _ adv => exact absurd mem (loop (advance_shows adv))
  | wrote pc res =>
    rcases List.mem_cons.mp mem with eq | mem
    · cases eq
    · rcases List.mem_cons.mp mem with eq | mem
      · cases eq
        rw [Port.current, pc]
        exact ⟨List.mem_singleton_self _, rfl⟩
      · exact absurd mem (loop (resume_shows res))
  | fail _ _ => cases good
  | granted _ =>
    obtain ⟨effect, -, eq⟩ := List.mem_map.mp mem
    cases eq
  | _ => simp at mem

lemma framesSent_items (os : List Obs) : framesSent os = (itemsSent os).flatMap framesOf := by
  induction os with
  | nil => rfl
  | cons o os ih =>
    cases o with
    | sent item missing => exact congrArg (framesOf item ++ ·) ih
    | _ => exact ih

lemma sentBytes_items {os : List Obs} (complete : ∀ item missing, .sent item missing ∈ os → missing = 0) :
    sentBytes os = (itemsSent os).flatMap Item.bytes := by
  induction os with
  | nil => rfl
  | cons o os ih =>
    have rest := ih fun item missing mem => complete item missing (List.mem_cons_of_mem _ mem)
    cases o with
    | sent item missing =>
      have all : takenOf item missing = item.bytes := by
        rw [complete item missing List.mem_cons_self, takenOf, Nat.sub_zero, List.take_length]
      have first : sentBytes (.sent item missing :: os) = takenOf item missing ++ sentBytes os := rfl
      rw [first, all, rest]
      rfl
    | _ => exact rest

/-- What a run over such a link has written. -/
structure Writes (p : Port) (tr : List Note) : Prop where
  tail : Tail p
  out : outBytes (shown tr) = sentBytes (shown tr) ++ partialBytes p
  complete : ∀ item missing, .sent item missing ∈ shown tr → missing = 0
  proper : ∀ item ∈ units p tr, Proper item
  frames : framesSent (shown tr) ++ pendingFrame p = tookOpen (shown tr)

section Runs
variable {iface : Iface} {opened timestamp : Bool} {sub : ℕ} {p : Port} {tr : List Note}

lemma link_writes (run : (Transport.link SUBS (.entry iface opened timestamp sub)).Run
    (fun _ e => delivers e.2 = true) p tr) : Writes p tr := by
  refine run.invariant (P := Writes) ?_ ?_
  · refine ⟨?_, rfl, ?_, ?_, rfl⟩
    · intro item left rest pc
      cases pc
    · intro item missing mem
      cases mem
    · intro item mem
      cases mem
  · rintro p tr p' tr' ⟨st, e⟩ - writes good moves
    obtain ⟨st', os, own, other, rfl⟩ := link_sound moves
    have step := step_sound own
    have bytes := step_link step writes.tail
    have frames := step_frames step
    have more : shown (tr ++ (noted st p e ++ os.map .shown)) = shown tr ++ os := by
      rw [shown_append, shown_append, shown_noted, shown_shown, List.nil_append]
    have proper : ∀ item ∈ p.current, Proper item := fun item mem =>
      writes.proper item (List.mem_append_right _ mem)
    refine ⟨step_tail step writes.tail, ?_, ?_, ?_, ?_⟩
    · rw [more, outBytes_append, sentBytes_append, writes.out, List.append_assoc, bytes, List.append_assoc]
    · intro item missing mem
      rw [more] at mem
      rcases List.mem_append.mp mem with mem | mem
      · exact writes.complete item missing mem
      · exact (step_sent step good mem).2
    · intro item mem
      rw [units, more, itemsSent_append] at mem
      rcases List.mem_append.mp mem with mem | mem
      · rcases List.mem_append.mp mem with mem | mem
        · exact writes.proper item (List.mem_append_left _ mem)
        -- a write that ends in this step was in progress before it
        · obtain ⟨o, mem, eq⟩ := List.mem_filterMap.mp mem
          cases o with
          | sent item' missing =>
            cases eq
            exact proper item (step_sent step good mem).1
          | _ => cases eq
      · exact step_proper step proper item mem
    · rw [more, framesSent_append, tookOpen_append, List.append_assoc, frames, ← List.append_assoc,
        writes.frames]

/-- With what is left of the write in progress the bytes are those of the units. -/
lemma units_bytes (writes : Writes p tr) :
    outBytes (shown tr) ++ unsent p = (units p tr).flatMap Item.bytes := by
  have current : partialBytes p ++ unsent p = p.current.flatMap Item.bytes := by
    have tail := writes.tail
    rw [partialBytes, unsent, Port.current]
    cases pc : p.pc with
    | writing item left rest =>
      obtain ⟨front, eq⟩ := tail item left rest pc
      have taken : takenOf item left.length = front := by
        rw [takenOf, ← eq, List.length_append, Nat.add_sub_cancel, List.take_left]
      simp only [taken, List.flatMap_cons, List.flatMap_nil, List.append_nil]
      exact eq
    | _ => rfl
  rw [writes.out, sentBytes_items writes.complete, List.append_assoc, current, units, List.flatMap_append]

/-- The frame lines are the frames taken under a flag that was up. -/
lemma units_frames (writes : Writes p tr) : (units p tr).flatMap framesOf = tookOpen (shown tr) := by
  have current : p.current.flatMap framesOf = pendingFrame p := by
    rw [Port.current, pendingFrame]
    cases p.pc with
    | writing item left rest => exact List.append_nil _
    | _ => rfl
  rw [units, List.flatMap_append, current, ← framesSent_items, writes.frames]

/-- The replies are those of the talk over the input lines, as far as it went. -/
lemma units_replies {C : Port → Statics SUBS × Event → Prop}
    (run : (Transport.link SUBS (.entry iface opened timestamp sub)).Run C p tr)
    (fits : Fits (bytesRead tr)) {oracle : ℕ → Answer}
    (agrees : ∀ i a, (returns tr)[i]? = some a → oracle i = a) :
    replies (units p tr) <+: (talk oracle opened ((inputLines (bytesRead tr)).map .line)).replies ∧
      (p.pc.still = true →
        replies (units p tr) = (talk oracle opened ((inputLines (bytesRead tr)).map .line)).replies) := by
  have heard := (run_reacts run).1
  rw [reactions_lines fits] at heard
  have talks := run_talks run agrees
  constructor
  -- what has been answered is a front of the lines heard
  · obtain ⟨front, before, eq⟩ := talks.front
    rw [units, ← eq, ← heard]
    obtain ⟨more, before⟩ := before
    rw [Port.pending, ← List.append_assoc, ← before, List.append_assoc]
    exact talk_append oracle opened front _
  · intro still
    obtain ⟨o, eq, -⟩ := (talks_still still).mp talks
    rw [(idle_still still).1, List.append_nil] at eq
    rw [(pending_still still).1, List.append_nil] at heard
    rw [← heard, eq]
    rfl

/-- A reader counts every unit as what it is. -/
lemma read_units {items : List Item} (proper : ∀ item ∈ items, Proper item) (a n x : ℕ) :
    Reader.read ⟨[], a, n, x⟩ (items.flatMap Item.bytes) =
      ⟨[], a + (replies items).countP acks, n + (replies items).countP naks,
        x + (items.flatMap framesOf).length⟩ := by
  induction items generalizing a n x with
  | nil => rfl
  | cons item items ih =>
    have rest := ih fun item mem => proper item (List.mem_cons_of_mem _ mem)
    have first := proper item List.mem_cons_self
    have reply : Reply item.bytes → replies (item :: items) = item.bytes :: replies items →
        framesOf item = [] → Reader.read ⟨[], a, n, x⟩ ((item :: items).flatMap Item.bytes) =
          ⟨[], a + (replies (item :: items)).countP acks, n + (replies (item :: items)).countP naks,
            x + ((item :: items).flatMap framesOf).length⟩ := by
      intro reply eq none
      have one : ∀ (b : Bool) (k m : ℕ), k + b.toNat + m = k + (m + if b = true then 1 else 0) := by
        intro b k m
        cases b with
        | false => rfl
        | true =>
          rw [Bool.toNat_true, if_pos rfl]
          omega
      rw [List.flatMap_cons, Reader.read_append, read_reply reply, rest, eq, List.countP_cons,
        List.countP_cons, List.flatMap_cons, none, List.nil_append, one, one]
    cases item with
    | frame f timestamp =>
      have eq : replies (.frame f timestamp :: items) = replies items := rfl
      rw [List.flatMap_cons, Reader.read_append, Item.bytes, read_frame, rest, eq, List.flatMap_cons,
        framesOf, List.length_append, List.length_singleton, Nat.add_assoc]
    | reply line bytes =>
      rcases first with ⟨f, timestamp, eq⟩ | is
      · cases eq
      · exact reply is rfl rfl
    | overlong =>
      rcases first with ⟨f, timestamp, eq⟩ | is
      · cases eq
      · exact reply is rfl rfl

/-- The output protocol: over a link whose writes succeed a port writes proper units, which include the
frames it took under a flag that was up. If no segment of the bytes read is too long, the replies are one
to each input line, in order, and depend on nothing but these lines and what the manager answered; a
reader that gets the bytes in any chunks ends with the number of replies of each kind and of frames. -/
theorem output_protocol (run : (Transport.link SUBS (.entry iface opened timestamp sub)).Run
    (fun _ e => delivers e.2 = true) p tr) (fits : Fits (bytesRead tr)) :
    outBytes (shown tr) ++ unsent p = (units p tr).flatMap Item.bytes ∧
    (∀ item ∈ units p tr, Proper item) ∧
    (units p tr).flatMap framesOf = tookOpen (shown tr) ∧
    (∀ oracle : ℕ → Answer, (∀ i a, (returns tr)[i]? = some a → oracle i = a) →
      (talk oracle opened ((inputLines (bytesRead tr)).map .line)).replies.length =
        (inputLines (bytesRead tr)).length ∧
      replies (units p tr) <+: (talk oracle opened ((inputLines (bytesRead tr)).map .line)).replies ∧
      (p.pc.still = true →
        replies (units p tr) = (talk oracle opened ((inputLines (bytesRead tr)).map .line)).replies)) ∧
    (p.pc.still = true → unsent p = [] ∧
      ∀ chunks : List (List UInt8), chunks.flatten = outBytes (shown tr) →
        Reader.new.run chunks = ⟨[], (replies (units p tr)).countP acks,
          (replies (units p tr)).countP naks, (tookOpen (shown tr)).length⟩) := by
  have writes := link_writes run
  have bytes := units_bytes writes
  have frames := units_frames writes
  have lines : .line [] ∉ (inputLines (bytesRead tr)).map Reaction.line := by
    intro mem
    obtain ⟨line, mem, eq⟩ := List.mem_map.mp mem
    cases eq
    simp [inputLines] at mem
  refine ⟨bytes, writes.proper, frames, fun oracle agrees => ?_, fun still => ?_⟩
  · obtain ⟨begun, done⟩ := units_replies run fits agrees
    refine ⟨?_, begun, done⟩
    rw [talk_length oracle opened lines, List.length_map]
  · have none : unsent p = [] := by
      rw [unsent]
      cases pc : p.pc with
      | writing item left rest =>
        rw [pc] at still
        cases still
      | _ => rfl
    refine ⟨none, fun chunks eq => ?_⟩
    rw [none, List.append_nil] at bytes
    have read := read_units writes.proper 0 0 0
    rw [Nat.zero_add, Nat.zero_add, Nat.zero_add, frames] at read
    rw [Reader.run_flatten, eq, bytes]
    exact read

end Runs

/-- Over a stretch of a run of the firmware in which port `i` does not enter `run_port` anew, whatever the
other ports and the receive task do, it goes through a run of its link. -/
theorem stretch_of_link {ι : Type*} [DecidableEq ι] {iface : ι → Iface}
    {C : World (Statics SUBS) Port ι → Input ι Event (List EspTwaiFrame) → Prop}
    {s w : World (Statics SUBS) Port ι} {os : List (Shown ι Obs CanFrame)}
    (run : (machine SUBS iface).Steps C s os w) (i : ι) {D : Event → Prop}
    (good : ∀ v e, C v (.task i e) → e ≠ .start ∧ D e) :
    ∃ tr, (Transport.link SUBS (s.task i)).Run (fun _ e => D e.2) (w.task i) tr ∧
      shown tr = taskTrace i os := by
  refine Tasks.task_invariant (J := fun _ p os _ => ∃ tr,
    (Transport.link SUBS (s.task i)).Run (fun _ e => D e.2) p tr ∧ shown tr = os) i run ?_ ?_ ?_ ?_
  · exact ⟨[], .refl _, rfl⟩
  · rintro v os e sh p os' - c st ⟨tr, run, eq⟩
    obtain ⟨other, meets⟩ := good v e c
    refine ⟨tr ++ (noted v.shared (v.task i) e ++ os'.map .shown), ?_, ?_⟩
    · refine run.snoc (e := (v.shared, e)) meets ?_
      exact link_complete other st
    · rw [shown_append, shown_append, shown_noted, shown_shown, eq, List.nil_append]
  · intro v os j e sh p os' _ _ _ _ linked
    exact linked
  · intro v os d sh os' _ _ _ linked
    exact linked

/-- A session with a frame in it: the port opens, forwards the frame, tells its version, and refuses an
unknown command. -/
def chat : List (Statics 4 × Event) :=
  let received := Statics.new.publish (fromEsp frame123)
  [(.new, .read [ch 'O', CR, ch 'V']), (.new, .granted calm), (.new, .write 1), (.new, .flush),
    (received, .recv 0), (received, .write 2), (received, .write 4), (received, .flush),
    (.new, .read [CR, ch 'x', CR]), (.new, .write 6), (.new, .write 1), (.new, .flush)]

/-- The run the theorem is applied to: the reader sees an acknowledgement, a refusal and a frame. -/
theorem output_protocol_chat : ∃ p tr,
    (Transport.link 4 (.entry .tcp false false 0)).Run (fun _ e => delivers e.2 = true) p tr ∧
      outBytes (shown tr) = CR :: ['t', '1', '2', '3', '0', '\r', 'V', '1', '0', '1', '3', '\r'].map ch ++ [BELL] ∧
      Reader.new.run [outBytes (shown tr)] = ⟨[], 1, 1, 1⟩ := by
  obtain ⟨p, tr, run, fits, still, out, ack, nak, rx⟩ :=
    (Transport.link 4 (.entry .tcp false false 0)).run_exec (fun _ e => delivers e.2 = true) chat
      (fun p tr => Fits (bytesRead tr) ∧ p.pc.still = true ∧
        outBytes (shown tr) =
          CR :: ['t', '1', '2', '3', '0', '\r', 'V', '1', '0', '1', '3', '\r'].map ch ++ [BELL] ∧
        (replies (units p tr)).countP acks = 1 ∧ (replies (units p tr)).countP naks = 1 ∧
        (tookOpen (shown tr)).length = 1) (by decide +kernel)
  have reads := ((output_protocol run fits).2.2.2.2 still).2 [outBytes (shown tr)] (List.append_nil _)
  rw [ack, nak, rx] at reads
  exact ⟨p, tr, run, out, reads⟩

end EspcanBr.System
