import EspcanBr.Base.Budget
import EspcanBr.System.Protocol
import EspcanBr.Tools.RoundTrip

/-!
# The work of a port

A port waits for input, works on it, and waits again. The waits it comes by while it works (for the
manager, for the link to take bytes, for a flush) use up a budget that grows only with what is read: at most
eight for a byte. So a port comes back to its input after a bounded number of its own steps, whatever the
other tasks do, and it is never stuck on the way (`port_responds`).
-/

namespace EspcanBr.System
open Base Slcan Can Transport Tools

variable {ι : Type*} [DecidableEq ι] {SUBS : UInt32} {iface : ι → Iface}

/-- The end of a wait that is not for input. -/
def works : Event → Bool
  | .granted _ | .write _ | .fail | .flush => true
  | _ => false

/-- How many such waits there are at most before the port waits for input. -/
def work (p : Port) : ℕ :=
  match p.pc with
  | .idle | .linked | .select | .returned => 0
  | .lock _ _ _ rest => 9 + 8 * rest.length
  | .writing _ left rest => left.length + 2 + 8 * rest.length
  | .flush | .frameFlush | .teardown => 1

/-- How many of them an input leads to at most. -/
def demand : Event → ℕ
  | .read bytes => 8 * bytes.length + 1
  | .recv _ => 33
  | .eof => 1
  | _ => 0

lemma length_reply {reply : List UInt8} (is : Reply reply) : reply.length ≤ 6 := by
  cases is with
  | _ => simp

/-- What is left of the bytes, and the one they were cut at. -/
def tail : Assembled → ℕ
  | .more _ => 0
  | .overlong rest | .line _ _ rest => rest.length + 1

/-- The bytes loop consumes what it works on. -/
lemma tail_assemble (line bytes : List UInt8) : tail (assemble line bytes) ≤ bytes.length := by
  fun_induction assemble line bytes with
  | case1 => exact Nat.zero_le _
  | case2 _ ih => exact Nat.le_succ_of_le ih
  | case3 => exact Nat.le_refl _
  | case4 _ _ _ ih => exact Nat.le_succ_of_le ih
  | case5 _ _ _ _ _ _ ih => exact Nat.le_succ_of_le ih
  | case6 => exact Nat.le_refl _

lemma advance_work {st st' : Statics SUBS} {p p' : Port} {bytes : List UInt8} {os : List Obs}
    (adv : Advance st p bytes st' p' os) : work p' ≤ 8 * bytes.length + 1 := by
  have consumed := tail_assemble p.line bytes
  cases adv with
  | more _ pc =>
    rcases pc with rfl | rfl
    · simp [work]
    · simp [work]
  | overlong asm =>
    rw [asm, tail] at consumed
    simp only [work, List.length_singleton]
    omega
  | lock asm _ =>
    rw [asm, tail] at consumed
    simp only [work]
    omega
  | reply asm d =>
    have short := length_reply (reply_dispatch d)
    rw [asm, tail] at consumed
    simp only [work]
    omega

lemma resume_work {st st' : Statics SUBS} {p p' : Port} {item : Item} {rest : List UInt8} {os : List Obs}
    (res : Resume st p rest item st' p' os) : work p' ≤ 8 * rest.length + 1 := by
  cases res with
  | frame => simp [work]
  | advance _ adv => exact advance_work adv

lemma length_line (f : CanFrame) (timestamp : Option UInt16) : (formatFrame f timestamp).length ≤ 31 := by
  have ids : idLength f.ext ≤ 8 := by
    cases f.ext <;> decide
  have payload : f.payload.length ≤ 8 := by
    rw [CanFrame.payload]
    split
    · exact Nat.zero_le _
    · rw [List.length_take, f.length_data]
      exact Nat.min_le_right _ _
  rw [length_formatFrame]
  split <;> omega

/-- What a step costs. -/
lemma step_work {st st' : Statics SUBS} {p p' : Port} {e : Event} {os : List Obs}
    (step : Step st p e st' p' os) : work p' + (if works e then 1 else 0) ≤ work p + demand e := by
  cases step with
  | read pc adv =>
    have loop := advance_work adv
    simp only [works, demand, Bool.false_eq_true, if_false]
    omega
  | @recvOpen millis frame lag pos timestamp pc =>
    have short := length_line frame timestamp
    simp only [work, works, demand, pc, Bool.false_eq_true, if_false, List.length_nil]
    omega
  | @granted cmd args op rest io pc =>
    have short := length_reply (reply_op op cmd (op.answer io st))
    simp only [work, works, demand, pc, if_true, run_reply]
    omega
  | write pc pos lt =>
    simp only [work, works, demand, pc, if_true, List.length_drop]
    omega
  | wrote pc res =>
    have loop := resume_work res
    simp only [works, demand, if_true]
    simp only [work, pc] at loop ⊢
    omega
  | fail pc res =>
    have loop := resume_work res
    simp only [works, demand, if_true]
    simp only [work, pc] at loop ⊢
    omega
  | drop pc =>
    rcases pc with pc | pc <;> simp [work, works, demand, pc]
  | recvClosed pc _ _ => simp [work, works, demand, pc]
  | _ => simp [work, works, demand, *]

/-- An input of a port: bytes, the end of the link, a message. -/
def isInput : Event → Bool
  | .read _ | .eof | .recv _ => true
  | _ => false

lemma demand_eq_zero {e : Event} (no : isInput e = false) : demand e = 0 := by
  cases e with
  | read bytes | eof | recv millis => cases no
  | _ => rfl

/-- The port waits for input, or has no link. -/
def waits : Pc → Bool
  | .idle | .linked | .select | .returned => true
  | _ => false

/-- A step in which port `i` works. -/
def worksAt (i : ι) : Input ι Event (List EspTwaiFrame) → Bool
  | .task j e => j = i && works e
  | .env _ => false

/-- What is asked of port `i`. -/
def askedOf (i : ι) : Input ι Event (List EspTwaiFrame) → ℕ
  | .task j e => if j = i then demand e else 0
  | .env _ => 0

/-- The work of port `i` is done within its budget, whatever the other ports and the receive task do. -/
lemma work_budget (i : ι) :
    (machine SUBS iface).Budget (fun _ => True) (fun _ => True) (worksAt i) (askedOf i)
      (fun w => work (w.task i)) where
  step := by
    intro w e w' os _ _ st
    refine ⟨trivial, ?_⟩
    cases machine_sound st with
    | @port j e sh p os step =>
      simp only [worksAt, askedOf]
      rcases eq_or_ne j i with rfl | ne
      · simpa using step_work step
      · simp [ne, Function.update_of_ne ne.symm]
    | canRx => simp [worksAt, askedOf]

/-- An input is asked for, and the read buffer bounds what is read at once. -/
lemma input_step {st : Statics SUBS} {p : Port} {e : Event} {r : Statics SUBS × Port × List Obs}
    (step : p.step st e = some r) : work p = 0 ∧ demand e ≤ 513 ∨ demand e = 0 := by
  have idle : isInput e = true → p.pc = .select := by
    intro input
    cases e with
    | read bytes => cases pc : p.pc <;> simp_all [Port.step]
    | eof => cases pc : p.pc <;> simp_all [Port.step]
    | recv millis => cases pc : p.pc <;> simp_all [Port.step]
    | _ => cases input
  cases e with
  | read bytes =>
    have pc := idle rfl
    simp only [Port.step, pc] at step
    split at step
    · cases step
    · rename_i short
      rw [LINE] at short
      refine .inl ⟨by rw [work, pc], ?_⟩
      rw [demand]
      omega
  | eof => exact .inl ⟨by rw [work, idle rfl], by decide⟩
  | recv millis => exact .inl ⟨by rw [work, idle rfl], by rw [demand]; decide⟩
  | _ => exact .inr rfl

/-- No port has more work than a full buffer of bytes makes. -/
lemma work_le {C} {w : World (Statics SUBS) Port ι} {tr : List (Shown ι Obs CanFrame)}
    (run : (machine SUBS iface).Run C w tr) (i : ι) : work (w.task i) ≤ 513 := by
  refine Tasks.task_invariant (J := fun _ p _ _ => work p ≤ 513) i run (Nat.zero_le _) ?_ ?_ ?_
  · intro v os e sh p os' _ _ st le
    have cost := step_work (step_sound st)
    rcases input_step st with ⟨idle, short⟩ | nothing
    · omega
    · omega
  · intro _ _ _ _ _ _ _ _ _ _ _ le
    exact le
  · intro _ _ _ _ _ _ _ _ le
    exact le

/-- A port that works can go on. -/
lemma work_enabled (st : Statics SUBS) {p : Port} (busy : waits p.pc = false) :
    ∃ e, works e = true ∧ (p.step st e).isSome = true := by
  cases pc : p.pc with
  | lock cmd args op rest => exact ⟨.granted calm, rfl, by simp [Port.step, pc]⟩
  | writing item left rest => exact ⟨.write left.length, rfl, by simp [Port.step, pc]⟩
  | flush => exact ⟨.flush, rfl, by simp [Port.step, pc]⟩
  | frameFlush => exact ⟨.flush, rfl, by simp [Port.step, pc]⟩
  | teardown => exact ⟨.granted calm, rfl, by simp [Port.step, pc]⟩
  | _ =>
    rw [pc] at busy
    cases busy

/-- Ports respond. In every run, of any number of ports in any order, what a port does on its own is at most
what its input asks of it: eight steps for a byte and one for a read, 33 for a frame. From any state that is
reached it comes back to its input within 513 of its own steps, whatever the others do in between; and
as long as it has not, it can go on. -/
theorem port_responds (i : ι) {es : List (Input ι Event (List EspTwaiFrame))} {w : World (Statics SUBS) Port ι}
    {tr : List (Shown ι Obs CanFrame)}
    (run : (machine SUBS iface).exec (fun _ _ => True) (machine SUBS iface).init es = some (w, tr)) :
    es.countP (worksAt i) ≤ (es.map (askedOf i)).sum ∧
    (∀ more w' os, (∀ e, .task i e ∈ more → isInput e = false) →
      (machine SUBS iface).exec (fun _ _ => True) w more = some (w', os) → more.countP (worksAt i) ≤ 513) ∧
    (waits (w.task i).pc = false →
      ∃ e, works e = true ∧ ((machine SUBS iface).step w (.task i e)).isSome = true) := by
  refine ⟨?_, ?_, ?_⟩
  · have spent := ((work_budget i).exec trivial (fun _ _ => trivial) run).2
    have new : work ((machine SUBS iface).init.task i) = 0 := rfl
    omega
  · intro more w' os no rest
    have spent := ((work_budget i).exec trivial (fun _ _ => trivial) rest).2
    have le := work_le (.of_exec run) i
    have nothing : (more.map (askedOf i)).sum = 0 := by
      apply List.sum_eq_zero
      intro n mem
      obtain ⟨e, here, rfl⟩ := List.mem_map.mp mem
      cases e with
      | env d => rfl
      | task j e =>
        rw [askedOf]
        split
        · rename_i same
          exact demand_eq_zero (no e (same ▸ here))
        · rfl
    omega
  · intro busy
    obtain ⟨e, own, goes⟩ := work_enabled w.shared busy
    refine ⟨e, own, ?_⟩
    simpa [Tasks.machine, firmware] using goes

/-- A port has read a line, and works on the reply. -/
theorem port_responds_version :
    ∃ w tr, (machine 4 fun _ : Bool => .serial).exec (fun _ _ => True) (machine 4 fun _ : Bool => .serial).init
        (link true ++ [.task true (.read [ch 'V', CR])]) = some (w, tr) ∧ waits (w.task true).pc = false ∧
      (∀ more w' os, (∀ e, .task true e ∈ more → isInput e = false) →
        (machine 4 fun _ : Bool => .serial).exec (fun _ _ => True) w more = some (w', os) →
        more.countP (worksAt true) ≤ 513) ∧
      ∃ e, works e = true ∧ ((machine 4 fun _ : Bool => .serial).step w (.task true e)).isSome = true := by
  have ends : ((machine 4 fun _ : Bool => .serial).exec (fun _ _ => True) (machine 4 fun _ : Bool => .serial).init
      (link true ++ [.task true (.read [ch 'V', CR])])).any
        (fun r => decide (waits (r.1.task true).pc = false)) = true := by decide +kernel
  obtain ⟨⟨w, tr⟩, run, busy⟩ := (Option.any_eq_true _ _).mp ends
  have busy : waits (w.task true).pc = false := of_decide_eq_true busy
  have responds := port_responds true run
  exact ⟨w, tr, run, busy, responds.2.1, responds.2.2 busy⟩

end EspcanBr.System
