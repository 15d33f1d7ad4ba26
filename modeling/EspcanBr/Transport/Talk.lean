import EspcanBr.Transport.Stream

/-!
# The replies of a port

What a port answers as a function of the reactions to its stream and of what the manager returned, call
by call (`talk`): how the stream was cut into reads, and the frames written in between, do not enter.
`run_talks` is that function's meaning for a run.
-/

namespace EspcanBr.Transport
open Base Slcan Can

variable {SUBS : UInt32}

/-- The port's flag after a call. -/
def CanOp.opens (op : CanOp) (opened : Bool) : Bool :=
  match op with
  | .open _ => true
  | .close => false
  | _ => opened

/-- The reply to a line that starts with `cmd`, by what its call returned. -/
def CanOp.reply (op : CanOp) (cmd : UInt8) (a : Answer) : List UInt8 :=
  match op with
  | .statusFlags => [ch 'F', hexNibble (a.flags >>> 4), hexNibble (a.flags &&& 0x0f), CR]
  | .setBitrate _ => if a.ok then [CR] else [BELL]
  | .open _ | .close => [CR]
  | .transmit _ => if a.ok then ack cmd else [BELL]

section Run
variable (op : CanOp) (cmd : UInt8) (io : TwaiIo) (st : Statics SUBS) (opened : Bool)

lemma run_reply : (op.run cmd io st opened).reply = op.reply cmd (op.answer io st) := by
  cases op <;> rfl

lemma run_opens : (op.run cmd io st opened).opened = op.opens opened := by
  cases op <;> rfl

end Run

/-- What a line waits for does not depend on the timestamp flag. -/
lemma dispatch_await (cmd : UInt8) (args : List UInt8) (opened timestamp timestamp' : Bool) :
    (dispatch cmd args opened timestamp).await = (dispatch cmd args opened timestamp').await := by
  unfold dispatch
  simp only [apply_ite Dispatched.await]
  cases args.head? <;> cases parseTx (cmd :: args) <;> rfl

/-- A conversation: the port's flag, the calls made, and the replies. -/
structure Talk where
  opened : Bool
  calls : ℕ
  replies : List (List UInt8)
  deriving DecidableEq

/-- What a reaction adds to it; what the manager returns comes from `oracle`. -/
def Talk.next (oracle : ℕ → Answer) (t : Talk) : Reaction → Talk
  | .overlong => { t with replies := t.replies ++ [[BELL]] }
  | .line [] => t
  | .line (cmd :: args) =>
    match (dispatch cmd args t.opened false).await with
    | .reply bytes => { t with replies := t.replies ++ [bytes] }
    | .lock op => ⟨op.opens t.opened, t.calls + 1, t.replies ++ [op.reply cmd (oracle t.calls)]⟩

/-- The conversation over a list of reactions. -/
def talk (oracle : ℕ → Answer) (opened : Bool) (heard : List Reaction) : Talk :=
  heard.foldl (Talk.next oracle) ⟨opened, 0, []⟩

section Talks
variable (oracle : ℕ → Answer) (opened : Bool)

lemma talk_snoc (heard : List Reaction) (r : Reaction) :
    talk oracle opened (heard ++ [r]) = (talk oracle opened heard).next oracle r := by
  rw [talk, List.foldl_append]
  rfl

/-- A line that needs no call. -/
lemma talk_reply {heard cmd args bytes} {t : Talk} (before : talk oracle opened heard = t)
    (await : (dispatch cmd args t.opened false).await = .reply bytes) :
    talk oracle opened (heard ++ [.line (cmd :: args)]) = { t with replies := t.replies ++ [bytes] } := by
  rw [talk_snoc, before, Talk.next, await]

/-- A line that calls the manager. -/
lemma talk_lock {heard cmd args op} {t : Talk} (before : talk oracle opened heard = t)
    (await : (dispatch cmd args t.opened false).await = .lock op) :
    talk oracle opened (heard ++ [.line (cmd :: args)]) =
      ⟨op.opens t.opened, t.calls + 1, t.replies ++ [op.reply cmd (oracle t.calls)]⟩ := by
  rw [talk_snoc, before, Talk.next, await]

/-- What was replied stays. -/
lemma talk_append (heard more : List Reaction) :
    (talk oracle opened heard).replies <+: (talk oracle opened (heard ++ more)).replies := by
  induction more using List.reverseRecOn with
  | nil => simp
  | append_singleton more r ih =>
    rw [← List.append_assoc, talk_snoc]
    refine ih.trans ?_
    unfold Talk.next
    split
    · exact List.prefix_append _ _
    · exact List.prefix_rfl
    · split
      · exact List.prefix_append _ _
      · exact List.prefix_append _ _

/-- Every reaction is answered once. -/
lemma talk_length {heard : List Reaction} (lines : .line [] ∉ heard) :
    (talk oracle opened heard).replies.length = heard.length := by
  induction heard using List.reverseRecOn with
  | nil => rfl
  | append_singleton heard r ih =>
    have front : .line [] ∉ heard := fun mem => lines (List.mem_append_left _ mem)
    have last : r ≠ .line [] := fun eq => lines (List.mem_append_right _ (eq ▸ List.mem_singleton_self r))
    rw [talk_snoc, List.length_append, ← ih front]
    unfold Talk.next
    split
    · exact List.length_append
    · exact absurd rfl last
    · split
      · exact List.length_append
      · exact List.length_append

end Talks

/-- Where a line leads that waits for the manager, or for the link to take its reply. -/
def Awaits (p p' : Port) (cmd : UInt8) (args : List UInt8) : Prop :=
  match (dispatch cmd args p.opened p.timestamp).await with
  | .lock op => ∃ rest, p'.pc = .lock cmd args op rest
  | .reply bytes => ∃ rest, p'.pc = .writing (.reply (cmd :: args) bytes) bytes rest

lemma advance_awaits {p : Port} {wrote : Bool} {bytes : List UInt8} {st : Statics SUBS} {cmd args opened}
    (mem : .line (cmd :: args) opened ∈ (p.advance wrote bytes st).2.2) :
    Awaits p (p.advance wrote bytes st).2.1 cmd args := by
  unfold Port.advance at mem ⊢
  cases came : assemble p.line bytes with
  | more line =>
    rw [came] at mem
    cases mem
  | overlong rest =>
    rw [came] at mem
    cases mem
  | line cmd' args' rest =>
    rw [came] at mem
    cases List.mem_singleton.mp mem
    rw [Awaits]
    cases await : (dispatch cmd args p.opened p.timestamp).await with
    | lock op => exact ⟨rest, by simp only [await]⟩
    | reply bytes => exact ⟨rest, by simp only [await]⟩

lemma resume_awaits {p : Port} {item : Item} {rest : List UInt8} {st : Statics SUBS} {cmd args opened}
    (mem : .line (cmd :: args) opened ∈ (p.resume item rest st).2.2) :
    Awaits p (p.resume item rest st).2.1 cmd args := by
  cases item with
  | frame frame timestamp => cases mem
  | reply line bytes => exact advance_awaits mem
  | overlong => exact advance_awaits mem

/-- A line that is dispatched leads where `dispatch` says. -/
lemma step_awaits {p p' : Port} {st st' : Statics SUBS} {e : Event} {os : List Obs}
    (h : p.step st e = some (st', p', os)) {cmd args opened} (mem : .line (cmd :: args) opened ∈ os) :
    Awaits p p' cmd args := by
  have effects : ∀ es : List Effect, Obs.line (cmd :: args) opened ∉ es.map .effect := by
    intro es mem
    obtain ⟨e, -, eq⟩ := List.mem_map.mp mem
    cases eq
  unfold Port.step at h
  split at h
  · obtain ⟨⟨bus, pos⟩, -, eq⟩ := Option.map_eq_some_iff.mp h
    cases eq
    simp at mem
  · cases h
    cases mem
  · rename_i bytes select
    split at h
    · cases h
    · have eq := Option.some.inj h
      have loop : .line (cmd :: args) opened ∈ (p.advance false bytes st).2.2 := by
        rw [eq]
        exact mem
      have awaits := advance_awaits loop
      rwa [eq] at awaits
  · split at h
    · cases h
      cases mem
    · cases h
      simp at mem
  · obtain ⟨⟨frame, lag, pos⟩, -, eq⟩ := Option.map_eq_some_iff.mp h
    simp only at eq
    split at eq
    · cases eq
      simp at mem
    · cases eq
      simp at mem
  · cases h
    exact absurd mem (effects _)
  · rename_i item left rest n writing
    split at h
    · cases h
      simp at mem
    · split at h
      · cases h
        have loop : .line (cmd :: args) opened ∈ (p.resume item rest st).2.2 := by
          apply (List.mem_cons.mp ((List.mem_cons.mp mem).resolve_left _)).resolve_left
          · intro eq
            cases eq
          · intro eq
            cases eq
        exact resume_awaits loop
      · cases h
  · rename_i item left rest writing
    cases h
    have loop : .line (cmd :: args) opened ∈ (p.resume item rest st).2.2 := by
      apply (List.mem_cons.mp mem).resolve_left
      intro eq
      cases eq
    exact resume_awaits loop
  · cases h
    cases mem
  · cases h
    cases mem
  · cases h
    simp at mem
  · cases h
    cases mem
  · cases h
    cases mem
  · cases h

/-- The writes that ended. -/
def itemsSent (os : List Obs) : List Item :=
  os.filterMap fun
    | .sent item _ => some item
    | _ => none

/-- The write in progress. -/
def Port.current (p : Port) : List Item :=
  match p.pc with
  | .writing item _ _ => [item]
  | _ => []

/-- The replies among the items written. -/
def replies (items : List Item) : List (List UInt8) :=
  items.filterMap fun
    | .frame _ _ => none
    | item => some item.bytes

@[simp] lemma itemsSent_append (os os' : List Obs) : itemsSent (os ++ os') = itemsSent os ++ itemsSent os' :=
  List.filterMap_append

@[simp] lemma itemsSent_effects (es : List Effect) : itemsSent (es.map .effect) = [] := by
  simp [itemsSent]

@[simp] lemma replies_append (items items' : List Item) :
    replies (items ++ items') = replies items ++ replies items' := List.filterMap_append

/-- A port in conversation: what it heard and replied is a talk, which waits for the manager in a
command. After `run_port` only the flag is another. -/
def Port.Talks (p : Port) (oracle : ℕ → Answer) (opened : Bool) (heard : List Reaction) (calls : ℕ)
    (replied : List (List UInt8)) : Prop :=
  match p.pc with
  | .lock cmd args op _ =>
    ∃ front, heard = front ++ [.line (cmd :: args)] ∧ talk oracle opened front = ⟨p.opened, calls, replied⟩ ∧
      (dispatch cmd args p.opened false).await = .lock op
  | .idle | .linked | .returned => ∃ o, talk oracle opened heard = ⟨o, calls, replied⟩
  | _ => talk oracle opened heard = ⟨p.opened, calls, replied⟩

section Talks
variable {oracle : ℕ → Answer} {opened : Bool} {heard : List Reaction} {calls : ℕ}
  {replied : List (List UInt8)} {sent : List Item}

/-- The bytes loop starts the next reply, or the call for it. -/
lemma advance_talks {st st' : Statics SUBS} {p p' : Port} {bytes : List UInt8} {os : List Obs}
    (adv : Advance st p bytes st' p' os)
    (awaits : ∀ cmd args o, .line (cmd :: args) o ∈ os → Awaits p p' cmd args)
    (talks : talk oracle opened heard = ⟨p.opened, calls, replied⟩) :
    itemsSent os = [] ∧
      p'.Talks oracle opened (heard ++ (reacted os ++ p'.rejecting)) calls (replied ++ replies p'.current) := by
  cases adv with
  | more _ pc =>
    rcases pc with rfl | rfl
    · refine ⟨rfl, ?_⟩
      simpa [Port.Talks, Port.rejecting, Port.current, replies, reacted] using talks
    · refine ⟨rfl, ?_⟩
      simpa [Port.Talks, Port.rejecting, Port.current, replies, reacted] using talks
  | overlong _ =>
    refine ⟨rfl, ?_⟩
    have next := talk_snoc oracle opened heard .overlong
    rw [talks] at next
    exact next
  | @lock cmd args op rest ts counted _ _ =>
    refine ⟨rfl, heard, rfl, ?_, ?_⟩
    · rw [talks]
      exact congrArg _ (List.append_nil _).symm
    · have leads := awaits cmd args p.opened List.mem_cons_self
      rw [Awaits, dispatch_await _ _ _ _ false] at leads
      cases await : (dispatch cmd args p.opened false).await with
      | lock op' =>
        rw [await] at leads
        obtain ⟨rest', eq⟩ := leads
        cases eq
        rfl
      | reply bytes =>
        rw [await] at leads
        obtain ⟨rest', eq⟩ := leads
        cases eq
  | @reply cmd args reply rest ts counted _ _ =>
    refine ⟨rfl, ?_⟩
    have leads := awaits cmd args p.opened List.mem_cons_self
    rw [Awaits, dispatch_await _ _ _ _ false] at leads
    cases await : (dispatch cmd args p.opened false).await with
    | lock op' =>
      rw [await] at leads
      obtain ⟨rest', eq⟩ := leads
      cases eq
    | reply bytes =>
      rw [await] at leads
      obtain ⟨rest', eq⟩ := leads
      cases eq
      exact talk_reply oracle opened talks await

lemma resume_talks {st st' : Statics SUBS} {p p' : Port} {item : Item} {rest : List UInt8} {os : List Obs}
    (res : Resume st p rest item st' p' os)
    (awaits : ∀ cmd args o, .line (cmd :: args) o ∈ os → Awaits p p' cmd args)
    (talks : talk oracle opened heard = ⟨p.opened, calls, replied⟩) :
    itemsSent os = [] ∧
      p'.Talks oracle opened (heard ++ (reacted os ++ p'.rejecting)) calls (replied ++ replies p'.current) := by
  cases res with
  | frame =>
    refine ⟨rfl, ?_⟩
    simpa [Port.Talks, Port.rejecting, Port.current, replies, reacted] using talks
  | advance _ adv => exact advance_talks adv awaits talks

/-- There is no `run_port`. -/
def Pc.over : Pc → Bool
  | .idle | .linked | .returned => true
  | _ => false

lemma running_of {p : Port} {pc : Pc} (eq : p.pc = pc) (run : pc.over = false) : p.pc.over = false := eq ▸ run

lemma idle_still {p : Port} (still : p.pc.still = true) : p.rejecting = [] ∧ p.current = [] := by
  obtain ⟨iface, pc, line, flag, timestamp, sub⟩ := p
  cases pc with
  | lock cmd args op rest => cases still
  | writing item left rest => cases still
  | _ => exact ⟨rfl, rfl⟩

/-- Between the lines the talk is over what was heard. -/
lemma talks_still {p : Port} (still : p.pc.still = true) :
    p.Talks oracle opened heard calls replied ↔
      ∃ o, talk oracle opened heard = ⟨o, calls, replied⟩ ∧ (p.pc.over = false → o = p.opened) := by
  obtain ⟨iface, pc, line, flag, timestamp, sub⟩ := p
  cases pc with
  | lock cmd args op rest => cases still
  | writing item left rest => cases still
  | _ => simp [Port.Talks, Pc.over]

/-- What was replied is the talk over the first of what was heard. -/
lemma Port.Talks.front {p : Port} (talks : p.Talks oracle opened heard calls replied) :
    ∃ front, front <+: heard ∧ (talk oracle opened front).replies = replied := by
  rw [Port.Talks] at talks
  split at talks
  · obtain ⟨front, rfl, eq, -⟩ := talks
    exact ⟨front, List.prefix_append _ _, by rw [eq]⟩
  · obtain ⟨o, eq⟩ := talks
    exact ⟨heard, List.prefix_rfl, by rw [eq]⟩
  · obtain ⟨o, eq⟩ := talks
    exact ⟨heard, List.prefix_rfl, by rw [eq]⟩
  · obtain ⟨o, eq⟩ := talks
    exact ⟨heard, List.prefix_rfl, by rw [eq]⟩
  · exact ⟨heard, List.prefix_rfl, by rw [talks]⟩

/-- A step makes at most one call. -/
lemma noted_returns (st : Statics SUBS) (p : Port) (e : Event) :
    returns (noted st p e) = [] ∨ ∃ a, returns (noted st p e) = [a] := by
  unfold noted
  split
  · exact .inl rfl
  · split
    · exact .inr ⟨_, rfl⟩
    · exact .inl rfl
  · exact .inl rfl

/-- Nothing is shown, returned or heard. -/
lemma talks_same {q : Port} {os : List Obs} {ns : List Note} (react : reacted os = [])
    (none : itemsSent os = []) (quiet : returns ns = [])
    (talks : q.Talks oracle opened (heard ++ q.rejecting) calls (replies (sent ++ q.current))) :
    q.Talks oracle opened (heard ++ reacted os ++ q.rejecting) (calls + (returns ns).length)
      (replies (sent ++ itemsSent os ++ q.current)) := by
  rw [react, none, quiet, List.append_nil, List.append_nil]
  exact talks

/-- The talk does not change between two waits at which nothing is written. -/
lemma talks_moves {p q : Port}
    (talks : p.Talks oracle opened (heard ++ p.rejecting) calls (replies (sent ++ p.current)))
    (still : p.pc.still = true) (still' : q.pc.still = true)
    (flag : q.pc.over = false → p.pc.over = false ∧ q.opened = p.opened) :
    q.Talks oracle opened (heard ++ q.rejecting) calls (replies (sent ++ q.current)) := by
  obtain ⟨rejecting, current⟩ := idle_still still
  obtain ⟨rejecting', current'⟩ := idle_still still'
  rw [rejecting, current, talks_still still] at talks
  obtain ⟨o, was, same⟩ := talks
  rw [rejecting', current', talks_still still']
  refine ⟨o, was, fun live => ?_⟩
  rw [same (flag live).1, (flag live).2]

/-- The bytes loop, after the writes `front` ended. -/
lemma talks_loop {p q : Port} (front : List Obs) {os : List Obs} {ns : List Note} (quiet : returns ns = [])
    (rejected : p.rejecting = reacted front) (written : p.current = itemsSent front)
    (goes : itemsSent os = [] ∧ q.Talks oracle opened (heard ++ p.rejecting ++ (reacted os ++ q.rejecting))
      calls (replies (sent ++ p.current) ++ replies q.current)) :
    q.Talks oracle opened (heard ++ reacted (front ++ os) ++ q.rejecting) (calls + (returns ns).length)
      (replies (sent ++ itemsSent (front ++ os) ++ q.current)) := by
  obtain ⟨none, goes⟩ := goes
  rw [rejected, written] at goes
  rw [quiet, reacted_append, itemsSent_append, none]
  simpa [List.append_assoc] using goes

lemma talks_select {p : Port}
    (talks : p.Talks oracle opened (heard ++ p.rejecting) calls (replies (sent ++ p.current)))
    (pc : p.pc = .select) :
    p.rejecting = [] ∧ p.current = [] ∧
      talk oracle opened (heard ++ p.rejecting) = ⟨p.opened, calls, replies (sent ++ p.current)⟩ := by
  obtain ⟨rejecting, current⟩ := idle_still (still_of pc rfl)
  rw [Port.Talks, pc] at talks
  exact ⟨rejecting, current, talks⟩

lemma talks_writing {p : Port} {item left rest}
    (talks : p.Talks oracle opened (heard ++ p.rejecting) calls (replies (sent ++ p.current)))
    (pc : p.pc = .writing item left rest) :
    p.rejecting = item.rejects ∧ p.current = [item] ∧
      talk oracle opened (heard ++ p.rejecting) = ⟨p.opened, calls, replies (sent ++ p.current)⟩ := by
  rw [Port.Talks, pc] at talks
  rw [Port.rejecting, Port.current, pc] at talks ⊢
  exact ⟨rfl, rfl, talks⟩

/-- What a step adds to the conversation. -/
lemma step_talks {st st' : Statics SUBS} {p p' : Port} {e : Event} {os : List Obs}
    (step : Step st p e st' p' os) (other : e ≠ .start)
    (awaits : ∀ cmd args o, .line (cmd :: args) o ∈ os → Awaits p p' cmd args)
    (agrees : ∀ a ∈ returns (noted st p e), oracle calls = a)
    (talks : p.Talks oracle opened (heard ++ p.rejecting) calls (replies (sent ++ p.current))) :
    p'.Talks oracle opened (heard ++ reacted os ++ p'.rejecting) (calls + (returns (noted st p e)).length)
      (replies (sent ++ itemsSent os ++ p'.current)) := by
  -- only a read, a call and the end of a write say something; a frame is no reply
  cases step with
  | connect pc _ => exact talks_same rfl rfl rfl (talks_moves talks (still_of pc rfl) rfl (by simp [Pc.over]))
  | start _ => exact absurd rfl other
  | read pc adv =>
    obtain ⟨rejecting, current, was⟩ := talks_select talks pc
    exact talks_loop [] rfl rejecting current (advance_talks adv awaits was)
  | eofOpen pc _ =>
    exact talks_same rfl rfl rfl (talks_moves talks (still_of pc rfl) rfl fun _ => ⟨running_of pc rfl, rfl⟩)
  | eofClosed pc _ =>
    exact talks_same rfl rfl rfl (talks_moves talks (still_of pc rfl) rfl (by simp [Pc.over]))
  | recvOpen pc _ _ =>
    obtain ⟨rejecting, current, was⟩ := talks_select talks pc
    rw [rejecting, current, List.append_nil] at was
    apply talks_same rfl rfl rfl
    simpa [Port.Talks, Port.rejecting, Port.current, Item.rejects, replies] using was
  | recvClosed pc _ _ =>
    exact talks_same rfl rfl rfl
      (talks_moves talks (still_of pc rfl) (still_of pc rfl) fun _ => ⟨running_of pc rfl, rfl⟩)
  | @granted cmd args op rest io pc =>
    have answered : returns (noted st p (.granted io)) = [op.answer io st] := by
      rw [noted, pc]
      rfl
    have answer := agrees (op.answer io st) (by rw [answered]; exact List.mem_singleton_self _)
    have rejecting : p.rejecting = [] := by rw [Port.rejecting, pc]
    have current : p.current = [] := by rw [Port.current, pc]
    rw [Port.Talks, pc, rejecting, current, List.append_nil, List.append_nil] at talks
    obtain ⟨front, eq, was, await⟩ := talks
    have next := talk_lock oracle opened was await
    rw [← eq, answer, ← run_reply, ← run_opens] at next
    rw [answered, reacted_effects, itemsSent_effects, List.append_nil, List.append_nil, replies_append]
    refine Eq.trans ?_ next
    exact congrArg _ (List.append_nil _)
  | write pc _ _ =>
    obtain ⟨rejecting, current, was⟩ := talks_writing talks pc
    rw [rejecting, current] at was
    exact talks_same rfl rfl rfl was
  | @wrote item left rest st' p' os pc res =>
    obtain ⟨rejecting, current, was⟩ := talks_writing talks pc
    have tail : ∀ cmd args o, .line (cmd :: args) o ∈ os → Awaits p p' cmd args := by
      intro cmd args o mem
      exact awaits cmd args o (List.mem_cons_of_mem _ (List.mem_cons_of_mem _ mem))
    have rejected : p.rejecting = reacted [.out left, .sent item 0] := by
      rw [rejecting]
      cases item <;> rfl
    exact talks_loop [.out left, .sent item 0] rfl rejected current (resume_talks res tail was)
  | @fail item left rest st' p' os pc res =>
    obtain ⟨rejecting, current, was⟩ := talks_writing talks pc
    have tail : ∀ cmd args o, .line (cmd :: args) o ∈ os → Awaits p p' cmd args := by
      intro cmd args o mem
      exact awaits cmd args o (List.mem_cons_of_mem _ mem)
    have rejected : p.rejecting = reacted [.sent item left.length] := by
      rw [rejecting]
      cases item <;> rfl
    exact talks_loop [.sent item left.length] rfl rejected current (resume_talks res tail was)
  | flush pc =>
    exact talks_same rfl rfl rfl (talks_moves talks (still_of pc rfl) rfl fun _ => ⟨running_of pc rfl, rfl⟩)
  | frameFlush pc =>
    exact talks_same rfl rfl rfl (talks_moves talks (still_of pc rfl) rfl fun _ => ⟨running_of pc rfl, rfl⟩)
  | @teardown io pc =>
    have quiet : returns (noted st p (.granted io)) = [] := by
      rw [noted, pc]
      rfl
    exact talks_same rfl rfl quiet (talks_moves talks (still_of pc rfl) rfl (by simp [Pc.over]))
  | drop pc =>
    rcases pc with pc | pc
    · exact talks_same rfl rfl rfl (talks_moves talks (still_of pc rfl) rfl (by simp [Pc.over]))
    · exact talks_same rfl rfl rfl (talks_moves talks (still_of pc rfl) rfl (by simp [Pc.over]))

/-- In every run the replies are the talk over what was heard, for any oracle that gives the answers the
manager gave. -/
lemma run_talks {iface : Iface} {timestamp : Bool} {sub : ℕ} {C : Port → Statics SUBS × Event → Prop}
    {p : Port} {tr : List Note} (run : (link SUBS (.entry iface opened timestamp sub)).Run C p tr)
    (agrees : ∀ i a, (returns tr)[i]? = some a → oracle i = a) :
    p.Talks oracle opened (reacted (shown tr) ++ p.rejecting) (returns tr).length
      (replies (itemsSent (shown tr) ++ p.current)) := by
  refine run.invariant (P := fun p tr => (∀ i a, (returns tr)[i]? = some a → oracle i = a) →
    p.Talks oracle opened (reacted (shown tr) ++ p.rejecting) (returns tr).length
      (replies (itemsSent (shown tr) ++ p.current))) ?_ ?_ agrees
  · exact fun _ => rfl
  · rintro p tr p' tr' ⟨st, e⟩ - talks - moves agrees
    obtain ⟨st', os, own, other, rfl⟩ := link_sound moves
    rw [returns_append, returns_append, returns_shown, List.append_nil] at agrees
    have before : ∀ i a, (returns tr)[i]? = some a → oracle i = a := by
      intro i a get
      apply agrees i a
      rw [List.getElem?_append_left (List.getElem?_eq_some_iff.mp get).1, get]
    have next : ∀ a ∈ returns (noted st p e), oracle (returns tr).length = a := by
      intro a mem
      obtain single | ⟨b, single⟩ := noted_returns st p e
      · rw [single] at mem
        cases mem
      · rw [single] at mem agrees
        apply agrees
        rw [List.getElem?_append_right le_rfl, Nat.sub_self, List.mem_singleton.mp mem]
        rfl
    have goes := step_talks (step_sound own) other (fun cmd args o mem => step_awaits own mem) next
      (talks before)
    rw [shown_append, shown_append, shown_noted, shown_shown, returns_append, returns_append, returns_shown,
      List.append_nil, List.nil_append, reacted_append, itemsSent_append, List.length_append]
    exact goes

end Talks

end EspcanBr.Transport
