import EspcanBr.System.Protocol
import EspcanBr.Tools.Host
import EspcanBr.Transport.Calls

/-!
# A session of the serial tool

What a port makes of the lines that the tool sends: which calls it makes on the manager, and how many of its
replies are acknowledgements and refusals (`session_after`). To probes it replies with its version and forwards
no frame (`probing_units`), and a reader that starts within these replies goes wrong by at most one (`read_cut`).
-/

namespace EspcanBr.System
open Base Slcan Can Transport Tools

variable {SUBS : UInt32}

/-- A line that a port takes as it is. -/
structure Sendable (line : List UInt8) : Prop where
  full : line ≠ []
  fits : line.length ≤ LINE
  plain : ∀ c ∈ line, c ≠ CR ∧ c ≠ ch '\n'

/-- The lines as they are sent. -/
def wire (lines : List (List UInt8)) : List UInt8 := lines.flatMap (· ++ [CR])

/-- What a stream that ends with a line is heard as. -/
structure Heard (stream : List UInt8) (heard : List Reaction) : Prop where
  reacts : reactions [] stream = heard
  ends : leftover [] stream = []

/-- Probes only. -/
def Probes (heard : List Reaction) : Prop := ∀ r ∈ heard, r = .line [ch 'V']

/-- The reply to a probe. -/
def version : List UInt8 := VERSION ++ [CR]

lemma sendable_letter {c : UInt8} (plain : c ≠ CR ∧ c ≠ ch '\n') : Sendable [c] :=
  ⟨List.cons_ne_nil _ _, Nat.one_le_ofNat, fun c' mem => by rwa [List.mem_singleton.mp mem]⟩

lemma wire_append (lines lines' : List (List UInt8)) : wire (lines ++ lines') = wire lines ++ wire lines' :=
  List.flatMap_append

/-- A line that is sent is heard. -/
lemma Heard.line {stream heard line} (h : Heard stream heard) (sendable : Sendable line) :
    Heard (stream ++ (line ++ [CR])) (heard ++ [.line line]) := by
  have inner : CR ∉ line := fun mem => (sendable.plain CR mem).1 rfl
  have all : kept line = line := List.filter_eq_self.mpr fun c mem => by simp [(sendable.plain c mem).2]
  have one : ended line = [.line line] := by
    cases line with
    | nil => exact absurd rfl sendable.full
    | cons cmd args => rfl
  obtain ⟨reacts, left⟩ := reactions_append [] stream (line ++ [CR])
  rw [h.ends] at reacts left
  refine ⟨?_, ?_⟩
  · rw [reacts, h.reacts, reactions_segment (Nat.zero_le _) inner, List.nil_append, all,
      segment_short sendable.fits, one]
    rfl
  · rw [left]
    exact leftover_ends [] List.getLast?_concat

lemma Heard.lines {stream heard} (h : Heard stream heard) {lines : List (List UInt8)}
    (sendable : ∀ line ∈ lines, Sendable line) :
    Heard (stream ++ wire lines) (heard ++ lines.map .line) := by
  induction lines using List.reverseRecOn with
  | nil =>
    rw [List.map_nil, List.append_nil]
    exact h.reacts ▸ ⟨congrArg _ (List.append_nil _), (congrArg _ (List.append_nil _)).trans h.ends⟩
  | append_singleton lines line ih =>
    have before := ih fun line mem => sendable line (List.mem_append_left _ mem)
    have next := before.line (sendable line (List.mem_append_right _ (List.mem_singleton_self _)))
    have last : wire [line] = line ++ [CR] := List.append_nil _
    rw [wire_append, last, List.map_append, ← List.append_assoc stream, ← List.append_assoc heard]
    exact next

/-- Probes of which the first bytes are lost are heard as fewer probes. -/
lemma heard_probes (k lost : ℕ) :
    ∃ heard, Heard ((wire (List.replicate k [ch 'V'])).drop lost) heard ∧ Probes heard := by
  induction k generalizing lost with
  | zero =>
    refine ⟨[], ?_, fun r mem => by cases mem⟩
    rw [List.replicate_zero, wire, List.flatMap_nil, List.drop_nil]
    exact ⟨rfl, rfl⟩
  | succ k ih =>
    have first : wire (List.replicate (k + 1) [ch 'V']) = ch 'V' :: CR :: wire (List.replicate k [ch 'V']) := rfl
    rw [first]
    match lost with
    | 0 =>
      have all : ∀ line ∈ List.replicate (k + 1) [ch 'V'], Sendable line := by
        intro line mem
        rw [List.eq_of_mem_replicate mem]
        exact sendable_letter (by decide)
      have empty : Heard [] [] := ⟨rfl, rfl⟩
      refine ⟨_, empty.lines all, fun r mem => ?_⟩
      obtain ⟨line, probe, rfl⟩ := List.mem_map.mp mem
      rw [List.eq_of_mem_replicate probe]
    | 1 =>
      obtain ⟨heard, h, probes⟩ := ih 0
      refine ⟨heard, ⟨?_, ?_⟩, probes⟩
      · exact h.reacts
      · exact h.ends
    | lost + 2 => exact ih lost

lemma probes_asks {heard : List Reaction} (probes : Probes heard) : asks false heard = ⟨false, []⟩ := by
  induction heard using List.reverseRecOn with
  | nil => rfl
  | append_singleton heard r ih =>
    have before := ih fun r mem => probes r (List.mem_append_left _ mem)
    rw [asks_snoc, before, probes r (List.mem_append_right _ (List.mem_singleton_self r))]
    rfl

lemma probes_talk {heard : List Reaction} (probes : Probes heard) (oracle : ℕ → Answer) :
    talk oracle false heard = ⟨false, 0, List.replicate heard.length version⟩ := by
  induction heard using List.reverseRecOn with
  | nil => rfl
  | append_singleton heard r ih =>
    have before := ih fun r mem => probes r (List.mem_append_left _ mem)
    rw [talk_snoc, before, probes r (List.mem_append_right _ (List.mem_singleton_self r)), List.length_append,
      List.length_singleton, List.replicate_succ']
    rfl

/-- The replies of a talk against the answers: all but `k` are acknowledgements and refusals, and these are the
refused calls. -/
structure Counts (oracle : ℕ → Answer) (t : Talk) (k : ℕ) : Prop where
  refused : t.replies.countP naks = ((List.range t.calls).map oracle).countP (!·.ok)
  all : t.replies.countP acks + t.replies.countP naks + k = t.replies.length

/-- A call is acknowledged or refused, as it was answered. -/
lemma reply_counts (cmd : UInt8) {op : CanOp} {a : Answer} (gives : Gives SUBS op a)
    (other : op ≠ .statusFlags) : acks (op.reply cmd a) = a.ok ∧ naks (op.reply cmd a) = !a.ok := by
  obtain ⟨io, st, rfl⟩ := gives
  cases op with
  | statusFlags => exact absurd rfl other
  | setBitrate d =>
    rw [CanOp.reply]
    cases (CanOp.answer (.setBitrate d) io st).ok with
    | false => decide
    | true => decide
  | «open» listenOnly => exact ⟨rfl, rfl⟩
  | close => exact ⟨rfl, rfl⟩
  | transmit f =>
    rw [CanOp.reply, Transport.ack]
    cases (CanOp.answer (.transmit f) io st).ok with
    | false => exact ⟨rfl, rfl⟩
    | true =>
      rw [if_pos rfl]
      split
      · exact ⟨by decide, by decide⟩
      · exact ⟨by decide, by decide⟩

lemma Counts.lock {oracle : ℕ → Answer} {t : Talk} {k : ℕ} (counts : Counts oracle t k) {op : CanOp}
    (cmd : UInt8) (opened : Bool) (gives : Gives SUBS op (oracle t.calls)) (other : op ≠ .statusFlags) :
    Counts oracle ⟨opened, t.calls + 1, t.replies ++ [op.reply cmd (oracle t.calls)]⟩ k := by
  obtain ⟨refused, all⟩ := counts
  obtain ⟨ack, nak⟩ := reply_counts cmd gives other
  constructor
  · simp only [List.countP_append, List.countP_singleton, List.range_succ, List.map_append, List.map_cons,
      List.map_nil, refused, nak]
  · simp only [List.countP_append, List.countP_singleton, List.length_append, List.length_singleton, ack, nak]
    cases (oracle t.calls).ok
    · simp
      omega
    · simp
      omega

lemma Counts.ok {oracle : ℕ → Answer} {t : Talk} {k : ℕ} (counts : Counts oracle t k) :
    Counts oracle { t with replies := t.replies ++ [[CR]] } k := by
  obtain ⟨refused, all⟩ := counts
  have ack : acks [CR] = true := by decide
  have nak : naks [CR] = false := by decide
  constructor
  · simp only [List.countP_append, List.countP_singleton, refused, nak]
    rfl
  · simp only [List.countP_append, List.countP_singleton, List.length_append, List.length_singleton, ack, nak]
    simp
    omega

/-- After `heard`: the flag, the calls made, and the replies if the calls are answered as they can be. -/
structure After (SUBS : UInt32) (heard : List Reaction) (opened : Bool) (ops : List CanOp) (k : ℕ) : Prop where
  asks : asks false heard = ⟨opened, ops⟩
  counts : ∀ oracle : ℕ → Answer, (∀ i op, ops[i]? = some op → Gives SUBS op (oracle i)) →
    Counts oracle (talk oracle false heard) k

namespace After
variable {heard : List Reaction} {opened : Bool} {ops : List CanOp} {k : ℕ}

lemma probes (probes : Probes heard) : After SUBS heard false [] heard.length := by
  refine ⟨probes_asks probes, fun oracle _ => ?_⟩
  have ack : acks version = false := by decide
  have nak : naks version = false := by decide
  rw [probes_talk probes]
  constructor
  · simp [List.countP_replicate, nak]
  · simp [List.countP_replicate, ack, nak]

/-- A line that calls the manager. -/
lemma lock (after : After SUBS heard opened ops k) (op : CanOp) {cmd args}
    (await : (dispatch cmd args opened false).await = .lock op) (other : op ≠ .statusFlags) :
    After SUBS (heard ++ [.line (cmd :: args)]) (op.opens opened) (ops ++ [op]) k := by
  constructor
  · rw [asks_snoc, after.asks, Asked.next]
    simp only [await]
  · intro oracle gives
    obtain ⟨flag, calls⟩ := asks_talk oracle false heard
    rw [after.asks] at flag calls
    have next := gives ops.length op (by simp)
    have counts := after.counts oracle fun i op get => by
      apply gives i op
      rw [List.getElem?_append_left (List.getElem?_eq_some_iff.mp get).1, get]
    have given : Gives SUBS op (oracle (talk oracle false heard).calls) := by
      rw [← calls]
      exact next
    rw [talk_lock oracle false rfl (by rw [← flag]; exact await), ← flag]
    exact counts.lock cmd _ given other

/-- A line that is acknowledged without a call. -/
lemma ok (after : After SUBS heard opened ops k) {cmd args}
    (await : (dispatch cmd args opened false).await = .reply [CR]) :
    After SUBS (heard ++ [.line (cmd :: args)]) opened ops k := by
  constructor
  · rw [asks_snoc, after.asks, Asked.next]
    simp only [await]
  · intro oracle gives
    obtain ⟨flag, -⟩ := asks_talk oracle false heard
    rw [after.asks] at flag
    rw [talk_reply oracle false rfl (by rw [← flag]; exact await)]
    exact (after.counts oracle gives).ok

end After

/-- A transmit line that parses, under a flag that is up. -/
lemma dispatch_tx {cmd : UInt8} {args : List UInt8} {f : CanFrame} {timestamp : Bool} (tx : isTx cmd)
    (parsed : parseTx (cmd :: args) = some f) :
    (dispatch cmd args true timestamp).await = .lock (.transmit f) := by
  have disp := dispatch_sound cmd args true timestamp
  generalize dispatch cmd args true timestamp = d at disp ⊢
  have other : ∀ {c : UInt8}, cmd = c → ¬ isTx c → False := by
    rintro c rfl no
    exact no tx
  cases disp with
  | transmit _ _ frame =>
    rw [parsed] at frame
    cases frame
    rfl
  | garbled _ _ none =>
    rw [parsed] at none
    cases none
  | notOpen _ down => cases down
  | refused no _ => exact absurd tx no
  | version letter | serial letter | flags letter | timestamp letter _ | bitrate letter _ | close letter _ =>
    exact (other letter (by decide)).elim
  | reclose _ down => cases down
  | noop letter =>
    rcases letter with letter | letter | letter
    · exact (other letter (by decide)).elim
    · exact (other letter (by decide)).elim
    · exact (other letter (by decide)).elim
  | «open» _ down => cases down
  | reopen letter _ =>
    rcases letter with letter | letter
    · exact (other letter (by decide)).elim
    · exact (other letter (by decide)).elim

section Session
variable {o : Options} {random : ℕ → ℕ → UInt8}

/-- The lines of a session with `tx` frames. -/
def toolLines (o : Options) (random : ℕ → ℕ → UInt8) (tx : ℕ) : List (List UInt8) :=
  o.startup ++ o.lines random tx ++ o.finish

/-- The calls of a session with the frames `f`: the bitrate, the opening in normal mode, the frames, the end. -/
def calls (o : Options) (f : ℕ → CanFrame) (tx : ℕ) : List CanOp :=
  [.setBitrate (ch '0' + UInt8.ofNat o.bitrate), .open false] ++
    (List.range tx).map (fun i => .transmit (f i)) ++ [.close]

/-- Frames that a port with its flag up transmits. -/
lemma After.frames {heard : List Reaction} {ops : List CanOp} {k : ℕ} (after : After SUBS heard true ops k)
    {f : ℕ → CanFrame} (parsed : ∀ i, parseTx (o.line random i) = some (f i))
    (head : ∀ i, ∃ cmd args, o.line random i = cmd :: args ∧ isTx cmd) (tx : ℕ) :
    After SUBS (heard ++ (o.lines random tx).map .line) true
      (ops ++ (List.range tx).map fun i => .transmit (f i)) k := by
  induction tx with
  | zero =>
    have none : o.lines random 0 = [] := rfl
    rw [none, List.map_nil, List.append_nil, List.range_zero, List.map_nil, List.append_nil]
    exact after
  | succ tx ih =>
    obtain ⟨cmd, args, eq, isTx⟩ := head tx
    have await : (dispatch cmd args true false).await = .lock (.transmit (f tx)) := by
      have frame := parsed tx
      rw [eq] at frame
      exact dispatch_tx isTx frame
    rw [Host.lines_succ, List.map_append, ← List.append_assoc, List.map_singleton, eq, List.range_succ,
      List.map_append, ← List.append_assoc, List.map_singleton]
    exact ih.lock (.transmit (f tx)) await (by simp)

/-- The payloads fit a frame; only `--pattern fixed` can make longer ones. -/
def Short (o : Options) (random : ℕ → ℕ → UInt8) : Prop :=
  o.gen.pattern = .fixed → ∀ i, (o.payload random i).length ≤ 8

lemma Short.le (short : Short o random) (i : ℕ) : (o.payload random i).length ≤ 8 := by
  by_cases fixed : o.gen.pattern = .fixed
  · exact short fixed i
  · rw [Options.payload]
    split
    · exact Nat.zero_le _
    · cases made : makePayloadGen o.gen random i with
      | none => exact Nat.zero_le _
      | some data => exact length_payload_le made fixed

lemma isTx_letter (ext rtr : Bool) : isTx (letter ext rtr) := (letter_tests ext rtr).1

/-- What a session calls. -/
lemma session_after (SUBS : UInt32) (opens : o.noOpen = false) (short : Short o random) :
    ∃ f : ℕ → CanFrame, (∀ i, Encoded (f i) o.id (o.payload random i) o.ext o.rtr) ∧
      ∀ heard tx, Probes heard →
        After SUBS (heard ++ (toolLines o random tx).map .line) false (calls o f tx) heard.length := by
  choose f parsed encoded using fun i => encoded_accepted o.id o.ext o.rtr (short.le i)
  refine ⟨f, encoded, fun heard tx probes => ?_⟩
  have head : ∀ i, ∃ cmd args, o.line random i = cmd :: args ∧ isTx cmd := by
    intro i
    obtain ⟨digits, eq, -⟩ := encoded_digits_short o.id o.ext o.rtr (short.le i)
    exact ⟨_, digits, eq, isTx_letter _ _⟩
  let rate := ch '0' + UInt8.ofNat o.bitrate
  let front := heard ++ [Reaction.line [ch 'C']] ++ [Reaction.line [ch 'S', rate]] ++ [Reaction.line [ch 'O']]
  have acked : (dispatch (ch 'C') [] false false).await = .reply [CR] := rfl
  have bitrate : (dispatch (ch 'S') [rate] false false).await = .lock (.setBitrate rate) := rfl
  have opening : (dispatch (ch 'O') [] false false).await = .lock (.open false) := rfl
  have closing : (dispatch (ch 'C') [] true false).await = .lock .close := rfl
  have closed : After SUBS (heard ++ [Reaction.line [ch 'C']]) false [] heard.length :=
    (After.probes probes).ok acked
  have set : After SUBS (heard ++ [Reaction.line [ch 'C']] ++ [Reaction.line [ch 'S', rate]]) false
      [.setBitrate rate] heard.length := closed.lock (.setBitrate rate) bitrate (by simp)
  have opened : After SUBS front true [.setBitrate rate, .open false] heard.length :=
    set.lock (.open false) opening (by simp)
  have framed := opened.frames parsed head tx
  have ended : After SUBS (front ++ (o.lines random tx).map Reaction.line ++ [Reaction.line [ch 'C']]) false
      ([CanOp.setBitrate rate, .open false] ++ (List.range tx).map (fun i => CanOp.transmit (f i)) ++ [CanOp.close])
      heard.length := framed.lock .close closing (by simp)
  have lines : toolLines o random tx = [[ch 'C'], [ch 'S', ch '0' + UInt8.ofNat o.bitrate], [ch 'O']] ++
      o.lines random tx ++ [[ch 'C']] := by
    rw [toolLines, Options.startup, Options.finish, opens]
    rfl
  rw [lines]
  simpa [calls, front, rate] using ended

/-- Every line of a session is sendable. -/
lemma session_sendable (short : Short o random) {tx : ℕ} :
    ∀ line ∈ toolLines o random tx, Sendable line := by
  have rate : ∀ b : Fin 9, ch '0' + UInt8.ofNat b ≠ CR ∧ ch '0' + UInt8.ofNat b ≠ ch '\n' := by decide
  intro line mem
  rcases List.mem_append.mp mem with mem | mem
  · rcases List.mem_append.mp mem with mem | mem
    · rw [Options.startup] at mem
      split at mem
      · cases mem
      · rcases List.mem_cons.mp mem with rfl | mem
        · exact sendable_letter (by decide)
        · rcases List.mem_cons.mp mem with rfl | mem
          · constructor
            · exact List.cons_ne_nil _ _
            · rw [List.length_cons, List.length_singleton, LINE]
              omega
            · intro c mem
              rcases List.mem_cons.mp mem with rfl | mem
              · decide
              · rw [List.mem_singleton.mp mem]
                exact rate o.bitrate
          · rw [List.mem_singleton.mp mem]
            exact sendable_letter (by decide)
    · obtain ⟨i, -, rfl⟩ := List.mem_map.mp mem
      obtain ⟨digits, eq, le, hex⟩ := encoded_digits_short o.id o.ext o.rtr (short.le i)
      have line : o.line random i = letter o.ext o.rtr :: digits := eq
      rw [line]
      refine ⟨List.cons_ne_nil _ _, ?_, fun c mem => ?_⟩
      · rw [List.length_cons, LINE]
        omega
      · rcases List.mem_cons.mp mem with rfl | mem
        · cases o.ext <;> cases o.rtr <;> decide
        · have plain := Reader.plain_hex (hex c mem)
          exact ⟨plain.1, plain.2.2⟩
  · rw [Options.finish] at mem
    split at mem
    · cases mem
    · rw [List.mem_singleton.mp mem]
      exact sendable_letter (by decide)

end Session

section Probing
variable {iface : Iface} {timestamp : Bool} {sub : ℕ} {p : Port} {tr : List Note}
  {C : Port → Statics SUBS × Event → Prop}

/-- A frame is taken for the link where the flag is up. -/
lemma step_tookOpen {st st' : Statics SUBS} {p' : Port} {e : Event} {os : List Obs}
    (step : Step st p e st' p' os) : tookOpen os = [] ∨ p.pc = .select ∧ p.opened = true := by
  cases step with
  | read _ adv => exact .inl (quiet_loop (advance_shows adv)).tookOpen
  | wrote _ res => exact .inl (quiet_loop (resume_shows res)).tookOpen
  | fail _ res => exact .inl (quiet_loop (resume_shows res)).tookOpen
  | granted _ => exact .inl (quiet_effects _).tookOpen
  | recvOpen pc _ opened => exact .inr ⟨pc, opened⟩
  | _ => exact .inl rfl

/-- Nothing is forwarded to a tool that has only probed. -/
lemma run_quiet (run : (Transport.link SUBS (.entry iface false timestamp sub)).Run C p tr)
    (probes : Probes (reacted (shown tr))) : tookOpen (shown tr) = [] := by
  refine run.invariant (P := fun _ tr => Probes (reacted (shown tr)) → tookOpen (shown tr) = []) ?_ ?_ probes
  · exact fun _ => rfl
  · rintro p tr p' tr' ⟨st, e⟩ run quiet - moves probes
    obtain ⟨st', os, own, -, rfl⟩ := link_sound moves
    rw [shown_append, shown_append, shown_noted, shown_shown, List.nil_append] at probes ⊢
    rw [reacted_append] at probes
    have before : Probes (reacted (shown tr)) := fun r mem => probes r (List.mem_append_left _ mem)
    rw [tookOpen_append, quiet before, List.nil_append]
    refine (step_tookOpen (step_sound own)).resolve_right fun up => ?_
    have flag := run_flag run (.inl up.1)
    rw [Port.rejecting, up.1] at flag
    simp only [List.append_nil] at flag
    rw [probes_asks before, up.2] at flag
    cases flag

/-- All that is written to a tool that has only probed are the replies to its probes. -/
lemma probing_units (run : (Transport.link SUBS (.entry iface false timestamp sub)).Run
    (fun _ e => delivers e.2 = true) p tr) (probes : Probes (reacted (shown tr) ++ p.rejecting)) :
    ∀ u ∈ units p tr, u.bytes = version ∧ framesOf u = [] := by
  have writes := link_writes run
  have quiet := run_quiet run fun r mem => probes r (List.mem_append_left _ mem)
  have frames := units_frames writes
  rw [quiet] at frames
  obtain ⟨front, ⟨more, eq⟩, replied⟩ := (run_talks run fun i a => answering_get).front
  have all : ∀ reply ∈ replies (units p tr), reply = version := by
    intro reply mem
    rw [units, ← replied, probes_talk fun r mem => probes r (eq ▸ List.mem_append_left _ mem)] at mem
    exact List.eq_of_mem_replicate mem
  intro u mem
  have none : framesOf u = [] := List.flatMap_eq_nil_iff.mp frames u mem
  refine ⟨?_, none⟩
  cases u with
  | frame f timestamp => cases none
  | reply line bytes => exact all _ (List.mem_filterMap.mpr ⟨_, mem, rfl⟩)
  | overlong => exact all _ (List.mem_filterMap.mpr ⟨_, mem, rfl⟩)

/-- The write in progress goes on or ends. -/
lemma step_units {st st' : Statics SUBS} {p' : Port} {e : Event} {os : List Obs} (step : Step st p e st' p' os)
    (good : delivers e = true) : p.current <+: itemsSent os ++ p'.current := by
  have idle : ∀ {pc : Pc}, p.pc = pc → (∀ item left rest, pc ≠ .writing item left rest) →
      p.current <+: itemsSent os ++ p'.current := by
    rintro pc rfl other
    have none : p.current = [] := by
      rw [Port.current]
      split
      · exact absurd ‹_› (other _ _ _)
      · rfl
    rw [none]
    exact List.nil_prefix
  cases step with
  | @wrote item left rest st' p' os pc res =>
    rw [Port.current, pc]
    exact ⟨itemsSent os ++ p'.current, rfl⟩
  | @write item left rest n pc _ _ =>
    rw [Port.current, pc]
    exact ⟨[], rfl⟩
  | fail _ _ => cases good
  | connect pc _ | start pc | read pc _ | eofOpen pc _ | eofClosed pc _ | recvOpen pc _ _ | recvClosed pc _ _
  | granted pc | flush pc | frameFlush pc | teardown pc => exact idle pc (by simp)
  | drop pc =>
    rcases pc with pc | pc
    · exact idle pc (by simp)
    · exact idle pc (by simp)

end Probing

/-- Replies to probes are not counted. -/
lemma versions_count {us : List Item} (versions : ∀ u ∈ us, u.bytes = version ∧ framesOf u = []) :
    (replies us).countP acks = 0 ∧ (replies us).countP naks = 0 ∧ us.flatMap framesOf = [] := by
  have reply : ∀ x ∈ replies us, x = version := by
    intro x mem
    obtain ⟨u, unit, eq⟩ := List.mem_filterMap.mp mem
    cases u with
    | frame f timestamp => cases eq
    | reply line bytes =>
      cases eq
      exact (versions _ unit).1
    | overlong =>
      cases eq
      exact (versions _ unit).1
  refine ⟨List.countP_eq_zero.mpr fun x mem => ?_, List.countP_eq_zero.mpr fun x mem => ?_,
    List.flatMap_eq_nil_iff.mpr fun u mem => (versions u mem).2⟩
  · rw [reply x mem]
    decide
  · rw [reply x mem]
    decide

lemma versions_bytes {us : List Item} (versions : ∀ u ∈ us, u.bytes = version ∧ framesOf u = []) :
    us.flatMap Item.bytes = (List.replicate us.length version).flatten := by
  induction us with
  | nil => rfl
  | cons u us ih =>
    rw [List.flatMap_cons, (versions u List.mem_cons_self).1,
      ih fun u mem => versions u (List.mem_cons_of_mem _ mem)]
    rfl

lemma unsent_still {p : Port} (still : p.pc.still = true) : unsent p = [] := by
  rw [unsent]
  cases pc : p.pc with
  | writing item left rest =>
    rw [pc] at still
    cases still
  | _ => rfl

/-- A reader that starts within the replies to probes may take the end of one for an acknowledgement, and
nothing else for anything. -/
lemma read_cut {n : ℕ} {before after : List UInt8} (eq : before ++ after = (List.replicate n version).flatten) :
    ∃ j, j ≤ 1 ∧ Reader.new.read after = ⟨[], j, 0, 0⟩ := by
  induction n generalizing before with
  | zero =>
    obtain ⟨-, rfl⟩ := List.append_eq_nil_iff.mp eq
    exact ⟨0, Nat.zero_le 1, rfl⟩
  | succ n ih =>
    rw [List.replicate_succ, List.flatten_cons] at eq
    rcases List.append_eq_append_iff.mp eq with ⟨c, cut, rfl⟩ | ⟨c, rfl, rest⟩
    -- the cut is in the first reply
    · have whole : ∀ m a : ℕ,
          Reader.read ⟨[], a, 0, 0⟩ (List.replicate m version).flatten = ⟨[], a, 0, 0⟩ := by
        intro m a
        induction m with
        | zero => rfl
        | succ m ih =>
          rw [List.replicate_succ, List.flatten_cons, Reader.read_append]
          exact (congrArg (Reader.read · _) (read_reply .version a 0 0)).trans ih
      have small : before.length < 7 := by
        have len := congrArg List.length cut
        rw [List.length_append] at len
        have six : version.length = 6 := rfl
        omega
      have end_ : c = version.drop before.length := by
        rw [cut, List.drop_left]
      have all : ∀ i < 7, Reader.new.read (version.drop i) = ⟨[], if i = 5 then 1 else 0, 0, 0⟩ := by decide
      refine ⟨if before.length = 5 then 1 else 0, ?_, ?_⟩
      · split
        · exact Nat.le_refl 1
        · exact Nat.zero_le 1
      · rw [Reader.read_append, end_, all _ small, whole]
    · exact ih rest.symm

end EspcanBr.System
