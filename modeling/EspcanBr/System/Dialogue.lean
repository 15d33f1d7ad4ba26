import EspcanBr.System.ToolSession

/-!
# The serial tool and the adapter

The tool of `tools/slcan_tool.py` on one side of a serial line and a port of the firmware on the other, with
what is under way in both directions. The tool opens the line while the chip may still be starting, and what it
sends before that is lost; what the chip prints before its firmware runs is not modelled. The port calls on the
manager what the options of the tool say, and what the tool has counted at its end is what the manager answered
(`session_served`).
-/

namespace EspcanBr.System
open Base Slcan Can Transport Tools

variable {SUBS : UInt32}

/-- The two sides, the port once the firmware runs, and the bytes under way. -/
structure Dialogue where
  host : Host
  port : Option Port
  toPort : List UInt8
  toHost : List UInt8

/-- A step of the tool, the start of the firmware, or a step of the port, under the statics as they are. -/
inductive Move (SUBS : UInt32) where
  | host (e : HostEvent)
  | boot (lost : ℕ)
  | port (st : Statics SUBS) (e : Event)

/-- The tool and the adapter; `sub` is the port's position in its subscription. -/
def dialogue (SUBS : UInt32) (o : Options) (random : ℕ → ℕ → UInt8) (sub : ℕ) :
    Machine Dialogue (Move SUBS) Note where
  init := ⟨.new o, none, [], []⟩
  step w
    | .host e => (w.host.step o random w.toHost e).map fun (h, left, lines) =>
      ({ w with host := h, toPort := w.toPort ++ wire lines, toHost := left }, [])
    | .boot lost =>
      if w.port = none then
        some ({ w with port := some (.entry .serial false false sub), toPort := w.toPort.drop lost }, [])
      else none
    | .port st e => w.port.bind fun p => ((Transport.link SUBS p).step p (st, e)).bind fun (p', notes) =>
      if bytesRead notes <+: w.toPort then
        some ({ w with
          port := some p', toPort := w.toPort.drop (bytesRead notes).length,
          toHost := w.toHost ++ outBytes (shown notes) }, notes)
      else none

/-- The writes of the port succeed, and `wait_ready` does not give up before the firmware runs. -/
def ready (w : Dialogue) : Move SUBS → Bool
  | .host .giveUp => w.port.isSome
  | .port _ e => delivers e
  | _ => true

/-- The port's side of a dialogue, and what came of it to the tool. -/
structure On (SUBS : UInt32) (o : Options) (random : ℕ → ℕ → UInt8) (sub : ℕ) (w : Dialogue) (p : Port)
    (tr : List Note) : Prop where
  run : (Transport.link SUBS (.entry .serial false false sub)).Run (fun _ e => delivers e.2 = true) p tr
  stream : ∃ probes, Probes probes ∧
    Heard (bytesRead tr ++ w.toPort) (probes ++ (w.host.sent o random).map .line)
  output : ∃ before after, before ++ after ++ w.toHost = outBytes (shown tr) ∧
    ∀ r, w.host.reader = some r → r = Reader.new.read after ∧ ∃ us, us <+: units p tr ∧
      (∀ u ∈ us, u.bytes = version ∧ framesOf u = []) ∧ before <+: us.flatMap Item.bytes

/-- Before the firmware runs there are only probes. -/
structure Off (w : Dialogue) (tr : List Note) : Prop where
  silent : tr = []
  quiet : w.toHost = []
  probing : w.host.probing
  probes : ∃ k, w.toPort = wire (List.replicate k [ch 'V'])

/-- What holds in every dialogue. -/
structure Kept (SUBS : UInt32) (o : Options) (random : ℕ → ℕ → UInt8) (sub : ℕ) (w : Dialogue)
    (tr : List Note) : Prop where
  ok : w.host.Ok
  off : w.port = none → Off w tr
  on : ∀ p, w.port = some p → On SUBS o random sub w p tr

section Steps
variable {o : Options} {random : ℕ → ℕ → UInt8} {sub : ℕ} {w : Dialogue} {p : Port} {tr : List Note} {h : Host}
  {left : List UInt8} {lines : List (List UInt8)} {e : HostEvent}

/-- The lines a step of the tool sends are heard. -/
lemma host_stream (short : Short o random) (does : Host.Does o random w.host h w.toHost left lines e)
    (stream : ∃ probes, Probes probes ∧
      Heard (bytesRead tr ++ w.toPort) (probes ++ (w.host.sent o random).map .line)) :
    ∃ probes, Probes probes ∧
      Heard (bytesRead tr ++ (w.toPort ++ wire lines)) (probes ++ (h.sent o random).map .line) := by
  obtain ⟨probes, only, heard⟩ := stream
  rw [← List.append_assoc]
  cases does.sends with
  | probe probing stays eq =>
    subst eq
    have probe : ∀ line ∈ [[ch 'V']], Sendable line := by
      intro line mem
      rw [List.mem_singleton.mp mem]
      exact sendable_letter (by decide)
    have next := heard.lines probe
    rw [Host.sent_probing probing, List.map_nil, List.append_nil] at next
    refine ⟨probes ++ [.line [ch 'V']], fun r mem => ?_, ?_⟩
    · rcases List.mem_append.mp mem with mem | mem
      · exact only r mem
      · exact List.mem_singleton.mp mem
    · rw [Host.sent_probing stays, List.map_nil, List.append_nil]
      exact next
  | sent eq =>
    have sendable : ∀ line ∈ lines, Sendable line := by
      intro line mem
      obtain ⟨rest, whole⟩ := h.sent_prefix o random
      apply session_sendable short line
      rw [toolLines, ← whole, eq]
      exact List.mem_append_left _ (List.mem_append_right _ mem)
    refine ⟨probes, only, ?_⟩
    rw [eq, List.map_append, ← List.append_assoc]
    exact heard.lines sendable

/-- A tool in `wait_ready` has been written replies to its probes. -/
lemma On.probing (on : On SUBS o random sub w p tr) (probing : w.host.probing) :
    ∀ u ∈ units p tr, u.bytes = version ∧ framesOf u = [] := by
  obtain ⟨probes, only, heard⟩ := on.stream
  rw [Host.sent_probing probing, List.map_nil, List.append_nil] at heard
  have reacts := heard.reacts
  rw [(reactions_append [] (bytesRead tr) w.toPort).1, ← (run_reacts on.run).1, Port.pending,
    List.append_assoc, List.append_assoc, ← List.append_assoc] at reacts
  apply probing_units on.run
  intro r mem
  apply only r
  rw [← reacts]
  exact List.mem_append_left _ mem

/-- What a step of the tool takes. -/
lemma host_output (on : On SUBS o random sub w p tr)
    (does : Host.Does o random w.host h w.toHost left lines e) :
    ∃ before after, before ++ after ++ left = outBytes (shown tr) ∧
      ∀ r, h.reader = some r → r = Reader.new.read after ∧ ∃ us, us <+: units p tr ∧
        (∀ u ∈ us, u.bytes = version ∧ framesOf u = []) ∧ before <+: us.flatMap Item.bytes := by
  obtain ⟨before, after, all, reads⟩ := on.output
  cases does.takes with
  | discard bytes probing stays eq =>
    refine ⟨before ++ after ++ bytes, [], ?_, fun r reader => ?_⟩
    · rw [List.append_nil, List.append_assoc, ← eq, all]
    · rw [does.ok.reader.mp stays] at reader
      cases reader
  | start bytes probing new eq =>
    have out : before ++ after ++ bytes ++ left = outBytes (shown tr) := by
      rw [List.append_assoc, ← eq, all]
    refine ⟨before ++ after ++ bytes, [], ?_, fun r reader => ⟨?_, units p tr, List.prefix_rfl, ?_, ?_⟩⟩
    · rw [List.append_nil, out]
    · rw [new] at reader
      exact (Option.some.inj reader).symm
    · exact on.probing probing
    · rw [← units_bytes (link_writes on.run), ← out, List.append_assoc (before ++ after ++ bytes)]
      exact List.prefix_append _ _
  | @read r bytes reader reader' eq =>
    obtain ⟨was, us, begun, replies, within⟩ := reads r reader
    refine ⟨before, after ++ bytes, ?_, fun r' now => ⟨?_, us, begun, replies, within⟩⟩
    · rw [← List.append_assoc, List.append_assoc, ← eq, all]
    · rw [reader'] at now
      rw [← Option.some.inj now, was, Reader.read_append]

/-- A step of the tool. -/
lemma host_kept (short : Short o random) (kept : Kept SUBS o random sub w tr)
    (does : Host.Does o random w.host h w.toHost left lines e)
    (ready : e = .giveUp → w.port.isSome = true) :
    Kept SUBS o random sub { w with host := h, toPort := w.toPort ++ wire lines, toHost := left } tr where
  ok := does.ok
  off := by
    intro none
    obtain ⟨silent, quiet, probing, k, probes⟩ := kept.off none
    have stays : h.probing := by
      by_contra leaves
      rcases does.ready probing leaves with gave | arrived
      · have up := ready gave
        rw [none] at up
        cases up
      · exact arrived quiet
    have none_left : left = [] := by
      cases does.takes with
      | discard bytes _ _ eq => exact (List.append_eq_nil_iff.mp (eq.symm.trans quiet)).2
      | start bytes _ _ eq => exact (List.append_eq_nil_iff.mp (eq.symm.trans quiet)).2
      | read bytes _ _ eq => exact (List.append_eq_nil_iff.mp (eq.symm.trans quiet)).2
    refine ⟨silent, none_left, stays, ?_⟩
    simp only [probes]
    cases does.sends with
    | probe _ _ eq =>
      refine ⟨k + 1, ?_⟩
      rw [eq, ← wire_append, List.replicate_succ']
    | sent eq =>
      rw [Host.sent_probing probing, Host.sent_probing stays, List.nil_append] at eq
      refine ⟨k, ?_⟩
      rw [← eq, ← wire_append, List.append_nil]
  on := fun p some =>
    have on := kept.on p some
    ⟨on.run, host_stream short does on.stream, host_output on does⟩

/-- The start of the firmware. -/
lemma boot_kept (kept : Kept SUBS o random sub w tr) (none : w.port = none) (lost : ℕ) :
    Kept SUBS o random sub
      { w with port := some (.entry .serial false false sub), toPort := w.toPort.drop lost } tr where
  ok := kept.ok
  off := fun no => by cases no
  on := by
    intro p eq
    cases eq
    obtain ⟨silent, quiet, probing, k, probes⟩ := kept.off none
    subst silent
    refine ⟨.refl _, ?_, [], [], ?_, fun r reader => ?_⟩
    · obtain ⟨heard, h, only⟩ := heard_probes k lost
      refine ⟨heard, only, ?_⟩
      rw [Host.sent_probing probing, List.map_nil, List.append_nil, probes]
      exact h
    · exact quiet
    · rw [kept.ok.reader.mp probing] at reader
      cases reader

/-- A step of the port. -/
lemma port_kept (kept : Kept SUBS o random sub w tr) (port : w.port = some p) {p' : Port} {st : Statics SUBS}
    {ev : Event} {notes : List Note} (good : delivers ev = true)
    (st_ : (Transport.link SUBS p).step p (st, ev) = some (p', notes)) (reads : bytesRead notes <+: w.toPort) :
    Kept SUBS o random sub
      { w with
        port := some p', toPort := w.toPort.drop (bytesRead notes).length,
        toHost := w.toHost ++ outBytes (shown notes) } (tr ++ notes) where
  ok := kept.ok
  off := fun no => by cases no
  on := by
    intro p'' eq
    cases eq
    obtain ⟨run, stream, before, after, all, reader⟩ := kept.on p port
    obtain ⟨rest, split⟩ := reads
    refine ⟨run.snoc good st_, ?_, before, after, ?_, fun r some => ?_⟩
    · have same : bytesRead (tr ++ notes) ++ w.toPort.drop (bytesRead notes).length =
          bytesRead tr ++ w.toPort := by
        rw [← split, List.drop_left, bytesRead_append, List.append_assoc]
      rw [same]
      exact stream
    · rw [shown_append, outBytes_append, ← all, List.append_assoc, List.append_assoc, List.append_assoc]
    · obtain ⟨was, us, begun, replies, within⟩ := reader r some
      refine ⟨was, us, begun.trans ?_, replies, within⟩
      obtain ⟨st', os, own, -, rfl⟩ := link_sound st_
      rw [units, units, shown_append, shown_append, shown_noted, shown_shown, List.nil_append, itemsSent_append,
        List.append_assoc]
      exact (List.prefix_append_right_inj _).mpr (step_units (step_sound own) good)

/-- In every dialogue. -/
lemma run_kept (opens : o.noOpen = false) (short : Short o random)
    (run : (dialogue SUBS o random sub).Run (ready · · = true) w tr) : Kept SUBS o random sub w tr := by
  refine run.invariant (P := Kept SUBS o random sub) ?_ ?_
  · obtain ⟨ok, probing⟩ := Host.ok_new opens
    exact ⟨ok, fun _ => ⟨rfl, rfl, probing, 0, rfl⟩, fun p no => by cases no⟩
  · intro w tr w' notes e _ kept ready st
    cases e with
    | host e =>
      obtain ⟨⟨h, left, lines⟩, own, eq⟩ := Option.map_eq_some_iff.mp st
      cases eq
      rw [List.append_nil]
      refine host_kept short kept (Host.step_does kept.ok own) ?_
      rintro rfl
      exact ready
    | boot lost =>
      simp only [dialogue, Option.ite_none_right_eq_some, Option.some.injEq, Prod.mk.injEq] at st
      obtain ⟨none, rfl, rfl⟩ := st
      rw [List.append_nil]
      exact boot_kept kept none lost
    | port st_ ev =>
      obtain ⟨p, port, st⟩ := Option.bind_eq_some_iff.mp st
      obtain ⟨⟨p', more⟩, own, st⟩ := Option.bind_eq_some_iff.mp st
      simp only [Option.ite_none_right_eq_some, Option.some.injEq, Prod.mk.injEq] at st
      obtain ⟨reads, rfl, rfl⟩ := st
      exact port_kept kept port ready own reads

/-- All has arrived: the tool is at its end, nothing is under way, and the port has gone through what it
read. -/
structure Settled (w : Dialogue) : Prop where
  closed : w.host.pc = .closed
  read : w.toPort = []
  received : w.toHost = []
  still : ∀ p, w.port = some p → p.pc.still = true

/-- What the tool has counted: every refusal, every frame, and every acknowledgement but perhaps one more, the
end of the reply that `wait_ready` found. -/
structure Counted (r : Reader) (tx : ℕ) (answers : List Answer) (forwarded : List CanFrame) : Prop where
  nak : r.nak = answers.countP (!·.ok)
  ack : r.ack + r.nak = tx + 4 ∨ r.ack + r.nak = tx + 5
  rx : r.rx = forwarded.length

lemma map_answering {answers : List Answer} {n : ℕ} (len : answers.length = n) :
    (List.range n).map (answering answers) = answers := by
  apply List.ext_getElem
  · rw [List.length_map, List.length_range, len]
  · intro i small small'
    rw [List.getElem_map, List.getElem_range, answering_get (List.getElem?_eq_getElem small')]

/-- The replies of a port that has gone through all lines of a session. -/
lemma session_replies (run : (Transport.link SUBS (.entry .serial false false sub)).Run
    (fun _ e => delivers e.2 = true) p tr) (still : p.pc.still = true) {heard : List Reaction} {ops : List CanOp}
    {k : ℕ} (after : After SUBS heard false ops k) (lines : .line [] ∉ heard) (reacts : reacted (shown tr) = heard)
    (given : List.Forall₂ (Gives SUBS) ops (returns tr)) :
    (replies (units p tr)).countP naks = (returns tr).countP (!·.ok) ∧
      (replies (units p tr)).countP acks + (replies (units p tr)).countP naks + k = heard.length := by
  have gives : ∀ i op, ops[i]? = some op → Gives SUBS op (answering (returns tr) i) := by
    intro i op get
    obtain ⟨small, rfl⟩ := List.getElem?_eq_some_iff.mp get
    have small' : i < (returns tr).length := given.length_eq ▸ small
    rw [answering_get (List.getElem?_eq_getElem small')]
    exact given.get small small'
  obtain ⟨refused, total⟩ := after.counts (answering (returns tr)) gives
  obtain ⟨flag, talked, -⟩ := (talks_still still).mp (run_talks run fun i a => answering_get)
  rw [(idle_still still).1, List.append_nil, reacts] at talked
  have replied : replies (units p tr) = (talk (answering (returns tr)) false heard).replies := by
    rw [talked]
    rfl
  have count := (asks_talk (answering (returns tr)) false heard).2
  rw [after.asks] at count
  rw [← count, map_answering given.length_eq.symm, ← replied] at refused
  rw [talk_length _ false lines, ← replied] at total
  exact ⟨refused, total⟩

/-- What the tool's reader makes of all that was written. -/
lemma On.reads (on : On SUBS o random sub w p tr) (still : p.pc.still = true) (received : w.toHost = [])
    {r : Reader} (reader : w.host.reader = some r) :
    ∃ j, j ≤ 1 ∧ r = ⟨[], j + (replies (units p tr)).countP acks, (replies (units p tr)).countP naks,
      (tookOpen (shown tr)).length⟩ := by
  obtain ⟨before, rest, all, reads⟩ := on.output
  obtain ⟨was, us, ⟨more, split⟩, versions, ⟨y, within⟩⟩ := reads r reader
  have writes := link_writes on.run
  -- the reader starts within the replies to probes, and reads all units behind them
  have bytes := units_bytes writes
  rw [unsent_still still, List.append_nil, ← all, received, List.append_nil, ← split, List.flatMap_append,
    ← within, List.append_assoc, List.append_right_inj] at bytes
  obtain ⟨j, le, start⟩ := read_cut (within.trans (versions_bytes versions))
  have proper : ∀ item ∈ more, Proper item := fun item mem =>
    writes.proper item (split ▸ List.mem_append_right _ mem)
  obtain ⟨ack, nak, none⟩ := versions_count versions
  have frames := units_frames writes
  rw [← split, List.flatMap_append, none, List.nil_append] at frames
  refine ⟨j, le, ?_⟩
  rw [was, bytes, Reader.read_append, start, read_units proper, ← split, replies_append, List.countP_append,
    List.countP_append, ack, nak, frames, Nat.zero_add, Nat.zero_add, Nat.zero_add]

/-- A session of the tool. In every dialogue of the tool with an adapter, of whatever options but `--no-open`,
however the bytes are cut in both directions, however often `wait_ready` probes, whatever is lost before the
firmware runs and whatever else the firmware does: the port's calls on the manager are a front of those that the
options say, the bitrate, the opening in normal mode, the frames as they were encoded and in order, the end.
Once all has arrived they are all of them; they were answered in order; and the tool has counted every refused
call, every frame forwarded, and an acknowledgement for every other line it sent since `wait_ready`, with one
more if its reader started within the reply that `wait_ready` found. -/
theorem session_served (opens : o.noOpen = false) (short : Short o random)
    (run : (dialogue SUBS o random sub).Run (ready · · = true) w tr) :
    ∃ f : ℕ → CanFrame, (∀ i, Encoded (f i) o.id (o.payload random i) o.ext o.rtr) ∧
      asked (shown tr) <+: calls o f w.host.tx ∧
      (Settled w → asked (shown tr) = calls o f w.host.tx ∧
        List.Forall₂ (Gives SUBS) (calls o f w.host.tx) (returns tr) ∧
        ∃ r, w.host.reader = some r ∧ Counted r w.host.tx (returns tr) (tookOpen (shown tr))) := by
  obtain ⟨f, encoded, served⟩ := session_after SUBS opens short
  refine ⟨f, encoded, ?_⟩
  have kept := run_kept opens short run
  cases port : w.port with
  | none =>
    obtain ⟨silent, -, probing, -⟩ := kept.off port
    subst silent
    refine ⟨List.nil_prefix, fun settled => ?_⟩
    rcases probing with pc | ⟨buf, pc⟩
    · rw [settled.closed] at pc
      cases pc
    · rw [settled.closed] at pc
      cases pc
  | some p =>
    have on := kept.on p port
    obtain ⟨probes, only, heard⟩ := on.stream
    have after := served probes w.host.tx only
    have reacts := (run_reacts on.run).1
    have whole := heard.reacts
    rw [(reactions_append [] (bytesRead tr) w.toPort).1, ← reacts, List.append_assoc] at whole
    refine ⟨?_, fun settled => ?_⟩
    · obtain ⟨rest, sent⟩ := w.host.sent_prefix o random
      have front := asks_append false (reacted (shown tr))
        (p.pending ++ reactions (leftover [] (bytesRead tr)) w.toPort ++ rest.map .line)
      rw [← List.append_assoc, whole, List.append_assoc, ← List.map_append, sent, run_asks on.run] at front
      rw [toolLines] at after
      rw [after.asks] at front
      exact front
    · have still := settled.still p port
      have all : reacted (shown tr) = probes ++ (toolLines o random w.host.tx).map .line := by
        rw [settled.read, (pending_still still).1] at whole
        rw [Host.sent, settled.closed] at whole
        simpa [reactions, toolLines] using whole
      have asks := run_asks on.run
      rw [all, after.asks] at asks
      obtain ⟨done, made, given⟩ := answered_in_order on.run
      rw [waiting_still still, List.append_nil] at made
      rw [← made, ← asks] at given
      have past : ¬ w.host.probing := Host.past_of settled.closed (by simp)
      obtain ⟨r, reader⟩ := kept.ok.running past
      refine ⟨asks.symm, given, r, reader, ?_⟩
      have lines : (toolLines o random w.host.tx).length = w.host.tx + 4 := by
        rw [toolLines, Options.startup, Options.finish, opens, Options.lines]
        simp
      have full : .line [] ∉ probes ++ (toolLines o random w.host.tx).map .line := by
        intro mem
        rcases List.mem_append.mp mem with mem | mem
        · have probe := only _ mem
          cases probe
        · obtain ⟨line, mem, eq⟩ := List.mem_map.mp mem
          cases eq
          exact (session_sendable short [] mem).full rfl
      obtain ⟨refused, total⟩ := session_replies on.run still after full all given
      obtain ⟨j, le, rfl⟩ := on.reads still settled.received reader
      rw [List.length_append, List.length_map, lines] at total
      refine ⟨refused, ?_, rfl⟩
      simp only
      omega

end Steps

/-- One frame without data, and then the end. -/
def oneFrame : Options := ⟨6, 0x123, false, false, ⟨.fixed, [], some 0⟩, 1, false, false⟩

/-- A first probe that is lost, a second that is answered, and the session in one read. -/
def exchange : List (Move 4) :=
  let started : Statics 4 := (CanOp.run (.open false) (ch 'O') calm .new false).statics
  let sent := ['C', '\r', 'S', '6', '\r', 'O', '\r', 't', '1', '2', '3', '0', '\r', 'C', '\r'].map ch
  [.host (.probe 0), .boot 2, .host .again, .host (.probe 0), .port .new (.read [ch 'V', CR]),
    .port .new (.write 6), .port .new .flush, .host (.chunk 5), .host .line, .host .line, .host .line,
    .host .line, .host .line, .host .line, .port .new (.read sent),
    .port .new (.write 1), .port .new (.granted calm), .port .new (.write 1), .port .new (.granted calm),
    .port .new (.write 1), .port started (.granted calm), .port started (.write 2),
    .port started (.granted calm), .port .new (.write 1), .port .new .flush, .host (.read 7)]

/-- The session the theorem is applied to: all is acknowledged, and the end of the reply that `wait_ready` found
is counted too. -/
theorem session_served_frame : ∃ (w : Dialogue) (tr : List Note) (f : ℕ → CanFrame),
    (dialogue 4 oneFrame (fun _ _ => 0) 0).Run (ready · · = true) w tr ∧
      asked (shown tr) = calls oneFrame f 1 ∧ Encoded (f 0) 0x123 [] false false ∧
      ∃ r, w.host.reader = some r ∧ r.ack = 6 ∧ r.nak = 0 ∧ r.rx = 0 := by
  obtain ⟨w, tr, run, closed, read, received, still, tx, reader⟩ :=
    (dialogue 4 oneFrame (fun _ _ => 0) 0).run_exec (ready · · = true) exchange
      (fun w tr => w.host.pc = .closed ∧ w.toPort = [] ∧ w.toHost = [] ∧
        w.port.all (·.pc.still) = true ∧ w.host.tx = 1 ∧ w.host.reader = some ⟨[], 6, 0, 0⟩) (by decide +kernel)
  have short : Short oneFrame fun _ _ => 0 := fun _ _ => Nat.zero_le 8
  obtain ⟨f, encoded, -, served⟩ := session_served rfl short run
  have settled : Settled w := by
    refine ⟨closed, read, received, fun p port => ?_⟩
    rw [port] at still
    exact still
  obtain ⟨made, -⟩ := served settled
  rw [tx] at made
  exact ⟨w, tr, f, run, made, encoded 0, _, reader, rfl, rfl, rfl⟩

end EspcanBr.System
