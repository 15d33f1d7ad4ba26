import EspcanBr.Transport.Dispatch

/-!
# Ports

`run_port` of `src/transport.rs` as a machine that moves from one wait to the next. A port's locals are
the port's own line buffer and flags and the place it waits at (`Pc`); what it waits for arrives as an
`Event`: bytes or the end of the link, a message of its subscription, the manager's lock, the progress
or the failure of a write. The task around it (`uart_port`, `tcp_port`, `autoconnect_task`) contributes
the link itself: `connect` takes the subscription, which is not enabled where `rx_subscriber` panics,
and `drop` gives it back. `Step` lists what one event can do, and `step_sound` is the only place that
takes `Port.step` apart.
-/

namespace EspcanBr.Transport
open Base Slcan Can

variable {SUBS : UInt32}

/-- The size of the line buffer, and of the read buffer. -/
def LINE : ℕ := 64

/-- What a port writes: a reply to a line, the reply to an overlong line, or a received frame. -/
inductive Item where
  | reply (line bytes : List UInt8)
  | overlong
  | frame (f : CanFrame) (timestamp : Option UInt16)
  deriving DecidableEq

def Item.bytes : Item → List UInt8
  | .reply _ bytes => bytes
  | .overlong => [BELL]
  | .frame f timestamp => formatFrame f timestamp

/-- Where a port waits: without a link, before `run_port`, in `select`, for the manager in `dispatch`,
in `write_all` with the bytes `left`, in a flush, for the manager after the loop, or after `run_port`.
What is still to be processed of the bytes read is kept in `rest`. -/
inductive Pc where
  | idle
  | linked
  | select
  | lock (cmd : UInt8) (args : List UInt8) (op : CanOp) (rest : List UInt8)
  | writing (item : Item) (left rest : List UInt8)
  | flush
  | frameFlush
  | teardown
  | returned
  deriving DecidableEq

/-- The locals of `run_port`, its subscription and where it waits. -/
structure Port where
  iface : Iface
  pc : Pc
  line : List UInt8
  opened : Bool
  timestamp : Bool
  sub : ℕ
  deriving DecidableEq

def Port.new (iface : Iface) : Port := ⟨iface, .idle, [], false, false, 0⟩

/-- What a port waits for. -/
inductive Event where
  | connect
  | start
  | read (bytes : List UInt8)
  | eof
  | recv (millis : ℕ)
  | granted (io : TwaiIo)
  | write (n : ℕ)
  | fail
  | flush
  | drop

/-- What a port shows: a line with the flag it was dispatched under, what a call on the manager did, a
message taken off its subscription after missing `lag` others, bytes the link took, and the end of a
write with the number of bytes it did not take. -/
inductive Obs where
  | connected
  | line (line : List UInt8) (opened : Bool)
  | effect (e : Effect)
  | took (frame : CanFrame) (lag : ℕ) (opened : Bool)
  | out (bytes : List UInt8)
  | sent (item : Item) (missing : ℕ)
  | returned
  deriving DecidableEq

/-- What the bytes loop of `run_port` comes to first: the end of the bytes, a line, or a byte that does
not fit the buffer. -/
inductive Assembled where
  | more (line : List UInt8)
  | line (cmd : UInt8) (args rest : List UInt8)
  | overlong (rest : List UInt8)
  deriving DecidableEq

/-- The bytes loop of `run_port`, with `line[..len]` so far. -/
def assemble (line : List UInt8) : List UInt8 → Assembled
  | [] => .more line
  | b :: rest =>
    if b = CR then
      match line with
      -- an empty line is not dispatched
      | [] => assemble [] rest
      | cmd :: args => .line cmd args rest
    else if b = ch '\n' then assemble line rest
    else if line.length < LINE then assemble (line ++ [b]) rest
    -- the byte that does not fit is lost with the line
    else .overlong rest

namespace Port

/-- The bytes loop up to its next wait; `wrote` is the source's flag. -/
def advance (p : Port) (wrote : Bool) (bytes : List UInt8) (st : Statics SUBS) :
    Statics SUBS × Port × List Obs :=
  match assemble p.line bytes with
  | .more line => (st, { p with line := line, pc := if wrote then .flush else .select }, [])
  | .overlong rest => (st, { p with line := [], pc := .writing .overlong [BELL] rest }, [])
  | .line cmd args rest =>
    let d := dispatch cmd args p.opened p.timestamp
    let pc :=
      match d.await with
      | .lock op => .lock cmd args op rest
      | .reply bytes => .writing (.reply (cmd :: args) bytes) bytes rest
    (if d.countIn then p.iface.countIn st else st,
      { p with line := [], timestamp := d.timestamp, pc := pc }, [.line (cmd :: args) p.opened])

/-- What follows a `write_all`: the flush of a frame, or the rest of the bytes. -/
def resume (p : Port) (item : Item) (rest : List UInt8) (st : Statics SUBS) :
    Statics SUBS × Port × List Obs :=
  match item with
  | .frame .. => (st, { p with pc := .frameFlush }, [])
  | _ => p.advance true rest st

/-- One event of a port. -/
def step (st : Statics SUBS) (p : Port) (e : Event) : Option (Statics SUBS × Port × List Obs) :=
  match p.pc, e with
  | .idle, .connect =>
    st.rxBus.subscriber.map fun (bus, pos) =>
      ({ st with rxBus := bus }, { p with pc := .linked, sub := pos }, [.connected])
  | .linked, .start =>
    some (st, { p with pc := .select, line := [], opened := false, timestamp := false }, [])
  | .select, .read bytes =>
    if bytes.length = 0 ∨ LINE < bytes.length then none else some (p.advance false bytes st)
  | .select, .eof =>
    if p.opened then some (st, { p with pc := .teardown }, [])
    else some (st, { p with pc := .returned }, [.returned])
  | .select, .recv millis =>
    (st.rxBus.nextMessagePure p.sub).map fun (frame, lag, pos) =>
      if p.opened then
        let item := .frame frame (if p.timestamp then some (nowMs millis) else none)
        (st, { p with sub := pos, pc := .writing item item.bytes [] }, [.took frame lag true])
      -- a port that is not open drops the frame
      else (st, { p with sub := pos }, [.took frame lag false])
  | .lock cmd args op rest, .granted io =>
    let g := op.run cmd io st p.opened
    some (g.statics,
      { p with opened := g.opened, pc := .writing (.reply (cmd :: args) g.reply) g.reply rest },
      g.effects.map .effect)
  | .writing item left rest, .write n =>
    if 0 < n ∧ n < left.length then
      some (st, { p with pc := .writing item (left.drop n) rest }, [.out (left.take n)])
    else if n = left.length then
      let (st', p', os) := p.resume item rest st
      some (st', p', .out left :: .sent item 0 :: os)
    else none
  | .writing item left rest, .fail =>
    -- the result of `write_all` is ignored
    let (st', p', os) := p.resume item rest st
    some (st', p', .sent item left.length :: os)
  | .flush, .flush => some (st, { p with pc := .select }, [])
  -- a frame is counted whether or not its write succeeded
  | .frameFlush, .flush => some (p.iface.countOut st, { p with pc := .select }, [])
  | .teardown, .granted _ =>
    some ({ st with can := st.can.close }, { p with opened := false, pc := .returned },
      [.effect .closed, .returned])
  | .linked, .drop | .returned, .drop =>
    some ({ st with rxBus := st.rxBus.unregister }, { p with pc := .idle }, [])
  | _, _ => none

end Port

/-- What the bytes loop does: it runs out of bytes, a line is too long, or a line is dispatched. -/
inductive Advance (st : Statics SUBS) (p : Port) (bytes : List UInt8) :
    Statics SUBS → Port → List Obs → Prop where
  | more {line pc} :
    assemble p.line bytes = .more line →
    pc = .flush ∨ pc = .select →
    Advance st p bytes st { p with line := line, pc := pc } []
  | overlong {rest} :
    assemble p.line bytes = .overlong rest →
    Advance st p bytes st { p with line := [], pc := .writing .overlong [BELL] rest } []
  | lock {cmd args op rest ts counted} :
    assemble p.line bytes = .line cmd args rest →
    Dispatch cmd args p.opened p.timestamp ⟨ts, counted, .lock op⟩ →
    Advance st p bytes (if counted then p.iface.countIn st else st)
      { p with line := [], timestamp := ts, pc := .lock cmd args op rest }
      [.line (cmd :: args) p.opened]
  | reply {cmd args reply rest ts counted} :
    assemble p.line bytes = .line cmd args rest →
    Dispatch cmd args p.opened p.timestamp ⟨ts, counted, .reply reply⟩ →
    Advance st p bytes (if counted then p.iface.countIn st else st)
      { p with line := [], timestamp := ts, pc := .writing (.reply (cmd :: args) reply) reply rest }
      [.line (cmd :: args) p.opened]

/-- What follows the write of an item. -/
inductive Resume (st : Statics SUBS) (p : Port) (rest : List UInt8) :
    Item → Statics SUBS → Port → List Obs → Prop where
  | frame {frame timestamp} :
    Resume st p rest (.frame frame timestamp) st { p with pc := .frameFlush } []
  | advance {item st' p' os} :
    (∀ frame timestamp, item ≠ .frame frame timestamp) →
    Advance st p rest st' p' os →
    Resume st p rest item st' p' os

/-- What one event of a port does. -/
inductive Step (st : Statics SUBS) (p : Port) : Event → Statics SUBS → Port → List Obs → Prop where
  | connect {bus pos} :
    p.pc = .idle →
    st.rxBus.subscriber = some (bus, pos) →
    Step st p .connect { st with rxBus := bus } { p with pc := .linked, sub := pos } [.connected]
  | start :
    p.pc = .linked →
    Step st p .start st
      { p with pc := .select, line := [], opened := false, timestamp := false } []
  | read {bytes st' p' os} :
    p.pc = .select →
    Advance st p bytes st' p' os →
    Step st p (.read bytes) st' p' os
  | eofOpen :
    p.pc = .select →
    p.opened = true →
    Step st p .eof st { p with pc := .teardown } []
  | eofClosed :
    p.pc = .select →
    p.opened = false →
    Step st p .eof st { p with pc := .returned } [.returned]
  | recvOpen {millis frame lag pos timestamp} :
    p.pc = .select →
    st.rxBus.nextMessagePure p.sub = some (frame, lag, pos) →
    p.opened = true →
    Step st p (.recv millis) st
      { p with sub := pos, pc := .writing (.frame frame timestamp) (formatFrame frame timestamp) [] }
      [.took frame lag true]
  | recvClosed {millis frame lag pos} :
    p.pc = .select →
    st.rxBus.nextMessagePure p.sub = some (frame, lag, pos) →
    p.opened = false →
    Step st p (.recv millis) st { p with sub := pos } [.took frame lag false]
  | granted {cmd args op rest io} :
    p.pc = .lock cmd args op rest →
    Step st p (.granted io) (op.run cmd io st p.opened).statics
      { p with
        opened := (op.run cmd io st p.opened).opened,
        pc := .writing (.reply (cmd :: args) (op.run cmd io st p.opened).reply)
          (op.run cmd io st p.opened).reply rest }
      ((op.run cmd io st p.opened).effects.map .effect)
  | write {item left rest n} :
    p.pc = .writing item left rest →
    0 < n →
    n < left.length →
    Step st p (.write n) st { p with pc := .writing item (left.drop n) rest } [.out (left.take n)]
  | wrote {item left rest st' p' os} :
    p.pc = .writing item left rest →
    Resume st p rest item st' p' os →
    Step st p (.write left.length) st' p' (.out left :: .sent item 0 :: os)
  | fail {item left rest st' p' os} :
    p.pc = .writing item left rest →
    Resume st p rest item st' p' os →
    Step st p .fail st' p' (.sent item left.length :: os)
  | flush :
    p.pc = .flush →
    Step st p .flush st { p with pc := .select } []
  | frameFlush :
    p.pc = .frameFlush →
    Step st p .flush (p.iface.countOut st) { p with pc := .select } []
  | teardown {io} :
    p.pc = .teardown →
    Step st p (.granted io) { st with can := st.can.close } { p with opened := false, pc := .returned }
      [.effect .closed, .returned]
  | drop :
    p.pc = .linked ∨ p.pc = .returned →
    Step st p .drop { st with rxBus := st.rxBus.unregister } { p with pc := .idle } []

lemma advance_sound (st : Statics SUBS) (p : Port) (wrote : Bool) (bytes : List UInt8) :
    Advance st p bytes (p.advance wrote bytes st).1 (p.advance wrote bytes st).2.1
      (p.advance wrote bytes st).2.2 := by
  unfold Port.advance
  cases line : assemble p.line bytes with
  | more line =>
    refine .more ‹_› ?_
    cases wrote with
    | true => exact .inl rfl
    | false => exact .inr rfl
  | overlong rest => exact .overlong line
  | line cmd args rest =>
    have d := dispatch_sound cmd args p.opened p.timestamp
    simp only
    generalize dispatch cmd args p.opened p.timestamp = r at d ⊢
    obtain ⟨ts, counted, await⟩ := r
    cases await with
    | lock op => exact .lock line d
    | reply bytes => exact .reply line d

lemma resume_sound (st : Statics SUBS) (p : Port) (item : Item) (rest : List UInt8) :
    Resume st p rest item (p.resume item rest st).1 (p.resume item rest st).2.1
      (p.resume item rest st).2.2 := by
  cases item with
  | frame frame timestamp => exact .frame
  | reply line bytes => exact .advance (fun _ _ eq => by cases eq) (advance_sound st p true rest)
  | overlong => exact .advance (fun _ _ eq => by cases eq) (advance_sound st p true rest)

/-- Whatever `Port.step` does is listed by `Step`. -/
theorem step_sound {st st' : Statics SUBS} {p p' : Port} {e : Event} {os : List Obs}
    (h : p.step st e = some (st', p', os)) : Step st p e st' p' os := by
  unfold Port.step at h
  split at h
  · rename_i idle
    obtain ⟨⟨bus, pos⟩, sub, eq⟩ := Option.map_eq_some_iff.mp h
    cases eq
    exact .connect idle sub
  · rename_i linked
    cases h
    exact .start linked
  · rename_i bytes select
    split at h
    · cases h
    · have sound := advance_sound st p false bytes
      rw [Option.some.inj h] at sound
      exact .read select sound
  · rename_i select
    split at h
    · cases h
      exact .eofOpen select ‹_›
    · cases h
      exact .eofClosed select (Bool.not_eq_true _ ▸ ‹_›)
  · rename_i millis select
    obtain ⟨⟨frame, lag, pos⟩, next, eq⟩ := Option.map_eq_some_iff.mp h
    simp only at eq
    split at eq
    · cases eq
      exact .recvOpen select next ‹_›
    · cases eq
      exact .recvClosed select next (Bool.not_eq_true _ ▸ ‹_›)
  · rename_i wait
    cases h
    exact .granted wait
  · rename_i item left rest n writing
    split at h
    · rename_i part
      cases h
      exact .write writing part.1 part.2
    · split at h
      · rename_i all
        cases h
        exact all ▸ .wrote writing (resume_sound st p item rest)
      · cases h
  · rename_i item left rest writing
    cases h
    exact .fail writing (resume_sound st p item rest)
  · rename_i flush
    cases h
    exact .flush flush
  · rename_i flush
    cases h
    exact .frameFlush flush
  · rename_i teardown
    cases h
    exact .teardown teardown
  · rename_i linked
    cases h
    exact .drop (.inl linked)
  · rename_i returned
    cases h
    exact .drop (.inr returned)
  · cases h

/-- What the bytes loop keeps: all of the statics but the counters of frames from the host, and the
port's flag, subscription and interface. -/
structure Keeps (st : Statics SUBS) (p : Port) (st' : Statics SUBS) (p' : Port) : Prop where
  can : st'.can = st.can
  rxBus : st'.rxBus = st.rxBus
  txCount : st'.txCount = st.txCount
  out : ∀ iface : Iface, iface.out st' = iface.out st
  opened : p'.opened = p.opened
  sub : p'.sub = p.sub
  iface : p'.iface = p.iface

lemma advance_keeps {st st' : Statics SUBS} {p p' : Port} {bytes : List UInt8} {os : List Obs}
    (adv : Advance st p bytes st' p' os) : Keeps st p st' p' := by
  have counted : ∀ (b : Bool) (q : Port), q.opened = p.opened → q.sub = p.sub → q.iface = p.iface →
      Keeps st p (if b then p.iface.countIn st else st) q := by
    intro b q opened sub iface
    cases b with
    | true =>
      cases eq : p.iface with
      | serial => exact ⟨rfl, rfl, rfl, fun i => by cases i <;> rfl, opened, sub, iface⟩
      | tcp => exact ⟨rfl, rfl, rfl, fun i => by cases i <;> rfl, opened, sub, iface⟩
    | false => exact ⟨rfl, rfl, rfl, fun _ => rfl, opened, sub, iface⟩
  cases adv with
  | more _ _ => exact counted false _ rfl rfl rfl
  | overlong _ => exact counted false _ rfl rfl rfl
  | lock _ _ => exact counted _ _ rfl rfl rfl
  | reply _ _ => exact counted _ _ rfl rfl rfl

lemma resume_keeps {st st' : Statics SUBS} {p p' : Port} {rest : List UInt8} {item : Item} {os : List Obs}
    (res : Resume st p rest item st' p' os) : Keeps st p st' p' := by
  cases res with
  | frame => exact ⟨rfl, rfl, rfl, fun _ => rfl, rfl, rfl, rfl⟩
  | advance _ adv => exact advance_keeps adv

/-- The bytes loop shows no more than the line it dispatches. -/
lemma advance_shows {st st' : Statics SUBS} {p p' : Port} {bytes : List UInt8} {os : List Obs}
    (adv : Advance st p bytes st' p' os) : os = [] ∨ ∃ line, os = [.line line p.opened] := by
  cases adv with
  | more _ _ => exact .inl rfl
  | overlong _ => exact .inl rfl
  | lock _ _ => exact .inr ⟨_, rfl⟩
  | reply _ _ => exact .inr ⟨_, rfl⟩

lemma resume_shows {st st' : Statics SUBS} {p p' : Port} {rest : List UInt8} {item : Item} {os : List Obs}
    (res : Resume st p rest item st' p' os) : os = [] ∨ ∃ line, os = [.line line p.opened] := by
  cases res with
  | frame => exact .inl rfl
  | advance _ adv => exact advance_shows adv

/-- Of what a step shows that runs the bytes loop, all but a line was shown before. -/
lemma mem_loop (front : List Obs) {os : List Obs} {opened : Bool} {o : Obs}
    (shows : os = [] ∨ ∃ line, os = [.line line opened]) (mem : o ∈ front ++ os) :
    o ∈ front ∨ ∃ line, o = .line line opened := by
  rcases List.mem_append.mp mem with mem | mem
  · exact .inl mem
  · rcases shows with rfl | ⟨line, rfl⟩
    · cases mem
    · exact .inr ⟨line, List.mem_singleton.mp mem⟩

lemma Advance.busy {st st' : Statics SUBS} {p p' : Port} {bytes : List UInt8} {os : List Obs}
    (adv : Advance st p bytes st' p' os) : p'.pc ≠ .idle := by
  intro idle
  cases adv with
  | more _ pc =>
    cases idle
    rcases pc with eq | eq
    · cases eq
    · cases eq
  | overlong _ => cases idle
  | lock _ _ => cases idle
  | reply _ _ => cases idle

lemma Resume.busy {st st' : Statics SUBS} {p p' : Port} {rest : List UInt8} {item : Item} {os : List Obs}
    (res : Resume st p rest item st' p' os) : p'.pc ≠ .idle := by
  cases res with
  | frame =>
    intro idle
    cases idle
  | advance _ adv => exact adv.busy

/-- Where the flag is known: it is down without a running `run_port`, up on the way to the last
`close`, and a call on the manager was chosen under it. -/
def Port.Ok (p : Port) : Prop :=
  match p.pc with
  | .idle | .linked | .returned => p.opened = false
  | .lock cmd args op _ => ∃ ts ts' counted, Dispatch cmd args p.opened ts ⟨ts', counted, .lock op⟩
  | .teardown => p.opened = true
  | _ => True

lemma Port.Ok.new (iface : Iface) : (Port.new iface).Ok := rfl

lemma Advance.ok {st st' : Statics SUBS} {p p' : Port} {bytes : List UInt8} {os : List Obs}
    (adv : Advance st p bytes st' p' os) : p'.Ok := by
  cases adv with
  | more _ pc =>
    rcases pc with rfl | rfl
    · trivial
    · trivial
  | overlong _ => trivial
  | lock _ d => exact ⟨_, _, _, d⟩
  | reply _ _ => trivial

lemma Resume.ok {st st' : Statics SUBS} {p p' : Port} {rest : List UInt8} {item : Item} {os : List Obs}
    (res : Resume st p rest item st' p' os) : p'.Ok := by
  cases res with
  | frame => trivial
  | advance _ adv => exact adv.ok

/-- The flag stays known. -/
lemma Step.ok {st st' : Statics SUBS} {p p' : Port} {e : Event} {os : List Obs}
    (step : Step st p e st' p' os) (ok : p.Ok) : p'.Ok := by
  cases step with
  | connect idle _ =>
    rw [Port.Ok, idle] at ok
    exact ok
  | start _ => trivial
  | read _ adv => exact adv.ok
  | eofOpen _ up => exact up
  | eofClosed _ down => exact down
  | recvOpen _ _ _ => trivial
  | recvClosed select _ _ =>
    simp only [Port.Ok, select]
  | granted _ => trivial
  | write _ _ _ => trivial
  | wrote _ res => exact res.ok
  | fail _ res => exact res.ok
  | flush _ => trivial
  | frameFlush _ => trivial
  | teardown _ => exact rfl
  | drop pc =>
    rcases pc with linked | returned
    · rw [Port.Ok, linked] at ok
      exact ok
    · rw [Port.Ok, returned] at ok
      exact ok

end EspcanBr.Transport
