import EspcanBr.Transport.Port

/-!
# What a command changes

A whole `dispatch`, from the line to the reply (`execute`), with what the other tasks do to the statics
while it waits for the manager. A command that is refused with BEL leaves everything as it was, and
any other changes what it is there to change (`bell_changes_nothing`). `port_executes` shows that a port
does with a line what `execute` says.
-/

namespace EspcanBr.Transport
open Base Slcan Can

variable {SUBS : UInt32}

/-- A whole `dispatch`: the statics right before and after the part that acts on them, the port's flags,
the reply and what the calls on the manager did. -/
structure Executed (SUBS : UInt32) where
  before : Statics SUBS
  after : Statics SUBS
  opened : Bool
  timestamp : Bool
  reply : List UInt8
  effects : List Effect

/-- `dispatch` from the line `cmd :: args` to the reply. While it waits for the lock the other tasks
change the statics by `wait`. -/
def execute (iface : Iface) (io : TwaiIo) (wait : Statics SUBS → Statics SUBS) (cmd : UInt8)
    (args : List UInt8) (opened timestamp : Bool) (st : Statics SUBS) : Executed SUBS :=
  let d := dispatch cmd args opened timestamp
  let st := if d.countIn then iface.countIn st else st
  match d.await with
  | .reply bytes => ⟨st, st, opened, d.timestamp, bytes, []⟩
  | .lock op =>
    let st := wait st
    let g := op.run cmd io st opened
    ⟨st, g.statics, g.opened, d.timestamp, g.reply, g.effects⟩

/-- Nothing is changed, and no frame is handed to the controller. -/
structure Unchanged (opened timestamp : Bool) (x : Executed SUBS) : Prop where
  opened : x.opened = opened
  timestamp : x.timestamp = timestamp
  statics : x.after = x.before
  effects : x.effects = []

/-- Only what the command is documented to change differs. -/
structure Changes (cmd : UInt8) (opened timestamp : Bool) (x : Executed SUBS) : Prop where
  timestamp : cmd ≠ ch 'Z' → x.timestamp = timestamp
  bitrate : cmd ≠ ch 'S' → x.after.can.baud = x.before.can.baud
  session : cmd ≠ ch 'O' → cmd ≠ ch 'L' → cmd ≠ ch 'C' →
    x.opened = opened ∧ x.after.can.openCount = x.before.can.openCount ∧
      x.after.can.twai = x.before.can.twai
  silent : ¬ isTx cmd → x.after.txCount = x.before.txCount ∧ ∀ e mode, .handed e mode ∉ x.effects
  sent : isTx cmd → x.after.txCount = x.before.txCount + 1 ∧ ∃ e mode, x.effects = [.handed e mode]
  others : x.after = { x.before with can := x.after.can, txCount := x.after.txCount }

/-- Nothing changes where nothing is done; a transmit command is then refused. -/
lemma Unchanged.changes {cmd : UInt8} {opened timestamp : Bool} {x : Executed SUBS}
    (same : Unchanged opened timestamp x) (quiet : ¬ isTx cmd) : Changes cmd opened timestamp x := by
  refine ⟨fun _ => same.timestamp, fun _ => ?_, fun _ _ _ => ⟨same.opened, ?_, ?_⟩, fun _ => ⟨?_, ?_⟩,
    fun tx => absurd tx quiet, ?_⟩
  · rw [same.statics]
  · rw [same.statics]
  · rw [same.statics]
  · rw [same.statics]
  · intro e mode mem
    rw [same.effects] at mem
    cases mem
  · rw [same.statics]

/-- A bitrate is refused, or set while no port is open. -/
lemma setBitrate_cases (m : CanManager) (digit : UInt8) :
    m.setBitrate digit = (false, m) ∨
      ∃ b, m.openCount = 0 ∧ baudFromS digit = some b ∧ m.setBitrate digit = (true, { m with baud := b }) := by
  rw [CanManager.setBitrate]
  split
  · exact .inl rfl
  · rename_i closed
    cases baud : baudFromS digit with
    | none => exact .inl rfl
    | some b => exact .inr ⟨b, not_not.mp closed, rfl, rfl⟩

lemma cr_ne_bell : [CR] ≠ [BELL] := by decide

lemma ack_ne_bell (cmd : UInt8) : ack cmd ≠ [BELL] := by simp [ack]

/-- A call on the manager that ends in BEL did nothing. -/
lemma run_refused {op : CanOp} {cmd : UInt8} {io : TwaiIo} {st : Statics SUBS} {opened : Bool}
    (bell : (op.run cmd io st opened).reply = [BELL]) : op.run cmd io st opened = ⟨st, opened, [BELL], []⟩ := by
  cases op with
  | statusFlags => simp [CanOp.run] at bell
  | setBitrate d =>
    simp only [CanOp.run] at bell ⊢
    rcases setBitrate_cases st.can d with eq | ⟨b, -, -, eq⟩
    · rw [eq]
      rfl
    · rw [eq] at bell
      exact absurd bell cr_ne_bell
  | «open» listenOnly => exact absurd bell cr_ne_bell
  | close => exact absurd bell cr_ne_bell
  | transmit f =>
    simp only [CanOp.run] at bell ⊢
    rcases st.transmit_cases io.transmit f with eq | ⟨twai, esp, -, -, eq⟩
    · rw [eq]
      rfl
    · rw [eq] at bell
      exact absurd bell (ack_ne_bell cmd)

/-- A call that `dispatch` makes for a command, and that does not end in BEL, changes what the command is
there to change. -/
lemma run_changes {cmd : UInt8} {args : List UInt8} {opened timestamp : Bool} {op : CanOp} {ts counted : Bool}
    (disp : Dispatch cmd args opened timestamp ⟨ts, counted, .lock op⟩) (io : TwaiIo) (st : Statics SUBS)
    (other : (op.run cmd io st opened).reply ≠ [BELL]) :
    Changes cmd opened timestamp ⟨st, (op.run cmd io st opened).statics, (op.run cmd io st opened).opened,
      ts, (op.run cmd io st opened).reply, (op.run cmd io st opened).effects⟩ := by
  cases disp with
  | flags letter =>
    subst letter
    exact Unchanged.changes ⟨rfl, rfl, rfl, rfl⟩ (by decide)
  | @bitrate d letter _ =>
    subst letter
    simp only [CanOp.run] at other ⊢
    rcases setBitrate_cases st.can d with eq | ⟨b, -, -, eq⟩
    · rw [eq] at other
      exact absurd rfl other
    · rw [eq]
      exact ⟨fun _ => rfl, fun no => absurd rfl no, fun _ _ _ => ⟨rfl, rfl, rfl⟩,
        fun _ => ⟨rfl, by simp⟩, fun tx => absurd tx (by decide), rfl⟩
  | «open» letter _ =>
    have quiet : ¬ isTx cmd := by
      rcases letter with rfl | rfl
      · decide
      · decide
    refine ⟨fun _ => rfl, fun _ => CanManager.baud_open _ _, fun no no' _ => ?_, fun _ => ⟨rfl, ?_⟩,
      fun tx => absurd tx quiet, rfl⟩
    · rcases letter with rfl | rfl
      · exact absurd rfl no
      · exact absurd rfl no'
    · intro e mode mem
      simp only [CanOp.run, starts] at mem
      split at mem
      · simp at mem
      · simp at mem
  | close letter _ =>
    subst letter
    exact ⟨fun _ => rfl, fun _ => CanManager.baud_close _, fun _ _ no => absurd rfl no,
      fun _ => ⟨rfl, by simp [CanOp.run]⟩, fun tx => absurd tx (by decide), rfl⟩
  | @transmit f tx _ _ =>
    simp only [CanOp.run] at other ⊢
    rcases st.transmit_cases io.transmit f with eq | ⟨twai, esp, -, -, eq⟩
    · rw [eq] at other
      exact absurd rfl other
    · rw [eq]
      exact ⟨fun _ => rfl, fun _ => rfl, fun _ _ _ => ⟨rfl, rfl, rfl⟩, fun quiet => absurd tx quiet,
        fun _ => ⟨rfl, _, _, rfl⟩, rfl⟩

/-- A reply without a call on the manager. -/
lemma reply_changes {cmd : UInt8} {args : List UInt8} {opened timestamp : Bool} {reply : List UInt8}
    {ts counted : Bool} (disp : Dispatch cmd args opened timestamp ⟨ts, counted, .reply reply⟩)
    (st : Statics SUBS) :
    (reply = [BELL] → Unchanged opened timestamp ⟨st, st, opened, ts, reply, []⟩) ∧
    (reply ≠ [BELL] → Changes cmd opened timestamp ⟨st, st, opened, ts, reply, []⟩) := by
  have same : ∀ reply, ¬ isTx cmd → Unchanged opened timestamp ⟨st, st, opened, timestamp, reply, []⟩ ∧
      Changes cmd opened timestamp ⟨st, st, opened, timestamp, reply, []⟩ :=
    fun reply quiet => ⟨⟨rfl, rfl, rfl, rfl⟩, Unchanged.changes ⟨rfl, rfl, rfl, rfl⟩ quiet⟩
  cases disp with
  | version letter =>
    subst letter
    exact (same _ (by decide)).imp (fun u _ => u) fun c _ => c
  | serial letter =>
    subst letter
    exact (same _ (by decide)).imp (fun u _ => u) fun c _ => c
  | noop letter =>
    have quiet : ¬ isTx cmd := by
      rcases letter with rfl | rfl | rfl
      · decide
      · decide
      · decide
    exact (same _ quiet).imp (fun u _ => u) fun c _ => c
  | timestamp letter _ =>
    subst letter
    refine ⟨fun bell => absurd bell cr_ne_bell, fun _ => ?_⟩
    exact ⟨fun no => absurd rfl no, fun _ => rfl, fun _ _ _ => ⟨rfl, rfl, rfl⟩, fun _ => ⟨rfl, by simp⟩,
      fun tx => absurd tx (by decide), rfl⟩
  | reopen letter _ =>
    have quiet : ¬ isTx cmd := by
      rcases letter with rfl | rfl
      · decide
      · decide
    exact (same _ quiet).imp (fun u _ => u) fun c _ => c
  | reclose letter _ =>
    subst letter
    exact (same _ (by decide)).imp (fun u _ => u) fun c _ => c
  | garbled _ _ _ => exact ⟨fun _ => ⟨rfl, rfl, rfl, rfl⟩, fun other => absurd rfl other⟩
  | notOpen _ _ => exact ⟨fun _ => ⟨rfl, rfl, rfl, rfl⟩, fun other => absurd rfl other⟩
  | refused quiet _ => exact (same _ quiet).imp (fun u _ => u) fun c _ => c

/-- `count_in` is called for a transmit line that parses, and for no other. -/
lemma countIn_iff (cmd : UInt8) (args : List UInt8) (opened timestamp : Bool) :
    (dispatch cmd args opened timestamp).countIn = true ↔ isTx cmd ∧ (parseTx (cmd :: args)).isSome := by
  have letters : ∀ {c : UInt8}, ¬ isTx c → ¬ (isTx c ∧ (parseTx (c :: args)).isSome) :=
    fun no both => no both.1
  generalize eq : dispatch cmd args opened timestamp = d
  have disp := dispatch_sound cmd args opened timestamp
  rw [eq] at disp
  cases disp with
  | transmit tx _ parsed => simp [tx, parsed]
  | garbled tx _ parsed => simp [parsed]
  | notOpen tx _ => simp [tx]
  | refused no _ => simp [no]
  | version letter | serial letter | flags letter | timestamp letter _ | bitrate letter _
  | close letter _ | reclose letter _ =>
    subst letter
    simpa using letters (by decide)
  | noop letter =>
    rcases letter with rfl | rfl | rfl <;> simpa using letters (by decide)
  | «open» letter _ | reopen letter _ =>
    rcases letter with rfl | rfl <;> simpa using letters (by decide)

/-- A command that is answered with BEL changes nothing: not the port's flags, not the manager, and no
frame is handed to the controller. One that is answered otherwise changes only what it is documented to
change. Of the rest, the interface's counter of the lines that parse advances in both cases. -/
theorem bell_changes_nothing (iface : Iface) (io : TwaiIo) (wait : Statics SUBS → Statics SUBS)
    (cmd : UInt8) (args : List UInt8) (opened timestamp : Bool) (st : Statics SUBS) :
    ((execute iface io wait cmd args opened timestamp st).reply = [BELL] →
      Unchanged opened timestamp (execute iface io wait cmd args opened timestamp st)) ∧
    ((execute iface io wait cmd args opened timestamp st).reply ≠ [BELL] →
      Changes cmd opened timestamp (execute iface io wait cmd args opened timestamp st)) ∧
    ((dispatch cmd args opened timestamp).countIn = true ↔ isTx cmd ∧ (parseTx (cmd :: args)).isSome) := by
  have disp := dispatch_sound cmd args opened timestamp
  obtain ⟨replied, changed⟩ :
      ((execute iface io wait cmd args opened timestamp st).reply = [BELL] →
        Unchanged opened timestamp (execute iface io wait cmd args opened timestamp st)) ∧
      ((execute iface io wait cmd args opened timestamp st).reply ≠ [BELL] →
        Changes cmd opened timestamp (execute iface io wait cmd args opened timestamp st)) := by
    rw [execute]
    generalize dispatch cmd args opened timestamp = d at disp
    obtain ⟨ts, counted, await⟩ := d
    cases await with
    | reply bytes => exact reply_changes disp _
    | lock op =>
      refine ⟨fun bell => ?_, run_changes disp io _⟩
      have refused := run_refused bell
      have kept : ts = timestamp := by
        cases disp with
        | _ => rfl
      simp only [refused, kept]
      exact ⟨rfl, rfl, rfl, rfl⟩
  exact ⟨replied, changed, countIn_iff cmd args opened timestamp⟩

/-- The port about to write the reply. -/
def Executed.port (x : Executed SUBS) (p : Port) (cmd : UInt8) (args rest : List UInt8) : Port :=
  { p with
    line := [], opened := x.opened, timestamp := x.timestamp,
    pc := .writing (.reply (cmd :: args) x.reply) x.reply rest }

/-- A port does with a line what `execute` says: it writes the reply at once, or waits for the lock and
writes the reply once it is granted. -/
theorem port_executes {p : Port} {bytes args rest : List UInt8} {cmd : UInt8} {io : TwaiIo}
    {wait : Statics SUBS → Statics SUBS} {st : Statics SUBS} {x : Executed SUBS}
    (asm : assemble p.line bytes = .line cmd args rest) (wrote : Bool)
    (ex : execute p.iface io wait cmd args p.opened p.timestamp st = x) :
    (x.effects = [] ∧
      p.advance wrote bytes st = (x.after, x.port p cmd args rest, [.line (cmd :: args) p.opened])) ∨
    ∃ st' p', p.advance wrote bytes st = (st', p', [.line (cmd :: args) p.opened]) ∧ x.before = wait st' ∧
      p'.step (wait st') (.granted io) = some (x.after, x.port p cmd args rest, x.effects.map .effect) := by
  subst ex
  rw [Port.advance, asm, execute]
  simp only
  cases dispatch cmd args p.opened p.timestamp with
  | mk ts counted await =>
    cases await with
    | reply bytes => exact .inl ⟨rfl, rfl⟩
    | lock op => exact .inr ⟨_, _, rfl, rfl, rfl⟩

end EspcanBr.Transport
