import EspcanBr.Can.Manager

/-!
# Commands

`dispatch` of `src/transport.rs`, cut at the points where it waits. `dispatch` itself is the part up to
its first wait: for the manager's lock, to make one of the calls `CanOp`, or for the link to take a
reply. `CanOp.run` is the part that runs once the lock is granted. The manager is never locked across
another wait, so each part is atomic.
-/

namespace EspcanBr.Transport
open Base Slcan Can

variable {SUBS : UInt32}

/-- `Iface`. -/
inductive Iface where
  | serial
  | tcp
  deriving DecidableEq

/-- `Iface::count_in`. -/
def Iface.countIn (iface : Iface) (st : Statics SUBS) : Statics SUBS :=
  match iface with
  | .serial => { st with serIn := st.serIn + 1 }
  | .tcp => { st with tcpIn := st.tcpIn + 1 }

/-- `Iface::count_out`. -/
def Iface.countOut (iface : Iface) (st : Statics SUBS) : Statics SUBS :=
  match iface with
  | .serial => { st with serOut := st.serOut + 1 }
  | .tcp => { st with tcpOut := st.tcpOut + 1 }

/-- The counter `Iface::count_out` advances. -/
def Iface.out (iface : Iface) (st : Statics SUBS) : UInt32 :=
  match iface with
  | .serial => st.serOut
  | .tcp => st.tcpOut

section CountOut
variable (iface : Iface) (st : Statics SUBS)

@[simp] lemma Iface.can_countOut : (iface.countOut st).can = st.can := by
  cases iface <;> rfl

@[simp] lemma Iface.rxBus_countOut : (iface.countOut st).rxBus = st.rxBus := by
  cases iface <;> rfl

@[simp] lemma Iface.txCount_countOut : (iface.countOut st).txCount = st.txCount := by
  cases iface <;> rfl

/-- `count_out` advances the interface's own counter only. -/
lemma Iface.out_countOut (other : Iface) :
    other.out (iface.countOut st) = other.out st + if other = iface then 1 else 0 := by
  cases iface <;> cases other <;> simp [Iface.out, Iface.countOut]

end CountOut

/-- `hex_nibble`. -/
def hexNibble (n : UInt8) : UInt8 :=
  let n := n &&& 0x0f
  if n < 10 then ch '0' + n else ch 'A' + (n - 10)

/-- `now_ms`, with the milliseconds since boot. -/
def nowMs (millis : ℕ) : UInt16 := UInt16.ofNat (millis % 60000)

/-- The calls on the manager that `dispatch` makes. -/
inductive CanOp where
  | statusFlags
  | setBitrate (digit : UInt8)
  | open (listenOnly : Bool)
  | close
  | transmit (frame : CanFrame)
  deriving DecidableEq

/-- What `dispatch` waits for first. -/
inductive Await where
  | lock (op : CanOp)
  | reply (bytes : List UInt8)
  deriving DecidableEq

/-- What `dispatch` did up to its first wait: the timestamp flag, and whether `count_in` was called. -/
structure Dispatched where
  timestamp : Bool
  countIn : Bool
  await : Await
  deriving DecidableEq

/-- The letters of the transmit commands. -/
def isTx (cmd : UInt8) : Prop := cmd = ch 't' ∨ cmd = ch 'T' ∨ cmd = ch 'r' ∨ cmd = ch 'R'

instance (cmd : UInt8) : Decidable (isTx cmd) := inferInstanceAs (Decidable (_ ∨ _))

/-- `dispatch` up to its first wait, for the line `cmd :: args`. -/
def dispatch (cmd : UInt8) (args : List UInt8) (opened timestamp : Bool) : Dispatched :=
  if cmd = ch 'V' then
    ⟨timestamp, false, .reply [ch 'V', ch '1', ch '0', ch '1', ch '3', CR]⟩
  else if cmd = ch 'N' then
    ⟨timestamp, false, .reply [ch 'N', ch '1', ch '2', ch '3', ch '4', CR]⟩
  else if cmd = ch 'F' then ⟨timestamp, false, .lock .statusFlags⟩
  else if cmd = ch 'M' ∨ cmd = ch 'm' ∨ cmd = ch 'A' then ⟨timestamp, false, .reply [CR]⟩
  else if cmd = ch 'Z' then
    if args.head? = some (ch '0') then ⟨false, false, .reply [CR]⟩
    else if args.head? = some (ch '1') then ⟨true, false, .reply [CR]⟩
    else ⟨timestamp, false, .reply [BELL]⟩
  else if cmd = ch 'S' then
    match args.head? with
    | some d => ⟨timestamp, false, .lock (.setBitrate d)⟩
    | none => ⟨timestamp, false, .reply [BELL]⟩
  else if cmd = ch 's' then ⟨timestamp, false, .reply [BELL]⟩
  else if cmd = ch 'O' ∨ cmd = ch 'L' then
    if opened then ⟨timestamp, false, .reply [CR]⟩
    else ⟨timestamp, false, .lock (.open (cmd = ch 'L'))⟩
  else if cmd = ch 'C' then
    if opened then ⟨timestamp, false, .lock .close⟩
    else ⟨timestamp, false, .reply [CR]⟩
  else if isTx cmd then
    let frame := parseTx (cmd :: args)
    if opened then
      match frame with
      | some f => ⟨timestamp, true, .lock (.transmit f)⟩
      | none => ⟨timestamp, false, .reply [BELL]⟩
    else ⟨timestamp, frame.isSome, .reply [BELL]⟩
  else ⟨timestamp, false, .reply [BELL]⟩

/-- What `dispatch` can do with a line up to its first wait. -/
inductive Dispatch (cmd : UInt8) (args : List UInt8) (opened timestamp : Bool) : Dispatched → Prop where
  | version :
    cmd = ch 'V' →
    Dispatch cmd args opened timestamp
      ⟨timestamp, false, .reply [ch 'V', ch '1', ch '0', ch '1', ch '3', CR]⟩
  | serial :
    cmd = ch 'N' →
    Dispatch cmd args opened timestamp
      ⟨timestamp, false, .reply [ch 'N', ch '1', ch '2', ch '3', ch '4', CR]⟩
  | flags :
    cmd = ch 'F' →
    Dispatch cmd args opened timestamp ⟨timestamp, false, .lock .statusFlags⟩
  | noop :
    cmd = ch 'M' ∨ cmd = ch 'm' ∨ cmd = ch 'A' →
    Dispatch cmd args opened timestamp ⟨timestamp, false, .reply [CR]⟩
  | timestamp {on} :
    cmd = ch 'Z' →
    args.head? = some (if on then ch '1' else ch '0') →
    Dispatch cmd args opened timestamp ⟨on, false, .reply [CR]⟩
  | bitrate {d} :
    cmd = ch 'S' →
    args.head? = some d →
    Dispatch cmd args opened timestamp ⟨timestamp, false, .lock (.setBitrate d)⟩
  | open :
    cmd = ch 'O' ∨ cmd = ch 'L' →
    opened = false →
    Dispatch cmd args opened timestamp ⟨timestamp, false, .lock (.open (cmd = ch 'L'))⟩
  | reopen :
    cmd = ch 'O' ∨ cmd = ch 'L' →
    opened = true →
    Dispatch cmd args opened timestamp ⟨timestamp, false, .reply [CR]⟩
  | close :
    cmd = ch 'C' →
    opened = true →
    Dispatch cmd args opened timestamp ⟨timestamp, false, .lock .close⟩
  | reclose :
    cmd = ch 'C' →
    opened = false →
    Dispatch cmd args opened timestamp ⟨timestamp, false, .reply [CR]⟩
  | transmit {f} :
    isTx cmd →
    opened = true →
    parseTx (cmd :: args) = some f →
    Dispatch cmd args opened timestamp ⟨timestamp, true, .lock (.transmit f)⟩
  | garbled :
    isTx cmd →
    opened = true →
    parseTx (cmd :: args) = none →
    Dispatch cmd args opened timestamp ⟨timestamp, false, .reply [BELL]⟩
  | notOpen :
    isTx cmd →
    opened = false →
    Dispatch cmd args opened timestamp
      ⟨timestamp, (parseTx (cmd :: args)).isSome, .reply [BELL]⟩
  | refused :
    ¬ isTx cmd →
    cmd ≠ ch 'O' ∧ cmd ≠ ch 'L' ∧ cmd ≠ ch 'C' →
    Dispatch cmd args opened timestamp ⟨timestamp, false, .reply [BELL]⟩

/-- Whatever `dispatch` does is listed by `Dispatch`. -/
theorem dispatch_sound (cmd : UInt8) (args : List UInt8) (opened timestamp : Bool) :
    Dispatch cmd args opened timestamp (dispatch cmd args opened timestamp) := by
  fun_cases dispatch cmd args opened timestamp with
  | case1 => exact .version ‹_›
  | case2 => exact .serial ‹_›
  | case3 => exact .flags ‹_›
  | case4 => exact .noop ‹_›
  | case5 => exact @Dispatch.timestamp _ _ _ _ false ‹_› ‹_›
  | case6 => exact @Dispatch.timestamp _ _ _ _ true ‹_› ‹_›
  | case7 =>
    have z : cmd = ch 'Z' := ‹_›
    subst z
    exact .refused (by decide) (by decide)
  | case8 => exact .bitrate ‹_› ‹_›
  | case9 =>
    have s : cmd = ch 'S' := ‹_›
    subst s
    exact .refused (by decide) (by decide)
  | case10 =>
    have s : cmd = ch 's' := ‹_›
    subst s
    exact .refused (by decide) (by decide)
  | case11 => exact .reopen ‹_› ‹_›
  | case12 => exact .open ‹_› (Bool.not_eq_true _ ▸ ‹_›)
  | case13 => exact .close ‹_› ‹_›
  | case14 => exact .reclose ‹_› (Bool.not_eq_true _ ▸ ‹_›)
  | case15 => exact .transmit ‹_› ‹_› ‹_›
  | case16 => exact .garbled ‹_› ‹_› ‹_›
  | case17 => exact .notOpen ‹_› (Bool.not_eq_true _ ▸ ‹_›)
  | case18 => exact .refused ‹_› ⟨fun o => ‹¬ (_ ∨ _)› (.inl o), fun l => ‹¬ (_ ∨ _)› (.inr l), ‹_›⟩

/-- The answer to a frame that went out: `z` for 11-bit identifiers, `Z` for 29-bit ones. -/
def ack (cmd : UInt8) : List UInt8 := [if cmd = ch 'T' ∨ cmd = ch 'R' then ch 'Z' else ch 'z', CR]

/-- What a call on the manager shows: an accepted bitrate, a start of the controller, the end of a
session, a frame the controller took in a mode. -/
inductive Effect where
  | bitrate (digit : UInt8)
  | openTwai (twai : Twai)
  | opened (listenOnly : Bool)
  | closed
  | handed (frame : EspTwaiFrame) (mode : TwaiMode)
  deriving DecidableEq

/-- The rest of `dispatch`, once the lock is granted: the statics, the port's flag and the reply. -/
structure Granted (SUBS : UInt32) where
  statics : Statics SUBS
  opened : Bool
  reply : List UInt8
  effects : List Effect

/-- `CanManager::open` starts the controller when no port has it open. -/
def starts (can : CanManager) (listenOnly : Bool) : List Effect :=
  if can.openCount = 0 then [.openTwai (openTwai can.baud listenOnly)] else []

/-- The call `op` for a line that starts with `cmd`, and what `dispatch` makes of it. -/
def CanOp.run (op : CanOp) (cmd : UInt8) (io : TwaiIo) (st : Statics SUBS) (opened : Bool) :
    Granted SUBS :=
  match op with
  | .statusFlags =>
    let f := st.can.statusFlags io.receiveErrorCount io.transmitErrorCount io.isBusOff
    ⟨st, opened, [ch 'F', hexNibble (f >>> 4), hexNibble (f &&& 0x0f), CR], []⟩
  | .setBitrate d =>
    let (ok, can) := st.can.setBitrate d
    ⟨{ st with can := can }, opened, if ok then [CR] else [BELL], if ok then [.bitrate d] else []⟩
  | .open listenOnly =>
    ⟨{ st with can := st.can.open listenOnly }, true, [CR],
      starts st.can listenOnly ++ [.opened listenOnly]⟩
  | .close => ⟨{ st with can := st.can.close }, false, [CR], [.closed]⟩
  | .transmit frame =>
    let (st, ok, taken) := st.transmit io.transmit frame
    ⟨st, opened, if ok then ack cmd else [BELL], taken.map fun (e, mode) => .handed e mode⟩

end EspcanBr.Transport
