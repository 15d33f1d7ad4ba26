import EspcanBr.Base.PubSub
import EspcanBr.Can.Frame

/-!
# The shared CAN manager

`src/can.rs`: the manager behind the `CAN` mutex, the receive bus `RX_BUS` and the counters, which all
tasks share (`Statics`), and one round of `can_rx_task`. The TWAI driver is outside the repository:
what its calls return is an argument. `SUBS` is the channel's number of subscriber slots, a `usize` of
32 bits like every other on this chip; the firmware's `RX_BUS` has four.
-/

namespace EspcanBr.Can
open Base Slcan

/-- `TimingConfig`. -/
structure TimingConfig where
  baudRatePrescaler : ℕ
  syncJumpWidth : ℕ
  tseg1 : ℕ
  tseg2 : ℕ
  tripleSample : Bool
  deriving DecidableEq

/-- `BaudRate`. -/
inductive BaudRate where
  | b125K
  | b250K
  | b500K
  | b1000K
  | custom (t : TimingConfig)
  deriving DecidableEq

/-- `TwaiMode`. -/
inductive TwaiMode where
  | normal
  | listenOnly
  deriving DecidableEq

/-- A started `Twai` driver: the bitrate and the mode it was started with. -/
structure Twai where
  baud : BaudRate
  mode : TwaiMode
  deriving DecidableEq

/-- `DEFAULT_BAUD`. -/
def DEFAULT_BAUD : BaudRate := .b500K

/-- `CanManager`. -/
structure CanManager where
  twai : Option Twai
  baud : BaudRate
  openCount : UInt32
  deriving DecidableEq

/-- `baud_from_s`. -/
def baudFromS (digit : UInt8) : Option BaudRate :=
  if digit = ch '2' then some (.custom ⟨80, 3, 15, 4, false⟩)
  else if digit = ch '3' then some (.custom ⟨40, 3, 15, 4, false⟩)
  else if digit = ch '4' then some .b125K
  else if digit = ch '5' then some .b250K
  else if digit = ch '6' then some .b500K
  else if digit = ch '7' then some (.custom ⟨4, 3, 16, 8, false⟩)
  else if digit = ch '8' then some .b1000K
  else none

/-- `open_twai`. -/
def openTwai (baud : BaudRate) (listenOnly : Bool) : Twai :=
  ⟨baud, if listenOnly then .listenOnly else .normal⟩

/-- `CanManager::new`. -/
def CanManager.new : CanManager := ⟨none, DEFAULT_BAUD, 0⟩

/-- `CanManager::set_bitrate`. -/
def CanManager.setBitrate (m : CanManager) (digit : UInt8) : Bool × CanManager :=
  if m.openCount ≠ 0 then (false, m)
  else
    match baudFromS digit with
    | some b => (true, { m with baud := b })
    | none => (false, m)

/-- `CanManager::open`. -/
def CanManager.open (m : CanManager) (listenOnly : Bool) : CanManager :=
  let m := if m.openCount = 0 then { m with twai := some (openTwai m.baud listenOnly) } else m
  { m with openCount := m.openCount + 1 }

/-- `CanManager::close`. -/
def CanManager.close (m : CanManager) : CanManager :=
  if m.openCount > 0 then
    let m := { m with openCount := m.openCount - 1 }
    -- dropping the driver takes the controller off the bus
    if m.openCount = 0 then { m with twai := none } else m
  else m

section OpenClose
variable (m : CanManager) (listenOnly : Bool)

lemma CanManager.openCount_open : (m.open listenOnly).openCount = m.openCount + 1 := by
  rw [CanManager.open]
  split <;> rfl

@[simp] lemma CanManager.baud_open : (m.open listenOnly).baud = m.baud := by
  rw [CanManager.open]
  split <;> rfl

/-- Only the first `open` starts the controller. -/
lemma CanManager.twai_open :
    (m.open listenOnly).twai = if m.openCount = 0 then some (openTwai m.baud listenOnly) else m.twai := by
  rw [CanManager.open]
  split <;> rfl

lemma CanManager.openCount_close :
    m.close.openCount = if m.openCount > 0 then m.openCount - 1 else m.openCount := by
  rw [CanManager.close]
  split
  · simp only
    split <;> rfl
  · rfl

@[simp] lemma CanManager.baud_close : m.close.baud = m.baud := by
  rw [CanManager.close]
  split
  · simp only
    split <;> rfl
  · rfl

lemma pred_eq_zero {n : UInt32} : n - 1 = 0 ↔ n = 1 := by
  constructor
  · intro zero
    have cancel := UInt32.sub_add_cancel n 1
    rw [zero] at cancel
    exact cancel.symm
  · intro one
    rw [one]
    rfl

/-- Only the last `close` stops the controller. -/
lemma CanManager.twai_close : m.close.twai = if m.openCount = 1 then none else m.twai := by
  rw [CanManager.close]
  split
  · simp only [pred_eq_zero]
    split <;> rfl
  · rename_i zero
    have ne : m.openCount ≠ 1 := by
      intro one
      exact zero (one ▸ by decide)
    rw [if_neg ne]

end OpenClose

/-- `CanManager::status_flags`, on the error counters and the bus-off bit the driver reports. -/
def CanManager.statusFlags (m : CanManager) (rec tec : UInt8) (busOff : Bool) : UInt8 :=
  match m.twai with
  | none => 0
  | some _ =>
    let f : UInt8 := 0
    let f := if rec ≥ 96 ∨ tec ≥ 96 then f ||| ((1 : UInt8) <<< 2) else f
    let f := if rec ≥ 128 ∨ tec ≥ 128 then f ||| ((1 : UInt8) <<< 5) else f
    if busOff then f ||| ((1 : UInt8) <<< 7) else f

/-- What `Twai::transmit` returns: the frame was taken, or it was not. -/
inductive TxResult where
  | ok
  | wouldBlock
  | other
  deriving DecidableEq

/-- What the driver answers while a command holds the manager: the results of the calls of
`transmit`, first call first, and the error state. -/
structure TwaiIo where
  transmit : ℕ → TxResult
  receiveErrorCount : UInt8
  transmitErrorCount : UInt8
  isBusOff : Bool

/-- `TX_RETRIES`. -/
def TX_RETRIES : ℕ := 50

/-- The loop of `try_transmit` with `left` calls left before `tries > TX_RETRIES`: whether the frame
went out, and the frames the driver took. -/
def tryTransmitLoop (results : ℕ → TxResult) (frame : EspTwaiFrame) : ℕ → Bool × List EspTwaiFrame
  | 0 => (false, [])
  | left + 1 =>
    match results (TX_RETRIES - left) with
    | .ok => (true, [frame])
    | .wouldBlock => tryTransmitLoop results frame left
    | .other => (false, [])

/-- `try_transmit`. -/
def tryTransmit (results : ℕ → TxResult) (frame : EspTwaiFrame) : Bool × List EspTwaiFrame :=
  tryTransmitLoop results frame (TX_RETRIES + 1)

/-- The driver takes the frame once or not at all, and `try_transmit` tells which. -/
lemma tryTransmit_cases (results : ℕ → TxResult) (frame : EspTwaiFrame) :
    tryTransmit results frame = (true, [frame]) ∨ tryTransmit results frame = (false, []) := by
  rw [tryTransmit]
  induction TX_RETRIES + 1 with
  | zero => exact .inr rfl
  | succ left ih =>
    rw [tryTransmitLoop]
    split
    · exact .inl rfl
    · exact ih
    · exact .inr rfl

/-- The capacity of `RX_BUS`. -/
def RX_CAP : ℕ := 16

instance : NeZero RX_CAP := ⟨by decide⟩

/-- The statics of `src/can.rs`. -/
structure Statics (SUBS : UInt32) where
  can : CanManager
  rxBus : PubSub CanFrame RX_CAP SUBS.toNat
  rxCount : UInt32
  txCount : UInt32
  serIn : UInt32
  serOut : UInt32
  tcpIn : UInt32
  tcpOut : UInt32
  deriving DecidableEq

namespace Statics
variable {SUBS : UInt32}

/-- The statics at boot. -/
def new : Statics SUBS := ⟨.new, .new, 0, 0, 0, 0, 0, 0⟩

/-- `CanManager::transmit`: whether the frame went out, and the frames the driver took with the mode
it was in. -/
def transmit (st : Statics SUBS) (results : ℕ → TxResult) (frame : CanFrame) :
    Statics SUBS × Bool × List (EspTwaiFrame × TwaiMode) :=
  match st.can.twai with
  | none => (st, false, [])
  | some twai =>
    match toEsp frame with
    | none => (st, false, [])
    | some esp =>
      let (ok, taken) := tryTransmit results esp
      (if ok then { st with txCount := st.txCount + 1 } else st, ok, taken.map (·, twai.mode))

/-- What a transmit does: nothing, or one frame goes to the running controller and is counted. -/
lemma transmit_cases (st : Statics SUBS) (results : ℕ → TxResult) (frame : CanFrame) :
    st.transmit results frame = (st, false, []) ∨
      ∃ twai esp, st.can.twai = some twai ∧ toEsp frame = some esp ∧
        st.transmit results frame =
          ({ st with txCount := st.txCount + 1 }, true, [(esp, twai.mode)]) := by
  rw [transmit]
  cases st.can.twai with
  | none => exact .inl rfl
  | some twai =>
    cases conv : toEsp frame with
    | none => exact .inl rfl
    | some esp =>
      rcases tryTransmit_cases results esp with eq | eq
      · exact .inr ⟨twai, esp, rfl, rfl, by simp [eq]⟩
      · exact .inl (by simp [eq])

/-- `CanManager::poll_rx`, with the frames the driver's `receive` returns before it first errs: the
frame, and the frames left. -/
def pollRx (st : Statics SUBS) (rx : List EspTwaiFrame) :
    Option (CanFrame × Statics SUBS × List EspTwaiFrame) :=
  match st.can.twai, rx with
  | some _, f :: rest => some (fromEsp f, { st with rxCount := st.rxCount + 1 }, rest)
  | _, _ => none

/-- A frame polled is the driver's next one, and is counted. -/
lemma pollRx_eq_some {st st' : Statics SUBS} {rx rest : List EspTwaiFrame} {f : CanFrame}
    (h : st.pollRx rx = some (f, st', rest)) :
    ∃ e, rx = e :: rest ∧ f = fromEsp e ∧ st' = { st with rxCount := st.rxCount + 1 } ∧
      st.can.twai.isSome := by
  unfold pollRx at h
  split at h
  · rename_i run
    cases h
    exact ⟨_, rfl, rfl, rfl, by rw [run]; rfl⟩
  · cases h

/-- `publish_immediate` on `RX_BUS`. -/
def publish (st : Statics SUBS) (f : CanFrame) : Statics SUBS :=
  { st with rxBus := st.rxBus.publishImmediate f }

/-- The loop of `can_rx_task` under the lock, with `n` rounds left: the statics after it, and the
frames `poll_rx` returned. -/
def drain (st : Statics SUBS) : ℕ → List EspTwaiFrame → Statics SUBS × List CanFrame
  | 0, _ => (st, [])
  | n + 1, rx =>
    match st.pollRx rx with
    | none => (st, [])
    | some (f, st', rest) =>
      let (st'', fs) := (st'.publish f).drain n rest
      (st'', f :: fs)

/-- One round of `can_rx_task`: up to 16 frames under one lock. -/
def canRxTask (st : Statics SUBS) (rx : List EspTwaiFrame) : Statics SUBS × List CanFrame :=
  st.drain 16 rx

/-- The receive task leaves the manager and the transmit and interface counters alone. -/
lemma drain_frame (st : Statics SUBS) (n : ℕ) (rx : List EspTwaiFrame) :
    (st.drain n rx).1 =
      { st with rxBus := (st.drain n rx).1.rxBus, rxCount := (st.drain n rx).1.rxCount } := by
  induction n generalizing st rx with
  | zero => rfl
  | succ n ih =>
    rw [drain]
    split
    · rfl
    · rename_i f st' rest poll
      obtain ⟨e, rfl, rfl, rfl, -⟩ := pollRx_eq_some poll
      exact ih (publish _ _) rest

/-- The frames polled are frames of the driver. -/
lemma drain_fromEsp (st : Statics SUBS) (n : ℕ) (rx : List EspTwaiFrame) :
    ∀ f ∈ (st.drain n rx).2, ∃ e, f = fromEsp e := by
  induction n generalizing st rx with
  | zero => exact nofun
  | succ n ih =>
    rw [drain]
    split
    · exact nofun
    · rename_i f st' rest poll
      obtain ⟨e, rfl, rfl, rfl, -⟩ := pollRx_eq_some poll
      intro g mem
      rcases List.mem_cons.mp mem with rfl | mem
      · exact ⟨e, rfl⟩
      · exact ih _ rest g mem

/-- A property of the bus that publishing preserves is kept by the receive task, frame by frame. -/
lemma drain_bus {P : PubSub CanFrame RX_CAP SUBS.toNat → List CanFrame → Prop}
    (pres : ∀ q fs f, P q fs → P (q.publishImmediate f) (fs ++ [f])) {st : Statics SUBS}
    (fs : List CanFrame) (init : P st.rxBus fs) (n : ℕ) (rx : List EspTwaiFrame) :
    P (st.drain n rx).1.rxBus (fs ++ (st.drain n rx).2) := by
  induction n generalizing st fs rx with
  | zero => simpa [drain] using init
  | succ n ih =>
    rw [drain]
    split
    · simpa using init
    · rename_i f st' rest poll
      obtain ⟨e, rfl, rfl, rfl, -⟩ := pollRx_eq_some poll
      have kept : P (publish { st with rxCount := st.rxCount + 1 } (fromEsp e)).rxBus
          (fs ++ [fromEsp e]) := pres st.rxBus fs (fromEsp e) init
      have next := ih (fs ++ [fromEsp e]) kept rest
      rw [List.append_assoc] at next
      exact next

/-- Publishing leaves the number of subscribers alone. -/
lemma drain_subscribers (st : Statics SUBS) (n : ℕ) (rx : List EspTwaiFrame) :
    (st.drain n rx).1.rxBus.subscribers = st.rxBus.subscribers :=
  drain_bus (P := fun q _ => q.subscribers = st.rxBus.subscribers) (fun _ _ _ h => h) [] rfl n
    rx

end Statics
end EspcanBr.Can
