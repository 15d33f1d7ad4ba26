import EspcanBr.Base.Tasks
import EspcanBr.Transport.Port

/-!
# The firmware's ports and its receive task

Any number of ports over the statics, and `can_rx_task` as the environment: an input of the environment
is one round of it, with the frames the driver returns in it. Every interleaving at the waits is a run.
`Moves` lists the steps of the whole.
-/

namespace EspcanBr.System
open Base Slcan Can Transport

variable {ι : Type*} [DecidableEq ι] {SUBS : UInt32} {iface : ι → Iface}

/-- The ports, each on its interface, and `can_rx_task`. -/
def firmware (SUBS : UInt32) (iface : ι → Iface) :
    Tasks (Statics SUBS) Port Event Obs (List EspTwaiFrame) CanFrame ι where
  shared := .new
  start i := .new (iface i)
  step := Port.step
  env st rx := some (st.canRxTask rx)

/-- The machine of all interleavings. -/
abbrev machine (SUBS : UInt32) (iface : ι → Iface) :
    Machine (World (Statics SUBS) Port ι) (Input ι Event (List EspTwaiFrame))
      (Shown ι Obs CanFrame) :=
  (firmware SUBS iface).machine

/-- A step is one of a port, or one of the receive task. -/
inductive Moves (w : World (Statics SUBS) Port ι) : Input ι Event (List EspTwaiFrame) →
    World (Statics SUBS) Port ι → List (Shown ι Obs CanFrame) → Prop where
  | port {i e st p os} :
    Step w.shared (w.task i) e st p os →
    Moves w (.task i e) ⟨st, Function.update w.task i p⟩ (os.map (.task i))
  | canRx {rx} :
    Moves w (.env rx) ⟨(w.shared.canRxTask rx).1, w.task⟩ ((w.shared.canRxTask rx).2.map .env)

lemma machine_sound {w w' : World (Statics SUBS) Port ι} {e os}
    (st : (machine SUBS iface).step w e = some (w', os)) : Moves w e w' os := by
  cases e with
  | task i e =>
    obtain ⟨sh, p, os', own, rfl, rfl⟩ := Tasks.machine_task st
    exact .port (step_sound own)
  | env rx =>
    obtain ⟨sh, os', own, rfl, rfl⟩ := Tasks.machine_env st
    have round : w.shared.canRxTask rx = (sh, os') := Option.some.inj own
    have moves : Moves w (.env rx) ⟨(w.shared.canRxTask rx).1, w.task⟩
        ((w.shared.canRxTask rx).2.map .env) := .canRx
    rwa [round] at moves

/-- Some inputs, with their type for where a list of them stands alone. -/
abbrev Inputs (ι : Type*) := List (Input ι Event (List EspTwaiFrame))

/-- A driver that takes every frame and reports no errors. -/
def calm : TwaiIo := ⟨fun _ => .ok, 0, 0, false⟩

/-- Port `i` gets a link. -/
def link (i : ι) : List (Input ι Event (List EspTwaiFrame)) := [.task i .connect, .task i .start]

/-- Port `i` reads a line, makes the call it asks for, and the link takes the `n` bytes of the reply. -/
def command (i : ι) (line : List Char) (n : ℕ) : List (Input ι Event (List EspTwaiFrame)) :=
  [.task i (.read (line.map ch ++ [CR])), .task i (.granted calm), .task i (.write n), .task i .flush]

/-- The frame of the line `t1230`. -/
def frame123 : EspTwaiFrame := ⟨.standard ⟨0x123, by decide⟩, false, 0, [], by decide, by decide⟩

/-- A port reads the line `t1230`, and waits for the manager. -/
def send123 (i : ι) : List (Input ι Event (List EspTwaiFrame)) :=
  [.task i (.read (['t', '1', '2', '3', '0'].map ch ++ [CR]))]

/-- The receive task leaves the manager alone. -/
lemma canRxTask_can (st : Statics SUBS) (rx : List EspTwaiFrame) : (st.canRxTask rx).1.can = st.can := by
  rw [Statics.canRxTask, Statics.drain_frame]

end EspcanBr.System
