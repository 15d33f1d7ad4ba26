import EspcanBr.Base.Simulation
import EspcanBr.Http.Accessors

/-!
# The two web servers

`http_server` of `src/http.rs` runs once on each network, and both tasks read and change the same
configurations. A server goes from one wait to the next: `accept`, a timer after an error, the reads of
`handle_request`, the 800 ms before a reset, the write of the answer, and the timer behind a connection.
Once a request is in, `handle_request` comes to its answer without another wait: the locks that it takes
are free, since nobody keeps one over a wait. So whatever the servers do together, one server could have
done, one request after the other (`servers_serialize`).
-/

namespace EspcanBr.Http
open Base Config

/-- An answer with what it shows of the configurations. -/
inductive Answer where
  | text (bytes : List UInt8)
  | index (v : View)
  | status (ssid : List UInt8)
  deriving DecidableEq

/-- The answer that is made from the configurations. -/
def Device.answer (d : Device) : Response → Option Answer
  | .text bytes => some (.text bytes)
  | .indexPage => d.view.map .index
  | .statusJson => d.wifi.ssidStr.map .status

/-- Where a server waits. -/
inductive ServerPc where
  | accepting
  | retrying
  | reading (r : Reading)
  | resetting
  | writing
  | closing

/-- What a server waits for: a connection, a timer, a read (with what a save finds, if the read completes
a request), the end of the write. -/
inductive ServerEvent where
  | accepted (ok : Bool)
  | timer
  | read (io : Io) (read : Read)
  | wrote (ok : Bool)

/-- The device and its servers. -/
structure Servers (ι : Type*) where
  power : Power
  server : ι → ServerPc

/-- A reset from outside, an event of a server, the button. -/
inductive ServersInput (ι : Type*) where
  | reset (readable : Kind → Bool)
  | server (i : ι) (e : ServerEvent)
  | gpio0 (held : Bool)

/-- What is seen: the baud rate of a boot, a connection, a request with how it was handled, an answer, and
the device stopped by a panic or reset by a server. -/
inductive ServersObs (ι : Type*) where
  | boot (o : Obs)
  | accepted (i : ι)
  | handled (i : ι) (request : List UInt8) (outcome : Option Outcome)
  | answered (i : ι) (a : Answer)
  | stopped

namespace Servers
variable {ι : Type*} [DecidableEq ι]

def goto (s : Servers ι) (i : ι) (pc : ServerPc) : Servers ι := { s with server := Function.update s.server i pc }

/-- Nothing runs until the next boot. -/
def stop (flash : Flash) : Servers ι := ⟨.off flash, fun _ => .accepting⟩

/-- `handle_request` of server `i`, once the request is in. -/
def handle (sha256 : List UInt8 → List UInt8) (io : Io) (s : Servers ι) (d : Device) (i : ι)
    (request : List UInt8) : Servers ι × List (ServersObs ι) :=
  let h := respond sha256 io d request
  let seen := ServersObs.handled i request h.outcome
  match h.outcome with
  | none => (stop h.device.flash, [seen, .stopped])
  | some .reset => (goto ⟨.on h.device, s.server⟩ i .resetting, [seen])
  | some (.response r) =>
    match h.device.answer r with
    | none => (stop h.device.flash, [seen, .stopped])
    | some a => (goto ⟨.on h.device, s.server⟩ i .writing, [seen, .answered i a])

/-- One event of server `i` on a device that is up. -/
def serve (sha256 : List UInt8 → List UInt8) (s : Servers ι) (d : Device) (i : ι) (e : ServerEvent) :
    Option (Servers ι × List (ServersObs ι)) :=
  match s.server i, e with
  | .accepting, .accepted ok =>
    some (if ok then (s.goto i (.reading ⟨[], none⟩), [.accepted i]) else (s.goto i .retrying, []))
  | .retrying, .timer => some (s.goto i .accepting, [])
  | .reading r, .read io read =>
    match read with
    | .eof => some (if r.buffer = [] then (s.goto i .closing, []) else handle sha256 io s d i r.buffer)
    | .error => some (s.goto i .closing, [])
    | .data first rest =>
      let r := r.take (first :: rest)
      some (if r.enough then handle sha256 io s d i r.buffer else (s.goto i (.reading r), []))
  -- `software_reset`
  | .resetting, .timer => some (stop d.flash, [.stopped])
  | .writing, .wrote _ => some (s.goto i .closing, [])
  | .closing, .timer => some (s.goto i .accepting, [])
  | _, _ => none

/-- One input. -/
def step (sha256 : List UInt8 → List UInt8) (s : Servers ι) :
    ServersInput ι → Option (Servers ι × List (ServersObs ι))
  | .reset readable =>
    let d := boot s.power.flash readable
    let baud := d.device.baudRate
    -- the servers are spawned at the end of `main`
    some (if starts s.power.flash readable then (⟨.on d, fun _ => .accepting⟩, [.boot (.uartNew baud)])
      else (stop s.power.flash, [.boot (.uartNew baud)]))
  | .server i e =>
    match s.power with
    | .on d => s.serve sha256 d i e
    | .off _ => none
  | .gpio0 held =>
    match s.power with
    | .on d => some (⟨.on { d with gpio0Held := held }, s.server⟩, [])
    | .off _ => none

end Servers

/-- Any number of servers, from the moment the device gets power. -/
def servers (ι : Type*) [DecidableEq ι] (sha256 : List UInt8 → List UInt8) (flash : Flash) :
    Machine (Servers ι) (ServersInput ι) (ServersObs ι) where
  init := Servers.stop flash
  step := Servers.step sha256

/-- What is seen of one server that handles one request after the other. -/
inductive SerialObs where
  | boot (o : Obs)
  | handled (request : List UInt8) (outcome : Option Outcome)

/-- The request in an input, with how it is handled. -/
def handledBy (sha256 : List UInt8 → List UInt8) : Power → Input → List SerialObs
  | .on d, .request io reads =>
    match receive reads with
    | .request request => [.handled request (respond sha256 io d request).outcome]
    | _ => []
  | _, _ => []

/-- One request after the other. -/
def serial (sha256 : List UInt8 → List UInt8) (flash : Flash) : Machine Power Input SerialObs where
  init := .off flash
  step p e := (Http.step sha256 p e).map fun (p', os) => (p', os.map .boot ++ handledBy sha256 p e)

/-- What one server would have shown. -/
def ServersObs.serial {ι : Type*} : ServersObs ι → Option SerialObs
  | .boot o => some (.boot o)
  | .handled _ request outcome => some (.handled request outcome)
  | _ => none

/-- The loop has read so much of some reads. -/
def Partial (r : Reading) : Prop :=
  r.enough = false ∧ ∃ reads, ∀ more, receive (reads ++ more) = r.receive more

lemma Partial.start : Partial ⟨[], none⟩ := ⟨by decide, [], fun _ => rfl⟩

/-- A read goes on with the loop. -/
lemma Partial.next {r : Reading} (part : Partial r) (read : Read) :
    ∃ reads, ∀ more, receive (reads ++ more) = r.receive (read :: more) := by
  obtain ⟨-, reads, eq⟩ := part
  refine ⟨reads ++ [read], fun more => ?_⟩
  rw [List.append_assoc]
  exact eq (read :: more)

lemma receive_data {r : Reading} (more : r.enough = false) (first : UInt8) (rest : List UInt8)
    (reads : List Read) : r.receive (.data first rest :: reads) = (r.take (first :: rest)).receive reads := by
  rw [Reading.receive, if_neg (by simp [more])]

/-- The rest of a stream of reads. -/
lemma Partial.data {r : Reading} (part : Partial r) (first : UInt8) (rest : List UInt8) :
    ((r.take (first :: rest)).enough = true ∧
      ∃ reads, receive reads = .request (r.take (first :: rest)).buffer) ∨
    Partial (r.take (first :: rest)) := by
  obtain ⟨reads, eq⟩ := part.next (.data first rest)
  by_cases enough : (r.take (first :: rest)).enough = true
  · refine .inl ⟨enough, reads, ?_⟩
    have done := eq []
    rwa [List.append_nil, receive_data part.1, Reading.receive_enough enough] at done
  · refine .inr ⟨Bool.not_eq_true _ ▸ enough, reads, fun more => ?_⟩
    rw [eq, receive_data part.1]

/-- The end of the stream completes what was received. -/
lemma Partial.eof {r : Reading} (part : Partial r) (some : r.buffer ≠ []) :
    ∃ reads, receive reads = .request r.buffer := by
  obtain ⟨reads, eq⟩ := part.next .eof
  refine ⟨reads, ?_⟩
  have done := eq []
  rwa [List.append_nil, Reading.receive, if_neg (by simp [part.1]), if_neg some] at done

/-- One server stands for all: the flash is the same, a device that is up is the same, and what the servers
have read are parts of requests. -/
structure Stands {ι : Type*} (s : Servers ι) (p : Power) : Prop where
  flash : p.flash = s.power.flash
  up : ∀ d, s.power = .on d → p = .on d
  reading : ∀ i r, s.server i = .reading r → Partial r

section Step
variable {ι : Type*} [DecidableEq ι] {sha256 : List UInt8 → List UInt8} {flash : Flash}
  {s : Servers ι} {p : Power} {d : Device} {i : ι}

/-- A server that moves on without a request. -/
lemma Stands.goto (stands : Stands s p) (i : ι) {pc : ServerPc}
    (part : ∀ r, pc = .reading r → Partial r) : Stands (s.goto i pc) p where
  flash := stands.flash
  up := stands.up
  reading j r at_ := by
    have here : Function.update s.server i pc j = .reading r := at_
    rcases eq_or_ne j i with rfl | ne
    · rw [Function.update_self] at here
      exact part r here
    · rw [Function.update_of_ne ne] at here
      exact stands.reading j r here

omit [DecidableEq ι] in
/-- Nothing is read while the device is off. -/
lemma Stands.stop (eq : p.flash = flash) : Stands (Servers.stop flash : Servers ι) p where
  flash := eq
  up _ off := by cases off
  reading _ _ at_ := by cases at_

/-- The stages of a connection. -/
inductive Stage where
  | accepted
  | handled
  | answered
  deriving DecidableEq

/-- The server that an observation is about, and the stage of its connection. -/
def ServersObs.stage : ServersObs ι → Option (ι × Stage)
  | .accepted i => some (i, .accepted)
  | .handled i _ _ => some (i, .handled)
  | .answered i _ => some (i, .answered)
  | _ => none

/-- How often the connections of a server came to a stage. -/
def reached (stage : Stage) (i : ι) (tr : List (ServersObs ι)) : ℕ :=
  tr.countP fun o => o.stage = some (i, stage)

@[simp] lemma reached_nil (stage : Stage) (i : ι) : reached stage i [] = 0 := rfl

@[simp] lemma reached_append (stage : Stage) (i : ι) (tr os : List (ServersObs ι)) :
    reached stage i (tr ++ os) = reached stage i tr + reached stage i os :=
  List.countP_append

@[simp] lemma reached_cons (stage : Stage) (i : ι) (o : ServersObs ι) (os : List (ServersObs ι)) :
    reached stage i (o :: os) = reached stage i os + if o.stage = some (i, stage) then 1 else 0 := by
  rw [reached, List.countP_cons]
  simp [reached]

/-- A server that reads has a connection to come to. -/
def ServerPc.pending : ServerPc → ℕ
  | .reading _ => 1
  | _ => 0

/-- A server handles at most one request for each connection, and answers it once. -/
structure InTurn (s : Servers ι) (tr : List (ServersObs ι)) (i : ι) : Prop where
  handled : reached .handled i tr + (s.server i).pending ≤ reached .accepted i tr
  answered : reached .answered i tr ≤ reached .handled i tr

/-- What a step adds for a server. -/
lemma InTurn.step {s s' : Servers ι} {tr os : List (ServersObs ι)} {i : ι} (turn : InTurn s tr i)
    (handled : reached .handled i os + (s'.server i).pending ≤
      reached .accepted i os + (s.server i).pending)
    (answered : reached .answered i os ≤ reached .handled i os) : InTurn s' (tr ++ os) i := by
  obtain ⟨before, old⟩ := turn
  refine ⟨?_, ?_⟩
  · rw [reached_append, reached_append]
    omega
  · rw [reached_append, reached_append]
    omega

end Step

end EspcanBr.Http
