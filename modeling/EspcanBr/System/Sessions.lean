import EspcanBr.Autoconnect.Status
import EspcanBr.Base.Tally
import EspcanBr.System.Manager
import EspcanBr.Transport.Talk

/-!
# The sessions

The four tasks that subscribe to `RX_BUS`, over the statics that they share: `uart_port`, the two of
`tcp_port` in `src/main.rs`, and `autoconnect_task` in `src/autoconnect.rs`, each with the port that it
runs while it has a link. A task moves from one wait to the next; its subscription lives as long as the
scope of `sub` does, past `run_port` and up to the timer at the end of a round. `rx_subscriber` panics
where there is no slot for a subscriber, and the device stops. `Does` says what a step does to the
subscribers and to `TCP_CLIENTS`.
-/

namespace EspcanBr.Sessions
open Base Slcan Can Transport

/-- The tasks that subscribe. -/
inductive TaskId where
  | uart
  | apTcp
  | staTcp
  | autoconnect
  deriving DecidableEq

instance : Fintype TaskId where
  elems := {.uart, .apTcp, .staTcp, .autoconnect}
  complete i := by cases i <;> simp

/-- The statics, and whether a task has panicked. -/
structure Globals where
  can : Statics 4
  autoconnect : Autoconnect.Shared
  panicked : Bool
  deriving DecidableEq

/-- Where a task is: `uart_port` before its first poll, in `run_port` and after it; `tcp_port` in
`accept`, in the timer after an error, in `run_port` and in the timer after a session; `autoconnect_task`
at one of its waits. -/
inductive Session where
  | spawned
  | uart (p : Port)
  | ended
  | accepting
  | retrying
  | serving (p : Port)
  | closing
  | autoconnect (pc : Autoconnect.Pc) (p : Port)
  deriving DecidableEq

/-- What a task waits for: its first poll, an outcome of `accept`, a timer, an event of its port or one of
`autoconnect_task`. -/
inductive Event where
  | poll
  | accepted (ok : Bool)
  | timer
  | port (e : Transport.Event)
  | autoconnect (e : Autoconnect.Event)

/-- The port at the start of `run_port`. -/
def runPort (iface : Iface) (sub : ℕ) : Port := ⟨iface, .select, [], false, false, sub⟩

namespace Globals

def withBus (g : Globals) (bus : PubSub CanFrame RX_CAP (4 : UInt32).toNat) : Globals :=
  { g with can := { g.can with rxBus := bus } }

/-- `rx_subscriber` in the task `s`, which goes on with the subscription. -/
def subscribe (g : Globals) (s : Session) (go : Globals → ℕ → Globals × Session) : Globals × Session :=
  match g.can.rxBus.subscriber with
  | some (bus, sub) => go (g.withBus bus) sub
  | none => ({ g with panicked := true }, s)

/-- The end of the scope of `sub`. -/
def unsubscribe (g : Globals) : Globals := g.withBus g.can.rxBus.unregister

def setClients (g : Globals) (n : UInt32) : Globals :=
  { g with autoconnect := { g.autoconnect with tcpClients := n } }

/-- `TCP_CLIENTS.fetch_add(1)`. -/
def addClient (g : Globals) : Globals := g.setClients (g.autoconnect.tcpClients + 1)

/-- `TCP_CLIENTS.fetch_sub(1)`. -/
def subClient (g : Globals) : Globals := g.setClients (g.autoconnect.tcpClients - 1)

/-- An event of a port in `run_port`. -/
def portStep (g : Globals) (p : Port) (e : Transport.Event) : Option (Globals × Port × List Obs) :=
  if p.pc.over then none else (p.step g.can e).map fun (st, p, os) => ({ g with can := st }, p, os)

/-- An event of `autoconnect_task` at `pc`, with what it does to its port. -/
def autoconnectStep (C : Autoconnect.Crypto) (g : Globals) (pc : Autoconnect.Pc) (p : Port)
    (e : Autoconnect.Event) : Option (Globals × Session) :=
  -- the task goes on behind `run_port` when that has returned
  if Autoconnect.ends e ∧ p.pc ≠ .returned then none
  else
    (Autoconnect.Task.step C ⟨g.autoconnect, pc⟩ e).map fun (t, os) =>
      let go (g : Globals) (p : Port) : Globals × Session :=
        let p := if .served true ∈ os ∨ .served false ∈ os then runPort .tcp p.sub else p
        ({ g with autoconnect := t.shared }, .autoconnect t.pc p)
      if .subscribed ∈ os then
        g.subscribe (.autoconnect pc p) fun g sub => go g { Port.new .tcp with pc := .linked, sub := sub }
      else if .unsubscribed ∈ os then go g.unsubscribe (.new .tcp)
      else go g p

end Globals

/-- One event of a task. -/
def Session.step (C : Autoconnect.Crypto) (g : Globals) (s : Session) (e : Event) :
    Option (Globals × Session × List Obs) :=
  let quiet (r : Globals × Session) : Globals × Session × List Obs := (r.1, r.2, [])
  if g.panicked then none
  else
    match s, e with
    | .spawned, .poll => some (quiet (g.subscribe s fun g sub => (g, .uart (runPort .serial sub))))
    | .uart p, .port e =>
      (g.portStep p e).map fun (g, p, os) =>
        if p.pc = .returned then (g.unsubscribe, .ended, os) else (g, .uart p, os)
    | .accepting, .accepted ok =>
      if ok then
        some (quiet (g.subscribe s fun g sub => (g.addClient, .serving (runPort .tcp sub))))
      else some (quiet (g, .retrying))
    | .retrying, .timer => some (quiet (g, .accepting))
    | .serving p, .port e =>
      (g.portStep p e).map fun (g, p, os) =>
        if p.pc = .returned then (g.subClient, .closing, os) else (g, .serving p, os)
    | .closing, .timer => some (quiet (g.unsubscribe, .accepting))
    | .autoconnect (.serving url) p, .port e =>
      (g.portStep p e).map fun (g, p, os) => (g, .autoconnect (.serving url) p, os)
    | .autoconnect pc p, .autoconnect e => (g.autoconnectStep C pc p e).map quiet
    | _, _ => none

/-- `can_rx_task`, until a panic. -/
def Globals.canRxTask (g : Globals) (rx : List EspTwaiFrame) : Option (Globals × List CanFrame) :=
  if g.panicked then none
  else some ({ g with can := (g.can.canRxTask rx).1 }, (g.can.canRxTask rx).2)

/-- The tasks as `main` spawns them, and `can_rx_task`. -/
def sessions (C : Autoconnect.Crypto) :
    Tasks Globals Session Event Obs (List EspTwaiFrame) CanFrame TaskId where
  shared := ⟨.new, ⟨.disabled, none, 0⟩, false⟩
  start
    | .uart => .spawned
    | .apTcp | .staTcp => .accepting
    | .autoconnect => .autoconnect .locking (.new .tcp)
  step := Session.step C
  env := Globals.canRxTask

/-- The machine of all interleavings. -/
abbrev machine (C : Autoconnect.Crypto) :
    Machine (World Globals Session TaskId) (Input TaskId Event (List EspTwaiFrame))
      (Shown TaskId Obs CanFrame) :=
  (sessions C).machine

/-- `autoconnect_task` holds a subscription. -/
def linked : Autoconnect.Pc → Bool
  | .sleeping _ linked => linked
  | .opening _ _ _ | .sending _ _ | .serving _ | .closing => true
  | _ => false

/-- `autoconnect_task` is between the increment and the decrement of `TCP_CLIENTS`. -/
def connected : Autoconnect.Pc → Bool
  | .opening _ _ _ | .sending _ _ | .serving _ | .closing => true
  | _ => false

namespace Session

/-- The task holds a subscription. -/
def subscribed : Session → Bool
  | .uart _ | .serving _ | .closing => true
  | .autoconnect pc _ => linked pc
  | _ => false

/-- The task is between the increment and the decrement of `TCP_CLIENTS`. -/
def counted : Session → Bool
  | .serving _ => true
  | .autoconnect pc _ => connected pc
  | _ => false

/-- The task is that of `uart_port`. -/
def onUart : Session → Bool
  | .spawned | .uart _ | .ended => true
  | _ => false

lemma not_counted {s : Session} (uart : s.onUart = true) : s.counted = false := by
  cases s with
  | spawned => rfl
  | uart _ => rfl
  | ended => rfl
  | _ => cases uart

end Session

/-- What a step of `autoconnect_task` does to its subscription and to `TCP_CLIENTS`. -/
structure Joins (t : Autoconnect.Task) (os : List Autoconnect.Obs) (t' : Autoconnect.Task) : Prop where
  clients : Tally (connected t.pc) t.shared.tcpClients (connected t'.pc) t'.shared.tcpClients
  take : .subscribed ∈ os → linked t.pc = false ∧ linked t'.pc = true
  drop : .subscribed ∉ os → .unsubscribed ∈ os → linked t.pc = true ∧ linked t'.pc = false
  keep : .subscribed ∉ os → .unsubscribed ∉ os → linked t'.pc = linked t.pc

/-- A step that neither takes nor drops a subscription, and counts nothing. -/
lemma Joins.same {t t' : Autoconnect.Task} {os : List Autoconnect.Obs} {pc : Autoconnect.Pc} (eq : t.pc = pc)
    (none : .subscribed ∉ os ∧ .unsubscribed ∉ os) (clients : t'.shared.tcpClients = t.shared.tcpClients)
    (stays : connected t'.pc = connected pc ∧ linked t'.pc = linked pc) : Joins t os t' where
  clients := by
    rw [eq, clients, stays.1]
    exact .stay
  take yes := absurd yes none.1
  drop _ yes := absurd yes none.2
  keep _ _ := by rw [eq, stays.2]

/-- A link is used with its subscription. -/
lemma link_joins (t : Autoconnect.Task) (url : Autoconnect.ParsedUrl) :
    (t.link url).1.shared.tcpClients = t.shared.tcpClients ∧ connected (t.link url).1.pc = true ∧
      linked (t.link url).1.pc = true ∧ .subscribed ∉ (t.link url).2 ∧ .unsubscribed ∉ (t.link url).2 := by
  rw [Autoconnect.Task.link]
  split
  · exact ⟨rfl, rfl, rfl, by simp, by simp⟩
  · exact ⟨rfl, rfl, rfl, by simp, by simp⟩

lemma step_joins {C : Autoconnect.Crypto} {t t' : Autoconnect.Task} {e os}
    (step : Autoconnect.TaskStep C t e t' os) : Joins t os t' := by
  cases step with
  | locked pc att => cases att <;> exact .same pc (by simp) rfl ⟨rfl, rfl⟩
  | @timer secs up pc =>
    cases up with
    | true =>
      refine ⟨?_, by simp, fun _ _ => ⟨by rw [pc]; rfl, rfl⟩, by simp⟩
      rw [pc]
      exact .stay
    | false => exact .same pc (by simp) rfl ⟨rfl, rfl⟩
  | resolved pc => exact .same pc (by simp) rfl ⟨rfl, rfl⟩
  | dnsFail pc => exact .same pc (by simp) rfl ⟨rfl, rfl⟩
  | connectedTls pc _ =>
    refine ⟨?_, fun _ => ⟨by rw [pc]; rfl, rfl⟩, by simp, by simp⟩
    rw [pc]
    exact .enter
  | @connectedTcp url _ _ t' pc _ eq =>
    obtain ⟨clients, up, holds, -, -⟩ := link_joins t' url
    refine ⟨?_, fun _ => ⟨by rw [pc]; rfl, holds⟩, by simp, by simp⟩
    rw [pc, clients, up, eq]
    exact .enter
  | tcpFail pc => exact .same pc (by simp) rfl ⟨rfl, rfl⟩
  | certificate pc => exact .same pc (by simp) rfl ⟨rfl, rfl⟩
  | accepted pc _ => exact .same pc (by simp) rfl ⟨rfl, rfl⟩
  | rejected pc _ eq =>
    refine .same pc (by simp) ?_ ⟨rfl, rfl⟩
    rw [eq]
    split <;> rfl
  | @opened url _ _ pc =>
    obtain ⟨clients, up, holds, none⟩ := link_joins t url
    exact .same pc none clients ⟨up, holds⟩
  | tlsFail pc eq =>
    refine .same pc (by simp) ?_ ⟨rfl, rfl⟩
    rw [eq]
    split <;> rfl
  | sent pc _ => exact .same pc (by simp) rfl ⟨rfl, rfl⟩
  | tokenSent pc _ => exact .same pc (by simp) rfl ⟨rfl, rfl⟩
  | servedTls pc _ => exact .same pc (by simp) rfl ⟨rfl, rfl⟩
  | servedTcp pc _ =>
    refine ⟨?_, by simp, by simp, fun _ _ => by rw [pc]; rfl⟩
    rw [pc]
    exact .leave
  | closed pc =>
    refine ⟨?_, by simp, by simp, fun _ _ => by rw [pc]; rfl⟩
    rw [pc]
    exact .leave

/-- What a step of a task does to the subscribers and to `TCP_CLIENTS`. -/
inductive Does (g : Globals) (s : Session) : Globals → Session → Prop where
  | panic :
    s.subscribed = false →
    g.can.rxBus.subscriber = none →
    Does g s { g with panicked := true } s
  | move {g' s'} :
    g'.panicked = g.panicked →
    s'.onUart = s.onUart →
    Tally s.subscribed g.can.rxBus.subscribers s'.subscribed g'.can.rxBus.subscribers →
    Tally s.counted g.autoconnect.tcpClients s'.counted g'.autoconnect.tcpClients →
    Does g s g' s'

/-- A task without a subscription takes one, or panics. -/
lemma subscribe_does {g g' : Globals} {s s' : Session} {go : Globals → ℕ → Globals × Session}
    (h : g.subscribe s go = (g', s')) (out : s.subscribed = false)
    (goes : ∀ bus sub, (go (g.withBus bus) sub).1.panicked = g.panicked ∧
      (go (g.withBus bus) sub).2.onUart = s.onUart ∧ (go (g.withBus bus) sub).1.can.rxBus = bus ∧
      (go (g.withBus bus) sub).2.subscribed = true ∧
      Tally s.counted g.autoconnect.tcpClients (go (g.withBus bus) sub).2.counted
        (go (g.withBus bus) sub).1.autoconnect.tcpClients) : Does g s g' s' := by
  rw [Globals.subscribe] at h
  split at h
  · rename_i bus sub free
    obtain ⟨-, rfl, -⟩ := PubSub.subscriber_eq_some free
    obtain ⟨panicked, uart, bus, holds, clients⟩ := goes _ sub
    rw [h] at panicked uart bus holds clients
    refine .move panicked uart ?_ clients
    rw [out, holds, bus]
    exact .enter
  · rename_i full
    cases h
    exact .panic out full

/-- `run_port` leaves the subscriptions and the other statics alone. -/
lemma portStep_keeps {g g' : Globals} {p p' : Port} {e os} (h : g.portStep p e = some (g', p', os)) :
    g'.panicked = g.panicked ∧ g'.can.rxBus = g.can.rxBus ∧ g'.autoconnect = g.autoconnect := by
  rw [Globals.portStep] at h
  split at h
  · cases h
  · rename_i run
    obtain ⟨⟨st, q, os⟩, step, eq⟩ := Option.map_eq_some_iff.mp h
    cases eq
    refine ⟨rfl, ?_, rfl⟩
    cases System.step_links (step_sound step) with
    | take idle _ _ _ =>
      rw [idle] at run
      exact absurd rfl run
    | drop pc _ _ =>
      rcases pc with pc | pc
      · rw [pc] at run
        exact absurd rfl run
      · rw [pc] at run
        exact absurd rfl run
    | keep _ bus _ => exact bus

/-- After an event of its port a task does what follows in its own scope. -/
lemma portStep_does {g g' g'' : Globals} {s s' : Session} {p p' : Port} {e os}
    (h : g.portStep p e = some (g', p', os)) (running : g''.panicked = g'.panicked)
    (uart : s'.onUart = s.onUart)
    (subscribers : Tally s.subscribed g'.can.rxBus.subscribers s'.subscribed g''.can.rxBus.subscribers)
    (clients : Tally s.counted g'.autoconnect.tcpClients s'.counted g''.autoconnect.tcpClients) :
    Does g s g'' s' := by
  obtain ⟨same, bus, statics⟩ := portStep_keeps h
  rw [bus] at subscribers
  rw [statics] at clients
  exact .move (running.trans same) uart subscribers clients

lemma autoconnectStep_does {C : Autoconnect.Crypto} {g g' : Globals} {pc p e s'}
    (h : g.autoconnectStep C pc p e = some (g', s')) : Does g (.autoconnect pc p) g' s' := by
  rw [Globals.autoconnectStep] at h
  split at h
  · cases h
  · obtain ⟨⟨t, os⟩, step, eq⟩ := Option.map_eq_some_iff.mp h
    have joins := step_joins (Autoconnect.step_sound step)
    simp only at eq
    split at eq
    · rename_i yes
      obtain ⟨out, holds⟩ := joins.take yes
      exact subscribe_does eq out fun _ _ => ⟨rfl, rfl, rfl, holds, joins.clients⟩
    · rename_i no
      split at eq
      · rename_i yes
        obtain ⟨holds, out⟩ := joins.drop no yes
        cases eq
        refine .move rfl rfl ?_ joins.clients
        rw [Session.subscribed, Session.subscribed, holds, out]
        exact .leave
      · rename_i no'
        cases eq
        refine .move rfl rfl ?_ joins.clients
        rw [Session.subscribed, Session.subscribed, joins.keep no no']
        exact .stay

/-- Whatever a task does is listed by `Does`. -/
theorem step_does {C : Autoconnect.Crypto} {g g' : Globals} {s s' : Session} {e os}
    (h : s.step C g e = some (g', s', os)) : Does g s g' s' ∧ g.panicked = false := by
  unfold Session.step at h
  simp only at h
  split at h
  · cases h
  · rename_i running
    refine ⟨?_, Bool.not_eq_true _ ▸ running⟩
    split at h
    · generalize eq : g.subscribe _ _ = r at h
      obtain ⟨g1, s1⟩ := r
      cases h
      exact subscribe_does eq rfl fun _ _ => ⟨rfl, rfl, rfl, rfl, .stay⟩
    · obtain ⟨⟨g1, q, os1⟩, step, eq⟩ := Option.map_eq_some_iff.mp h
      simp only at eq
      split at eq
      · cases eq
        exact portStep_does step rfl rfl .leave .stay
      · cases eq
        exact portStep_does step rfl rfl .stay .stay
    · rename_i ok
      split at h
      · generalize eq : g.subscribe _ _ = r at h
        obtain ⟨g1, s1⟩ := r
        cases h
        exact subscribe_does eq rfl fun _ _ => ⟨rfl, rfl, rfl, rfl, .enter⟩
      · cases h
        exact .move rfl rfl .stay .stay
    · cases h
      exact .move rfl rfl .stay .stay
    · obtain ⟨⟨g1, q, os1⟩, step, eq⟩ := Option.map_eq_some_iff.mp h
      simp only at eq
      split at eq
      · cases eq
        exact portStep_does step rfl rfl .stay .leave
      · cases eq
        exact portStep_does step rfl rfl .stay .stay
    · cases h
      exact .move rfl rfl .leave .stay
    · obtain ⟨⟨g1, q, os1⟩, step, eq⟩ := Option.map_eq_some_iff.mp h
      cases eq
      exact portStep_does step rfl rfl .stay .stay
    · obtain ⟨⟨g1, s1⟩, step, eq⟩ := Option.map_eq_some_iff.mp h
      cases eq
      exact autoconnectStep_does step
    · cases h

variable {C : Autoconnect.Crypto} {w w' : World Globals Session TaskId} {tr : List (Shown TaskId Obs CanFrame)}

/-- No task has panicked, and the subscribers and `TCP_CLIENTS` are those of the tasks. -/
structure Accounts (w : World Globals Session TaskId) : Prop where
  running : w.shared.panicked = false
  uart : (w.task .uart).onUart = true
  subscribers : w.shared.can.rxBus.subscribers = inside Session.subscribed w.task
  clients : w.shared.autoconnect.tcpClients.toNat = inside Session.counted w.task

/-- There are no more subscribers than slots. -/
lemma Accounts.slots (inv : Accounts w) : w.shared.can.rxBus.subscribers ≤ 4 := by
  rw [inv.subscribers]
  exact inside_le_card

/-- A step of a task keeps the accounts; it does not panic, because a task without a subscription leaves a
slot free. -/
lemma Accounts.does (inv : Accounts w) {i g s} (does : Does w.shared (w.task i) g s) :
    Accounts ⟨g, Function.update w.task i s⟩ := by
  cases does with
  | panic out full =>
    have free : w.shared.can.rxBus.subscribers < (4 : UInt32).toNat := by
      rw [inv.subscribers]
      exact inside_lt_card out
    rw [PubSub.subscriber, if_pos free] at full
    cases full
  | move running uart subscribers clients =>
    refine ⟨running.trans inv.running, ?_, ?_, ?_⟩
    · rcases eq_or_ne i .uart with rfl | ne
      · simp only [Function.update_self]
        exact uart.trans inv.uart
      · simp only [Function.update_of_ne ne.symm]
        exact inv.uart
    · have new := inside_update Session.subscribed w.task i s
      have change := subscribers.nat (inv.subscribers ▸ toNat_le_inside i)
      have old := inv.subscribers
      show g.can.rxBus.subscribers = inside Session.subscribed (Function.update w.task i s)
      omega
    · have new := inside_update Session.counted w.task i s
      have few : inside Session.counted w.task ≤ 4 := inside_le_card
      have old := inv.clients
      have change := clients.uint32 (inv.clients ▸ toNat_le_inside i) (by omega)
      show g.autoconnect.tcpClients.toNat = inside Session.counted (Function.update w.task i s)
      omega

/-- In every reachable state the accounts are right. -/
lemma accounts (run : (machine C).Reach w tr) : Accounts w := by
  refine run.invariant (P := fun w _ => Accounts w) ?_ ?_
  · exact ⟨rfl, rfl, rfl, rfl⟩
  · intro w os w' os' e _ inv _ st
    cases e with
    | task i e =>
      obtain ⟨g, s, os1, own, rfl, -⟩ := Tasks.machine_task st
      exact inv.does (step_does own).1
    | env rx =>
      obtain ⟨g, os1, own, rfl, -⟩ := Tasks.machine_env st
      have round : w.shared.canRxTask rx = some (g, os1) := own
      rw [Globals.canRxTask] at round
      split at round
      · cases round
      · cases round
        exact ⟨inv.running, inv.uart, (Statics.drain_subscribers _ _ _).trans inv.subscribers, inv.clients⟩

/-- Session accounting, over every interleaving of the four tasks and `can_rx_task`. No `rx_subscriber`
panics: the live subscribers are the tasks that hold a subscription, and never more than four.
`TCP_CLIENTS` is the number of the tasks between its increment and its decrement, which that of the UART
never is, so it is zero if and only if there is none, and a task that decrements it finds it positive. -/
theorem session_accounting (run : (machine C).Reach w tr) :
    w.shared.panicked = false ∧
    w.shared.can.rxBus.subscribers = inside Session.subscribed w.task ∧
    w.shared.can.rxBus.subscribers ≤ 4 ∧
    w.shared.autoconnect.tcpClients.toNat = inside Session.counted w.task ∧
    (w.task .uart).counted = false ∧
    (w.shared.autoconnect.tcpClients = 0 ↔ ∀ i, (w.task i).counted = false) ∧
    ∀ e w' os i, (machine C).step w e = some (w', os) → (w.task i).counted = true →
      (w'.task i).counted = false →
      w'.shared.autoconnect.tcpClients.toNat + 1 = w.shared.autoconnect.tcpClients.toNat := by
  have inv := accounts run
  refine ⟨inv.running, inv.subscribers, inv.slots, inv.clients, Session.not_counted inv.uart, ?_, ?_⟩
  · rw [← UInt32.toNat_inj, inv.clients]
    exact inside_eq_zero
  · intro e w' os i st counted out
    have inv' := accounts (run.snoc trivial st)
    cases e with
    | task j e =>
      obtain ⟨g, s, os1, own, rfl, -⟩ := Tasks.machine_task st
      rcases eq_or_ne i j with rfl | ne
      · have change := inside_update Session.counted w.task i s
        simp only [Function.update_self] at out
        rw [counted, out] at change
        rw [inv.clients, inv'.clients]
        exact change
      · simp only [Function.update_of_ne ne] at out
        rw [counted] at out
        cases out
    | env rx =>
      obtain ⟨g, os1, own, rfl, -⟩ := Tasks.machine_env st
      rw [counted] at out
      cases out

/-- A configuration without a key. -/
def sampleConfig : AutoConnectConfig := AutoConnectConfig.new.set true (ascii "tcp://10.0.0.1:3333")

theorem session_accounting_at : ∃ w tr, (machine Autoconnect.sampleCrypto).Reach w tr ∧
    inside Session.subscribed w.task = 4 ∧ inside Session.counted w.task = 2 := by
  obtain ⟨w, tr, run, subscribers, clients⟩ :=
    Machine.run_exec (machine Autoconnect.sampleCrypto) (fun _ _ => True)
      [.task .uart .poll, .task .apTcp (.accepted true), .task .staTcp (.accepted true),
        .task .autoconnect (.autoconnect (.locked sampleConfig true)),
        .task .autoconnect (.autoconnect (.connected true)), .task .apTcp (.port .eof)]
      (fun w _ => w.shared.can.rxBus.subscribers = 4 ∧ w.shared.autoconnect.tcpClients.toNat = 2)
      (by decide +kernel)
  obtain ⟨-, holders, -, counted, -⟩ := session_accounting run
  exact ⟨w, tr, run, holders.symm.trans subscribers, counted.symm.trans clients⟩

end EspcanBr.Sessions
