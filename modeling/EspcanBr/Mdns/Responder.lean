import EspcanBr.Base.Machine
import EspcanBr.Config
import EspcanBr.Mdns.Packet

/-!
# The mDNS responder

`responder_task` of `src/mdns.rs` as a machine, with what other tasks store into the statics it reads:
`sta_ip_monitor` the station's address, `connection_task` the Wi-Fi flag, the web server the device's
name. The responder reads the address once, before its first packet; `Moves` lists its steps.
-/

namespace EspcanBr.Mdns
open Base

/-- The statics the responder reads. -/
structure Shared where
  wifiConnected : Bool
  staIp : Option Ipv4Addr
  device : DeviceConfig
  deriving DecidableEq

/-- Where the responder waits: before it looks for an address, for the device's name, in `send_to`, in
`recv_from`, after an error of the socket; or it returned. -/
inductive Pc where
  | checking
  | naming (ip : Ipv4Addr)
  | sending (ip : Ipv4Addr) (host : List UInt8) (dest : Ipv4Addr) (packet : List UInt8)
  | listening (ip : Ipv4Addr) (host : List UInt8)
  | sleeping (ip : Ipv4Addr) (host : List UInt8)
  | returned
  deriving DecidableEq

structure Responder where
  shared : Shared
  pc : Pc
  deriving DecidableEq

/-- What the other tasks store, and what the responder waits for: the next check, the name with the
outcomes of joining the group and of binding the socket, the end of `send_to`, a datagram with its source
if that is an IPv4 address, an error, a timer. -/
inductive Event where
  | monitor (current : Option Ipv4Addr)
  | wifi (connected : Bool)
  | device (cfg : DeviceConfig)
  | check
  | named (joined bound : Bool)
  | sent (ok : Bool)
  | received (query : List UInt8) (src : Option Ipv4Addr)
  | failed
  | timer

/-- A packet that goes out, and the station's address at that moment. -/
inductive Obs where
  | sent (dest : Ipv4Addr) (packet : List UInt8) (staIp : Option Ipv4Addr)
  deriving DecidableEq

/-- The multicast group. -/
def GROUP : Ipv4Addr := ⟨224, 0, 0, 251⟩

/-- The longest host name. -/
def NAME_MAX : ℕ := 32

/-- The address the responder took. -/
def Pc.address : Pc → Option Ipv4Addr
  | .naming ip | .sending ip _ _ _ | .listening ip _ | .sleeping ip _ => some ip
  | .checking | .returned => none

namespace Responder

/-- A packet is sent, if there is one. -/
def reply (ip : Ipv4Addr) (host : List UInt8) (dest : Ipv4Addr) : Option (List UInt8) → Pc
  | some packet => .sending ip host dest packet
  | none => .listening ip host

/-- One event of the responder or of another task. -/
def step (r : Responder) (e : Event) : Option (Responder × List Obs) :=
  match r.pc, e with
  | _, .monitor current => some ({ r with shared := { r.shared with staIp := current } }, [])
  | _, .wifi connected => some ({ r with shared := { r.shared with wifiConnected := connected } }, [])
  | _, .device cfg => some ({ r with shared := { r.shared with device := cfg } }, [])
  | .checking, .check =>
    match if r.shared.wifiConnected then r.shared.staIp else none with
    | some ip => some ({ r with pc := .naming ip }, [])
    | none => some (r, [])
  | .naming ip, .named joined bound =>
    r.shared.device.nameStr.map fun name =>
      let host := name.take NAME_MAX
      -- without the group or the port the task ends
      if joined = false then ({ r with pc := .returned }, [])
      else if bound = false then ({ r with pc := .returned }, [])
      else ({ r with pc := reply ip host GROUP (buildAnnouncement ip host) }, [])
  | .sending ip host dest packet, .sent ok =>
    some ({ r with pc := .listening ip host }, if ok then [.sent dest packet r.shared.staIp] else [])
  | .listening ip host, .received query src =>
    if CAPACITY < query.length then none
    -- shorter than a header
    else if query.length < 12 then some (r, [])
    else
      match src with
      | none => some (r, [])
      | some src => some ({ r with pc := reply ip host src (buildResponse query ip host) }, [])
  | .listening ip host, .failed => some ({ r with pc := .sleeping ip host }, [])
  | .sleeping ip host, .timer => some ({ r with pc := .listening ip host }, [])
  | _, _ => none

end Responder

/-- The responder after boot, and everything the other tasks store. -/
def machine : Machine Responder Event Obs where
  init := ⟨⟨false, none, .new⟩, .checking⟩
  step := Responder.step

/-- What one event does. A packet that is going to be sent answers with the address taken. -/
inductive Moves (r : Responder) : Event → Responder → List Obs → Prop where
  | monitor {current} :
    Moves r (.monitor current) { r with shared := { r.shared with staIp := current } } []
  | other {e sh} :
    (∀ current, e ≠ .monitor current) →
    sh.staIp = r.shared.staIp →
    Moves r e { r with shared := sh } []
  | take {ip} :
    r.pc = .checking →
    r.shared.staIp = some ip →
    Moves r .check { r with pc := .naming ip } []
  | keep {e ip pc} :
    (∀ current, e ≠ .monitor current) →
    r.pc.address = some ip →
    pc.address = some ip ∨ pc = .returned →
    (∀ ip' host dest packet, pc = .sending ip' host dest packet → Answers packet ip') →
    Moves r e { r with pc := pc } []
  | sent {ip host dest packet} :
    r.pc = .sending ip host dest packet →
    Moves r (.sent true) { r with pc := .listening ip host } [.sent dest packet r.shared.staIp]

lemma reply_spec (ip : Ipv4Addr) (host : List UInt8) (dest : Ipv4Addr) {built : Option (List UInt8)}
    (answers : ∀ packet, built = some packet → Answers packet ip) :
    (Responder.reply ip host dest built).address = some ip ∧
      ∀ ip' host' dest' packet, Responder.reply ip host dest built = .sending ip' host' dest' packet →
        Answers packet ip' := by
  cases built with
  | none =>
    refine ⟨rfl, fun ip' host' dest' packet eq => ?_⟩
    cases eq
  | some packet =>
    refine ⟨rfl, fun ip' host' dest' packet' eq => ?_⟩
    cases eq
    exact answers packet rfl

/-- Whatever `Responder.step` does is listed by `Moves`. -/
theorem step_sound {r r' : Responder} {e : Event} {os : List Obs}
    (h : r.step e = some (r', os)) : Moves r e r' os := by
  have quiet : ∀ {pc : Pc} {ip' host dest packet}, pc = .sending ip' host dest packet →
      (∀ ip host dest packet, pc ≠ .sending ip host dest packet) → Answers packet ip' := by
    intro pc ip' host dest packet eq no
    exact absurd eq (no _ _ _ _)
  unfold Responder.step at h
  split at h
  · cases h
    exact .monitor
  · cases h
    exact .other (by simp) rfl
  · cases h
    exact .other (by simp) rfl
  · rename_i checking
    split at h
    · rename_i ip found
      cases h
      refine .take checking ?_
      split at found
      · exact found
      · cases found
    · cases h
      exact .other (by simp) rfl
  · rename_i ip joined bound naming
    have took : r.pc.address = some ip := by rw [naming]; rfl
    obtain ⟨name, -, eq⟩ := Option.map_eq_some_iff.mp h
    simp only at eq
    split at eq
    · cases eq
      exact .keep (by simp) took (.inr rfl) (by simp)
    · split at eq
      · cases eq
        exact .keep (by simp) took (.inr rfl) (by simp)
      · cases eq
        obtain ⟨address, answers⟩ := reply_spec ip (name.take NAME_MAX) GROUP
          fun _ built => buildAnnouncement_eq built
        exact .keep (by simp) took (.inl address) answers
  · rename_i ip host dest packet ok sending
    have took : r.pc.address = some ip := by rw [sending]; rfl
    cases h
    cases ok with
    | true => exact .sent sending
    | false => exact .keep (by simp) took (.inl rfl) (by simp)
  · rename_i ip host query src listening
    have took : r.pc.address = some ip := by rw [listening]; rfl
    split at h
    · cases h
    · split at h
      · cases h
        exact .other (by simp) rfl
      · split at h
        · cases h
          exact .other (by simp) rfl
        · rename_i src
          cases h
          obtain ⟨address, answers⟩ := reply_spec ip host src fun _ built => buildResponse_eq built
          exact .keep (by simp) took (.inl address) answers
  · rename_i ip host listening
    cases h
    exact .keep (by simp) (by rw [listening]; rfl) (.inl rfl) (by simp)
  · rename_i ip host sleeping
    cases h
    exact .keep (by simp) (by rw [sleeping]; rfl) (.inl rfl) (by simp)
  · cases h

/-- A packet is fresh if it answers with the address the station holds when it is sent. -/
def Fresh (packet : List UInt8) (staIp : Option Ipv4Addr) : Prop :=
  ∃ ip, staIp = some ip ∧ Answers packet ip

/-- Once the responder took an address, the monitor stores nothing else, `none` included. -/
def Settled (r : Responder) (e : Event) : Prop :=
  ∀ current, e = .monitor current → r.pc.address = none ∨ current = r.pc.address

/-- What the responder sends answers with the address it took. -/
def Responder.Held (r : Responder) : Prop :=
  ∀ ip host dest packet, r.pc = .sending ip host dest packet → Answers packet ip

lemma moves_held {r r' : Responder} {e : Event} {os : List Obs} (moves : Moves r e r' os)
    (held : r.Held) : r'.Held := by
  cases moves with
  | monitor => exact held
  | other _ _ => exact held
  | take _ _ => exact fun _ _ _ _ eq => by cases eq
  | keep _ _ _ answers => exact answers
  | sent _ => exact fun _ _ _ _ eq => by cases eq

/-- While nothing else is stored, the station holds the address that was taken. -/
lemma moves_settled {r r' : Responder} {e : Event} {os : List Obs} (moves : Moves r e r' os)
    (settled : Settled r e) (took : ∀ ip, r.pc.address = some ip → r.shared.staIp = some ip) :
    ∀ ip, r'.pc.address = some ip → r'.shared.staIp = some ip := by
  intro ip address
  cases moves with
  | monitor =>
    rcases settled _ rfl with none | same
    · rw [none] at address
      cases address
    · exact same.trans address
  | other _ same => exact same.trans (took ip address)
  | take _ found =>
    cases address
    exact found
  | keep _ before after _ =>
    rcases after with same | returned
    · exact took ip (before.trans (same.symm.trans address))
    · subst returned
      cases address
  | sent sending =>
    apply took
    rw [sending]
    exact address

/-- What is sent answers with the address that was taken, so it is fresh if and only if the station
still holds that address. -/
lemma moves_fresh {r r' : Responder} {e : Event} {os : List Obs} (moves : Moves r e r' os)
    (held : r.Held) {dest : Ipv4Addr} {packet : List UInt8} {staIp : Option Ipv4Addr}
    (sent : .sent dest packet staIp ∈ os) :
    staIp = r.shared.staIp ∧ (Fresh packet staIp ↔ staIp = r.pc.address) := by
  cases moves with
  | monitor => cases sent
  | other _ _ => cases sent
  | take _ _ => cases sent
  | keep _ _ _ _ => cases sent
  | @sent ip host dest' packet' sending =>
    cases List.mem_singleton.mp sent
    have answers := held _ _ _ _ sending
    have address : r.pc.address = some ip := by rw [sending]; rfl
    refine ⟨rfl, ?_, ?_⟩
    · rintro ⟨ip', holds, answers'⟩
      rw [holds, address, answers'.unique answers]
    · intro same
      exact ⟨ip, same.trans address, answers⟩

/-- What is sent goes out under an address that was taken. -/
lemma sent_address {r r' : Responder} {e : Event} {os : List Obs} (moves : Moves r e r' os)
    {o : Obs} (shown : o ∈ os) : ∃ ip, r.pc.address = some ip := by
  cases moves with
  | monitor => cases shown
  | other _ _ => cases shown
  | take _ _ => cases shown
  | keep _ _ _ _ => cases shown
  | sent sending =>
    rw [sending]
    exact ⟨_, rfl⟩

/-- Freshness. As long as nothing but the address the responder took is stored, not even that there is
none, everything it sends answers with the address the station holds at that moment. In every run, what
it sends is fresh if and only if the station still holds the address the responder took before its first
packet. -/
theorem mdns_fresh (r : Responder) (os : List Obs) :
    (machine.Run Settled r os →
      ∀ dest packet staIp, .sent dest packet staIp ∈ os → Fresh packet staIp) ∧
    (machine.Reach r os → ∀ e r' os', machine.step r e = some (r', os') →
      ∀ dest packet staIp, .sent dest packet staIp ∈ os' →
        (Fresh packet staIp ↔ r.shared.staIp = r.pc.address)) := by
  have held : ∀ {C r os}, machine.Run C r os → r.Held := by
    intro C r os run
    refine run.invariant (P := fun r _ => r.Held) ?_ ?_
    · intro ip host dest packet eq
      cases eq
    · intro r os r' os' e _ held _ st
      exact moves_held (step_sound st) held
  have took : ∀ {r os}, machine.Run Settled r os →
      ∀ ip, r.pc.address = some ip → r.shared.staIp = some ip := by
    intro r os run
    refine run.invariant (P := fun r _ => ∀ ip, r.pc.address = some ip → r.shared.staIp = some ip) ?_ ?_
    · intro ip eq
      cases eq
    · intro r os r' os' e _ took settled st
      exact moves_settled (step_sound st) settled took
  constructor
  · intro run
    induction run with
    | refl =>
      intro dest packet staIp sent
      cases sent
    | snoc run settled st ih =>
      intro dest packet staIp sent
      rcases List.mem_append.mp sent with before | now
      · exact ih dest packet staIp before
      · obtain ⟨ip, sending⟩ : ∃ ip, _ = some ip := sent_address (step_sound st) now
        obtain ⟨rfl, fresh⟩ := moves_fresh (step_sound st) (held run) now
        exact fresh.mpr ((took run ip sending).trans sending.symm)
  · intro reach e r' os' st dest packet staIp sent
    obtain ⟨rfl, fresh⟩ := moves_fresh (step_sound st) (held reach) sent
    exact fresh

/-- The name `espcan-br.local`, asked for. -/
def sampleQuery : List UInt8 :=
  [0x12, 0x34, 0, 0, 0, 1, 0, 0, 0, 0, 0, 0] ++ 9 :: ascii "espcan-br" ++ 5 :: ascii "local" ++ [0, 0, 1, 0, 1]

/-- After another address is stored, the responder still answers with the old one. -/
theorem stale_address_sent :
    ¬ ∀ r os, machine.Reach r os →
      ∀ dest packet staIp, .sent dest packet staIp ∈ os → Fresh packet staIp := by
  intro fresh
  obtain ⟨r, os, reach, stale⟩ :=
    machine.run_exec (fun _ _ => True)
      [.wifi true, .monitor (some ⟨10, 0, 0, 5⟩), .check, .named true true, .sent true,
        .monitor (some ⟨10, 0, 0, 9⟩), .received sampleQuery (some ⟨10, 0, 0, 2⟩), .sent true]
      (fun _ os => os[1]? = (buildResponse sampleQuery ⟨10, 0, 0, 5⟩ (ascii "espcan-br")).map
        (.sent ⟨10, 0, 0, 2⟩ · (some ⟨10, 0, 0, 9⟩))) (by decide +kernel)
  obtain ⟨packet, built⟩ : ∃ packet, buildResponse sampleQuery ⟨10, 0, 0, 5⟩ (ascii "espcan-br") =
      some packet := Option.isSome_iff_exists.mp (by decide +kernel)
  rw [built] at stale
  obtain ⟨ip, holds, answers⟩ := fresh r os reach _ _ _ (List.mem_of_getElem? stale)
  cases holds
  have same := answers.unique (buildResponse_eq built)
  revert same
  decide

end EspcanBr.Mdns
