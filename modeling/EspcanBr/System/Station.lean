import EspcanBr.Http.Fields
import EspcanBr.Http.Saves
import EspcanBr.Mdns.Question
import EspcanBr.Mdns.Responder

/-!
# The station

What makes the device reachable: `main` chooses the mode from what is stored, `connection_task` holds the
Wi-Fi flag up while the station is connected, `sta_ip_monitor` stores its address, and the mDNS responder
announces the configured name, which the web server can change. In every run the flag is up exactly while the
station is connected, nothing is announced in configuration mode, and every packet that is sent is the
address record of a well-formed name (`station_announces`).
-/

namespace EspcanBr.Main
open Base Config

/-- Where `connection_task` is; in configuration mode it is not spawned. -/
inductive WifiPc where
  | absent
  | checking
  | connecting
  | waiting
  | backoff
  | returned
  deriving DecidableEq

/-- `connection_task`, with `WIFI_CONNECTED`. -/
structure Wifi where
  pc : WifiPc
  connected : Bool
  deriving DecidableEq

/-- What `connection_task` waits for: the state of the controller, the end of an attempt to connect, the
event of the disconnection, its timer. -/
inductive WifiEvent where
  | started (ok : Bool)
  | connected (ok : Bool)
  | disconnected
  | timer

/-- One event of `connection_task`. -/
def Wifi.step (w : Wifi) : WifiEvent → Option Wifi
  | .started ok => if w.pc = .checking then some { w with pc := if ok then .connecting else .returned } else none
  | .connected ok =>
    if w.pc = .connecting then some (if ok then ⟨.waiting, true⟩ else { w with pc := .backoff }) else none
  | .disconnected => if w.pc = .waiting then some ⟨.checking, false⟩ else none
  | .timer => if w.pc = .backoff then some { w with pc := .checking } else none

/-- The web server, `CONFIG_MODE`, `connection_task`, `STA_IP`, and the mDNS responder. -/
structure Station where
  power : Http.Power
  configMode : Bool
  wifi : Wifi
  staIp : Option Mdns.Ipv4Addr
  mdns : Mdns.Pc

inductive Event where
  | web (e : Http.Input)
  | wifi (e : WifiEvent)
  | monitor (current : Option Mdns.Ipv4Addr)
  | mdns (e : Mdns.Event)

inductive Obs where
  | web (o : Http.Obs)
  | mdns (o : Mdns.Obs)
  deriving DecidableEq

/-- `main` up to its loop: the mode, and the tasks it spawns if the device gets that far. -/
def main (flash : Flash) (readable : Kind → Bool) (power : Http.Power) : Station :=
  let configMode := Http.configMode flash readable
  let pc := match power with
    | .on _ => if configMode then WifiPc.absent else .checking
    | .off _ => .absent
  ⟨power, configMode, ⟨pc, false⟩, none, .checking⟩

/-- An event of the responder itself. -/
def own : Mdns.Event → Bool
  | .monitor _ | .wifi _ | .device _ => false
  | _ => true

/-- One event of the device. -/
def step (sha256 : List UInt8 → List UInt8) (st : Station) : Event → Option (Station × List Obs)
  | .web (.reset readable) =>
    (Http.step sha256 st.power (.reset readable)).map fun (power, os) =>
      (main st.power.flash readable power, os.map .web)
  | .web e => (Http.step sha256 st.power e).map fun (power, os) => ({ st with power := power }, os.map .web)
  | .wifi e =>
    match st.power with
    | .on _ => (st.wifi.step e).map fun wifi => ({ st with wifi := wifi }, [])
    | .off _ => none
  | .monitor current =>
    match st.power with
    | .on _ => some ({ st with staIp := current }, [])
    | .off _ => none
  | .mdns e =>
    match st.power with
    | .on d =>
      if own e then
        (Mdns.Responder.step ⟨⟨st.wifi.connected, st.staIp, d.device⟩, st.mdns⟩ e).map fun (r, os) =>
          ({ st with mdns := r.pc }, os.map .mdns)
      else none
    | .off _ => none

/-- The device from the moment it gets power. -/
def machine (sha256 : List UInt8 → List UInt8) (flash : Flash) : Machine Station Event Obs where
  init := ⟨.off flash, false, ⟨.absent, false⟩, none, .checking⟩
  step := step sha256

/-- A name of 1 to 32 letters, digits and hyphens. -/
structure HostName (name : List UInt8) : Prop where
  ne : name ≠ []
  short : name.length ≤ 32
  chars : name.all Http.isNameChar = true

/-- The name of a configuration is well-formed. -/
def NameOk (c : DeviceConfig) : Prop := ∃ name, c.nameStr = some name ∧ HostName name

/-- So is the one that is stored, if there is one. -/
def Named (flash : Flash) : Prop := ∀ c, loadDevice flash true = some c → NameOk c

/-- No write to flash breaks off. -/
def Unbroken (_ : Station) : Event → Bool
  | .web (.request ⟨.failed _ _, _⟩ _) => false
  | _ => true

/-- The packet announces a host with a well-formed name, at an address. -/
def Announces (packet : List UInt8) : Prop :=
  ∃ h ip host, HostName host ∧ Mdns.AnswersHost packet h ip host

/-- The responder has taken a well-formed name, and what it sends announces one. -/
def Hosted : Mdns.Pc → Prop
  | .checking | .naming _ | .returned => True
  | .sending _ host _ packet => HostName host ∧ Announces packet
  | .listening _ host | .sleeping _ host => HostName host

/-- A name that was set. -/
lemma nameOk_set (c : DeviceConfig) {name : List UInt8} (ne : name ≠ []) (chars : name.all Http.isNameChar = true)
    (baud : UInt32) : NameOk (c.set name baud) := by
  have pos := List.length_pos_of_ne_nil ne
  have len : (UInt8.ofNat (min name.length 32)).toNat = min name.length 32 := Http.length_byte (by decide)
  have used : UInt8.ofNat (min name.length 32) ≠ 0 := by
    intro zero
    rw [zero] at len
    have pos : 0 < min name.length 32 := Nat.lt_min.mpr ⟨pos, by decide⟩
    exact pos.ne len
  refine ⟨name.take 32, ?_, ?_, ?_, ?_⟩
  · simp only [DeviceConfig.nameStr, DeviceConfig.set, if_neg used, len]
    exact Http.slice_copyFrom _ _
  · intro nil
    rcases List.take_eq_nil_iff.mp nil with zero | nil
    · cases zero
    · exact ne nil
  · rw [List.length_take]
    exact Nat.min_le_left _ _
  · exact List.all_eq_true.mpr fun b mem => List.all_eq_true.mp chars b (List.mem_of_mem_take mem)

lemma nameOk_defaults : NameOk .defaults := nameOk_set _ (by decide +kernel) (by decide +kernel) _

/-- A boot loads a well-formed name or takes the default. -/
lemma boot_nameOk {flash : Flash} (named : Named flash) (readable : Kind → Bool) :
    NameOk (Http.boot flash readable).device := by
  have stored : (Http.boot flash readable).device =
      (loadDevice flash (readable .device)).getD .defaults := rfl
  rw [stored]
  cases readable .device with
  | false => exact nameOk_defaults
  | true =>
    cases loaded : loadDevice flash true with
    | none => exact nameOk_defaults
    | some c => exact named c loaded

/-- What a station keeps in memory and in flash. -/
def Keeps (d : Http.Device) : Prop := NameOk d.device ∧ Named d.flash

lemma saveDevice_keeps {io : Http.Io} {d : Http.Device} {body : List UInt8} (keeps : Keeps d)
    (whole : ∀ start left, io.flash ≠ .failed start left) : Keeps (Http.saveDevice io d body).1 := by
  rcases Http.saveDevice_eq io d body with ⟨-, same⟩ | ⟨⟨ne, chars⟩, saved⟩
  · rw [same]
    exact keeps
  · have ok := nameOk_set .defaults ne chars (Http.savedBaud body)
    refine ⟨?_, ?_⟩
    · rw [Http.saveDevice]
      simp only
      split
      · exact keeps.1
      · exact ok
    · cases flash : io.flash with
      | written =>
        intro c loaded
        rw [saved, flash, loadDevice_written ⟨_, _, _, ne, rfl⟩] at loaded
        rw [← Option.some.inj loaded]
        exact ok
      | noPartition =>
        rw [saved, flash]
        exact keeps.2
      | failed start left => exact absurd flash (whole start left)

/-- A request keeps the name, and the stored one, well-formed. -/
lemma handleRequest_keeps (sha256 : List UInt8 → List UInt8) {io : Http.Io} {d : Http.Device}
    (reads : List Http.Read) (keeps : Keeps d) (whole : ∀ start left, io.flash ≠ .failed start left) :
    Keeps (Http.handleRequest sha256 io d reads).device := by
  rcases Http.handleRequest_cases sha256 io d reads with ⟨-, same⟩ | ⟨h, body, -, eq⟩
  · rw [same]
    exact keeps
  · rw [eq]
    -- a handler with a slot of its own
    have spares : io.flash.Spares .device := by
      cases flash : io.flash with
      | failed start left => exact absurd flash (whole start left)
      | _ => trivial
    have apart : h.kind ≠ .device → Keeps (h.run sha256 io d body).1 := by
      intro ne
      have same : (h.run sha256 io d body).1.device = d.device := Http.run_config ne sha256 io d body
      have flash := Http.run_spared (fun here => ne here.1) spares sha256 d body
      refine ⟨?_, fun c loaded => keeps.2 c (flash.symm.trans loaded)⟩
      rw [same]
      exact keeps.1
    cases h with
    | wifi => exact apart (by decide)
    | device => exact saveDevice_keeps keeps whole
    | autoconnect => exact apart (by decide)
    | auth => exact apart (by decide)

/-- A name of 32 bytes is not cut. -/
lemma HostName.take {name : List UInt8} (ok : HostName name) : name.take Mdns.NAME_MAX = name :=
  List.take_of_length_le ok.short

lemma announces_announcement {ip : Mdns.Ipv4Addr} {host packet : List UInt8} (ok : HostName host)
    (built : Mdns.buildAnnouncement ip host = some packet) : Announces packet := by
  obtain ⟨r, built', answers⟩ := Mdns.build_answers ok.ne ok.short ⟨0, 0, 0, 0, 0, 0, 0⟩ ip
  cases built.symm.trans built'
  exact ⟨_, ip, host, ok, answers⟩

lemma announces_response {query : List UInt8} {ip : Mdns.Ipv4Addr} {host packet : List UInt8}
    (ok : HostName host) (built : Mdns.buildResponse query ip host = some packet) : Announces packet := by
  obtain ⟨h, q, rest, rfl, asked, asks⟩ := Mdns.buildResponse_inv built
  rw [Mdns.buildResponse_asks asked asks] at built
  obtain ⟨r, built', answers⟩ := Mdns.build_answers ok.ne ok.short h ip
  cases built.symm.trans built'
  exact ⟨h, ip, host, ok, answers⟩

lemma hosted_reply {ip dest : Mdns.Ipv4Addr} {host : List UInt8} {built : Option (List UInt8)}
    (ok : HostName host) (announces : ∀ packet, built = some packet → Announces packet) :
    Hosted (Mdns.Responder.reply ip host dest built) := by
  cases built with
  | none => exact ok
  | some packet => exact ⟨ok, announces packet rfl⟩

/-- A step of the responder keeps to a well-formed name. -/
lemma responder_hosted {r r' : Mdns.Responder} {e : Mdns.Event} {os : List Mdns.Obs} (mine : own e = true)
    (name : NameOk r.shared.device) (hosted : Hosted r.pc) (st : r.step e = some (r', os)) :
    Hosted r'.pc ∧ ∀ dest packet staIp, .sent dest packet staIp ∈ os → Announces packet := by
  have silent : ∀ dest packet staIp, Mdns.Obs.sent dest packet staIp ∈ [] → Announces packet := by
    intro dest packet staIp mem
    cases mem
  unfold Mdns.Responder.step at st
  split at st
  · cases mine
  · cases mine
  · cases mine
  · split at st
    · cases st
      exact ⟨trivial, silent⟩
    · cases st
      exact ⟨hosted, silent⟩
  · rename_i ip joined bound naming
    obtain ⟨host, known, eq⟩ := Option.map_eq_some_iff.mp st
    obtain ⟨host', known', ok⟩ := name
    cases known.symm.trans known'
    simp only [ok.take] at eq
    split at eq
    · cases eq
      exact ⟨trivial, silent⟩
    · split at eq
      · cases eq
        exact ⟨trivial, silent⟩
      · cases eq
        exact ⟨hosted_reply ok fun _ => announces_announcement ok, silent⟩
  · rename_i ip host dest packet ok sending
    rw [sending] at hosted
    obtain ⟨host, announces⟩ := hosted
    cases st
    refine ⟨host, ?_⟩
    cases ok with
    | true =>
      intro dest packet staIp mem
      cases List.mem_singleton.mp mem
      exact announces
    | false => exact silent
  · rename_i ip host query src listening
    rw [listening] at hosted
    split at st
    · cases st
    · split at st
      · cases st
        rw [listening]
        exact ⟨hosted, silent⟩
      · split at st
        · cases st
          rw [listening]
          exact ⟨hosted, silent⟩
        · cases st
          exact ⟨hosted_reply hosted fun _ => announces_response hosted, silent⟩
  · rename_i listening
    rw [listening] at hosted
    cases st
    exact ⟨hosted, silent⟩
  · rename_i sleeping
    rw [sleeping] at hosted
    cases st
    exact ⟨hosted, silent⟩
  · cases st

/-- The responder waits for the flag. -/
lemma responder_waits {r r' : Mdns.Responder} {e : Mdns.Event} {os : List Mdns.Obs} (mine : own e = true)
    (down : r.shared.wifiConnected = false) (checking : r.pc = .checking) (st : r.step e = some (r', os)) :
    r'.pc = .checking := by
  cases e with
  | monitor | wifi | device => cases mine
  | check =>
    simp only [Mdns.Responder.step, checking, down, Bool.false_eq_true, if_false, Option.some.injEq,
      Prod.mk.injEq] at st
    rw [← st.1]
    exact checking
  | named | sent | received | failed | timer =>
    simp only [Mdns.Responder.step, checking] at st
    cases st

/-- `WIFI_CONNECTED` is set where `connection_task` waits for the disconnection. -/
def Flagged (w : Wifi) : Prop := w.connected = true ↔ w.pc = .waiting

lemma Wifi.step_flagged {w w' : Wifi} {e : WifiEvent} (flagged : Flagged w) (st : w.step e = some w') :
    Flagged w' ∧ w.pc ≠ .absent := by
  -- outside of `waiting` the flag is down
  have down : ∀ {pc}, w.pc ≠ .waiting → pc ≠ .waiting → Flagged { w with pc := pc } := by
    intro pc was ne
    exact ⟨fun up => absurd (flagged.mp up) was, fun eq => absurd eq ne⟩
  cases e with
  | started ok =>
    simp only [Wifi.step, Option.ite_none_right_eq_some, Option.some.injEq] at st
    obtain ⟨checking, rfl⟩ := st
    rw [checking] at down ⊢
    refine ⟨down (by decide) ?_, by decide⟩
    cases ok <;> decide
  | connected ok =>
    simp only [Wifi.step, Option.ite_none_right_eq_some, Option.some.injEq] at st
    obtain ⟨connecting, rfl⟩ := st
    rw [connecting] at down ⊢
    refine ⟨?_, by decide⟩
    cases ok with
    | true => exact ⟨fun _ => rfl, fun _ => rfl⟩
    | false => exact down (by decide) (by decide)
  | disconnected =>
    simp only [Wifi.step, Option.ite_none_right_eq_some, Option.some.injEq] at st
    obtain ⟨waiting, rfl⟩ := st
    rw [waiting]
    refine ⟨⟨fun up => ?_, fun eq => ?_⟩, by decide⟩
    · cases up
    · cases eq
  | timer =>
    simp only [Wifi.step, Option.ite_none_right_eq_some, Option.some.injEq] at st
    obtain ⟨backoff, rfl⟩ := st
    rw [backoff] at down ⊢
    exact ⟨down (by decide) (by decide), by decide⟩

/-- What holds along a run. In configuration mode `connection_task` is not there, and the responder has not
got past its check. -/
structure Invariant (st : Station) (os : List Obs) : Prop where
  flagged : Flagged st.wifi
  silent : st.configMode = true → st.wifi.pc = .absent ∧ st.mdns = .checking
  stored : Named st.power.flash
  named : ∀ d, st.power = .on d → NameOk d.device
  hosted : Hosted st.mdns
  sent : ∀ dest packet staIp, .mdns (.sent dest packet staIp) ∈ os → Announces packet

/-- What the other tasks do leaves the trace without a packet of the responder. -/
lemma sent_web {os : List Obs} (sent : ∀ dest packet staIp, .mdns (.sent dest packet staIp) ∈ os → Announces packet)
    (os' : List Http.Obs) :
    ∀ dest packet staIp, .mdns (.sent dest packet staIp) ∈ os ++ os'.map .web → Announces packet := by
  intro dest packet staIp mem
  rcases List.mem_append.mp mem with old | new
  · exact sent dest packet staIp old
  · obtain ⟨o, -, eq⟩ := List.mem_map.mp new
    cases eq

/-- A reset starts over. -/
lemma invariant_reset {sha256 : List UInt8 → List UInt8} {st st' : Station} {os os' : List Obs}
    {readable : Kind → Bool} (inv : Invariant st os)
    (h : step sha256 st (.web (.reset readable)) = some (st', os')) : Invariant st' (os ++ os') := by
  simp only [step, Http.step, Option.map_some, Option.some.injEq, Prod.mk.injEq] at h
  obtain ⟨rfl, rfl⟩ := h
  refine ⟨?_, fun mode => ⟨?_, rfl⟩, ?_, fun d on => ?_, trivial, sent_web inv.sent [_]⟩
  · constructor
    · intro up
      cases up
    · simp only [main]
      split
      · split
        · intro eq
          cases eq
        · intro eq
          cases eq
      · intro eq
        cases eq
  · simp only [main] at mode ⊢
    split
    · exact if_pos mode
    · rfl
  · simp only [main]
    split
    · exact inv.stored
    · exact inv.stored
  · simp only [main] at on
    split at on
    · cases on
      exact boot_nameOk inv.stored readable
    · cases on

/-- A request, or the button. -/
lemma invariant_web {sha256 : List UInt8 → List UInt8} {st st' : Station} {os os' : List Obs}
    {e : Http.Input} (inv : Invariant st os) (whole : Unbroken st (.web e) = true)
    (h : step sha256 st (.web e) = some (st', os')) : Invariant st' (os ++ os') := by
  -- memory and flash keep a well-formed name
  have keep : ∀ {d d' : Http.Device} {os' : List Http.Obs}, st.power = .on d → (Keeps d → Keeps d') →
      Invariant { st with power := .on d' } (os ++ os'.map .web) := by
    intro d d' os' on keeps
    have stored := inv.stored
    rw [on] at stored
    obtain ⟨name, stored'⟩ := keeps ⟨inv.named d on, stored⟩
    refine ⟨inv.flagged, inv.silent, stored', fun d'' eq => ?_, inv.hosted, sent_web inv.sent os'⟩
    cases eq
    exact name
  cases e with
  | reset readable => exact invariant_reset inv h
  | request io reads =>
    obtain ⟨⟨p, os''⟩, st2, eq⟩ := Option.map_eq_some_iff.mp h
    cases eq
    rcases Http.step_cases st2 with ⟨_, eq, -⟩ | ⟨d, _, _, on, eq, rfl, rfl⟩ | ⟨_, _, _, eq, -⟩
    · cases eq
    · cases eq
      refine keep on fun keeps => handleRequest_keeps sha256 reads keeps ?_
      intro start left failed
      obtain ⟨flash, random⟩ := io
      cases failed
      cases whole
    · cases eq
  | gpio0 held =>
    obtain ⟨⟨p, os''⟩, st2, eq⟩ := Option.map_eq_some_iff.mp h
    cases eq
    rcases Http.step_cases st2 with ⟨_, eq, -⟩ | ⟨_, _, _, _, eq, -⟩ | ⟨d, _, on, eq, rfl, rfl⟩
    · cases eq
    · cases eq
    · exact keep on id

/-- Every step keeps the invariant. -/
lemma invariant_step {sha256 : List UInt8 → List UInt8} {st st' : Station} {os os' : List Obs}
    {e : Event} (inv : Invariant st os) (whole : Unbroken st e = true)
    (h : step sha256 st e = some (st', os')) : Invariant st' (os ++ os') := by
  cases e with
  | web e => exact invariant_web inv whole h
  | wifi e =>
    simp only [step] at h
    split at h
    · obtain ⟨wifi, next, eq⟩ := Option.map_eq_some_iff.mp h
      cases eq
      obtain ⟨flagged, spawned⟩ := Wifi.step_flagged inv.flagged next
      refine ⟨flagged, fun mode => absurd (inv.silent mode).1 spawned, inv.stored, inv.named, inv.hosted, ?_⟩
      exact sent_web inv.sent []
    · cases h
  | monitor current =>
    simp only [step] at h
    split at h
    · cases h
      exact ⟨inv.flagged, inv.silent, inv.stored, inv.named, inv.hosted, sent_web inv.sent []⟩
    · cases h
  | mdns e =>
    simp only [step] at h
    split at h
    · rename_i d on
      split at h
      · rename_i mine
        obtain ⟨⟨r, os''⟩, next, eq⟩ := Option.map_eq_some_iff.mp h
        cases eq
        obtain ⟨hosted, announces⟩ := responder_hosted mine (inv.named d on) inv.hosted next
        refine ⟨inv.flagged, fun mode => ?_, inv.stored, inv.named, hosted, ?_⟩
        · obtain ⟨absent, checking⟩ := inv.silent mode
          refine ⟨absent, responder_waits mine ?_ checking next⟩
          cases up : st.wifi.connected with
          | false => rfl
          | true =>
            have waiting := inv.flagged.mp up
            rw [absent] at waiting
            cases waiting
        · intro dest packet staIp mem
          rcases List.mem_append.mp mem with old | new
          · exact inv.sent dest packet staIp old
          · obtain ⟨o, mem, eq⟩ := List.mem_map.mp new
            cases eq
            exact announces dest packet staIp mem
      · cases h
    · cases h

/-- The station. From a flash whose name, if it has one, is well-formed, in every run in which no write to flash
breaks off: `WIFI_CONNECTED` is set exactly while `connection_task` waits for the disconnection; in
configuration mode that task is not there and the responder does not get past its check; the configuration in
memory has a well-formed name; and every packet that is sent is the address record of such a name. -/
theorem station_announces (sha256 : List UInt8 → List UInt8) {flash : Flash} (named : Named flash)
    {st : Station} {os : List Obs} (run : (machine sha256 flash).Run (Unbroken · ·) st os) :
    (st.wifi.connected = true ↔ st.wifi.pc = .waiting) ∧
    (st.configMode = true → st.wifi.pc = .absent ∧ st.mdns = .checking) ∧
    (∀ d, st.power = .on d → NameOk d.device) ∧
    ∀ dest packet staIp, .mdns (.sent dest packet staIp) ∈ os → Announces packet := by
  have inv : Invariant st os := by
    refine run.invariant (P := Invariant) ?_ ?_
    · refine ⟨⟨fun up => ?_, fun eq => ?_⟩, fun mode => ?_, named, fun d on => ?_, trivial, ?_⟩
      · cases up
      · cases eq
      · cases mode
      · cases on
      · intro dest packet staIp mem
        cases mem
    · intro st os st' os' e _ before whole h
      exact invariant_step before whole h
  exact ⟨inv.flagged, inv.silent, inv.named, inv.sent⟩

/-- A network that a client sets on a new device. -/
def joinRequest : List Http.Read :=
  match ascii "POST /api/wifi HTTP/1.1\r\nContent-Length: 20\r\n\r\nssid=bus&password=pw" with
  | first :: rest => [.data first rest, .eof]
  | [] => [.eof]

/-- A new device joins the network and announces itself. -/
theorem station_announces_new : ∃ st os, (machine id fun _ => 0xFF).Run (Unbroken · ·) st os ∧
    (∃ dest packet staIp, .mdns (.sent dest packet staIp) ∈ os) ∧
    ∀ dest packet staIp, .mdns (.sent dest packet staIp) ∈ os → Announces packet := by
  have blank : Named fun _ => 0xFF := by
    intro c loaded
    have none : loadDevice (fun _ => 0xFF) true = none := by decide +kernel
    rw [none] at loaded
    cases loaded
  obtain ⟨st, os, run, sent⟩ := (machine id fun _ => 0xFF).run_exec (Unbroken · ·)
    [.web (.reset fun _ => true), .web (.request ⟨.written, fun _ => 0⟩ joinRequest),
      .web (.reset fun _ => true), .wifi (.started true), .wifi (.connected true),
      .monitor (some ⟨10, 0, 0, 1⟩), .mdns .check, .mdns (.named true true), .mdns (.sent true)]
    (fun _ os => os.any (fun | .mdns _ => true | .web _ => false) = true) (by decide +kernel)
  obtain ⟨-, -, -, announces⟩ := station_announces id blank run
  refine ⟨st, os, run, ?_, announces⟩
  obtain ⟨o, mem, mine⟩ := List.any_eq_true.mp sent
  cases o with
  | web => cases mine
  | mdns o =>
    obtain ⟨dest, packet, staIp⟩ := o
    exact ⟨dest, packet, staIp, mem⟩

end EspcanBr.Main
