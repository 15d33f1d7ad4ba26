import EspcanBr.Http.Accessors
import EspcanBr.Http.Pages
import EspcanBr.Http.Servers

/-!
# The password of the network

The password of the Wi-Fi is stored, and never shown. Two devices that differ in nothing but this
password (`Alike`) take every step together and give every client the same answers, whatever requests,
resets and buttons come, for as long as they run (`password_undisclosed`). `main` hands the password to
the radio, which is not part of this. Before that it panics where the stored length does not fit the
buffer, so the lengths have to fit where they differ.
-/

namespace EspcanBr.Http
open Base Config

/-- The cells of the password and of its length. -/
def PasswordCell (i : ℕ) : Prop := WIFI_CONFIG_OFFSET + 37 ≤ i ∧ i < WIFI_CONFIG_OFFSET + 102

/-- Lengths of passwords that are the same, or fit the buffer. -/
def AlikeLength (n n' : UInt8) : Prop := n = n' ∨ n ≤ 64 ∧ n' ≤ 64

/-- Flash contents that differ in the password alone. -/
structure AlikeFlash (f g : Flash) : Prop where
  same : ∀ i, ¬ PasswordCell i → f i = g i
  length : AlikeLength (f (WIFI_CONFIG_OFFSET + 101)) (g (WIFI_CONFIG_OFFSET + 101))

/-- Configurations that differ in the password alone. -/
structure AlikeWifi (c c' : WifiConfig) : Prop where
  magic : c.magic = c'.magic
  ssid : c.ssid = c'.ssid
  ssidLen : c.ssidLen = c'.ssidLen
  passwordLen : AlikeLength c.passwordLen c'.passwordLen

/-- Devices that differ in the password alone. -/
structure Alike (d d' : Device) : Prop where
  wifi : AlikeWifi d.wifi d'.wifi
  device : d.device = d'.device
  autoconnect : d.autoconnect = d'.autoconnect
  auth : d.auth = d'.auth
  flash : AlikeFlash d.flash d'.flash
  gpio0Held : d.gpio0Held = d'.gpio0Held

/-- Both are off, or both are on. -/
inductive AlikePower : Power → Power → Prop where
  | off {f g} :
    AlikeFlash f g →
    AlikePower (.off f) (.off g)
  | on {d d'} :
    Alike d d' →
    AlikePower (.on d) (.on d')

/-- The servers wait at the same places. -/
structure AlikeServers {ι : Type*} (s s' : Servers ι) : Prop where
  power : AlikePower s.power s'.power
  server : s.server = s'.server

lemma AlikeLength.symm {n n' : UInt8} (alike : AlikeLength n n') : AlikeLength n' n := by
  rcases alike with same | ⟨le, le'⟩
  · exact .inl same.symm
  · exact .inr ⟨le', le⟩

lemma AlikeWifi.refl (c : WifiConfig) : AlikeWifi c c := ⟨rfl, rfl, rfl, .inl rfl⟩

lemma AlikeWifi.ssidStr {c c' : WifiConfig} (alike : AlikeWifi c c') : c.ssidStr = c'.ssidStr := by
  rw [WifiConfig.ssidStr, WifiConfig.ssidStr, alike.ssid, alike.ssidLen]

/-- Both passwords are returned, or neither. -/
lemma AlikeWifi.passwordStr {c c' : WifiConfig} (alike : AlikeWifi c c') :
    c.passwordStr.isSome = true ↔ c'.passwordStr.isSome = true := by
  rw [WifiConfig.passwordStr, WifiConfig.passwordStr, isSome_slice, isSome_slice]
  rcases alike.passwordLen with same | ⟨le, le'⟩
  · rw [same]
  · exact ⟨fun _ => le', fun _ => le⟩

lemma AlikePower.flash {p p' : Power} (alike : AlikePower p p') : AlikeFlash p.flash p'.flash := by
  cases alike with
  | off flash => exact flash
  | on alike => exact alike.flash

/-- A range without cells of the password. -/
lemma AlikeFlash.readAt {f g : Flash} (alike : AlikeFlash f g) {offset size : ℕ}
    (apart : offset + size ≤ WIFI_CONFIG_OFFSET + 37 ∨ WIFI_CONFIG_OFFSET + 102 ≤ offset) :
    readAt f offset size = readAt g offset size := by
  apply readAt_congr
  intro i ge lt
  apply alike.same
  rintro ⟨ge', lt'⟩
  omega

/-- A save writes the same cells to both. -/
lemma AlikeFlash.saveAt {f g : Flash} (alike : AlikeFlash f g) (offset size : ℕ) (io : FlashIo)
    (bytes : List UInt8) : AlikeFlash (saveAt offset size f io bytes).1 (saveAt offset size g io bytes).1 ∧
      (saveAt offset size f io bytes).2 = (saveAt offset size g io bytes).2 := by
  have write : ∀ start cells, AlikeFlash (f.write start cells) (g.write start cells) := by
    intro start cells
    refine ⟨fun i cell => ?_, ?_⟩
    · rw [Flash.write, Flash.write, alike.same i cell]
    · simp only [Flash.write]
      split
      · cases (cells)[WIFI_CONFIG_OFFSET + 101 - start]? with
        | none => exact alike.length
        | some b => exact .inl rfl
      · exact alike.length
  cases io with
  | written => exact ⟨write _ _, rfl⟩
  | noPartition => exact ⟨alike, rfl⟩
  | failed start left => exact ⟨write _ _, rfl⟩

/-- The configurations of the other kinds load the same. -/
lemma AlikeFlash.load {f g : Flash} (alike : AlikeFlash f g) {k : Kind} (ne : k ≠ .wifi) :
    loadKind k f = loadKind k g := by
  rw [loadKind_eq, loadKind_eq]
  apply Slots.load_outside
  rintro i ⟨ge, -⟩
  apply alike.same
  rintro ⟨-, lt⟩
  have behind : WIFI_CONFIG_OFFSET + 102 ≤ slots.offset k := by
    cases k with
    | wifi => exact absurd rfl ne
    | device => decide
    | autoconnect => decide
    | auth => decide
  omega

/-- So does the configuration of the Wi-Fi, but for the password. -/
lemma AlikeFlash.wifiAt {f g : Flash} (alike : AlikeFlash f g) : AlikeWifi (wifiAt f) (wifiAt g) where
  magic := congrArg u32 (alike.readAt (.inl (by decide)))
  ssid := congrArg (Buffer.of 32) (alike.readAt (.inl (by decide)))
  ssidLen := alike.same _ (by rintro ⟨ge, -⟩; revert ge; decide)
  passwordLen := alike.length

/-- It is loaded of both, or of neither. -/
lemma AlikeFlash.load_wifi {f g : Flash} (alike : AlikeFlash f g) (yes : Bool) :
    (Config.load f yes = none ∧ Config.load g yes = none) ∨
      ∃ c c', Config.load f yes = some c ∧ Config.load g yes = some c' ∧ AlikeWifi c c' := by
  cases yes with
  | false => exact .inl ⟨rfl, rfl⟩
  | true =>
    have here := alike.wifiAt
    have valid : (Http.wifiAt f).isValid = (Http.wifiAt g).isValid := by
      rw [WifiConfig.isValid, WifiConfig.isValid, here.magic, here.ssidLen]
    rw [show Config.load f true = _ from Http.load_wifi f, show Config.load g true = _ from Http.load_wifi g,
      valid]
    split
    · exact .inr ⟨_, _, rfl, rfl, here⟩
    · exact .inl ⟨rfl, rfl⟩

lemma AlikeFlash.boot {f g : Flash} (alike : AlikeFlash f g) (readable : Kind → Bool) :
    Alike (boot f readable) (boot g readable) where
  wifi := by
    have loaded : ∀ yes, AlikeWifi ((Config.load f yes).getD .new) ((Config.load g yes).getD .new) := by
      intro yes
      rcases alike.load_wifi yes with ⟨none, none'⟩ | ⟨c, c', some, some', here⟩
      · rw [none, none']
        exact .refl _
      · rw [some, some']
        exact here
    exact loaded _
  device := by
    have same : loadDevice f (readable .device) = loadDevice g (readable .device) := by
      cases readable .device with
      | false => rw [loadDevice, loadDevice, if_neg Bool.false_ne_true, if_neg Bool.false_ne_true]
      | true => exact alike.load (k := .device) (by decide)
    exact congrArg (Option.getD · DeviceConfig.defaults) same
  autoconnect := by
    have same : loadAutoconnect f (readable .autoconnect) = loadAutoconnect g (readable .autoconnect) := by
      cases readable .autoconnect with
      | false => rw [loadAutoconnect, loadAutoconnect, if_neg Bool.false_ne_true, if_neg Bool.false_ne_true]
      | true => exact alike.load (k := .autoconnect) (by decide)
    exact congrArg (Option.getD · AutoConnectConfig.new) same
  auth := by
    have same : loadAuth f (readable .auth) = loadAuth g (readable .auth) := by
      cases readable .auth with
      | false => rw [loadAuth, loadAuth, if_neg Bool.false_ne_true, if_neg Bool.false_ne_true]
      | true => exact alike.load (k := .auth) (by decide)
    exact congrArg (Option.getD · AuthConfig.new) same
  flash := alike
  gpio0Held := rfl

/-- Both boot, or neither. -/
lemma AlikeFlash.starts {f g : Flash} (alike : AlikeFlash f g) (readable : Kind → Bool) :
    starts f readable = starts g readable := by
  have up := alike.boot readable
  have mode : configMode f readable = configMode g readable := by
    rw [Bool.eq_iff_iff, configMode_iff, configMode_iff]
    rcases alike.load_wifi (readable .wifi) with ⟨none, none'⟩ | ⟨c, c', some, some', -⟩
    · rw [none, none']
    · simp [some, some']
  have names : (modeConfig f readable).isSome = (modeConfig g readable).isSome := by
    rw [Bool.eq_iff_iff, modeConfig_isSome, modeConfig_isSome, mode, up.device, up.wifi.ssidStr,
      up.wifi.passwordStr]
  rw [Http.starts, Http.starts, up.device, names]

/-- A handler gives both the same answer, and leaves both alike. -/
lemma Alike.run {d d' : Device} (alike : Alike d d') (sha256 : List UInt8 → List UInt8) (h : Handler)
    (io : Io) (body : List UInt8) : Alike (h.run sha256 io d body).1 (h.run sha256 io d' body).1 ∧
      (h.run sha256 io d body).2 = (h.run sha256 io d' body).2 := by
  cases h with
  | wifi =>
    simp only [Handler.run, saveWifi]
    split
    · exact ⟨alike, rfl⟩
    · obtain ⟨flash, saved⟩ := alike.flash.saveAt WIFI_CONFIG_OFFSET 128 io.flash
        (WifiConfig.new.setCredentials (field 32 body (ascii "ssid")) (field 64 body (ascii "password"))).asBytes
      exact ⟨{ alike with wifi := .refl _, flash := flash }, by rw [save, save, saved]⟩
  | device =>
    simp only [Handler.run, Http.saveDevice]
    split
    · exact ⟨alike, rfl⟩
    · generalize DeviceConfig.defaults.set _ _ = cfg
      obtain ⟨flash, saved⟩ := alike.flash.saveAt DEVICE_CONFIG_OFFSET 64 io.flash cfg.asBytes
      exact ⟨{ alike with device := rfl, flash := flash }, by rw [Config.saveDevice, Config.saveDevice, saved]⟩
  | autoconnect =>
    simp only [Handler.run, Http.saveAutoconnect]
    generalize AutoConnectConfig.new.set _ _ = cfg
    obtain ⟨flash, saved⟩ := alike.flash.saveAt AUTOCONN_CONFIG_OFFSET 384 io.flash cfg.asBytes
    exact ⟨{ alike with autoconnect := rfl, flash := flash },
      by rw [Config.saveAutoconnect, Config.saveAutoconnect, saved]⟩
  | auth =>
    simp only [Handler.run, Http.saveAuth]
    split
    · exact ⟨alike, rfl⟩
    · generalize AuthConfig.new.set _ _ _ _ = cfg
      obtain ⟨flash, saved⟩ := alike.flash.saveAt AUTH_CONFIG_OFFSET 128 io.flash cfg.asBytes
      exact ⟨{ alike with auth := rfl, flash := flash }, by rw [Config.saveAuth, Config.saveAuth, saved]⟩

lemma Alike.respond {d d' : Device} (alike : Alike d d') (sha256 : List UInt8 → List UInt8) (io : Io)
    (request : List UInt8) : Alike (respond sha256 io d request).device (respond sha256 io d' request).device ∧
      (respond sha256 io d request).outcome = (respond sha256 io d' request).outcome := by
  rw [Http.respond, Http.respond, alike.gpio0Held, alike.auth]
  split
  · exact ⟨alike, rfl⟩
  · exact ⟨alike, rfl⟩
  · simp only
    split
    · exact ⟨alike, rfl⟩
    · rename_i h _
      obtain ⟨device, outcome⟩ := alike.run sha256 h io (bodyOf request)
      exact ⟨device, congrArg some outcome⟩

/-- Both show the same. -/
lemma Alike.view {d d' : Device} (alike : Alike d d') : d.view = d'.view := by
  rw [Device.view, Device.view, alike.wifi.ssidStr, alike.device, alike.autoconnect, alike.auth]

lemma Alike.answer {d d' : Device} (alike : Alike d d') (r : Response) : d.answer r = d'.answer r := by
  cases r with
  | text bytes => rfl
  | indexPage => rw [Device.answer, Device.answer, alike.view]
  | statusJson => rw [Device.answer, Device.answer, alike.wifi.ssidStr]

section Step
variable {ι : Type*} [DecidableEq ι] {sha256 : List UInt8 → List UInt8} {s s' : Servers ι} {d d' : Device}

/-- The results of two steps: the same is seen of both, and they are alike. -/
def SameSteps (r r' : Servers ι × List (ServersObs ι)) : Prop := r.2 = r'.2 ∧ AlikeServers r.1 r'.1

omit [DecidableEq ι] in
lemma alike_stop {f g : Flash} (alike : AlikeFlash f g) (os : List (ServersObs ι)) :
    SameSteps (Servers.stop f, os) (Servers.stop g, os) := ⟨rfl, .off alike, rfl⟩

lemma AlikeServers.goto (alike : AlikeServers s s') (i : ι) (pc : ServerPc) (os : List (ServersObs ι)) :
    SameSteps (s.goto i pc, os) (s'.goto i pc, os) := by
  refine ⟨rfl, alike.power, ?_⟩
  rw [Servers.goto, Servers.goto, alike.server]

lemma handle_alike (server : s.server = s'.server) (alike : Alike d d') (io : Io) (i : ι)
    (request : List UInt8) :
    SameSteps (Servers.handle sha256 io s d i request) (Servers.handle sha256 io s' d' i request) := by
  obtain ⟨device, outcome⟩ := alike.respond sha256 io request
  unfold Servers.handle
  generalize Http.respond sha256 io d request = h at device outcome
  generalize Http.respond sha256 io d' request = h' at device outcome
  obtain ⟨d1, ran, outcome1⟩ := h
  obtain ⟨d1', ran', outcome1'⟩ := h'
  cases outcome
  have here : AlikeServers ⟨.on d1, s.server⟩ ⟨.on d1', s'.server⟩ := ⟨.on device, server⟩
  cases outcome1 with
  | none => exact alike_stop device.flash _
  | some outcome =>
    cases outcome with
    | reset => exact here.goto i _ _
    | response r =>
      have same := device.answer r
      simp only at same ⊢
      rw [same]
      cases d1'.answer r with
      | none => exact alike_stop device.flash _
      | some a => exact here.goto i _ _

/-- Both servers can do the same. -/
def SameOption (r r' : Option (Servers ι × List (ServersObs ι))) : Prop :=
  (r = none ∧ r' = none) ∨ ∃ a a', r = some a ∧ r' = some a' ∧ SameSteps a a'

omit [DecidableEq ι] in
lemma same_some {a a' : Servers ι × List (ServersObs ι)} (same : SameSteps a a') :
    SameOption (some a) (some a') := .inr ⟨a, a', rfl, rfl, same⟩

lemma serve_alike (servers : AlikeServers s s') (alike : Alike d d') (i : ι) (e : ServerEvent) :
    SameOption (s.serve sha256 d i e) (s'.serve sha256 d' i e) := by
  unfold Servers.serve
  rw [← servers.server]
  split
  · split
    · exact same_some (servers.goto i _ _)
    · exact same_some (servers.goto i _ _)
  · exact same_some (servers.goto i _ _)
  · rename_i r io read _
    cases read with
    | eof =>
      simp only
      split
      · exact same_some (servers.goto i _ _)
      · exact same_some (handle_alike servers.server alike io i _)
    | error => exact same_some (servers.goto i _ _)
    | data first rest =>
      simp only
      split
      · exact same_some (handle_alike servers.server alike io i _)
      · exact same_some (servers.goto i _ _)
  · exact same_some (alike_stop alike.flash _)
  · exact same_some (servers.goto i _ _)
  · exact same_some (servers.goto i _ _)
  · exact .inl ⟨rfl, rfl⟩

lemma step_alike (alike : AlikeServers s s') (e : ServersInput ι) :
    SameOption (s.step sha256 e) (s'.step sha256 e) := by
  cases e with
  | reset readable =>
    have up := alike.power.flash.boot readable
    simp only [Servers.step]
    rw [← up.device, ← alike.power.flash.starts readable]
    split
    · exact same_some ⟨rfl, .on up, rfl⟩
    · exact same_some (alike_stop alike.power.flash _)
  | server i e =>
    obtain ⟨power, server⟩ := s
    obtain ⟨power', server'⟩ := s'
    cases alike.power with
    | off flash => exact .inl ⟨rfl, rfl⟩
    | on devices => exact serve_alike alike devices i e
  | gpio0 held =>
    obtain ⟨power, server⟩ := s
    obtain ⟨power', server'⟩ := s'
    cases alike.power with
    | off flash => exact .inl ⟨rfl, rfl⟩
    | on devices => exact same_some ⟨rfl, .on { devices with gpio0Held := rfl }, alike.server⟩

/-- Two devices that differ in the password go along together. -/
lemma servers_lockstep (f g : Flash) :
    (servers ι sha256 f).Lockstep (servers ι sha256 g) AlikeServers where
  step := by
    intro s s' e alike
    have same : SameOption (s.step sha256 e) (s'.step sha256 e) := step_alike alike e
    rcases same with none | ⟨⟨t, os⟩, ⟨t', _⟩, st, st', rfl, rel⟩
    · exact .inl none
    · exact .inr ⟨t, t', os, st, st', rel⟩

end Step

/-- The texts of alike devices are the same. -/
lemma Alike.reads {d d' : Device} (alike : Alike d d') (t : Strings) : Reads d t ↔ Reads d' t := by
  have one : ∀ {d d' : Device}, Alike d d' → Reads d t → Reads d' t := by
    intro d d' alike reads
    refine ⟨?_, ?_, ?_, ?_⟩
    · exact alike.wifi.ssidStr ▸ reads.ssid
    · exact alike.device ▸ reads.name
    · exact alike.autoconnect ▸ reads.url
    · exact alike.auth ▸ reads.user
  refine ⟨one alike, one ?_⟩
  obtain ⟨⟨magic, ssid, len, pass⟩, device, auto, auth, ⟨flash, length⟩, held⟩ := alike
  exact ⟨⟨magic.symm, ssid.symm, len.symm, pass.symm⟩, device.symm, auto.symm, auth.symm,
    ⟨fun i cell => (flash i cell).symm, length.symm⟩, held.symm⟩

/-- The password is not disclosed. Two devices whose flash differs in the password alone, with lengths that fit
the buffer where they differ, stay alike: for every number of servers and every sequence of resets,
connections, reads, writes and buttons, an input is possible for both or for neither, and the same is seen of
both, every answer included. What is seen of a page determines it: for alike devices the pages are the same,
whatever the other statics are. -/
theorem password_undisclosed (ι : Type*) [DecidableEq ι] (sha256 : List UInt8 → List UInt8) :
    (∀ f g, AlikeFlash f g → ∀ es,
      ((servers ι sha256 f).exec (fun _ _ => True) (Servers.stop f) es = none ∧
        (servers ι sha256 g).exec (fun _ _ => True) (Servers.stop g) es = none) ∨
      ∃ s s' tr, (servers ι sha256 f).exec (fun _ _ => True) (Servers.stop f) es = some (s, tr) ∧
        (servers ι sha256 g).exec (fun _ _ => True) (Servers.stop g) es = some (s', tr) ∧
        AlikeServers s s') ∧
    ∀ d d', Alike d d' → d.view = d'.view ∧ ∀ live t, (Reads d t ↔ Reads d' t) ∧
      indexPage live d t = indexPage live d' t := by
  refine ⟨fun f g alike es => ?_, fun d d' alike => ⟨alike.view, fun live t => ⟨alike.reads t, ?_⟩⟩⟩
  · have start : AlikeServers (Servers.stop f : Servers ι) (Servers.stop g) := ⟨.off alike, rfl⟩
    exact (servers_lockstep f g).exec es start
  · have values : pageValues live d t = pageValues live d' t := by
      rw [pageValues, pageValues, alike.device, alike.autoconnect]
    have login : loginValues d t = loginValues d' t := by
      rw [loginValues, loginValues, alike.auth]
    unfold indexPage indexBody
    rw [values, login]

end EspcanBr.Http
