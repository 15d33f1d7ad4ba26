import EspcanBr.Base.Machine
import EspcanBr.Http.Handlers

/-!
# Requests and reboots

The web server over the life of the device: `main` of `src/main.rs` loads the configurations, opens the
UART and sets up the Wi-Fi, requests change them, and a reset starts over from flash. A configuration that
was saved for the device sets the baud rate of every later boot; `boots_accepted` says which ones the driver
takes.
-/

namespace EspcanBr.Http
open Base Config

/-- The beginning of `main`: the statics after the configurations were loaded, each of which is
readable or not. -/
def boot (flash : Flash) (readable : Kind → Bool) : Device where
  wifi := (load flash (readable .wifi)).getD .new
  device := (loadDevice flash (readable .device)).getD .defaults
  autoconnect := (loadAutoconnect flash (readable .autoconnect)).getD .new
  auth := (loadAuth flash (readable .auth)).getD .new
  flash := flash
  gpio0Held := false

/-- `CONFIG_MODE`: there is no configuration of the Wi-Fi. -/
def configMode (flash : Flash) (readable : Kind → Bool) : Bool :=
  !(((load flash (readable .wifi)).map WifiConfig.isValid).getD false)

/-- What `main` sets the Wi-Fi to. -/
inductive ModeConfig where
  | accessPoint (ssid : List UInt8)
  | station (ssid password : List UInt8)
  deriving DecidableEq

/-- The set-up of the Wi-Fi; `none` where an accessor panics. -/
def modeConfig (flash : Flash) (readable : Kind → Bool) : Option ModeConfig :=
  let d := boot flash readable
  if configMode flash readable then d.device.nameStr.map .accessPoint
  else do
    let ssid ← d.wifi.ssidStr
    let password ← d.wifi.passwordStr
    some (.station ssid password)

/-- The highest baud rate of the UART. -/
def MAX_BAUD : ℕ := 5000000

/-- `Uart::new` accepts the baud rate. -/
def uartAccepts (baud : UInt32) : Bool := 1 ≤ baud.toNat ∧ baud.toNat ≤ MAX_BAUD

/-- `main` gets as far as its tasks: its other calls of drivers do not fail. -/
def starts (flash : Flash) (readable : Kind → Bool) : Bool :=
  uartAccepts (boot flash readable).device.baudRate && (modeConfig flash readable).isSome

/-- The device is off, or `main` panicked before its tasks; or it is up. -/
inductive Power where
  | off (flash : Flash)
  | on (d : Device)

def Power.flash : Power → Flash
  | .off flash => flash
  | .on d => d.flash

/-- A reset, a connection to the web server, the button pressed or let go. -/
inductive Input where
  | reset (readable : Kind → Bool)
  | request (io : Io) (reads : List Read)
  | gpio0 (held : Bool)

/-- The baud rate that `main` passes to `Uart::new`. -/
inductive Obs where
  | uartNew (baud : UInt32)
  deriving DecidableEq

/-- One input. -/
def step (sha256 : List UInt8 → List UInt8) : Power → Input → Option (Power × List Obs)
  | p, .reset readable =>
    let d := boot p.flash readable
    let baud := d.device.baudRate
    -- a panic in `main` leaves what is in flash
    some (if starts p.flash readable then .on d else .off p.flash, [.uartNew baud])
  | .on d, .request io reads => some (.on (handleRequest sha256 io d reads).device, [])
  | .on d, .gpio0 held => some (.on { d with gpio0Held := held }, [])
  | .off _, _ => none

/-- The device from the moment it gets power. -/
def machine (sha256 : List UInt8 → List UInt8) (flash : Flash) : Machine Power Input Obs where
  init := .off flash
  step := step sha256

/-- What a step can do: start over from flash, handle a request, or note the button. -/
lemma step_cases {sha256 : List UInt8 → List UInt8} {p p' : Power} {e : Input} {os : List Obs}
    (st : step sha256 p e = some (p', os)) :
    (∃ readable, e = .reset readable ∧ os = [.uartNew (boot p.flash readable).device.baudRate] ∧
      (p' = .on (boot p.flash readable) ∨ p' = .off p.flash)) ∨
    (∃ d io reads, p = .on d ∧ e = .request io reads ∧ os = [] ∧
      p' = .on (handleRequest sha256 io d reads).device) ∨
    ∃ d held, p = .on d ∧ e = .gpio0 held ∧ os = [] ∧ p' = .on { d with gpio0Held := held } := by
  unfold step at st
  split at st
  · rename_i readable
    simp only [Option.some.injEq, Prod.mk.injEq] at st
    obtain ⟨rfl, rfl⟩ := st
    refine .inl ⟨readable, rfl, rfl, ?_⟩
    split
    · exact .inl rfl
    · exact .inr rfl
  · rename_i d io reads
    cases st
    exact .inr (.inl ⟨d, io, reads, rfl, rfl, rfl, rfl⟩)
  · rename_i d held
    cases st
    exact .inr (.inr ⟨d, held, rfl, rfl, rfl, rfl⟩)
  · cases st

/-- The name in a form is one that is saved. -/
def ValidName (body : List UInt8) : Prop :=
  field 32 body (ascii "name") ≠ [] ∧ (field 32 body (ascii "name")).all isNameChar

/-- The number in the field for the baud rate. -/
def typedBaud (body : List UInt8) : Option ℕ :=
  let text := field 16 body (ascii "baud")
  if validUtf8 text then parseUnsigned (2 ^ 32 - 1) (trim text) else none

/-- The form has no number for the baud rate above the driver's. -/
def Bounded (body : List UInt8) : Prop := ∀ n, typedBaud body = some n → n ≤ MAX_BAUD

/-- The baud rate that is saved. -/
def savedBaud (body : List UInt8) : UInt32 :=
  (((typedBaud body).map UInt32.ofNat).filter (0 < ·)).getD DEFAULT_BAUD

lemma saveDevice_eq (io : Io) (d : Device) (body : List UInt8) :
    (¬ ValidName body ∧ (Http.saveDevice io d body).1 = d) ∨
    (ValidName body ∧ (Http.saveDevice io d body).1.flash = (Config.saveDevice d.flash io.flash
      (DeviceConfig.defaults.set (field 32 body (ascii "name")) (savedBaud body))).1) := by
  rw [Http.saveDevice]
  simp only
  split
  · rename_i bad
    refine .inl ⟨?_, rfl⟩
    rintro ⟨ne, chars⟩
    rcases bad with none | other
    · exact ne none
    · exact other chars
  · rename_i good
    refine .inr ⟨⟨fun none => good (.inl none), ?_⟩, rfl⟩
    by_contra other
    exact good (.inr other)

lemma parseUnsigned_le {max n : ℕ} {s : List UInt8} (h : parseUnsigned max s = some n) : n ≤ max := by
  obtain ⟨_, _, _, _, _, le⟩ := parseUnsigned_iff.mp h
  exact le

lemma default_accepted : uartAccepts DEFAULT_BAUD = true := by decide

/-- Of a number that fits 32 bits the driver accepts what is saved if and only if it is not above the
driver's, a zero being replaced by the default. -/
lemma uartAccepts_number {typed : Option ℕ} (fits : ∀ n, typed = some n → n ≤ 2 ^ 32 - 1) :
    uartAccepts (DeviceConfig.baudRate { DeviceConfig.new with
      baud := ((typed.map UInt32.ofNat).filter (0 < ·)).getD DEFAULT_BAUD }) = true ↔
    ∀ n, typed = some n → n ≤ MAX_BAUD := by
  rw [DeviceConfig.baudRate]
  cases typed with
  | none =>
    refine ⟨fun _ n eq => ?_, fun _ => default_accepted⟩
    cases eq
  | some n =>
    have le := fits n rfl
    have num : (UInt32.ofNat n).toNat = n := by
      rw [UInt32.toNat_ofNat']
      omega
    rcases Nat.eq_zero_or_pos n with rfl | pos
    · refine ⟨fun _ n eq => ?_, fun _ => default_accepted⟩
      cases eq
      exact Nat.zero_le _
    · have gt : 0 < UInt32.ofNat n := by
        rw [UInt32.lt_iff_toNat_lt, num]
        exact pos
      have ne : UInt32.ofNat n ≠ 0 := by
        intro zero
        rw [zero] at num
        exact pos.ne num
      simp only [Option.map_some, Option.filter_some, gt, decide_true, if_true, Option.getD_some, if_neg ne,
        uartAccepts, num, Bool.decide_and, Bool.and_eq_true, decide_eq_true_eq, Option.some.injEq,
        forall_eq']
      exact ⟨And.right, fun bound => ⟨pos, bound⟩⟩

/-- A configuration that is saved is accepted at the next boot if and only if its form has no number
above the driver's. -/
lemma uartAccepts_saved (name body : List UInt8) :
    uartAccepts (DeviceConfig.defaults.set name (savedBaud body)).baudRate = true ↔ Bounded body := by
  apply uartAccepts_number
  intro n typed
  simp only [typedBaud] at typed
  split at typed
  · exact parseUnsigned_le typed
  · cases typed

/-- What is stored for the device, if anything, is accepted at the next boot. -/
def Bootable (flash : Flash) : Prop :=
  ∀ c, loadDevice flash true = some c → uartAccepts c.baudRate = true

/-- The input does not store a baud rate above the driver's. What a write that fails leaves is accepted at the
next boot; a form that is written for the device has no such number. -/
def Harmless (sha256 : List UInt8 → List UInt8) (p : Power) (e : Input) : Prop :=
  ∀ d io reads h body, p = .on d → e = .request io reads → Submits sha256 d reads h body → h.Accepts body →
    (∀ start left, io.flash = .failed start left → Bootable (d.flash.write start left)) ∧
    (h = .device → io.flash = .written → Bounded body)

lemma boot_accepted {flash : Flash} (bootable : Bootable flash) (readable : Kind → Bool) :
    uartAccepts (boot flash readable).device.baudRate = true := by
  have stored : (boot flash readable).device = (loadDevice flash (readable .device)).getD .defaults := rfl
  have default : uartAccepts DeviceConfig.defaults.baudRate = true := by decide
  rw [stored]
  cases readable .device with
  | false => exact default
  | true =>
    cases loaded : loadDevice flash true with
    | none => exact default
    | some c => exact bootable c loaded

/-- A save that is harmless keeps the flash bootable. -/
lemma Saved.bootable {k : Kind} {io : Io} {d d' : Device} {outcome : Outcome} {c : k.Value}
    (saved : Saved k io d d' outcome c) (bootable : Bootable d.flash)
    (written : k = .device → io.flash = .written → ∀ c, loadDevice d'.flash true = some c →
      uartAccepts c.baudRate = true)
    (failed : ∀ start left, io.flash = .failed start left → Bootable (d.flash.write start left)) :
    Bootable d'.flash := by
  by_cases here : k = .device ∧ io.flash = .written
  · exact written here.1 here.2
  · cases what : io.flash with
    | failed start left =>
      rw [saved.left what]
      exact failed start left what
    | _ =>
      have same : loadDevice d'.flash true = loadDevice d.flash true :=
        saved.spared here (by rw [what]; trivial)
      intro c loaded
      exact bootable c (same.symm.trans loaded)

/-- A handler that is harmless keeps the flash bootable. -/
lemma run_bootable {sha256 : List UInt8 → List UInt8} {h : Handler} {io : Io} {d : Device}
    {body : List UInt8} (bootable : Bootable d.flash)
    (harmless : h.Accepts body →
      (∀ start left, io.flash = .failed start left → Bootable (d.flash.write start left)) ∧
      (h = .device → io.flash = .written → Bounded body)) :
    Bootable (h.run sha256 io d body).1.flash := by
  by_cases accepts : h.Accepts body
  · obtain ⟨failed, bounded⟩ := harmless accepts
    rcases run_saves sha256 h io.random body with ⟨outcome, -, same⟩ | ⟨c, saves⟩
    · have eq := same io.flash d
      rw [eq]
      exact bootable
    · refine (saves io.flash d).bootable bootable ?_ failed
      intro device written c loaded
      cases h with
      | device =>
        rcases saveDevice_eq io d body with ⟨bad, -⟩ | ⟨⟨ne, -⟩, saved⟩
        · exact absurd accepts bad
        · have flash : (Handler.device.run sha256 io d body).1.flash = _ := saved
          rw [flash, written, loadDevice_written ⟨_, _, _, ne, rfl⟩] at loaded
          rw [← Option.some.inj loaded]
          exact (uartAccepts_saved _ body).mpr (bounded rfl written)
      | _ => cases device
  · rw [(run_refused accepts sha256 io d).2]
    exact bootable

/-- A step that is harmless keeps the flash bootable, and passes only accepted baud rates. -/
lemma step_bootable {sha256 : List UInt8 → List UInt8} {p p' : Power} {e : Input} {os : List Obs}
    (bootable : Bootable p.flash) (harmless : Harmless sha256 p e) (st : step sha256 p e = some (p', os)) :
    Bootable p'.flash ∧ ∀ baud, .uartNew baud ∈ os → uartAccepts baud = true := by
  have none : ∀ baud, Obs.uartNew baud ∈ ([] : List Obs) → uartAccepts baud = true := by
    intro baud mem
    cases mem
  rcases step_cases st with ⟨readable, rfl, rfl, up⟩ | ⟨d, io, reads, rfl, rfl, rfl, rfl⟩ |
    ⟨d, held, rfl, rfl, rfl, rfl⟩
  · refine ⟨?_, fun baud mem => ?_⟩
    · rcases up with rfl | rfl
      · exact bootable
      · exact bootable
    · cases List.mem_singleton.mp mem
      exact boot_accepted bootable readable
  · refine ⟨?_, none⟩
    rcases handleRequest_cases sha256 io d reads with ⟨-, same⟩ | ⟨h, body, submits, eq⟩
    · rw [Power.flash, same]
      exact bootable
    · rw [Power.flash, eq]
      exact run_bootable bootable (harmless d io reads h body rfl rfl submits)
  · exact ⟨bootable, none⟩

/-- What holds along a run: the next boot is accepted, and so were those before. -/
structure Boots (p : Power) (os : List Obs) : Prop where
  bootable : Bootable p.flash
  accepted : ∀ baud, .uartNew baud ∈ os → uartAccepts baud = true

/-- Boots. In every run from a device without a stored configuration in which neither a form nor what a failed
write leaves stores a baud rate above the driver's, every boot passes a baud rate that the driver accepts. A
form with a name that is saved and that is written keeps the next boot from failing if and only if it has no
such number. -/
theorem boots_accepted (sha256 : List UInt8 → List UInt8) :
    (∀ flash, loadDevice flash true = none → ∀ p os, (machine sha256 flash).Run (Harmless sha256) p os →
      ∀ baud, .uartNew baud ∈ os → uartAccepts baud = true) ∧
    ∀ io d body, io.flash = .written → ValidName body → ∀ readable, readable .device = true →
      (uartAccepts (boot (Http.saveDevice io d body).1.flash readable).device.baudRate = true ↔
        Bounded body) := by
  constructor
  · intro flash blank p os run
    have boots : Boots p os := by
      refine run.invariant (P := Boots) ?_ ?_
      · constructor
        · intro c loaded
          have none := blank.symm.trans loaded
          cases none
        · intro baud mem
          cases mem
      · intro p os p' os' e _ before harmless st
        obtain ⟨bootable, now⟩ := step_bootable before.bootable harmless st
        refine ⟨bootable, fun baud mem => ?_⟩
        rcases List.mem_append.mp mem with old | new
        · exact before.accepted baud old
        · exact now baud new
    exact boots.accepted
  · intro io d body written valid readable found
    rcases saveDevice_eq io d body with ⟨bad, -⟩ | ⟨⟨ne, -⟩, saved⟩
    · exact absurd valid bad
    · have stored : (boot (Http.saveDevice io d body).1.flash readable).device =
          DeviceConfig.defaults.set (field 32 body (ascii "name")) (savedBaud body) := by
        rw [boot, found, saved, written, loadDevice_written ⟨_, _, _, ne, rfl⟩]
        rfl
      rw [stored]
      exact uartAccepts_saved _ body

/-- A client that asks for one baud more than the driver takes. -/
def fastRequest : List Read :=
  match ascii "POST /api/device HTTP/1.1\r\nContent-Length: 27\r\n\r\nname=espcan-br&baud=5000001" with
  | first :: rest => [.data first rest, .eof]
  | [] => [.eof]

/-- A configuration that was accepted keeps the device from booting. -/
theorem bricked :
    ¬ ∀ sha256 flash, (∀ k, loadKind k flash = none) → ∀ p os, (machine sha256 flash).Reach p os →
      ∀ baud, .uartNew baud ∈ os → uartAccepts baud = true := by
  intro accepted
  have blank : ∀ k, loadKind k (fun _ => 0xFF) = none := by
    intro k
    cases k with
    | wifi => decide +kernel
    | device => decide +kernel
    | autoconnect => decide +kernel
    | auth => decide +kernel
  obtain ⟨p, os, reach, stored⟩ :=
    (machine id fun _ => 0xFF).run_exec (fun _ _ => True)
      [.reset fun _ => true, .request ⟨.written, fun _ => 0⟩ fastRequest, .reset fun _ => true]
      (fun _ os => .uartNew 5000001 ∈ os) (by decide +kernel)
  have taken := accepted id (fun _ => 0xFF) blank p os reach 5000001 stored
  revert taken
  decide

end EspcanBr.Http
