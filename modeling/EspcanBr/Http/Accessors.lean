import EspcanBr.Http.Saves

/-!
# Accessors of what was loaded

The accessors slice a buffer by the length byte that stands beside it in flash. A load checks the magic
number alone, and that some lengths are not zero; so the accessors of what it returns stay in range if
and only if the lengths in flash fit the buffers, and what is in flash makes nothing panic if and only if
they do and the baud rate is one that the driver accepts (`accessors_in_range`). `url_str` cuts its length to
the buffer, the others do not.
-/

namespace EspcanBr.Http
open Base Config

/-- What the page shows of the configurations. -/
structure View where
  ssid : List UInt8
  name : List UInt8
  baud : UInt32
  enable : Bool
  url : List UInt8
  login : Bool
  user : List UInt8
  deriving DecidableEq

/-- The values the accessors return; `none` where one of them panics. -/
def Device.view (d : Device) : Option View := do
  let ssid ← d.wifi.ssidStr
  let name ← d.device.nameStr
  let user ← d.auth.userStr
  some ⟨ssid, name, d.device.baudRate, d.autoconnect.enableSet, d.autoconnect.urlStr, d.auth.isSet, user⟩

/-- No accessor of the configuration slices out of range. -/
def InRange : (k : Kind) → k.Value → Prop
  | .wifi, c => c.ssidStr.isSome = true ∧ c.passwordStr.isSome = true
  | .device, c => c.nameStr.isSome = true
  | .autoconnect, c => ∃ url, c.url.slice (min c.urlLen.toNat URL_MAX) = some url ∧
      c.urlStr = if validUtf8 url then url else []
  | .auth, c => c.userStr.isSome = true ∧
      ∀ sha256 user password, (c.verify sha256 user password).isSome = true

/-- The lengths of a configuration in flash fit its buffers. -/
def Fits : Kind → Flash → Prop
  | .wifi, flash => u32 (readAt flash WIFI_CONFIG_OFFSET 4) = WIFI_CONFIG_MAGIC →
      0 < flash (WIFI_CONFIG_OFFSET + 36) →
      flash (WIFI_CONFIG_OFFSET + 36) ≤ 32 ∧ flash (WIFI_CONFIG_OFFSET + 101) ≤ 64
  | .device, flash => u32 (readAt flash DEVICE_CONFIG_OFFSET 4) = DEVICE_CONFIG_MAGIC →
      flash (DEVICE_CONFIG_OFFSET + 36) ≤ 32
  | .autoconnect, _ => True
  | .auth, flash => u32 (readAt flash AUTH_CONFIG_OFFSET 4) = AUTH_CONFIG_MAGIC →
      flash (AUTH_CONFIG_OFFSET + 36) ≤ 32

/-- The baud rate in flash is not above the driver's; a zero stands for the default. -/
def BaudFits (flash : Flash) : Prop :=
  u32 (readAt flash DEVICE_CONFIG_OFFSET 4) = DEVICE_CONFIG_MAGIC → 0 < flash (DEVICE_CONFIG_OFFSET + 36) →
    (u32 (readAt flash (DEVICE_CONFIG_OFFSET + 40) 4)).toNat ≤ MAX_BAUD

/-- What is in flash makes no boot panic, and after a boot neither the page nor the login check. -/
structure Safe (flash : Flash) : Prop where
  main : ∀ readable, starts flash readable = true
  page : ∀ readable, (boot flash readable).view.isSome = true
  login : ∀ sha256 readable held request,
    (authorized sha256 held (boot flash readable).auth request).isSome = true

@[simp] lemma u8_readAt (flash : Flash) (i : ℕ) : u8 (readAt flash i 1) = flash i := u8_byte (flash i)

/-- What an accessor returns: a text without a slice for the length zero, the slice otherwise. -/
lemma isSome_slice {n : ℕ} (b : Buffer n) (len : UInt8) (text : List UInt8) :
    (if len = 0 then some text else b.slice len.toNat).isSome = true ↔ len.toNat ≤ n := by
  by_cases zero : len = 0
  · subst zero
    simp
  · rw [if_neg zero, Buffer.slice]
    split
    · rename_i le
      simpa using le
    · rename_i gt
      simpa using gt

lemma in_range_wifi (c : WifiConfig) : InRange .wifi c ↔ c.ssidLen ≤ 32 ∧ c.passwordLen ≤ 64 := by
  rw [InRange, WifiConfig.ssidStr, WifiConfig.passwordStr, isSome_slice, isSome_slice]
  exact Iff.rfl

lemma in_range_device (c : DeviceConfig) : InRange .device c ↔ c.nameLen ≤ 32 := by
  rw [InRange, DeviceConfig.nameStr, isSome_slice]
  exact Iff.rfl

/-- The length of the URL is cut to its buffer. -/
lemma in_range_autoconnect (c : AutoConnectConfig) : InRange .autoconnect c :=
  ⟨_, if_pos (Nat.min_le_right _ _), rfl⟩

lemma in_range_auth (c : AuthConfig) : InRange .auth c ↔ c.userLen ≤ 32 := by
  rw [InRange, AuthConfig.userStr, isSome_slice]
  refine ⟨And.left, fun le => ⟨le, fun sha256 user password => ?_⟩⟩
  -- the length that `verify` slices by is the same
  rw [AuthConfig.verify]
  split
  · rfl
  · rw [Option.isSome_map, Buffer.slice, if_pos (show c.userLen.toNat ≤ 32 from le)]
    rfl

/-- The fields of the configurations as they stand in flash. -/
def wifiAt (flash : Flash) : WifiConfig where
  magic := u32 (readAt flash WIFI_CONFIG_OFFSET 4)
  ssid := .of 32 (readAt flash (WIFI_CONFIG_OFFSET + 4) 32)
  ssidLen := flash (WIFI_CONFIG_OFFSET + 36)
  password := .of 64 (readAt flash (WIFI_CONFIG_OFFSET + 37) 64)
  passwordLen := flash (WIFI_CONFIG_OFFSET + 101)

def deviceAt (flash : Flash) : DeviceConfig where
  magic := u32 (readAt flash DEVICE_CONFIG_OFFSET 4)
  name := .of 32 (readAt flash (DEVICE_CONFIG_OFFSET + 4) 32)
  nameLen := flash (DEVICE_CONFIG_OFFSET + 36)
  baud := u32 (readAt flash (DEVICE_CONFIG_OFFSET + 40) 4)

def authAt (flash : Flash) : AuthConfig where
  magic := u32 (readAt flash AUTH_CONFIG_OFFSET 4)
  user := .of 32 (readAt flash (AUTH_CONFIG_OFFSET + 4) 32)
  userLen := flash (AUTH_CONFIG_OFFSET + 36)
  hasPass := flash (AUTH_CONFIG_OFFSET + 37)
  salt := .of 16 (readAt flash (AUTH_CONFIG_OFFSET + 40) 16)
  passHash := .of 32 (readAt flash (AUTH_CONFIG_OFFSET + 56) 32)

/-- They are loaded if they pass the check. -/
lemma load_wifi (flash : Flash) : loadKind .wifi flash =
    if (wifiAt flash).isValid then some (wifiAt flash) else none := by
  rw [loadKind, load, if_pos rfl, WifiConfig.fromBytes, readRecord_readAt _ (by decide)]
  simp only [WifiConfig.LAYOUT, readFields, u8_readAt]
  rfl

lemma load_device (flash : Flash) : loadKind .device flash =
    if (deviceAt flash).isValid then some (deviceAt flash) else none := by
  rw [loadKind, loadDevice, if_pos rfl, DeviceConfig.fromBytes, readRecord_readAt _ (by decide)]
  simp only [DeviceConfig.LAYOUT, readFields, u8_readAt]
  rfl

lemma load_auth (flash : Flash) : loadKind .auth flash =
    if (authAt flash).isValid then some (authAt flash) else none := by
  rw [loadKind, loadAuth, if_pos rfl, AuthConfig.fromBytes, readRecord_readAt _ (by decide)]
  simp only [AuthConfig.LAYOUT, readFields, u8_readAt]
  rfl

/-- A value that is returned on a condition. -/
lemma forall_ite_some {α : Type*} {P : α → Prop} {p : Prop} [Decidable p] {a : α} :
    (∀ c, (if p then some a else none) = some c → P c) ↔ (p → P a) := by
  constructor
  · intro all holds
    exact all a (if_pos holds)
  · intro here c eq
    split at eq
    · rename_i holds
      cases eq
      exact here holds
    · cases eq

/-- The accessors of what is loaded of a kind stay in range if and only if its lengths fit. -/
lemma loaded_in_range (k : Kind) (flash : Flash) :
    (∀ c, loadKind k flash = some c → InRange k c) ↔ Fits k flash := by
  cases k with
  | wifi =>
    rw [load_wifi, forall_ite_some, in_range_wifi, WifiConfig.isValid, decide_eq_true_eq, and_imp]
    exact Iff.rfl
  | device =>
    rw [load_device, forall_ite_some, in_range_device, DeviceConfig.isValid, decide_eq_true_eq, and_imp]
    refine forall_congr' fun _ => ⟨fun fits => ?_, fun fits _ => fits⟩
    -- a length of zero fits
    rcases Nat.eq_zero_or_pos (flash (DEVICE_CONFIG_OFFSET + 36)).toNat with zero | pos
    · rw [UInt8.le_iff_toNat_le, zero]
      exact Nat.zero_le _
    · exact fits pos
  | autoconnect => exact ⟨fun _ => trivial, fun _ c _ => in_range_autoconnect c⟩
  | auth =>
    rw [load_auth, forall_ite_some, in_range_auth, AuthConfig.isValid, decide_eq_true_eq]
    exact Iff.rfl

/-- What the statics have at boot was loaded, or is the configuration of a device without a stored one. -/
lemma boot_cases (flash : Flash) (readable : Kind → Bool) (k : Kind) :
    loadKind k flash = some ((boot flash readable).config k) ∨
      (boot flash readable).config k = Device.new.config k := by
  have one : ∀ {γ : Type} (found : Option γ) (blank : γ) (yes : Bool),
      found = some ((if yes then found else none).getD blank) ∨
        (if yes then found else none).getD blank = blank := by
    intro γ found blank yes
    cases found with
    | none => exact .inr (by simp)
    | some c =>
      cases yes with
      | true => exact .inl rfl
      | false => exact .inr rfl
  cases k with
  | wifi => exact one (load flash true) .new (readable .wifi)
  | device => exact one (loadDevice flash true) .defaults (readable .device)
  | autoconnect => exact one (loadAutoconnect flash true) .new (readable .autoconnect)
  | auth => exact one (loadAuth flash true) .new (readable .auth)

/-- A baud rate is accepted if and only if it is not above the driver's. -/
lemma uartAccepts_baudRate (c : DeviceConfig) : uartAccepts c.baudRate = true ↔ c.baud.toNat ≤ MAX_BAUD := by
  rw [DeviceConfig.baudRate]
  split
  · rename_i zero
    rw [zero]
    exact ⟨fun _ => Nat.zero_le _, fun _ => default_accepted⟩
  · rename_i ne
    have pos : 1 ≤ c.baud.toNat := by
      rw [Nat.one_le_iff_ne_zero]
      intro zero
      exact ne (UInt32.toNat_inj.mp zero)
    rw [uartAccepts, decide_eq_true_eq]
    exact ⟨And.right, fun le => ⟨pos, le⟩⟩

lemma bootable_iff (flash : Flash) : Bootable flash ↔ BaudFits flash := by
  have loads : ∀ c, loadDevice flash true = some c ↔ loadKind .device flash = some c := fun _ => Iff.rfl
  simp only [Bootable, loads, load_device]
  rw [forall_ite_some, uartAccepts_baudRate, DeviceConfig.isValid, decide_eq_true_eq, and_imp]
  exact Iff.rfl

/-- The page is shown where the three texts are returned. -/
lemma view_isSome (d : Device) : d.view.isSome = true ↔
    d.wifi.ssidStr.isSome = true ∧ d.device.nameStr.isSome = true ∧ d.auth.userStr.isSome = true := by
  rw [Device.view]
  cases d.wifi.ssidStr <;> cases d.device.nameStr <;> cases d.auth.userStr <;> simp

/-- The Wi-Fi is set up where its texts are returned: those of a station, or the name of an access point. -/
lemma modeConfig_isSome (flash : Flash) (readable : Kind → Bool) : (modeConfig flash readable).isSome = true ↔
    if configMode flash readable then (boot flash readable).device.nameStr.isSome = true
    else (boot flash readable).wifi.ssidStr.isSome = true ∧ (boot flash readable).wifi.passwordStr.isSome = true := by
  rw [modeConfig]
  cases configMode flash readable with
  | true => simp
  | false =>
    cases (boot flash readable).wifi.ssidStr <;> cases (boot flash readable).wifi.passwordStr <;> simp

/-- What is loaded is in range if a boot has it and its accessors return. -/
lemma fits_of_boot {k : Kind} {flash : Flash}
    (ok : (∃ c, loadKind k flash = some c) → InRange k ((boot flash fun _ => true).config k)) : Fits k flash := by
  rw [← loaded_in_range]
  intro c loaded
  have here : (boot flash fun _ => true).config k = c := boot_config loaded rfl
  rw [← here]
  exact ok ⟨c, loaded⟩

/-- Without a configuration of the Wi-Fi the device is in configuration mode. -/
lemma configMode_iff (flash : Flash) (readable : Kind → Bool) :
    configMode flash readable = true ↔ load flash (readable .wifi) = none := by
  have valid : ∀ c, load flash (readable .wifi) = some c → c.isValid = true := by
    intro c loaded
    cases found : readable .wifi with
    | false =>
      rw [found] at loaded
      cases loaded
    | true =>
      rw [found, show load flash true = _ from load_wifi flash] at loaded
      split at loaded
      · cases loaded
        assumption
      · cases loaded
  rw [configMode]
  cases loaded : load flash (readable .wifi) with
  | none => simp
  | some c => simp [valid c loaded]

lemma Safe.fits {flash : Flash} (safe : Safe flash) (k : Kind) : Fits k flash := by
  have page := fun readable => (view_isSome _).mp (safe.page readable)
  apply fits_of_boot
  rintro ⟨c, loaded⟩
  cases k with
  | wifi =>
    -- with its configuration the device is a station
    have mode : configMode flash (fun _ => true) ≠ true := by
      rw [ne_eq, configMode_iff]
      intro none
      cases none.symm.trans loaded
    have started := safe.main fun _ => true
    rw [starts, Bool.and_eq_true, modeConfig_isSome, if_neg mode] at started
    exact started.2
  | device => exact (page _).2.1
  | autoconnect => exact in_range_autoconnect _
  | auth =>
    obtain ⟨-, -, user⟩ := page fun _ => true
    rw [AuthConfig.userStr, isSome_slice] at user
    exact (in_range_auth _).mpr user

lemma Safe.baud {flash : Flash} (safe : Safe flash) : BaudFits flash := by
  rw [← bootable_iff]
  intro c loaded
  have here : (boot flash fun _ => true).device = c :=
    @boot_config .device flash c loaded (fun _ => true) rfl
  have started := safe.main fun _ => true
  rw [starts, Bool.and_eq_true, here] at started
  exact started.1

end EspcanBr.Http
