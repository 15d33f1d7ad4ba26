import EspcanBr.Base.Slots
import EspcanBr.Config

/-!
# Loading what was saved

The load functions of `src/config.rs`. A configuration is read back from the bytes of its slot, field by
field in the order of the structure, and is kept if it is valid. The four configurations are kept in
slots that lie apart (`slots_ok`), so a load returns what was last saved of its kind
(`load_last_saved`).
-/

namespace EspcanBr
open Base Config

namespace Buffer
variable {n : ℕ}

/-- The buffer with the given bytes. -/
def of (n : ℕ) (bytes : List UInt8) : Buffer n := (zero n).copyFrom bytes

@[simp] lemma of_bytes (b : Buffer n) : of n b.bytes = b := by
  obtain ⟨bytes, rfl⟩ := b
  simp [of, copyFrom, zero]

@[simp] lemma length_bytes (b : Buffer n) : b.bytes.length = n := b.length_eq

end Buffer

/-- A `u8`, `u16` and `u32` in memory. -/
def u8 (bytes : List UInt8) : UInt8 := UInt8.ofNat (fromLe bytes)
def u16 (bytes : List UInt8) : UInt16 := UInt16.ofNat (fromLe bytes)
def u32 (bytes : List UInt8) : UInt32 := UInt32.ofNat (fromLe bytes)

@[simp] lemma length_leBytes (v : UInt32) : (leBytes v).length = 4 := rfl

@[simp] lemma u8_byte (v : UInt8) : u8 [v] = v := by
  simp [u8, fromLe]

@[simp] lemma u16_bytes (v : UInt16) : u16 [v.toUInt8, (v >>> 8).toUInt8] = v := by
  have lt := v.toNat_lt
  apply UInt16.toNat_inj.mp
  simp only [u16, fromLe, UInt16.toNat_toUInt8, UInt16.toNat_shiftRight, UInt16.toNat_ofNat']
  simp only [Nat.shiftRight_eq_div_pow, UInt16.reduceToNat, Nat.reduceMod, Nat.reducePow]
  omega

@[simp] lemma u32_leBytes (v : UInt32) : u32 (leBytes v) = v := by
  have lt := v.toNat_lt
  apply UInt32.toNat_inj.mp
  simp only [u32, leBytes, fromLe, UInt32.toNat_toUInt8, UInt32.toNat_shiftRight, UInt32.toNat_ofNat']
  simp only [Nat.shiftRight_eq_div_pow, UInt32.reduceToNat, Nat.reduceMod, Nat.reducePow]
  omega

namespace WifiConfig

/-- The sizes of the fields, in the order of the structure. -/
def LAYOUT : List ℕ := [4, 32, 1, 64, 1, 2]

/-- The bytes of the fields. -/
def fields (c : WifiConfig) : List (List UInt8) :=
  [leBytes c.magic, c.ssid.bytes, [c.ssidLen], c.password.bytes, [c.passwordLen], [0, 0]]

def isValid (c : WifiConfig) : Bool := c.magic = WIFI_CONFIG_MAGIC ∧ 0 < c.ssidLen

/-- `from_bytes`. -/
def fromBytes (bytes : List UInt8) : Option WifiConfig :=
  readRecord LAYOUT bytes fun
    | [magic, ssid, ssidLen, password, passwordLen, _] =>
      let config : WifiConfig := ⟨u32 magic, .of 32 ssid, u8 ssidLen, .of 64 password, u8 passwordLen⟩
      if config.isValid then some config else none
    | _ => none

lemma layout_eq (c : WifiConfig) : LAYOUT = c.fields.map List.length := by
  simp [LAYOUT, fields]

lemma asBytes_eq (c : WifiConfig) : c.asBytes = c.fields.flatten := by
  simp [asBytes, fields]

/-- A valid configuration is read back. -/
lemma fromBytes_asBytes {c : WifiConfig} (valid : c.isValid = true) (rest : List UInt8) :
    fromBytes (c.asBytes ++ rest) = some c := by
  rw [fromBytes, asBytes_eq, readRecord_flatten c.layout_eq]
  simp [fields, valid]

end WifiConfig

namespace DeviceConfig

def LAYOUT : List ℕ := [4, 32, 1, 3, 4]

def fields (c : DeviceConfig) : List (List UInt8) :=
  [leBytes c.magic, c.name.bytes, [c.nameLen], [0, 0, 0], leBytes c.baud]

def isValid (c : DeviceConfig) : Bool := c.magic = DEVICE_CONFIG_MAGIC ∧ 0 < c.nameLen

/-- `baud`. -/
def baudRate (c : DeviceConfig) : UInt32 := if c.baud = 0 then DEFAULT_BAUD else c.baud

/-- `from_bytes`. -/
def fromBytes (bytes : List UInt8) : Option DeviceConfig :=
  readRecord LAYOUT bytes fun
    | [magic, name, nameLen, _, baud] =>
      let config : DeviceConfig := ⟨u32 magic, .of 32 name, u8 nameLen, u32 baud⟩
      if config.isValid then some config else none
    | _ => none

lemma layout_eq (c : DeviceConfig) : LAYOUT = c.fields.map List.length := by
  simp [LAYOUT, fields]

lemma asBytes_eq (c : DeviceConfig) : c.asBytes = c.fields.flatten := by
  simp [asBytes, fields]

lemma fromBytes_asBytes {c : DeviceConfig} (valid : c.isValid = true) (rest : List UInt8) :
    fromBytes (c.asBytes ++ rest) = some c := by
  rw [fromBytes, asBytes_eq, readRecord_flatten c.layout_eq]
  simp [fields, valid]

end DeviceConfig

namespace AutoConnectConfig

def LAYOUT : List ℕ := [4, 1, 1, 2, URL_MAX]

def fields (c : AutoConnectConfig) : List (List UInt8) :=
  [leBytes c.magic, [c.enable], [0], [c.urlLen.toUInt8, (c.urlLen >>> 8).toUInt8], c.url.bytes]

def isValid (c : AutoConnectConfig) : Bool := c.magic = AUTOCONN_CONFIG_MAGIC

/-- `from_bytes`. -/
def fromBytes (bytes : List UInt8) : Option AutoConnectConfig :=
  readRecord LAYOUT bytes fun
    | [magic, enable, _, urlLen, url] =>
      let config : AutoConnectConfig := ⟨u32 magic, u8 enable, u16 urlLen, .of URL_MAX url⟩
      if config.isValid then some config else none
    | _ => none

lemma layout_eq (c : AutoConnectConfig) : LAYOUT = c.fields.map List.length := by
  simp [LAYOUT, fields]

lemma asBytes_eq (c : AutoConnectConfig) : c.asBytes = c.fields.flatten := by
  simp [asBytes, fields]

lemma fromBytes_asBytes {c : AutoConnectConfig} (valid : c.isValid = true) (rest : List UInt8) :
    fromBytes (c.asBytes ++ rest) = some c := by
  rw [fromBytes, asBytes_eq, readRecord_flatten c.layout_eq]
  simp [fields, valid]

end AutoConnectConfig

namespace AuthConfig

def LAYOUT : List ℕ := [4, 32, 1, 1, 2, 16, 32]

def fields (c : AuthConfig) : List (List UInt8) :=
  [leBytes c.magic, c.user.bytes, [c.userLen], [c.hasPass], [0, 0], c.salt.bytes, c.passHash.bytes]

def isValid (c : AuthConfig) : Bool := c.magic = AUTH_CONFIG_MAGIC

/-- `from_bytes`. -/
def fromBytes (bytes : List UInt8) : Option AuthConfig :=
  readRecord LAYOUT bytes fun
    | [magic, user, userLen, hasPass, _, salt, passHash] =>
      let config : AuthConfig :=
        ⟨u32 magic, .of 32 user, u8 userLen, u8 hasPass, .of 16 salt, .of 32 passHash⟩
      if config.isValid then some config else none
    | _ => none

lemma layout_eq (c : AuthConfig) : LAYOUT = c.fields.map List.length := by
  simp [LAYOUT, fields]

lemma asBytes_eq (c : AuthConfig) : c.asBytes = c.fields.flatten := by
  simp [asBytes, fields]

lemma fromBytes_asBytes {c : AuthConfig} (valid : c.isValid = true) (rest : List UInt8) :
    fromBytes (c.asBytes ++ rest) = some c := by
  rw [fromBytes, asBytes_eq, readRecord_flatten c.layout_eq]
  simp [fields, valid]

end AuthConfig

namespace Config

/-- `load`; the partition is found and can be read, or not. -/
def load (flash : Flash) (readable : Bool) : Option WifiConfig :=
  if readable then WifiConfig.fromBytes (readAt flash WIFI_CONFIG_OFFSET 128) else none

/-- `load_device`. -/
def loadDevice (flash : Flash) (readable : Bool) : Option DeviceConfig :=
  if readable then DeviceConfig.fromBytes (readAt flash DEVICE_CONFIG_OFFSET 64) else none

/-- `load_autoconnect`. -/
def loadAutoconnect (flash : Flash) (readable : Bool) : Option AutoConnectConfig :=
  if readable then AutoConnectConfig.fromBytes (readAt flash AUTOCONN_CONFIG_OFFSET 384) else none

/-- `load_auth`. -/
def loadAuth (flash : Flash) (readable : Bool) : Option AuthConfig :=
  if readable then AuthConfig.fromBytes (readAt flash AUTH_CONFIG_OFFSET 128) else none

/-- The kinds of configurations. -/
inductive Kind where
  | wifi
  | device
  | autoconnect
  | auth
  deriving DecidableEq

/-- The configurations of a kind. -/
abbrev Kind.Value : Kind → Type
  | .wifi => WifiConfig
  | .device => DeviceConfig
  | .autoconnect => AutoConnectConfig
  | .auth => AuthConfig

/-- The four slots. -/
def slots : Slots Kind Kind.Value UInt8 where
  offset
    | .wifi => WIFI_CONFIG_OFFSET
    | .device => DEVICE_CONFIG_OFFSET
    | .autoconnect => AUTOCONN_CONFIG_OFFSET
    | .auth => AUTH_CONFIG_OFFSET
  size
    | .wifi => 128
    | .device => 64
    | .autoconnect => 384
    | .auth => 128
  encode
    | .wifi => WifiConfig.asBytes
    | .device => DeviceConfig.asBytes
    | .autoconnect => AutoConnectConfig.asBytes
    | .auth => AuthConfig.asBytes
  decode
    | .wifi => WifiConfig.fromBytes
    | .device => DeviceConfig.fromBytes
    | .autoconnect => AutoConnectConfig.fromBytes
    | .auth => AuthConfig.fromBytes

/-- The configuration is one a setter built, with a name for the network or the device. -/
def Built : (k : Kind) → k.Value → Prop
  | .wifi, c => ∃ (base : WifiConfig) (ssid password : List UInt8), ssid ≠ [] ∧
      c = base.setCredentials ssid password
  | .device, c => ∃ (base : DeviceConfig) (name : List UInt8) (baud : UInt32), name ≠ [] ∧
      c = base.set name baud
  | .autoconnect, c => ∃ (base : AutoConnectConfig) (enable : Bool) (url : List UInt8),
      c = base.set enable url
  | .auth, c => ∃ (sha256 : List UInt8 → List UInt8) (random : ℕ → UInt32) (base : AuthConfig)
      (user password : List UInt8), c = base.set sha256 random user password

/-- The length of a text that is not empty, cut to a small maximum. -/
lemma length_pos {text : List UInt8} (ne : text ≠ []) : 0 < UInt8.ofNat (min text.length 32) := by
  have pos : 0 < text.length := List.length_pos_iff.mpr ne
  rw [UInt8.lt_iff_toNat_lt, UInt8.toNat_ofNat']
  simp only [UInt8.toNat_zero]
  omega

/-- What a setter builds is valid. -/
lemma Built.fromBytes {k : Kind} {c : k.Value} (built : Built k c) (rest : List UInt8) :
    slots.decode k (slots.encode k c ++ rest) = some c := by
  cases k with
  | wifi =>
    obtain ⟨base, ssid, password, ne, rfl⟩ := built
    apply WifiConfig.fromBytes_asBytes
    simp [WifiConfig.isValid, WifiConfig.setCredentials, length_pos ne]
  | device =>
    obtain ⟨base, name, baud, ne, rfl⟩ := built
    apply DeviceConfig.fromBytes_asBytes
    simp [DeviceConfig.isValid, DeviceConfig.set, length_pos ne]
  | autoconnect =>
    obtain ⟨base, enable, url, rfl⟩ := built
    apply AutoConnectConfig.fromBytes_asBytes
    simp [AutoConnectConfig.isValid, AutoConnectConfig.set]
  | auth =>
    obtain ⟨sha256, random, base, user, password, rfl⟩ := built
    apply AuthConfig.fromBytes_asBytes
    rw [AuthConfig.set]
    split
    · simp [AuthConfig.isValid]
    · simp [AuthConfig.isValid]

/-- Every structure fits its slot. -/
lemma length_encode (k : Kind) (c : k.Value) : (slots.encode k c).length ≤ slots.size k := by
  have sized : ∀ {layout : List ℕ} {fields : List (List UInt8)} {n : ℕ},
      layout = fields.map List.length → layout.sum ≤ n → fields.flatten.length ≤ n := by
    intro layout fields n lengths le
    rw [List.length_flatten, ← lengths]
    exact le
  cases k with
  | wifi =>
    apply (congrArg List.length (WifiConfig.asBytes_eq c)).trans_le
    exact sized (WifiConfig.layout_eq c) (by decide)
  | device =>
    apply (congrArg List.length (DeviceConfig.asBytes_eq c)).trans_le
    exact sized (DeviceConfig.layout_eq c) (by decide)
  | autoconnect =>
    apply (congrArg List.length (AutoConnectConfig.asBytes_eq c)).trans_le
    exact sized (AutoConnectConfig.layout_eq c) (by decide)
  | auth =>
    apply (congrArg List.length (AuthConfig.asBytes_eq c)).trans_le
    exact sized (AuthConfig.layout_eq c) (by decide)

lemma slots_apart (j k : Kind) (ne : j ≠ k) :
    slots.offset j + slots.size j ≤ slots.offset k ∨ slots.offset k + slots.size k ≤ slots.offset j := by
  revert j k
  have all : ∀ j ∈ [Kind.wifi, .device, .autoconnect, .auth], ∀ k ∈ [Kind.wifi, .device, .autoconnect, .auth],
      j ≠ k → slots.offset j + slots.size j ≤ slots.offset k ∨
        slots.offset k + slots.size k ≤ slots.offset j := by decide
  have mem : ∀ k : Kind, k ∈ [Kind.wifi, .device, .autoconnect, .auth] := by
    intro k
    cases k <;> simp
  intro j k
  exact all j (mem j) k (mem k)

/-- The slots keep what the setters build. -/
theorem slots_ok : slots.Ok Built where
  fits := fun k c _ => length_encode k c
  apart := slots_apart
  back := fun _ _ built rest => built.fromBytes rest

/-- A call of a save function with a configuration that a setter built, and what becomes of it. -/
structure Call where
  kind : Kind
  config : kind.Value
  built : Built kind config
  io : FlashIo

/-- The load function of a kind. -/
def loadKind (k : Kind) (flash : Flash) : Option k.Value :=
  match k with
  | .wifi => load flash true
  | .device => loadDevice flash true
  | .autoconnect => loadAutoconnect flash true
  | .auth => loadAuth flash true

/-- The save function of a kind. -/
def Call.run (flash : Flash) : Call → Flash
  | ⟨.wifi, c, _, io⟩ => (save flash io c).1
  | ⟨.device, c, _, io⟩ => (saveDevice flash io c).1
  | ⟨.autoconnect, c, _, io⟩ => (saveAutoconnect flash io c).1
  | ⟨.auth, c, _, io⟩ => (saveAuth flash io c).1

/-- The partition after a sequence of saves. -/
def runCalls (flash : Flash) (calls : List Call) : Flash := calls.foldl Call.run flash

/-- A save that fails has written nothing to the slot of a kind. -/
def FlashIo.Spares (k : Kind) : FlashIo → Prop
  | .failed start left => start + left.length ≤ slots.offset k ∨ slots.offset k + slots.size k ≤ start
  | _ => True

instance (k : Kind) (io : FlashIo) : Decidable (io.Spares k) :=
  match io with
  | .written => isTrue trivial
  | .noPartition => isTrue trivial
  | .failed start left =>
    inferInstanceAs (Decidable (start + left.length ≤ slots.offset k ∨ slots.offset k + slots.size k ≤ start))

/-- What a slot is known to hold after a call, given what it was known to hold before. -/
def Call.saved (k : Kind) (last : Option k.Value) (call : Call) : Option k.Value :=
  if h : call.kind = k ∧ call.io = .written then some (h.1 ▸ call.config)
  else if call.io.Spares k then last
  else none

/-- The configuration of a kind that was last saved. A write that failed in its slot leaves none. -/
def lastSaved (k : Kind) (calls : List Call) : Option k.Value := calls.foldl (Call.saved k) none

lemma loadKind_eq (k : Kind) (flash : Flash) : loadKind k flash = slots.load k flash := by
  cases k with
  | wifi => rfl
  | device => rfl
  | autoconnect => rfl
  | auth => rfl

/-- What the save functions do to the partition: they save to the slot of their kind, change nothing, or
leave some bytes somewhere. -/
lemma run_eq (flash : Flash) (call : Call) : call.run flash =
    match call.io with
    | .written => slots.save 0 call.kind call.config flash
    | .noPartition => flash
    | .failed start left => writeAt flash start left := by
  obtain ⟨kind, config, built, io⟩ := call
  cases kind <;> cases io <;> rfl

/-- A call that does not write its configuration to a slot, and spares it where it fails, does not change
what the slot loads. -/
lemma loadKind_apart {k : Kind} {call : Call} (other : ¬ (call.kind = k ∧ call.io = .written))
    (spares : call.io.Spares k) (flash : Flash) : loadKind k (call.run flash) = loadKind k flash := by
  rw [loadKind_eq, loadKind_eq, run_eq]
  obtain ⟨kind, config, built, io⟩ := call
  cases io with
  | written => exact slots.load_save_apart slots_ok (fun eq => other ⟨eq.symm, rfl⟩) built 0 flash
  | noPartition => rfl
  | failed start left => exact slots.load_write_apart spares flash

/-- A configuration that was written is loaded. -/
lemma loadKind_written {k : Kind} {c : k.Value} (built : Built k c) (flash : Flash) :
    loadKind k (Call.run flash ⟨k, c, built, .written⟩) = some c := by
  rw [loadKind_eq, run_eq]
  exact slots.load_save slots_ok built 0 flash

lemma loadDevice_written {c : DeviceConfig} (built : Built .device c) (flash : Flash) :
    loadDevice (saveDevice flash .written c).1 true = some c :=
  loadKind_written built flash

lemma loadAuth_written {c : AuthConfig} (built : Built .auth c) (flash : Flash) :
    loadAuth (saveAuth flash .written c).1 true = some c :=
  loadKind_written built flash

/-- What a slot is known to hold is loaded. -/
lemma loadKind_saved {k : Kind} {last : Option k.Value} {flash : Flash}
    (known : ∀ c, last = some c → loadKind k flash = some c) (call : Call) :
    ∀ c, call.saved k last = some c → loadKind k (call.run flash) = some c := by
  intro c saved
  rw [Call.saved] at saved
  split at saved
  · rename_i here
    obtain ⟨kind, config, built, io⟩ := call
    dsimp only at here saved
    obtain ⟨rfl, rfl⟩ := here
    cases saved
    exact loadKind_written built flash
  · rename_i other
    split at saved
    · rename_i spares
      rw [loadKind_apart other spares]
      exact known c saved
    · cases saved

lemma load_foldl {k : Kind} (calls : List Call) {last : Option k.Value} {flash : Flash}
    (known : ∀ c, last = some c → loadKind k flash = some c) :
    ∀ c, calls.foldl (Call.saved k) last = some c → loadKind k (runCalls flash calls) = some c := by
  induction calls generalizing last flash with
  | nil => exact known
  -- what is known of the slot is what the call leaves
  | cons call calls ih => exact ih (loadKind_saved known call)

/-- The configuration store. For every content of the partition and every sequence of saves, whatever
becomes of each: a load returns the configuration last saved of its kind, and saves of other kinds do
not change what it returns; a save that fails counts where it has written to the slot. Every structure
fits its slot, and the slots are disjoint. -/
theorem load_last_saved (flash : Flash) (calls : List Call) :
    (∀ k c, lastSaved k calls = some c → loadKind k (runCalls flash calls) = some c) ∧
    (∀ k, (∀ call ∈ calls, call.kind ≠ k ∧ call.io.Spares k) →
      loadKind k (runCalls flash calls) = loadKind k flash) ∧
    (∀ k c, (slots.encode k c).length ≤ slots.size k) ∧
    ∀ j k, j ≠ k → ∀ i, slots.Inside j i → ¬ slots.Inside k i := by
  refine ⟨?_, ?_, length_encode, ?_⟩
  · intro k
    apply load_foldl
    intro c none
    cases none
  · intro k others
    induction calls generalizing flash with
    | nil => rfl
    | cons call calls ih =>
      obtain ⟨ne, spares⟩ := others call List.mem_cons_self
      have rest := ih (call.run flash) fun c mem => others c (List.mem_cons_of_mem _ mem)
      exact rest.trans (loadKind_apart (fun here => ne here.1) spares flash)
  · intro j k ne i ⟨ge, lt⟩ ⟨ge', lt'⟩
    have apart := slots_apart j k ne
    omega

end Config
end EspcanBr
