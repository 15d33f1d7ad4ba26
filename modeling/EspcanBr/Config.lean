import EspcanBr.Base.Text

/-!
# Stored configurations

The four configurations of `src/config.rs`, as the fixed-size structures the source keeps, with their
setters and accessors and what a save writes to flash. An accessor that slices a buffer by a stored
length gives `none` where the source panics. A save writes the bytes of the structure to the start of
its slot and zeros to the rest; the flash driver may fail.
-/

namespace EspcanBr
open Base

/-- A buffer of `n` bytes. -/
structure Buffer (n : ℕ) where
  bytes : List UInt8
  length_eq : bytes.length = n
  deriving DecidableEq

namespace Buffer
variable {n : ℕ}

def zero (n : ℕ) : Buffer n := ⟨List.replicate n 0, List.length_replicate⟩

/-- The first `k` bytes, if there are that many. -/
def slice (b : Buffer n) (k : ℕ) : Option (List UInt8) := if k ≤ n then some (b.bytes.take k) else none

/-- The buffer with its first bytes replaced by `s`, which is cut to the size of the buffer. -/
def copyFrom (b : Buffer n) (s : List UInt8) : Buffer n where
  bytes := s.take n ++ b.bytes.drop s.length
  length_eq := by
    have len := b.length_eq
    simp only [List.length_append, List.length_take, List.length_drop]
    omega

end Buffer

/-- The little-endian bytes of a 32-bit number. -/
def leBytes (v : UInt32) : List UInt8 :=
  [v.toUInt8, (v >>> 8).toUInt8, (v >>> 16).toUInt8, (v >>> 24).toUInt8]

namespace Config

/-- The name of a device without a stored one. -/
def DEFAULT_NAME : List UInt8 := ascii "espcan-br"

def DEFAULT_BAUD : UInt32 := 115200

def URL_MAX : ℕ := 256

def WIFI_CONFIG_MAGIC : UInt32 := 0xC0F16001
def WIFI_CONFIG_OFFSET : ℕ := 0
def DEVICE_CONFIG_MAGIC : UInt32 := 0xDE71CE01
def DEVICE_CONFIG_OFFSET : ℕ := 128
def AUTOCONN_CONFIG_MAGIC : UInt32 := 0xAC0C0002
def AUTOCONN_CONFIG_OFFSET : ℕ := 256
def AUTH_CONFIG_MAGIC : UInt32 := 0xA0710101
def AUTH_CONFIG_OFFSET : ℕ := 640

/-- The bytes of the NVS partition. -/
abbrev Flash := ℕ → UInt8

/-- The partition after a write at an offset. -/
def Flash.write (flash : Flash) (offset : ℕ) (bytes : List UInt8) : Flash := fun i =>
  if offset ≤ i then (bytes)[i - offset]?.getD (flash i) else flash i

/-- What becomes of a save: the write succeeds, the partition is not found, or the write fails and
leaves some bytes from some place on. The driver erases and writes whole sectors, so these need not be in
the slot. -/
inductive FlashIo where
  | written
  | noPartition
  | failed (start : ℕ) (left : List UInt8)
  deriving DecidableEq

/-- The common body of the save functions: the bytes go to the start of a slot of `size` bytes. -/
def saveAt (offset size : ℕ) (flash : Flash) (io : FlashIo) (bytes : List UInt8) : Flash × Bool :=
  match io with
  | .written => (flash.write offset (bytes ++ List.replicate (size - bytes.length) 0), true)
  | .noPartition => (flash, false)
  | .failed start left => (flash.write start left, false)

end Config

open Config

/-- `WifiConfig`. -/
structure WifiConfig where
  magic : UInt32
  ssid : Buffer 32
  ssidLen : UInt8
  password : Buffer 64
  passwordLen : UInt8
  deriving DecidableEq

namespace WifiConfig

def new : WifiConfig := ⟨0, .zero 32, 0, .zero 64, 0⟩

/-- `set_credentials`. -/
def setCredentials (c : WifiConfig) (ssid password : List UInt8) : WifiConfig where
  magic := WIFI_CONFIG_MAGIC
  ssid := c.ssid.copyFrom (ssid.take 32)
  ssidLen := UInt8.ofNat (min ssid.length 32)
  password := c.password.copyFrom (password.take 64)
  passwordLen := UInt8.ofNat (min password.length 64)

/-- `ssid_str`; `none` where the stored length does not fit the buffer. -/
def ssidStr (c : WifiConfig) : Option (List UInt8) :=
  if c.ssidLen = 0 then some [] else c.ssid.slice c.ssidLen.toNat

/-- `password_str`; `none` where the stored length does not fit the buffer. -/
def passwordStr (c : WifiConfig) : Option (List UInt8) :=
  if c.passwordLen = 0 then some [] else c.password.slice c.passwordLen.toNat

/-- `as_bytes`, with the two bytes of padding. -/
def asBytes (c : WifiConfig) : List UInt8 :=
  leBytes c.magic ++ c.ssid.bytes ++ [c.ssidLen] ++ c.password.bytes ++ [c.passwordLen] ++ [0, 0]

end WifiConfig

/-- `DeviceConfig`. -/
structure DeviceConfig where
  magic : UInt32
  name : Buffer 32
  nameLen : UInt8
  baud : UInt32
  deriving DecidableEq

namespace DeviceConfig

def new : DeviceConfig := ⟨0, .zero 32, 0, DEFAULT_BAUD⟩

def set (c : DeviceConfig) (name : List UInt8) (baud : UInt32) : DeviceConfig where
  magic := DEVICE_CONFIG_MAGIC
  name := c.name.copyFrom (name.take 32)
  nameLen := UInt8.ofNat (min name.length 32)
  baud := baud

/-- `name_str`; `none` where the stored length does not fit the buffer. -/
def nameStr (c : DeviceConfig) : Option (List UInt8) :=
  if c.nameLen = 0 then some DEFAULT_NAME else c.name.slice c.nameLen.toNat

/-- The configuration of a device without a stored one. -/
def defaults : DeviceConfig := new.set DEFAULT_NAME DEFAULT_BAUD

/-- `as_bytes`, with the three bytes of padding. -/
def asBytes (c : DeviceConfig) : List UInt8 :=
  leBytes c.magic ++ c.name.bytes ++ [c.nameLen] ++ [0, 0, 0] ++ leBytes c.baud

end DeviceConfig

/-- `AutoConnectConfig`. -/
structure AutoConnectConfig where
  magic : UInt32
  enable : UInt8
  urlLen : UInt16
  url : Buffer URL_MAX
  deriving DecidableEq

namespace AutoConnectConfig

def new : AutoConnectConfig := ⟨0, 0, 0, .zero URL_MAX⟩

def enabled (c : AutoConnectConfig) : Bool := c.enable ≠ 0 ∧ 0 < c.urlLen

/-- `enable_set`. -/
def enableSet (c : AutoConnectConfig) : Bool := c.enable ≠ 0

/-- `url_str`, which is empty if the bytes are not UTF-8. -/
def urlStr (c : AutoConnectConfig) : List UInt8 :=
  let url := c.url.bytes.take (min c.urlLen.toNat URL_MAX)
  if validUtf8 url then url else []

def set (c : AutoConnectConfig) (enable : Bool) (url : List UInt8) : AutoConnectConfig where
  magic := AUTOCONN_CONFIG_MAGIC
  enable := if enable then 1 else 0
  urlLen := UInt16.ofNat (min url.length URL_MAX)
  url := c.url.copyFrom (url.take URL_MAX)

/-- `as_bytes`, with the byte of padding. -/
def asBytes (c : AutoConnectConfig) : List UInt8 :=
  leBytes c.magic ++ [c.enable, 0] ++ [c.urlLen.toUInt8, (c.urlLen >>> 8).toUInt8] ++ c.url.bytes

end AutoConnectConfig

/-- `AuthConfig`. -/
structure AuthConfig where
  magic : UInt32
  user : Buffer 32
  userLen : UInt8
  hasPass : UInt8
  salt : Buffer 16
  passHash : Buffer 32
  deriving DecidableEq

namespace AuthConfig

def new : AuthConfig := ⟨0, .zero 32, 0, 0, .zero 16, .zero 32⟩

/-- `is_set`, with `is_valid`. -/
def isSet (c : AuthConfig) : Bool := c.magic = AUTH_CONFIG_MAGIC ∧ 0 < c.userLen ∧ c.hasPass ≠ 0

/-- `user_str`; `none` where the stored length does not fit the buffer. -/
def userStr (c : AuthConfig) : Option (List UInt8) :=
  if c.userLen = 0 then some [] else c.user.slice c.userLen.toNat

/-- `salted_hash`, for a hash function of 32 bytes. -/
def saltedHash (sha256 : List UInt8 → List UInt8) (salt password : List UInt8) : Buffer 32 :=
  (Buffer.zero 32).copyFrom (sha256 (salt ++ password))

/-- `set`, with the numbers the generator draws. -/
def set (sha256 : List UInt8 → List UInt8) (random : ℕ → UInt32) (c : AuthConfig)
    (user password : List UInt8) : AuthConfig :=
  if user = [] ∨ password = [] then
    { c with
      magic := AUTH_CONFIG_MAGIC, userLen := 0, hasPass := 0, user := .zero 32, salt := .zero 16,
      passHash := .zero 32 }
  else
    let salt := c.salt.copyFrom ((List.range 4).flatMap fun (i : ℕ) => leBytes (random i))
    { c with
      magic := AUTH_CONFIG_MAGIC
      userLen := UInt8.ofNat (min user.length 32)
      user := c.user.copyFrom (user.take 32)
      salt := salt
      passHash := saltedHash sha256 salt.bytes password
      hasPass := 1 }

/-- `verify`, with `ct_eq`; `none` where the stored length does not fit the buffer. -/
def verify (sha256 : List UInt8 → List UInt8) (c : AuthConfig) (user password : List UInt8) :
    Option Bool :=
  if c.isSet = false then some true
  else
    (c.user.slice c.userLen.toNat).map fun stored =>
      user = stored && saltedHash sha256 c.salt.bytes password = c.passHash

/-- `as_bytes`, with the two bytes of padding. -/
def asBytes (c : AuthConfig) : List UInt8 :=
  leBytes c.magic ++ c.user.bytes ++ [c.userLen, c.hasPass, 0, 0] ++ c.salt.bytes ++ c.passHash.bytes

end AuthConfig

namespace Config

/-- `save`. -/
def save (flash : Flash) (io : FlashIo) (c : WifiConfig) : Flash × Bool :=
  saveAt WIFI_CONFIG_OFFSET 128 flash io c.asBytes

/-- `save_device`. -/
def saveDevice (flash : Flash) (io : FlashIo) (c : DeviceConfig) : Flash × Bool :=
  saveAt DEVICE_CONFIG_OFFSET 64 flash io c.asBytes

/-- `save_autoconnect`. -/
def saveAutoconnect (flash : Flash) (io : FlashIo) (c : AutoConnectConfig) : Flash × Bool :=
  saveAt AUTOCONN_CONFIG_OFFSET 384 flash io c.asBytes

/-- `save_auth`. -/
def saveAuth (flash : Flash) (io : FlashIo) (c : AuthConfig) : Flash × Bool :=
  saveAt AUTH_CONFIG_OFFSET 128 flash io c.asBytes

end Config
end EspcanBr
