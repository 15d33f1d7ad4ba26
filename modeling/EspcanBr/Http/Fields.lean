import EspcanBr.Base.Form
import EspcanBr.Http.Saves

/-!
# Forms that are saved

What becomes of the fields of a form. A handler decodes a field into a buffer of a fixed size and stops
when that is full, without an error; so what is stored is the front of the submitted value that fits, and
the value itself if and only if it fits (`fields_stored`).
-/

namespace EspcanBr.Http
open Base Config

/-- The decoder writes what the text stands for, as far as there is room. -/
lemma urlDecodeInto_eq (room : ℕ) (text : List UInt8) :
    urlDecodeInto room text = (formDecode text).take room := by
  induction room generalizing text with
  | zero => rw [urlDecodeInto, List.take_zero]
  | succ room ih =>
    have single : ∀ b rest, percent (b :: rest) = none →
        urlDecodeInto (room + 1) (b :: rest) = unplus b :: (formDecode rest).take room := by
      intro b rest none
      rw [urlDecodeInto, none, ← ih]
      rfl
    rcases text with _ | ⟨b, rest⟩
    · rfl
    · by_cases escape : b = 0x25
      · subst escape
        rcases rest with _ | ⟨h, _ | ⟨l, rest⟩⟩
        · rw [single _ _ rfl]
          rfl
        · rw [single _ _ rfl]
          rfl
        · cases high : hexVal h with
          | none =>
            rw [single _ _ (by simp [percent, hexNibble, high]), formDecode, if_pos rfl, high]
            rfl
          | some h' =>
            cases low : hexVal l with
            | none =>
              rw [single _ _ (by simp [percent, hexNibble, high, low]), formDecode, if_pos rfl, high, low]
              rfl
            | some l' =>
              have value : percent (0x25 :: h :: l :: rest) = some (h' <<< 4 ||| l', rest) := by
                simp [percent, hexNibble, high, low]
              rw [urlDecodeInto, value, formDecode_escape high low, List.take_succ_cons, ← ih]
      · have none : percent (b :: rest) = none := by
          rcases rest with _ | ⟨h, _ | ⟨l, rest⟩⟩
          · rfl
          · rfl
          · exact if_neg escape
        rw [single b rest none, formDecode_cons escape, List.take_succ_cons]

/-- Of a form the first pair with the key is found. -/
lemma findFormValue_form {body : List UInt8} {pairs : List Pair} (form : Form body pairs)
    (key : List UInt8) : findFormValue body key = formValue pairs key := by
  have equals : ascii "=" = [0x3D] := by decide
  have amp : ascii "&" = [0x26] := by decide
  rw [findFormValue, amp, equals, form.pieces, List.findSome?_map, formValue]
  -- on the pairs: each is cut at its equals sign
  have keys := form.keys
  clear form
  induction pairs with
  | nil => rfl
  | cons pair pairs ih =>
    have cut := splitOnce_pair (keys pair List.mem_cons_self).2
    have rest := ih fun other mem => keys other (List.mem_cons_of_mem _ mem)
    rw [List.findSome?_cons, List.findSome?_cons, rest, Function.comp_apply, cut]
    obtain ⟨k, _ | value⟩ := pair
    · simp
    · rfl

/-- The value that a form has for a key, decoded; nothing if it is missing. -/
def submitted (pairs : List Pair) (key : String) : List UInt8 :=
  ((formValue pairs (ascii key)).map formDecode).getD []

/-- A field is the front of the submitted value. -/
lemma field_form {body : List UInt8} {pairs : List Pair} (form : Form body pairs) (size : ℕ)
    (key : String) : field size body (ascii key) = (submitted pairs key).take size := by
  rw [field, submitted, findFormValue_form form]
  cases formValue pairs (ascii key) with
  | none => simp
  | some text =>
    simp only [Option.map_some, Option.getD_some]
    exact urlDecodeInto_eq size text

/-- A field of at most `n` bytes keeps the front of the value, and so the value itself if and only if it
fits. -/
def Kept (n : ℕ) (stored : Option (List UInt8)) (value : List UInt8) : Prop :=
  stored = some (value.take n) ∧ (stored = some value ↔ value.length ≤ n)

lemma Kept.of_eq {n : ℕ} {stored : Option (List UInt8)} {value : List UInt8}
    (eq : stored = some (value.take n)) : Kept n stored value := by
  refine ⟨eq, ?_⟩
  rw [eq, Option.some.injEq, List.take_eq_self_iff]

/-- A buffer gives back what was copied into it. -/
lemma take_copyFrom {n : ℕ} (b : Buffer n) (s : List UInt8) :
    (b.copyFrom (s.take n)).bytes.take (min s.length n) = s.take n := by
  have len : min s.length n = (s.take n).length := by
    rw [List.length_take, Nat.min_comm]
  have bytes : (b.copyFrom (s.take n)).bytes = s.take n ++ b.bytes.drop (s.take n).length := by
    simp [Buffer.copyFrom]
  rw [bytes, len, List.take_left]

lemma slice_copyFrom {n : ℕ} (b : Buffer n) (s : List UInt8) :
    (b.copyFrom (s.take n)).slice (min s.length n) = some (s.take n) := by
  rw [Buffer.slice, if_pos (Nat.min_le_right _ _), take_copyFrom]

lemma length_byte {k n : ℕ} (small : n < 256) : (UInt8.ofNat (min k n)).toNat = min k n := by
  rw [UInt8.toNat_ofNat']
  omega

/-- The URL that was set, if its front is UTF-8. -/
lemma urlStr_set (c : AutoConnectConfig) (enable : Bool) (url : List UInt8) :
    (c.set enable url).urlStr = if validUtf8 (url.take URL_MAX) then url.take URL_MAX else [] := by
  have max : URL_MAX = 256 := rfl
  have len : (UInt16.ofNat (min url.length URL_MAX)).toNat = min url.length URL_MAX := by
    rw [UInt16.toNat_ofNat']
    omega
  simp only [AutoConnectConfig.urlStr, AutoConnectConfig.set, len]
  rw [Nat.min_assoc, Nat.min_self, take_copyFrom]

/-- The network that a form has. -/
structure WifiKept (c : WifiConfig) (pairs : List Pair) : Prop where
  ssid : Kept 32 (c.ssid.slice c.ssidLen.toNat) (submitted pairs "ssid")
  password : Kept 64 (c.password.slice c.passwordLen.toNat) (submitted pairs "password")

/-- The URL that a form has; one whose front is not UTF-8 is dropped. -/
structure UrlKept (c : AutoConnectConfig) (pairs : List Pair) : Prop where
  text : validUtf8 ((submitted pairs "url").take URL_MAX) = true →
    Kept URL_MAX (some c.urlStr) (submitted pairs "url")
  other : validUtf8 ((submitted pairs "url").take URL_MAX) = false → c.urlStr = []

/-- The login that a form has. The hash is that of the front of the password. A form without a user or
without a password is one without a login. -/
structure LoginKept (sha256 : List UInt8 → List UInt8) (c : AuthConfig) (pairs : List Pair) : Prop where
  login : submitted pairs "user" ≠ [] → submitted pairs "pass" ≠ [] →
    Kept 32 (c.user.slice c.userLen.toNat) (submitted pairs "user") ∧
    c.passHash = AuthConfig.saltedHash sha256 c.salt.bytes ((submitted pairs "pass").take 64)
  none : submitted pairs "user" = [] ∨ submitted pairs "pass" = [] → c.isSet = false

section
variable {body : List UInt8} {pairs : List Pair} (form : Form body pairs)
include form

lemma saveWifi_kept (io : Io) (d : Device) (accepted : ¬ Refused (saveWifi io d body).2) :
    WifiKept (saveWifi io d body).1.wifi pairs := by
  simp only [saveWifi, field_form form] at accepted ⊢
  split
  · rename_i blank
    rw [if_pos blank] at accepted
    exact absurd (.inl rfl) accepted
  · refine ⟨.of_eq ?_, .of_eq ?_⟩
    · simp only [WifiConfig.setCredentials, length_byte (show 32 < 256 by decide)]
      rw [slice_copyFrom, List.take_take, Nat.min_self]
    · simp only [WifiConfig.setCredentials, length_byte (show 64 < 256 by decide)]
      rw [slice_copyFrom, List.take_take, Nat.min_self]

lemma saveDevice_kept (io : Io) (d : Device) (accepted : ¬ Refused (Http.saveDevice io d body).2) :
    Kept 32 (Http.saveDevice io d body).1.device.nameStr (submitted pairs "name") := by
  simp only [Http.saveDevice, field_form form] at accepted ⊢
  split
  · rename_i bad
    rw [if_pos bad] at accepted
    exact absurd (.inr (.inl rfl)) accepted
  · rename_i valid
    apply Kept.of_eq
    have pos : 0 < UInt8.ofNat (min ((submitted pairs "name").take 32).length 32) :=
      length_pos fun blank => valid (.inl blank)
    have ne : UInt8.ofNat (min ((submitted pairs "name").take 32).length 32) ≠ 0 := by
      intro zero
      rw [zero] at pos
      exact absurd pos (by decide)
    simp only [DeviceConfig.nameStr, DeviceConfig.set, if_neg ne, length_byte (show 32 < 256 by decide)]
    rw [slice_copyFrom, List.take_take, Nat.min_self]

lemma saveAutoconnect_kept (io : Io) (d : Device) :
    UrlKept (Http.saveAutoconnect io d body).1.autoconnect pairs := by
  simp only [Http.saveAutoconnect, field_form form]
  cases utf8 : validUtf8 ((submitted pairs "url").take URL_MAX) with
  | true =>
    refine ⟨fun _ => .of_eq ?_, fun other => ?_⟩
    · rw [if_pos rfl, urlStr_set, List.take_take, Nat.min_self, utf8, if_pos rfl]
    · rw [utf8] at other
      cases other
  | false =>
    refine ⟨fun text => ?_, fun _ => ?_⟩
    · rw [utf8] at text
      cases text
    · rw [if_neg Bool.false_ne_true, urlStr_set]
      rfl

lemma saveAuth_kept (sha256 : List UInt8 → List UInt8) (io : Io) (d : Device)
    (accepted : ¬ Refused (Http.saveAuth sha256 io d body).2) :
    LoginKept sha256 (Http.saveAuth sha256 io d body).1.auth pairs := by
  have blank : ∀ {n key}, (submitted pairs key).take (n + 1) = [] ↔ submitted pairs key = [] := by
    simp
  have auth : (Http.saveAuth sha256 io d body).1.auth = AuthConfig.new.set sha256 io.random
      ((submitted pairs "user").take 32) ((submitted pairs "pass").take 64) := by
    rw [saveAuth_auth, field_form form, field_form form]
    split
    · rename_i colon
      refine absurd ?_ accepted
      simp only [Http.saveAuth, field_form form, if_pos colon]
      exact .inr (.inr rfl)
    · rfl
  rw [auth]
  refine ⟨fun user pass => ?_, fun empty => ?_⟩
  · rw [AuthConfig.set, if_neg (by simpa using ⟨user, pass⟩)]
    refine ⟨.of_eq ?_, rfl⟩
    simp only [length_byte (show 32 < 256 by decide)]
    rw [slice_copyFrom, List.take_take, Nat.min_self]
  · rw [← Bool.not_eq_true, isSet_set, ne_eq, ne_eq, blank, blank]
    tauto

end

/-- The fields of a form; every body is one. What a handler stores for a form is, field by field, the
front of the submitted value that fits, which is the value itself if and only if it fits; and what a
write that succeeds puts into flash is the same configuration. -/
theorem fields_stored (sha256 : List UInt8 → List UInt8) (io : Io) (d : Device) (body : List UInt8) :
    (∃ pairs, Form body pairs) ∧
    (∀ pairs, Form body pairs →
      (¬ Refused (saveWifi io d body).2 → WifiKept (saveWifi io d body).1.wifi pairs) ∧
      (¬ Refused (Http.saveDevice io d body).2 →
        Kept 32 (Http.saveDevice io d body).1.device.nameStr (submitted pairs "name")) ∧
      UrlKept (Http.saveAutoconnect io d body).1.autoconnect pairs ∧
      (¬ Refused (Http.saveAuth sha256 io d body).2 →
        LoginKept sha256 (Http.saveAuth sha256 io d body).1.auth pairs)) ∧
    ∀ h, Succeeded (Handler.run sha256 h io d body).2 →
      loadKind h.kind (h.run sha256 io d body).1.flash =
        some ((h.run sha256 io d body).1.config h.kind) := by
  refine ⟨exists_form body, fun pairs form => ?_, fun h => (run_ends sha256 h io d body).succeeded⟩
  exact ⟨saveWifi_kept form io d, saveDevice_kept form io d, saveAutoconnect_kept form io d,
    saveAuth_kept form sha256 io d⟩

/-- The name of a network with one byte more than there is room for. -/
def longName : List UInt8 := List.replicate 33 0x61

/-- It is cut, and stored. -/
theorem name_cut :
    ¬ ∀ body pairs io d, Form body pairs → Succeeded (saveWifi io d body).2 →
      (saveWifi io d body).1.wifi.ssid.slice (saveWifi io d body).1.wifi.ssidLen.toNat =
        some (submitted pairs "ssid") := by
  intro whole
  have form : Form (ascii "ssid=" ++ longName) [(ascii "ssid", some longName)] := by
    refine ⟨by decide, by decide, by decide, fun pair mem value eq => ?_⟩
    cases List.mem_singleton.mp mem
    cases eq
    decide
  have stored := whole _ _ ⟨.written, fun _ => 0⟩ .new form (.inl (by decide +kernel))
  revert stored
  decide +kernel

end EspcanBr.Http
