import EspcanBr.Base.Search
import EspcanBr.Tools.Slcan

/-!
# Public-key pinning in the host tools

`extract_p256_pubkey` and `tls_connect` of `tools/slcan_router_tool.py` and `tools/slcan_tls_proxy.py`.
The certificate a server presents is a `Certificate`, with its DER encoding; the key that the TLS
library checks CertificateVerify against is the one in its SubjectPublicKeyInfo (`p256Key`). The tools
look for that key by the first occurrence of four bytes in the encoding, so a connection is pinned
exactly where these bytes occur first in the SubjectPublicKeyInfo (`MarksKey`).
-/

namespace EspcanBr.Tools
open Base Slcan

/-- The length octets of a DER value. -/
def derLength (n : ℕ) : List UInt8 :=
  if n < 128 then [UInt8.ofNat n]
  else
    let octets := (Nat.digits 256 n).reverse.map UInt8.ofNat
    UInt8.ofNat (128 + octets.length) :: octets

/-- The DER encoding of a value. -/
def der (tag : UInt8) (contents : List UInt8) : List UInt8 :=
  tag :: derLength contents.length ++ contents

/-- The contents of the AlgorithmIdentifier of P-256 keys: `id-ecPublicKey`, `prime256v1`. -/
def P256 : List UInt8 :=
  der 0x06 [0x2A, 0x86, 0x48, 0xCE, 0x3D, 0x02, 0x01] ++
    der 0x06 [0x2A, 0x86, 0x48, 0xCE, 0x3D, 0x03, 0x01, 0x07]

/-- An X.509 certificate by its fields: the contents of those that every certificate has, and the
encodings of the version and of what may follow the SubjectPublicKeyInfo. -/
structure Certificate where
  version : List UInt8
  serialNumber : List UInt8
  signature : List UInt8
  issuer : List UInt8
  validity : List UInt8
  subject : List UInt8
  algorithm : List UInt8
  unusedBits : UInt8
  publicKey : List UInt8
  extensions : List UInt8
  signatureAlgorithm : List UInt8
  signatureValue : List UInt8

namespace Certificate
variable (c : Certificate)

def subjectPublicKeyInfo : List UInt8 :=
  der 0x30 (der 0x30 c.algorithm ++ der 0x03 (c.unusedBits :: c.publicKey))

def tbsCertificate : List UInt8 :=
  der 0x30 (c.version ++ der 0x02 c.serialNumber ++ der 0x30 c.signature ++ der 0x30 c.issuer ++
    der 0x30 c.validity ++ der 0x30 c.subject ++ c.subjectPublicKeyInfo ++ c.extensions)

/-- The encoding of the certificate. -/
def encoding : List UInt8 :=
  der 0x30 (c.tbsCertificate ++ der 0x30 c.signatureAlgorithm ++ der 0x03 c.signatureValue)

/-- The P-256 key in the SubjectPublicKeyInfo, an uncompressed point. -/
def p256Key : Option (List UInt8) :=
  if c.algorithm = P256 ∧ c.unusedBits = 0 ∧ c.publicKey.length = 65 ∧ c.publicKey.head? = some 0x04 then
    some c.publicKey
  else none

end Certificate

/-- The bytes the tools look for: a BIT STRING of 66 bytes, no unused bits, an uncompressed point. -/
def MARK : List UInt8 := [0x03, 0x42, 0x00, 0x04]

/-- `extract_p256_pubkey`. -/
def extractP256Pubkey (der : List UInt8) : Option (List UInt8) :=
  match find MARK der with
  | none => none
  | some i =>
    let key := (der.drop (i + 3)).take 65
    if key.length = 65 then some key else none

/-- Why a tool does not connect. -/
inductive Refusal where
  | noPubkey
  | noCertificate
  | noKey
  | notHex (pinHex : List UInt8)
  | mismatch (expected got : List UInt8)
  deriving DecidableEq

/-- What a call of `tls_connect` ends in. -/
inductive Outcome where
  | exit (why : Refusal)
  | connectionError (why : Refusal)
  | connected
  deriving DecidableEq

/-- Python's truth of a string or a byte string that may be `None`. -/
def given (s : Option (List UInt8)) : Bool := s.any (· ≠ [])

/-- `tls_connect` after a handshake in which the server presented the certificate `der`, with the
exceptions that `refuse` chooses. -/
def tlsConnect (refuse : Refusal → Outcome) (pinHex : Option (List UInt8)) (insecure : Bool)
    (der : Option (List UInt8)) : Outcome :=
  if given pinHex = false ∧ insecure = false then refuse .noPubkey
  else if given der = false then refuse .noCertificate
  else
    match extractP256Pubkey (der.getD []) with
    | none => refuse .noKey
    | some serverKey =>
      if given pinHex then
        match fromhex (pinHex.getD []) with
        | none => refuse (.notHex (pinHex.getD []))
        | some expected =>
          if serverKey ≠ expected then refuse (.mismatch expected serverKey) else .connected
      else .connected

/-- `tls_connect` of `slcan_router_tool.py`, which exits. -/
def SlcanRouterTool.tlsConnect : Option (List UInt8) → Bool → Option (List UInt8) → Outcome :=
  Tools.tlsConnect .exit

/-- `tls_connect` of `slcan_tls_proxy.py`, which exits on what a user can mend, and does not tell a
certificate it cannot read from one without a key. -/
def SlcanTlsProxy.tlsConnect : Option (List UInt8) → Bool → Option (List UInt8) → Outcome :=
  Tools.tlsConnect fun
    | .noCertificate | .noKey => .connectionError .noKey
    | .mismatch expected got => .connectionError (.mismatch expected got)
    | why => .exit why

/-- The marker occurs first where the certificate's own key is, or before a copy of it, or where no 64
bytes follow. -/
def MarksKey (c : Certificate) : Prop :=
  ∀ pre post, FirstSplit MARK c.encoding pre post → 64 ≤ post.length →
    c.p256Key = some (0x04 :: post.take 64)

/-- With a pin the tool connects only where the certificate's key is the pinned one. -/
def Pins (connect : Option (List UInt8) → Bool → Option (List UInt8) → Outcome) (c : Certificate) :
    Prop :=
  ∀ pinHex insecure, pinHex ≠ [] → connect (some pinHex) insecure (some c.encoding) = .connected →
    ∃ key, fromhex pinHex = some key ∧ c.p256Key = some key

/-- What is extracted follows the first marker. -/
lemma extractP256Pubkey_eq_some {der key : List UInt8} :
    extractP256Pubkey der = some key ↔
      ∃ pre post, FirstSplit MARK der pre post ∧ 64 ≤ post.length ∧ key = 0x04 :: post.take 64 := by
  have slice : ∀ {pre post}, FirstSplit MARK der pre post →
      (der.drop (pre.length + 3)).take 65 = 0x04 :: post.take 64 := by
    intro pre post split
    rw [split.eq, List.append_assoc, List.drop_length_add_append]
    rfl
  rw [extractP256Pubkey]
  constructor
  · intro some
    split at some
    · cases some
    · rename_i i at_
      obtain ⟨pre, post, first, rfl⟩ := find_eq_some.mp at_
      simp only [slice first] at some
      split at some
      · rename_i len
        cases some
        refine ⟨pre, post, first, ?_, rfl⟩
        simp only [List.length_cons, List.length_take] at len
        omega
      · cases some
  · rintro ⟨pre, post, first, len, rfl⟩
    rw [find_eq_some.mpr ⟨pre, post, first, rfl⟩]
    simp only [slice first]
    rw [if_pos]
    simp only [List.length_cons, List.length_take]
    omega

lemma infix_der (tag : UInt8) (contents : List UInt8) : contents <:+: der tag contents :=
  (List.suffix_append _ _).isInfix

/-- The BIT STRING of the key is a part of the certificate. -/
lemma Certificate.bits_infix (c : Certificate) :
    der 0x03 (c.unusedBits :: c.publicKey) <:+: c.encoding := by
  have info : der 0x03 (c.unusedBits :: c.publicKey) <:+: c.subjectPublicKeyInfo :=
    (List.suffix_append _ _).isInfix.trans (infix_der _ _)
  have tbs : c.subjectPublicKeyInfo <:+: c.tbsCertificate :=
    (List.infix_append _ _ _).trans (infix_der _ _)
  have whole : c.tbsCertificate <:+: c.encoding := by
    rw [encoding, List.append_assoc]
    exact (List.prefix_append _ _).isInfix.trans (infix_der _ _)
  exact info.trans (tbs.trans whole)

/-- In a certificate with a P-256 key the marker occurs, and is followed by 64 bytes. -/
lemma Certificate.marked {c : Certificate} {key : List UInt8} (p256 : c.p256Key = some key) :
    ∃ pre post, FirstSplit MARK c.encoding pre post ∧ 64 ≤ post.length := by
  rw [p256Key] at p256
  split at p256
  · rename_i fields
    obtain ⟨-, unused, len, head⟩ := fields
    obtain ⟨point, key⟩ := List.head?_eq_some_iff.mp head
    rw [key, List.length_cons] at len
    have len := Nat.succ.inj len
    have bits : der 0x03 (c.unusedBits :: c.publicKey) = MARK ++ point := by
      rw [der, derLength, unused, key, List.length_cons, List.length_cons, len]
      rfl
    obtain ⟨pre, post, eq⟩ := c.bits_infix
    rw [bits, ← List.append_assoc, List.append_assoc] at eq
    obtain ⟨pre', post', first, before⟩ := FirstSplit.exists eq.symm
    have total := congrArg List.length (eq.trans first.eq)
    simp only [List.length_append] at total
    exact ⟨pre', post', first, by omega⟩
  · cases p256

/-- The tools extract the certificate's key exactly where the marker occurs first at that key. -/
lemma extract_iff (c : Certificate) : extractP256Pubkey c.encoding = c.p256Key ↔ MarksKey c := by
  constructor
  · intro eq pre post first len
    rw [← eq]
    exact extractP256Pubkey_eq_some.mpr ⟨pre, post, first, len, rfl⟩
  · intro marks
    cases p256 : c.p256Key with
    | none =>
      cases found : extractP256Pubkey c.encoding with
      | none => rfl
      | some key =>
        obtain ⟨pre, post, first, len, -⟩ := extractP256Pubkey_eq_some.mp found
        have own := marks pre post first len
        rw [p256] at own
        cases own
    | some key =>
      obtain ⟨pre, post, first, len⟩ := Certificate.marked p256
      rw [← p256, marks pre post first len]
      exact extractP256Pubkey_eq_some.mpr ⟨pre, post, first, len, rfl⟩

/-- With a pin a tool connects exactly if what it extracts is the pin. -/
lemma tlsConnect_connected {refuse : Refusal → Outcome} (refuses : ∀ why, refuse why ≠ .connected)
    {pinHex : List UInt8} (pin : pinHex ≠ []) (insecure : Bool) (c : Certificate) :
    tlsConnect refuse (some pinHex) insecure (some c.encoding) = .connected ↔
      ∃ key, fromhex pinHex = some key ∧ extractP256Pubkey c.encoding = some key := by
  have pinned : given (some pinHex) = true := by simp [given, pin]
  have cert : given (some c.encoding) = true := by simp [given, Certificate.encoding, der]
  simp only [tlsConnect, pinned, cert, Option.getD_some, Bool.true_eq_false, false_and, if_false,
    if_true]
  cases extractP256Pubkey c.encoding with
  | none => simp [refuses]
  | some key =>
    cases fromhex pinHex with
    | none => simp [refuses]
    | some expected =>
      by_cases same : key = expected
      · simp [same]
      · simp [refuses, same]

lemma given_eq_true {s : Option (List UInt8)} : given s = true ↔ ∃ text, s = some text ∧ text ≠ [] := by
  cases s <;> simp [given]

/-- A tool connects only where it may do so without a pin, or what it extracts is the pin. -/
lemma connected_pinned {refuse : Refusal → Outcome} (refuses : ∀ why, refuse why ≠ .connected)
    {pinHex certificate : Option (List UInt8)} {insecure : Bool}
    (connected : tlsConnect refuse pinHex insecure certificate = .connected) :
    (given pinHex = false ∧ insecure = true) ∨ ∃ pin der key, pinHex = some pin ∧ certificate = some der ∧
      fromhex pin = some key ∧ extractP256Pubkey der = some key := by
  rw [tlsConnect] at connected
  split at connected
  · exact absurd connected (refuses _)
  · rename_i allowed
    split at connected
    · exact absurd connected (refuses _)
    · rename_i cert
      obtain ⟨der, rfl, -⟩ := given_eq_true.mp (Bool.eq_true_of_not_eq_false cert)
      split at connected
      · exact absurd connected (refuses _)
      · rename_i key found
        split at connected
        · rename_i pinned
          obtain ⟨pin, rfl, -⟩ := given_eq_true.mp pinned
          split at connected
          · exact absurd connected (refuses _)
          · rename_i expected hex
            split at connected
            · exact absurd connected (refuses _)
            · rename_i same
              rw [ne_eq, not_not] at same
              subst same
              exact .inr ⟨pin, der, key, rfl, rfl, hex, found⟩
        · rename_i bare
          have bare := Bool.eq_false_of_not_eq_true bare
          exact .inl ⟨bare, Bool.eq_true_of_not_eq_false fun no => allowed ⟨bare, no⟩⟩

/-- A tool pins the certificate's key exactly where the marker occurs first at that key: on any other
certificate it takes a pin that is not the key. -/
lemma pins_iff {refuse : Refusal → Outcome} (refuses : ∀ why, refuse why ≠ .connected)
    (c : Certificate) : Pins (tlsConnect refuse) c ↔ MarksKey c := by
  rw [← extract_iff]
  constructor
  · intro pins
    cases found : extractP256Pubkey c.encoding with
    | none =>
      cases p256 : c.p256Key with
      | none => rfl
      | some key =>
        obtain ⟨pre, post, first, len⟩ := Certificate.marked p256
        have some := extractP256Pubkey_eq_some.mpr ⟨pre, post, first, len, rfl⟩
        rw [found] at some
        cases some
    | some key =>
      obtain ⟨_, _, _, _, cons⟩ := extractP256Pubkey_eq_some.mp found
      have ne : hexPairs key ≠ [] := by
        rw [cons]
        exact nofun
      obtain ⟨_, pin, own⟩ := pins (hexPairs key) false ne
        ((tlsConnect_connected refuses ne false c).mpr ⟨key, fromhex_hexPairs key, found⟩)
      rw [own, ← pin, fromhex_hexPairs]
  · intro eq pinHex insecure ne connected
    rw [← eq]
    exact (tlsConnect_connected refuses ne insecure c).mp connected

/-- Pinning, for every certificate: both tools take a pin only where it is the key of the certificate's
SubjectPublicKeyInfo, and extract that key (and none if it is not a P-256 key), if and only if the first
marker in the certificate that 64 bytes follow is the one of that key or a copy of it. -/
theorem pinning_sound (c : Certificate) :
    (Pins SlcanRouterTool.tlsConnect c ↔ MarksKey c) ∧ (Pins SlcanTlsProxy.tlsConnect c ↔ MarksKey c) ∧
      (extractP256Pubkey c.encoding = c.p256Key ↔ MarksKey c) := by
  refine ⟨pins_iff ?_ c, pins_iff ?_ c, extract_iff c⟩
  · intro why
    exact nofun
  · intro why
    cases why with
    | _ => exact nofun

/-- The key of a server, twice the generator of the curve. -/
def serverPoint : List UInt8 :=
  [0x04,
    0x7C, 0xF2, 0x7B, 0x18, 0x8D, 0x03, 0x4F, 0x7E, 0x8A, 0x52, 0x38, 0x03, 0x04, 0xB5, 0x1A, 0xC3,
    0xC0, 0x89, 0x69, 0xE2, 0x77, 0xF2, 0x1B, 0x35, 0xA6, 0x0B, 0x48, 0xFC, 0x47, 0x66, 0x99, 0x78,
    0x07, 0x77, 0x55, 0x10, 0xDB, 0x8E, 0xD0, 0x40, 0x29, 0x3D, 0x9A, 0xC6, 0x9F, 0x74, 0x30, 0xDB,
    0xBA, 0x7D, 0xAD, 0xE6, 0x3C, 0xE9, 0x82, 0x29, 0x9E, 0x04, 0xB7, 0x9D, 0x22, 0x78, 0x73, 0xD1]

/-- The generator of the curve, another key. -/
def otherPoint : List UInt8 :=
  [0x04,
    0x6B, 0x17, 0xD1, 0xF2, 0xE1, 0x2C, 0x42, 0x47, 0xF8, 0xBC, 0xE6, 0xE5, 0x63, 0xA4, 0x40, 0xF2,
    0x77, 0x03, 0x7D, 0x81, 0x2D, 0xEB, 0x33, 0xA0, 0xF4, 0xA1, 0x39, 0x45, 0xD8, 0x98, 0xC2, 0x96,
    0x4F, 0xE3, 0x42, 0xE2, 0xFE, 0x1A, 0x7F, 0x9B, 0x8E, 0xE7, 0xEB, 0x4A, 0x7C, 0x0F, 0x9E, 0x16,
    0x2B, 0xCE, 0x33, 0x57, 0x6B, 0x31, 0x5E, 0xCE, 0xCB, 0xB6, 0x40, 0x68, 0x37, 0xBF, 0x51, 0xF5]

/-- The contents of the AlgorithmIdentifier `ecdsa-with-SHA256`. -/
def ecdsaWithSHA256 : List UInt8 := der 0x06 [0x2A, 0x86, 0x48, 0xCE, 0x3D, 0x04, 0x03, 0x02]

/-- A certificate for `otherPoint` whose issuer and subject have `serverPoint` as the BIT STRING of
their `x500UniqueIdentifier`. -/
def forged : Certificate where
  version := der 0xA0 (der 0x02 [2])
  serialNumber := [1]
  signature := ecdsaWithSHA256
  issuer := der 0x31 (der 0x30 (der 0x06 [0x55, 0x04, 0x2D] ++ der 0x03 (0 :: serverPoint)))
  validity := der 0x17 (['2', '5', '0', '1', '0', '1', '0', '0', '0', '0', '0', '0', 'Z'].map ch) ++
    der 0x17 (['3', '5', '0', '1', '0', '1', '0', '0', '0', '0', '0', '0', 'Z'].map ch)
  subject := der 0x31 (der 0x30 (der 0x06 [0x55, 0x04, 0x2D] ++ der 0x03 (0 :: serverPoint)))
  algorithm := P256
  unusedBits := 0
  publicKey := otherPoint
  extensions := []
  signatureAlgorithm := ecdsaWithSHA256
  signatureValue := 0 :: der 0x30 (der 0x02 [1] ++ der 0x02 [1])

/-- A server that holds `otherPoint` passes for the one that is pinned. -/
theorem forged_is_pinned :
    ¬ ∀ c : Certificate, Pins SlcanRouterTool.tlsConnect c ∧ Pins SlcanTlsProxy.tlsConnect c ∧
      extractP256Pubkey c.encoding = c.p256Key := by
  intro sound
  have own : forged.p256Key = some otherPoint := by decide +kernel
  have connected : SlcanRouterTool.tlsConnect (some (hexPairs serverPoint)) false
      (some forged.encoding) = .connected := by decide +kernel
  obtain ⟨key, pin, eq⟩ := (sound forged).1 (hexPairs serverPoint) false nofun connected
  rw [fromhex_hexPairs] at pin
  rw [own, ← pin] at eq
  cases eq

end EspcanBr.Tools
