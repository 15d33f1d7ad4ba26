import EspcanBr.Base.Search

/-!
# The verifier of the outbound TLS link

`extract_p256_pubkey` and `PinnedVerifier` of `src/autoconnect.rs`. What `p256` and `sha2` compute is a
parameter (`Crypto`). A handshake is authenticated by a pin where the key found in the server's first
certificate is the pin, and the CertificateVerify signature over its transcript is valid under it
(`Authenticated`); `verifySignature_pinned` shows that a pinned verifier accepts nothing else.
-/

namespace EspcanBr.Autoconnect
open Base

/-- The parts of `sha2` and `p256` the verifier uses: the digest of the bytes hashed, whether bytes are
a key and a signature, and whether a signature of a message is valid under a key. -/
structure Crypto where
  sha256 : List UInt8 → List UInt8
  fromSec1Bytes : List UInt8 → Bool
  fromDer : List UInt8 → Bool
  verify : List UInt8 → List UInt8 → List UInt8 → Bool

/-- The errors of `embedded_tls` the verifier returns. -/
inductive TlsError where
  | invalidCertificate
  | decodeError
  | invalidSignatureScheme
  | invalidSignature
  deriving DecidableEq

inductive SignatureScheme where
  | ecdsaSecp256r1Sha256
  | other (code : UInt16)
  deriving DecidableEq

inductive CertificateEntry where
  | x509 (der : List UInt8)
  | rawPublicKey (key : List UInt8)
  deriving DecidableEq

/-- `CertificateVerifyRef`. -/
structure CertificateVerify where
  scheme : SignatureScheme
  signature : List UInt8
  deriving DecidableEq

/-- The bytes at the start of a P-256 key's BIT STRING. -/
def POINT : List UInt8 := [0x03, 0x42, 0x00, 0x04]

/-- `extract_p256_pubkey`. -/
def extractP256Pubkey (der : List UInt8) : Option (List UInt8) :=
  (find POINT der).bind fun i =>
    let start := i + 3
    if start + 65 ≤ der.length then some ((der.drop start).take 65) else none

/-- `PinnedVerifier`, with the bytes of the transcript for its hash state. -/
structure PinnedVerifier where
  pin : Option (List UInt8)
  serverKey : Option (List UInt8)
  transcript : Option (List UInt8)
  deriving DecidableEq

/-- `PinnedProvider::new`. -/
def PinnedVerifier.new (pin : Option (List UInt8)) : PinnedVerifier := ⟨pin, none, none⟩

/-- The key that is found in the first certificate. -/
def firstKey (entries : List CertificateEntry) : Option (List UInt8) :=
  match entries.head? with
  | some (.x509 der) => extractP256Pubkey der
  | _ => none

/-- `verify_certificate`, which always succeeds; the key is also published. -/
def PinnedVerifier.verifyCertificate (v : PinnedVerifier) (transcript : List UInt8)
    (entries : List CertificateEntry) : PinnedVerifier :=
  { v with serverKey := firstKey entries, transcript := some transcript }

/-- What CertificateVerify signs: 64 spaces, the context and the digest of the transcript. -/
def signedData (C : Crypto) (transcript : List UInt8) : List UInt8 :=
  List.replicate 64 0x20 ++ "TLS 1.3, server CertificateVerify".toList.map Char.toUInt8 ++ [0] ++
    C.sha256 transcript

/-- The end of `verify_signature`: the check of the signature under `key`. -/
def checkSignature (C : Crypto) (key transcript : List UInt8) (verify : CertificateVerify) :
    Except TlsError Unit :=
  match verify.scheme with
  | .ecdsaSecp256r1Sha256 =>
    if C.fromSec1Bytes key = false then .error .decodeError
    else if C.fromDer verify.signature = false then .error .decodeError
    else if C.verify key (signedData C transcript) verify.signature then .ok ()
    else .error .invalidSignature
  | .other _ => .error .invalidSignatureScheme

/-- `verify_signature`: the verifier after it, whether it flagged a mismatch of the pin, and the
result. -/
def PinnedVerifier.verifySignature (C : Crypto) (v : PinnedVerifier) (verify : CertificateVerify) :
    PinnedVerifier × Bool × Except TlsError Unit :=
  match v.serverKey with
  | none => (v, false, if v.pin.isSome then .error .invalidCertificate else .ok ())
  | some key =>
    if v.pin.any (· ≠ key) then (v, true, .error .invalidCertificate)
    else
      match v.transcript with
      | none => (v, false, .error .decodeError)
      | some transcript =>
        ({ v with transcript := none }, false, checkSignature C key transcript verify)

/-- The handshake with these certificates, transcript and signature is authenticated by `pin`. -/
structure Authenticated (C : Crypto) (pin : List UInt8) (entries : List CertificateEntry)
    (transcript : List UInt8) (verify : CertificateVerify) : Prop where
  key : firstKey entries = some pin
  scheme : verify.scheme = .ecdsaSecp256r1Sha256
  sec1 : C.fromSec1Bytes pin = true
  der : C.fromDer verify.signature = true
  signature : C.verify pin (signedData C transcript) verify.signature = true

lemma checkSignature_ok {C : Crypto} {key transcript : List UInt8} {verify : CertificateVerify}
    (ok : checkSignature C key transcript verify = .ok ()) :
    verify.scheme = .ecdsaSecp256r1Sha256 ∧ C.fromSec1Bytes key = true ∧
      C.fromDer verify.signature = true ∧
      C.verify key (signedData C transcript) verify.signature = true := by
  rw [checkSignature] at ok
  split at ok
  · rename_i scheme
    split at ok
    · cases ok
    · rename_i sec1
      split at ok
      · cases ok
      · rename_i der
        split at ok
        · exact ⟨scheme, Bool.not_eq_false _ ▸ sec1, Bool.not_eq_false _ ▸ der, ‹_›⟩
        · cases ok
  · cases ok

/-- After `verify_certificate` a verifier with a pin accepts a signature only in an authenticated
handshake. -/
theorem verifySignature_pinned {C : Crypto} {v : PinnedVerifier} {pin transcript : List UInt8}
    {entries : List CertificateEntry} {verify : CertificateVerify} (pinned : v.pin = some pin)
    (key : v.serverKey = firstKey entries) (hashed : v.transcript = some transcript)
    (ok : (v.verifySignature C verify).2.2 = .ok ()) :
    Authenticated C pin entries transcript verify := by
  rw [PinnedVerifier.verifySignature, pinned, hashed] at ok
  split at ok
  · cases ok
  · rename_i server found
    rw [found] at key
    split at ok
    · cases ok
    · rename_i same
      have eq : pin = server := by simpa using same
      obtain ⟨scheme, sec1, der, signature⟩ := checkSignature_ok ok
      subst eq
      exact ⟨key.symm, scheme, sec1, der, signature⟩

/-- The pin stays what it is. -/
lemma verifySignature_pin (C : Crypto) (v : PinnedVerifier) (verify : CertificateVerify) :
    (v.verifySignature C verify).1.pin = v.pin := by
  rw [PinnedVerifier.verifySignature]
  split
  · rfl
  · split
    · rfl
    · split
      · rfl
      · rfl

end EspcanBr.Autoconnect
