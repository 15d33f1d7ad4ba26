import EspcanBr.Base.Text

/-!
# Auto-connect URLs

`parse_url` and `parse_pubkey` of `src/autoconnect.rs`, and the part of `resolve` that reads an address.
-/

namespace EspcanBr.Autoconnect
open Base

/-- `ParsedUrl`. -/
structure ParsedUrl where
  tls : Bool
  host : List UInt8
  port : UInt16
  pubkey : Option (List UInt8)
  token : Option (List UInt8)
  deriving DecidableEq

/-- The values of `pubkey` and `token` after one more pair of the query. -/
def queryPair (found : Option (List UInt8) × Option (List UInt8)) (kv : List UInt8) :
    Option (List UInt8) × Option (List UInt8) :=
  match splitOnce (ascii "=") kv with
  | some (k, v) =>
    if k = ascii "pubkey" then (some v, found.2)
    else if k = ascii "token" then (found.1, some v)
    else found
  | none => found

/-- `parse_url`. -/
def parseUrl (url : List UInt8) : Option ParsedUrl := do
  let (scheme, rest) ← splitOnce (ascii "://") url
  let tls ← if scheme = ascii "tls" then some true else if scheme = ascii "tcp" then some false else none
  let (beforeQ, query) :=
    match splitOnce (ascii "?") rest with
    | some (b, q) => (b, some q)
    | none => (rest, none)
  let (host, portStr) ← rsplitOnce 0x3A (beforeQ.rdropWhile (· = 0x2F))
  let port ← parseUnsigned (2 ^ 16 - 1) portStr
  if host = [] then none
  else
    let (pubkey, token) :=
      match query with
      | some q => (split (ascii "&") q).foldl queryPair (none, none)
      | none => (none, none)
    some ⟨tls, host, UInt16.ofNat port, pubkey, token⟩

/-- `parse_pubkey`, with `hexval`: 65 bytes in hexadecimal, of which the first is 4. -/
def parsePubkey (hex : List UInt8) : Option (List UInt8) :=
  if hex.length ≠ 130 then none
  else (hexBytes hex).bind fun out => if out.head? = some 0x04 then some out else none

/-- A part of a dotted address: up to three digits without a leading zero, at most 255. -/
def parseOctet (s : List UInt8) : Option UInt8 :=
  if s = [] ∨ 3 < s.length ∨ (1 < s.length ∧ s.head? = some 0x30) then none
  else (decimalFrom 0 s).bind fun n => if n ≤ 255 then some (UInt8.ofNat n) else none

/-- `host.parse::<Ipv4Addr>()`. -/
def parseIpv4 (host : List UInt8) : Option (List UInt8) :=
  let parts := split (ascii ".") host
  if parts.length = 4 then parts.mapM parseOctet else none

end EspcanBr.Autoconnect
