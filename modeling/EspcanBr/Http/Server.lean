import EspcanBr.Http.Request

/-!
# The web server

The save handlers and `handle_request` of `src/http.rs`.
-/

namespace EspcanBr.Http
open Base Config

/-- `hex_nibble`. -/
def hexNibble (c : UInt8) : Option UInt8 := hexVal c

/-- `find_form_value`. -/
def findFormValue (body key : List UInt8) : Option (List UInt8) :=
  (split (ascii "&") body).findSome? fun pair => do
    let (k, v) ← splitOnce (ascii "=") pair
    if k = key then some v else none

/-- A byte written as `%XX`, and what follows it. -/
def percent : List UInt8 → Option (UInt8 × List UInt8)
  | b :: h :: l :: rest =>
    if b = 0x25 then
      match hexNibble h, hexNibble l with
      | some h, some l => some (h <<< 4 ||| l, rest)
      | _, _ => none
    else none
  | _ => none

/-- `url_decode_into`: the bytes written to a buffer with so much room. -/
def urlDecodeInto : ℕ → List UInt8 → List UInt8
  | 0, _ => []
  | _ + 1, [] => []
  | room + 1, b :: rest =>
    match percent (b :: rest) with
    | some (v, rest) => v :: urlDecodeInto room rest
    | none => (if b = 0x2B then 0x20 else b) :: urlDecodeInto room rest

/-- A field of a form, decoded into a buffer of the given size; empty if it is missing. -/
def field (size : ℕ) (body key : List UInt8) : List UInt8 :=
  ((findFormValue body key).map (urlDecodeInto size)).getD []

/-- What a client gets: the bytes of a fixed answer, or one of the pages that show the state. -/
inductive Response where
  | text (bytes : List UInt8)
  | indexPage
  | statusJson
  deriving DecidableEq

/-- An answer of plain text, with its length. -/
def plain (status headers msg : String) : Response :=
  .text (ascii status ++ ascii headers ++ decimal (ascii msg).length ++
    ascii "\r\nConnection: close\r\n\r\n" ++ ascii msg)

/-- `unauthorized`. -/
def unauthorized : Response :=
  plain "HTTP/1.1 401 Unauthorized\r\nWWW-Authenticate: Basic realm=\"espcan_br\"\r\n"
    "Content-Type: text/plain\r\nContent-Length: " "Authentication required.\n"

def notFound : Response := .text (ascii "HTTP/1.1 404 Not Found\r\nContent-Length: 0\r\n\r\n")

def badRequest : Response := .text (ascii "HTTP/1.1 400 Bad Request\r\nContent-Length: 0\r\n\r\n")

def badName : Response :=
  .text (ascii "HTTP/1.1 400 Bad Request\r\nContent-Type: text/plain\r\nContent-Length: 9\r\n\r\nbad name\n")

def badUser : Response :=
  plain "HTTP/1.1 400 Bad Request\r\n" "Content-Type: text/plain\r\nContent-Length: "
    "username may not contain ':'\n"

def saveFailed : Response :=
  .text (ascii "HTTP/1.1 500 Internal Server Error\r\nContent-Length: 12\r\n\r\nsave failed\n")

/-- The answer to a login that was saved. -/
def loginSaved (disabled : Bool) : Response :=
  plain "HTTP/1.1 200 OK\r\n" "Content-Type: text/plain\r\nContent-Length: "
    (if disabled then "Web login disabled.\n" else "Web login updated.\n")

/-- How a handler ends: with an answer, or with a reset of the device. -/
inductive Outcome where
  | response (r : Response)
  | reset
  deriving DecidableEq

/-- The statics and the flash that requests read and write. -/
structure Device where
  wifi : WifiConfig
  device : DeviceConfig
  autoconnect : AutoConnectConfig
  auth : AuthConfig
  flash : Flash
  gpio0Held : Bool

/-- What a request finds besides: the outcome of a save, and the numbers the generator draws. -/
structure Io where
  flash : FlashIo
  random : ℕ → UInt32

/-- `save_wifi`. -/
def saveWifi (io : Io) (d : Device) (body : List UInt8) : Device × Outcome :=
  let ssid := field 32 body (ascii "ssid")
  let pass := field 64 body (ascii "password")
  if ssid = [] then (d, .response badRequest)
  else
    let cfg := WifiConfig.new.setCredentials ssid pass
    let (flash, saved) := save d.flash io.flash cfg
    ({ d with flash := flash, wifi := cfg }, if saved then .reset else .response saveFailed)

/-- The characters of a device name. -/
def isNameChar (b : UInt8) : Bool :=
  0x30 ≤ b ∧ b ≤ 0x39 ∨ 0x41 ≤ b ∧ b ≤ 0x5A ∨ 0x61 ≤ b ∧ b ≤ 0x7A ∨ b = 0x2D

/-- `save_device`. -/
def saveDevice (io : Io) (d : Device) (body : List UInt8) : Device × Outcome :=
  let name := field 32 body (ascii "name")
  if name = [] ∨ ¬ name.all isNameChar then (d, .response badName)
  else
    let text := field 16 body (ascii "baud")
    let number := if validUtf8 text then parseUnsigned (2 ^ 32 - 1) (trim text) else none
    let baud := ((number.map UInt32.ofNat).filter (0 < ·)).getD DEFAULT_BAUD
    let cfg := DeviceConfig.defaults.set name baud
    let (flash, saved) := Config.saveDevice d.flash io.flash cfg
    ({ d with flash := flash, device := cfg }, if saved then .reset else .response saveFailed)

/-- `save_autoconnect`. -/
def saveAutoconnect (io : Io) (d : Device) (body : List UInt8) : Device × Outcome :=
  let enable := (findFormValue body (ascii "enable")).isSome
  let text := field URL_MAX body (ascii "url")
  let url := if validUtf8 text then text else []
  let cfg := AutoConnectConfig.new.set enable url
  let (flash, saved) := Config.saveAutoconnect d.flash io.flash cfg
  ({ d with flash := flash, autoconnect := cfg }, if saved then .reset else .response saveFailed)

/-- `save_auth`. -/
def saveAuth (sha256 : List UInt8 → List UInt8) (io : Io) (d : Device) (body : List UInt8) :
    Device × Outcome :=
  let user := field 32 body (ascii "user")
  let pass := field 64 body (ascii "pass")
  if 0x3A ∈ user then (d, .response badUser)
  else
    let cfg := AuthConfig.new.set sha256 io.random user pass
    let (flash, saved) := Config.saveAuth d.flash io.flash cfg
    let disabled : Bool := user = [] ∨ pass = []
    ({ d with flash := flash, auth := cfg },
      .response (if saved then loginSaved disabled else saveFailed))

/-- The handlers that change the configuration. -/
inductive Handler where
  | wifi
  | device
  | autoconnect
  | auth
  deriving DecidableEq

def Handler.run (sha256 : List UInt8 → List UInt8) (h : Handler) (io : Io) (d : Device)
    (body : List UInt8) : Device × Outcome :=
  match h with
  | .wifi => saveWifi io d body
  | .device => Http.saveDevice io d body
  | .autoconnect => Http.saveAutoconnect io d body
  | .auth => Http.saveAuth sha256 io d body

/-- Where a request goes. -/
inductive Route where
  | page (r : Response)
  | save (h : Handler)
  deriving DecidableEq

/-- The `match` on the method and the path. -/
def route (method path : List UInt8) : Route :=
  if method = ascii "GET" ∧ path = ascii "/" then .page .indexPage
  else if method = ascii "GET" ∧ path = ascii "/api/status" then .page .statusJson
  else if method = ascii "POST" ∧ path = ascii "/api/wifi" then .save .wifi
  else if method = ascii "POST" ∧ path = ascii "/api/device" then .save .device
  else if method = ascii "POST" ∧ path = ascii "/api/autoconnect" then .save .autoconnect
  else if method = ascii "POST" ∧ path = ascii "/api/auth" then .save .auth
  else .page notFound

/-- What becomes of a connection: the device, the handler that ran with its body, and how it ended
(`none` without an answer). -/
structure Handled where
  device : Device
  ran : Option (Handler × List UInt8)
  outcome : Option Outcome

/-- `handle_request` once the request is in. -/
def respond (sha256 : List UInt8 → List UInt8) (io : Io) (d : Device) (request : List UInt8) : Handled :=
  match authorized sha256 d.gpio0Held d.auth request with
  | none => ⟨d, none, none⟩
  | some false => ⟨d, none, some (.response unauthorized)⟩
  | some true =>
    let (method, path) := parseRequestLine request
    match route method path with
    | .page r => ⟨d, none, some (.response r)⟩
    | .save h =>
      let body := bodyOf request
      let (d', outcome) := h.run sha256 io d body
      ⟨d', some (h, body), some outcome⟩

/-- `handle_request`. -/
def handleRequest (sha256 : List UInt8 → List UInt8) (io : Io) (d : Device) (reads : List Read) :
    Handled :=
  match receive reads with
  | .request request => respond sha256 io d request
  | _ => ⟨d, none, none⟩

/-- A request changes the device only through the handler that runs. -/
lemma respond_cases (sha256 : List UInt8 → List UInt8) (io : Io) (d : Device) (request : List UInt8) :
    ((respond sha256 io d request).ran = none ∧ (respond sha256 io d request).device = d) ∨
    ∃ h, authorized sha256 d.gpio0Held d.auth request = some true ∧
      route (parseRequestLine request).1 (parseRequestLine request).2 = .save h ∧
      respond sha256 io d request = ⟨(h.run sha256 io d (bodyOf request)).1, some (h, bodyOf request),
        some (h.run sha256 io d (bodyOf request)).2⟩ := by
  rw [respond]
  split
  · exact .inl ⟨rfl, rfl⟩
  · exact .inl ⟨rfl, rfl⟩
  · rename_i allowed
    simp only
    split
    · exact .inl ⟨rfl, rfl⟩
    · rename_i h goes
      exact .inr ⟨h, allowed, goes, rfl⟩

/-- Configuration changes, for every stream of reads. Without a handler nothing changes. A handler runs
only once the read loop has ended: with a whole request, with a full buffer, or with all that a client
sent before it closed. It is the one of the method and the path of a request that is authorized. It gets
what followed the headers, up to the next break if there is one among that, and nothing if there was no
end of headers. -/
theorem saves_follow_requests (sha256 : List UInt8 → List UInt8) (io : Io) (d : Device)
    (reads : List Read) :
    ((handleRequest sha256 io d reads).ran = none → (handleRequest sha256 io d reads).device = d) ∧
    ∀ h body, (handleRequest sha256 io d reads).ran = some (h, body) →
      (handleRequest sha256 io d reads).device = (h.run sha256 io d body).1 ∧
      ∃ request, receive reads = .request request ∧ request <+: received reads ∧
        (Whole request ∨ BUFFER ≤ request.length ∨
          (.eof ∈ reads ∧ request = received reads ∧ request ≠ [])) ∧
        authorized sha256 d.gpio0Held d.auth request = some true ∧
        route (parseRequestLine request).1 (parseRequestLine request).2 = .save h ∧
        (∀ headers rest, FirstSplit BREAK request headers rest →
          (¬ BREAK <:+: rest → body = rest) ∧ ∀ next more, FirstSplit BREAK rest next more → body = next) ∧
        (¬ BREAK <:+: request → body = []) := by
  rw [handleRequest]
  split
  · rename_i request done
    rcases respond_cases sha256 io d request with ⟨none, same⟩ | ⟨h, allowed, goes, eq⟩
    · refine ⟨fun _ => same, fun h body ran => ?_⟩
      rw [none] at ran
      cases ran
    · rw [eq]
      refine ⟨fun none => ?_, fun h' body ran => ?_⟩
      · cases none
      · cases ran
        obtain ⟨pre, why⟩ := receive_stops done
        exact ⟨rfl, request, done, pre, why, allowed, goes, fun headers rest => bodyOf_spec, bodyOf_nil⟩
  · refine ⟨fun _ => rfl, fun h body ran => ?_⟩
    cases ran

/-- A device without a stored configuration. -/
def Device.new : Device := ⟨.new, .defaults, .new, .new, fun _ => 0xFF, false⟩

/-- A client that announces 30 bytes and closes after 23. -/
def cutRequest : List Read :=
  match ascii "POST /api/wifi HTTP/1.1\r\nContent-Length: 30\r\n\r\nssid=home&password=secr" with
  | first :: rest => [.data first rest, .eof]
  | [] => [.eof]

/-- A password that was cut off is stored. -/
theorem cut_body_saved :
    ¬ ∀ sha256 io d reads h body, (handleRequest sha256 io d reads).ran = some (h, body) →
      ∃ headers rest n, FirstSplit BREAK (received reads) headers rest ∧
        contentLength (headers ++ BREAK) = some n ∧ n ≤ rest.length ∧ body = rest.take n := by
  intro complete
  have ran : (handleRequest id ⟨.written, fun _ => 0⟩ .new cutRequest).ran =
      some (.wifi, ascii "ssid=home&password=secr") := by decide +kernel
  obtain ⟨headers, rest, n, cut, length, le, -⟩ := complete _ _ _ _ _ _ ran
  have here : splitOnce BREAK (received cutRequest) =
      some (ascii "POST /api/wifi HTTP/1.1\r\nContent-Length: 30", ascii "ssid=home&password=secr") := by
    decide +kernel
  obtain ⟨rfl, rfl⟩ := cut.unique (splitOnce_iff.mp here)
  have thirty : contentLength (ascii "POST /api/wifi HTTP/1.1\r\nContent-Length: 30" ++ BREAK) = some 30 := by
    decide +kernel
  rw [thirty] at length
  cases length
  revert le
  decide +kernel

end EspcanBr.Http
