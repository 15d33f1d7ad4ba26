import EspcanBr.Base.Html
import EspcanBr.Base.Json
import EspcanBr.Http.Handlers
import EspcanBr.Mdns.Packet

/-!
# The pages

`index_page` and `status_json` of `src/http.rs`, with the escapes for the texts of the configurations that
they show. An escaped text does not leave the place that it is put into, so the markup of the page and
the members of the status are the same whatever these texts are (`reflected_text`). A text is a sequence
of characters here; what the accessors return are its bytes (`Reads`).
-/

namespace EspcanBr.Http
open Base Config Mdns

/-- The characters that `html_escape` replaces, with the names of their references. -/
def HTML : Entities where
  table := [('&', "amp".toList), ('<', "lt".toList), ('>', "gt".toList), ('"', "quot".toList),
    ('\'', "#39".toList)]
  amp := ⟨"amp".toList, List.mem_cons_self⟩
  closed := by simp
  names := by simp

/-- What `html_escape` writes for a character. -/
def htmlEscapeChar (c : Char) : List Char :=
  if c = '&' then "&amp;".toList
  else if c = '<' then "&lt;".toList
  else if c = '>' then "&gt;".toList
  else if c = '"' then "&quot;".toList
  else if c = '\'' then "&#39;".toList
  else [c]

/-- `html_escape`. -/
def htmlEscape (s : List Char) : List Char := s.flatMap htmlEscapeChar

/-- `{:04x}`. -/
def hex4 (n : ℕ) : List Char :=
  List.replicate (4 - (Nat.toDigits 16 n).length) '0' ++ Nat.toDigits 16 n

/-- What `json_escape` writes for a character. -/
def jsonEscapeChar (c : Char) : List Char :=
  if c = '"' then "\\\"".toList
  else if c = '\\' then "\\\\".toList
  else if c = '\n' then "\\n".toList
  else if c = '\r' then "\\r".toList
  else if c = '\t' then "\\t".toList
  else if c.toNat < 0x20 then "\\u".toList ++ hex4 c.toNat
  else [c]

/-- `json_escape`. -/
def jsonEscape (s : List Char) : List Char := s.flatMap jsonEscapeChar

/-- `state_str` of `src/autoconnect.rs`. -/
def stateStr (code : UInt8) : String :=
  if code = 0 then "disabled"
  else if code = 1 then "connecting"
  else if code = 2 then "connected"
  else if code = 3 then "DNS lookup failed"
  else if code = 4 then "TCP connect failed"
  else if code = 5 then "TLS failed (cert/handshake)"
  else if code = 6 then "bad URL or pubkey"
  else if code = 7 then "server pubkey mismatch"
  else "?"

/-- The statics that the pages show besides the configurations. -/
structure Live where
  configMode : Bool
  wifiConnected : Bool
  staIp : Option Ipv4Addr
  canRx : UInt32
  canTx : UInt32
  serIn : UInt32
  serOut : UInt32
  tcpIn : UInt32
  tcpOut : UInt32
  autoconnectState : UInt8
  serverPubkey : Option (Buffer 65)

/-- The texts of the configurations. -/
structure Strings where
  ssid : List Char
  name : List Char
  url : List Char
  user : List Char

/-- The bytes of a text. -/
def utf8 (s : List Char) : List UInt8 := s.flatMap String.utf8EncodeChar

/-- The accessors return the texts. -/
structure Reads (d : Device) (t : Strings) : Prop where
  ssid : d.wifi.ssidStr = some (utf8 t.ssid)
  name : d.device.nameStr = some (utf8 t.name)
  url : d.autoconnect.urlStr = utf8 t.url
  user : d.auth.userStr = some (utf8 t.user)

/-- `{}` of a number. -/
def number (n : ℕ) : List Char := Nat.toDigits 10 n

/-- `{}` of an address. -/
def address (ip : Ipv4Addr) : List Char := ['.'].intercalate (ip.octets.map fun b => number b.toNat)

/-- `{:02X}` of a byte. -/
def hexByte (b : UInt8) : List Char :=
  let digits := "0123456789ABCDEF".toList
  [digits.getD (b.toNat / 16) '0', digits.getD (b.toNat % 16) '0']

def modeText (live : Live) : List Char :=
  if live.configMode then "Configuration (AP)".toList else "Station".toList

def addressText (live : Live) : List Char :=
  match live.staIp with
  | some ip => address ip
  | none => "not connected".toList

def stateText (live : Live) : List Char := (stateStr live.autoconnectState).toList

/-- The key of the server, or a text in its place. -/
def keyText (live : Live) (missing : String) : List Char :=
  match live.serverPubkey with
  | some key => key.bytes.flatMap hexByte
  | none => missing.toList

def STATUS_SCRIPT : List String := [
  "<script>async function upd()\x7btry\x7bconst s=await(await fetch('/api/status')).json();const ",
  "g=(i,v)=>\x7bconst e=document.getElementById(i);if(e)e.textContent=v;\x7d;g('mode',s.mode);",
  "g('wifi',s.wifi?'yes':'no');g('staip',s.sta_ip);g('ssid',s.ssid);g('can_rx',s.can_rx);",
  "g('can_tx',s.can_tx);g('ser_in',s.ser_in);g('ser_out',s.ser_out);g('tcp_in',s.tcp_in);",
  "g('tcp_out',s.tcp_out);g('acstatus',s.ac_status);g('srvkey',s.server_key||'(none yet)');",
  "\x7dcatch(e)\x7b\x7d\x7dsetInterval(upd,2000);upd();</script></body></html>"]

/-- The format string of the status. -/
def STATUS : List (List String) := [
  ["\x7b\"mode\":\""],
  ["\",\"wifi\":"],
  [",\"sta_ip\":\""],
  ["\",\"ssid\":\""],
  ["\",\"can_rx\":"],
  [",\"can_tx\":"],
  [",\"ser_in\":"],
  [",\"ser_out\":"],
  [",\"tcp_in\":"],
  [",\"tcp_out\":"],
  [",\"ac_status\":\""],
  ["\",\"server_key\":\""],
  ["\"\x7d"]]

/-- The format strings of the page. -/
def PAGE : List (List String) := [
  ["<!doctype html><html><head><meta name=viewport content=\"width=device-width,initial-scale=1\">",
   "<title>espcan_br</title></head><body style=\"font-family:sans-serif;max-width:30em;margin:2em ",
   "auto\"><h2>espcan_br CAN bridge</h2><p>Mode: <b id=mode>"],
  ["</b><br>WiFi connected: <b id=wifi>"],
  ["</b><br>STA IP: <b id=staip>"],
  ["</b><br>SSID: <b id=ssid>"],
  ["</b></p><h3>Frame counters</h3><table border=1 cellpadding=4 style=border-collapse:collapse><tr>",
   "<th>Interface</th><th>in</th><th>out</th></tr><tr><td>CAN bus</td><td id=can_rx>"],
  ["</td><td id=can_tx>"],
  ["</td></tr><tr><td>Serial (USB)</td><td id=ser_in>"],
  ["</td><td id=ser_out>"],
  ["</td></tr><tr><td>TCP</td><td id=tcp_in>"],
  ["</td><td id=tcp_out>"],
  ["</td></tr></table><p style=color:#888>CAN in = received from bus, out = transmitted to bus; ",
   "serial/TCP in = host&rarr;adapter, out = adapter&rarr;host.</p><h3>Device</h3><form method=POST ",
   "action=/api/device>Name (mDNS <i>"],
  [".local</i> / AP SSID):<br><input name=name maxlength=32 value=\""],
  ["\" style=width:100%><br>UART (USB) baud:<br><input name=baud type=number value=\""],
  ["\" style=width:100%><br><br><button type=submit>Save &amp; reboot</button></form><h3>WiFi ",
   "setup</h3><form method=POST action=/api/wifi>SSID:<br><input name=ssid maxlength=32 ",
   "style=width:100%><br>Password:<br><input name=password type=password maxlength=64 ",
   "style=width:100%><br><br><button type=submit>Save &amp; reboot</button></form><h3>Auto-connect ",
   "(outbound)</h3><p>Status: <b id=acstatus>"],
  ["</b></p><p style=font-size:smaller>Server key (last TLS connection):<br><code id=srvkey ",
   "style=word-break:break-all>"],
  ["</code></p><form method=POST action=/api/autoconnect><label><input type=checkbox name=enable "],
  ["> Enable (dial out, works behind NAT)</label><br>URL:<br><input name=url maxlength=256 value=\""],
  ["\" placeholder=\"tls://host:port/?pubkey=..&amp;token=..\" style=width:100%><br><small ",
   "style=color:#888>tcp:// or tls://; optional <b>pubkey</b> (pin server key) and <b>token</b> ",
   "(auth).</small><br><br><button type=submit>Save &amp; reboot</button></form>"]]

def LOGIN : List (List String) := [
  ["<h3>Web login</h3><p>Status: <b>"],
  ["</b></p><form method=POST action=/api/auth>Login:<br><input name=user maxlength=31 value=\""],
  ["\" style=width:100%><br>Password:<br><input name=pass type=password maxlength=63 ",
   "style=width:100%><br><small style=color:#888>Leave both blank to disable login. Forgot the ",
   "password? Hold the BOOT (GPIO0) button while opening this page to bypass login and reset ",
   "it.</small><br><br><button type=submit>Save login</button></form>"]]

/-- An answer of 200 with the length of its body in bytes. -/
def okResponse (contentType : String) (body : List Char) : List Char :=
  "HTTP/1.1 200 OK\r\nContent-Type: ".toList ++ contentType.toList ++ "\r\nContent-Length: ".toList ++
    number (utf8 body).length ++ "\r\nConnection: close\r\n\r\n".toList ++ body

def statusBody (live : Live) (t : Strings) : List Char :=
  fill STATUS [modeText live, if live.wifiConnected then "true".toList else "false".toList,
    addressText live, jsonEscape t.ssid, number live.canRx.toNat, number live.canTx.toNat,
    number live.serIn.toNat, number live.serOut.toNat, number live.tcpIn.toNat, number live.tcpOut.toNat,
    stateText live, keyText live ""]

/-- `status_json`. -/
def statusJson (live : Live) (t : Strings) : List Char :=
  okResponse "application/json" (statusBody live t)

/-- The values of the page. -/
def pageValues (live : Live) (d : Device) (t : Strings) : List (List Char) :=
  [modeText live, if live.wifiConnected then "yes".toList else "no".toList, addressText live,
    htmlEscape t.ssid, number live.canRx.toNat, number live.canTx.toNat, number live.serIn.toNat,
    number live.serOut.toNat, number live.tcpIn.toNat, number live.tcpOut.toNat, htmlEscape t.name,
    htmlEscape t.name, number d.device.baudRate.toNat, stateText live, keyText live "(none yet)",
    if d.autoconnect.enableSet then "checked".toList else [], htmlEscape t.url]

/-- The values of the form for the login. -/
def loginValues (d : Device) (t : Strings) : List (List Char) :=
  [(if d.auth.isSet then "enabled" else "disabled (anyone on the network can read this page)").toList,
    htmlEscape t.user]

def indexBody (live : Live) (d : Device) (t : Strings) : List Char :=
  fill PAGE (pageValues live d t) ++ fill LOGIN (loginValues d t) ++ partText STATUS_SCRIPT

/-- `index_page`. -/
def indexPage (live : Live) (d : Device) (t : Strings) : List Char :=
  okResponse "text/html" (indexBody live d t)

/-- What follows the blank line of an answer. -/
def content : List Char → List Char
  | [] => []
  | c :: cs => if "\r\n\r\n".toList.isPrefixOf (c :: cs) then cs.drop 3 else content cs

lemma content_skip {cs : List Char} (no : '\r' ∉ cs) (rest : List Char) :
    content (cs ++ rest) = content rest := by
  induction cs with
  | nil => rfl
  | cons c cs ih =>
    rw [List.mem_cons, not_or] at no
    rw [List.cons_append, content, ← ih no.2]
    exact if_neg (by simp [no.1])

/-- A line of the header, behind which there is another one. -/
lemma content_line {line rest : List Char} (no : '\r' ∉ line) (more : rest.head? ≠ some '\r') :
    content (line ++ '\r' :: '\n' :: rest) = content rest := by
  have feed : '\r' ∉ ['\n'] := by decide
  rw [content_skip no, content, if_neg]
  · exact content_skip feed rest
  · cases rest with
    | nil => simp
    | cons c rest =>
      rw [List.head?_cons, ne_eq, Option.some.injEq] at more
      simp [Ne.symm more]

lemma content_okResponse {contentType : String} (line : '\r' ∉ contentType.toList) (body : List Char) :
    content (okResponse contentType body) = body := by
  have length : '\r' ∉ number (utf8 body).length := fun mem => by
    have digit := Nat.isDigit_of_mem_toDigits (by decide) le_rfl mem
    cases digit
  unfold okResponse
  generalize number (utf8 body).length = digits at length ⊢
  have shape : "HTTP/1.1 200 OK\r\nContent-Type: ".toList ++ contentType.toList ++
      "\r\nContent-Length: ".toList ++ digits ++ "\r\nConnection: close\r\n\r\n".toList ++ body =
      "HTTP/1.1 200 OK".toList ++ '\r' :: '\n' :: (("Content-Type: ".toList ++ contentType.toList) ++
        '\r' :: '\n' :: (("Content-Length: ".toList ++ digits) ++
          '\r' :: '\n' :: ("Connection: close".toList ++ '\r' :: '\n' :: '\r' :: '\n' :: body))) := by
    simp
  rw [shape, content_line (by simp) (by simp), content_line (by simp [line]) (by simp),
    content_line (by simp [length]) (by simp), content_skip (by simp), content, if_pos (by simp)]
  rfl

lemma htmlEscape_eq (s : List Char) : htmlEscape s = HTML.escape s := by
  have one : ∀ c, htmlEscapeChar c = HTML.escapeChar c := by
    intro c
    rw [htmlEscapeChar, Entities.escapeChar, HTML]
    simp only [List.find?_cons, List.find?_nil]
    by_cases amp : c = '&'
    · subst amp
      simp [Entities.tail]
    · by_cases lt : c = '<'
      · subst lt
        simp [Entities.tail]
      · by_cases gt : c = '>'
        · subst gt
          simp [Entities.tail]
        · by_cases double : c = '"'
          · subst double
            simp [Entities.tail]
          · by_cases single : c = '\''
            · subst single
              simp [Entities.tail]
            · simp [amp, lt, gt, double, single, Ne.symm amp, Ne.symm lt, Ne.symm gt, Ne.symm double,
                Ne.symm single]
  rw [htmlEscape, Entities.escape]
  exact congrArg (List.flatMap · s) (funext one)

/-- An escaped text has no bracket and no quote. -/
lemma htmlEscape_inert (s : List Char) : Inert (htmlEscape s) := by
  intro c mem
  rw [htmlEscape_eq] at mem
  rcases HTML.mem_escape mem with other | ⟨e, among, mem⟩
  · refine ⟨?_, ?_, ?_, ?_⟩
    · exact fun eq => other ('<', "lt".toList) (by simp [HTML]) eq.symm
    · exact fun eq => other ('>', "gt".toList) (by simp [HTML]) eq.symm
    · exact fun eq => other ('"', "quot".toList) (by simp [HTML]) eq.symm
    · exact fun eq => other ('\'', "#39".toList) (by simp [HTML]) eq.symm
  · have all : (HTML.table.all fun e => ('&' :: Entities.tail e).all fun c =>
        c ≠ '<' ∧ c ≠ '>' ∧ c ≠ '"' ∧ c ≠ '\'') = true := by decide +kernel
    have here := List.all_eq_true.mp (List.all_eq_true.mp all e among) c mem
    exact of_decide_eq_true here

/-- A control character in four digits. -/
lemma hex4_spec {n : ℕ} (lt : n < 0x20) :
    hex4 n = ['0', '0', Nat.digitChar (n / 16), Nat.digitChar (n % 16)] ∧
      hexNumber '0' '0' (Nat.digitChar (n / 16)) (Nat.digitChar (n % 16)) = some n := by
  have all : ∀ n < 0x20, hex4 n = ['0', '0', Nat.digitChar (n / 16), Nat.digitChar (n % 16)] ∧
      hexNumber '0' '0' (Nat.digitChar (n / 16)) (Nat.digitChar (n % 16)) = some n := by decide +kernel
  exact all n lt

/-- What is written for a character stands for it. -/
lemma jsonEscapeChar_text (c : Char) : StringChar (jsonEscapeChar c) c := by
  have short : ∀ (d : Char) {text : List Char}, text = ['\\', d] → shortEscape d = some c →
      StringChar text c := by
    rintro d text rfl escape
    exact .short escape
  rw [jsonEscapeChar]
  split
  · rename_i eq
    exact short '"' (by simp) (by rw [eq]; rfl)
  · rename_i quote
    split
    · rename_i eq
      exact short '\\' (by simp) (by rw [eq]; rfl)
    · rename_i slash
      split
      · rename_i eq
        exact short 'n' (by simp) (by rw [eq]; rfl)
      · split
        · rename_i eq
          exact short 'r' (by simp) (by rw [eq]; rfl)
        · split
          · rename_i eq
            exact short 't' (by simp) (by rw [eq]; rfl)
          · split
            · rename_i control
              obtain ⟨digits, value⟩ := hex4_spec control
              have code := StringChar.code value (by omega)
              rw [Char.ofNat_toNat] at code
              rw [digits]
              simpa using code
            · rename_i printable
              exact .plain (Nat.not_lt.mp printable) quote slash

/-- An escaped text is that of a string. -/
lemma jsonEscape_text (s : List Char) : StringText (jsonEscape s) s := by
  induction s with
  | nil => exact .nil
  | cons c s ih => exact .cons (jsonEscapeChar_text c) ih

/-- A character of the texts that are not escaped. -/
def isPlain (c : Char) : Bool := c.isAlphanum || c ∈ [' ', '.', '/', '(', ')', '?', '_']

def AllPlain (s : List Char) : Prop := ∀ c ∈ s, isPlain c = true

lemma AllPlain.inert {s : List Char} (plain : AllPlain s) : Inert s := by
  intro c mem
  have here := plain c mem
  refine ⟨?_, ?_, ?_, ?_⟩ <;> (rintro rfl; revert here; decide)

lemma AllPlain.text {s : List Char} (plain : AllPlain s) : StringText s s := by
  have control : ∀ n < 0x20, isPlain (Char.ofNat n) = false := by decide +kernel
  refine .self fun c mem => ?_
  have here := plain c mem
  refine ⟨?_, ?_, ?_⟩
  · by_contra low
    have no := control c.toNat (Nat.not_le.mp low)
    rw [Char.ofNat_toNat, here] at no
    cases no
  · rintro rfl
    revert here
    decide
  · rintro rfl
    revert here
    decide

lemma number_plain (n : ℕ) : AllPlain (number n) := by
  intro c mem
  have digit := Nat.isDigit_of_mem_toDigits (by decide) le_rfl mem
  simp [isPlain, Char.isAlphanum, digit]

lemma address_plain (ip : Ipv4Addr) : AllPlain (address ip) := by
  intro c mem
  simp only [address, Ipv4Addr.octets, List.intercalate, List.map_cons, List.map_nil,
    List.intersperse_cons_cons, List.intersperse_singleton, List.flatten_cons, List.flatten_nil,
    List.mem_append, List.mem_singleton, List.not_mem_nil, or_false] at mem
  rcases mem with digit | rfl | digit | rfl | digit | rfl | digit
  · exact number_plain _ c digit
  · rfl
  · exact number_plain _ c digit
  · rfl
  · exact number_plain _ c digit
  · rfl
  · exact number_plain _ c digit

lemma hexByte_plain (b : UInt8) : AllPlain (hexByte b) := by
  have all : ∀ b, (hexByte b).all isPlain = true := all_bytes (by decide +kernel)
  exact fun c mem => List.all_eq_true.mp (all b) c mem

lemma plain_of_all {s : List Char} (all : s.all isPlain = true) : AllPlain s :=
  fun c mem => List.all_eq_true.mp all c mem

/-- A literal of such characters. -/
lemma plain_literal {s : String} {l : List Char} (literal : s = String.ofList l)
    (all : l.all isPlain = true) : AllPlain s.toList := by
  rw [toList_literal literal]
  exact plain_of_all all

lemma modeText_plain (live : Live) : AllPlain (modeText live) := by
  rw [modeText]
  split
  · exact plain_literal rfl (by decide)
  · exact plain_literal rfl (by decide)

lemma addressText_plain (live : Live) : AllPlain (addressText live) := by
  rw [addressText]
  split
  · exact address_plain _
  · exact plain_literal rfl (by decide)

lemma stateText_plain (live : Live) : AllPlain (stateText live) := by
  rw [stateText, stateStr]
  split_ifs <;> exact plain_literal rfl (by decide)

lemma keyText_plain (live : Live) (missing : String) (plain : missing.toList.all isPlain = true) :
    AllPlain (keyText live missing) := by
  rw [keyText]
  split
  · intro c mem
    obtain ⟨b, -, here⟩ := List.mem_flatMap.mp mem
    exact hexByte_plain b c here
  · exact plain_of_all plain

/-- The values of the page have no brackets and no quotes. -/
lemma pageValues_inert (live : Live) (d : Device) (t : Strings) : ∀ v ∈ pageValues live d t, Inert v := by
  have number (n : ℕ) : Inert (number n) := (number_plain n).inert
  have yesNo : Inert (if live.wifiConnected then "yes".toList else "no".toList) := by
    split
    · exact (plain_literal rfl (by decide)).inert
    · exact (plain_literal rfl (by decide)).inert
  have checked : Inert (if d.autoconnect.enableSet then "checked".toList else []) := by
    split
    · exact (plain_literal rfl (by decide)).inert
    · exact fun _ mem => (List.not_mem_nil mem).elim
  simp only [pageValues, List.forall_mem_cons, List.not_mem_nil, false_implies, implies_true, and_true]
  exact ⟨(modeText_plain live).inert, yesNo, (addressText_plain live).inert, htmlEscape_inert _, number _,
    number _, number _, number _, number _, number _, htmlEscape_inert _, htmlEscape_inert _, number _,
    (stateText_plain live).inert, (keyText_plain live _ (by decide +kernel)).inert, checked,
    htmlEscape_inert _⟩

lemma loginValues_inert (d : Device) (t : Strings) : ∀ v ∈ loginValues d t, Inert v := by
  have state : Inert (if d.auth.isSet then "enabled"
      else "disabled (anyone on the network can read this page)").toList := by
    split
    · exact (plain_literal rfl (by decide)).inert
    · exact (plain_literal rfl (by decide)).inert
  simp only [loginValues, List.forall_mem_cons, List.not_mem_nil, false_implies, implies_true, and_true]
  exact ⟨state, htmlEscape_inert _⟩

-- the unifier goes through the characters of a line one by one
set_option maxRecDepth 20000 in
/-- Where the values of the page stand: all of them in text or in a quoted value, but for the one that
checks the box. -/
lemma page_places : places .text PAGE = [.text, .text, .text, .text, .text, .text, .text, .text, .text,
    .text, .text, .quoted '"', .quoted '"', .text, .text, .tag, .quoted '"', .text] := by
  rw [PAGE]
  -- the templates are not to be unfolded where a rule does not apply
  with_reducible repeat first
    | refine places_line rfl ?_
    | refine places_part (by decide +kernel) ?_
  rfl

set_option maxRecDepth 20000 in
lemma login_places : places .text LOGIN = [.text, .quoted '"', .text] := by
  rw [LOGIN]
  -- the templates are not to be unfolded where a rule does not apply
  with_reducible repeat first
    | refine places_line rfl ?_
    | refine places_part (by decide +kernel) ?_
  rfl

/-- The markup of the page depends on the configurations and the statics only by the box that is checked
or not. -/
lemma markup_indexBody {live live' : Live} {d d' : Device} (t t' : Strings)
    (box : d.autoconnect.enableSet = d'.autoconnect.enableSet) :
    markup .text (indexBody live d t) = markup .text (indexBody live' d' t') := by
  have text : Context.text.Plain := trivial
  have main : markup .text (fill PAGE (pageValues live d t)) =
      markup .text (fill PAGE (pageValues live' d' t')) := by
    refine markup_fill text rfl (pageValues_inert live d t) (pageValues_inert live' d' t') ?_
    rw [page_places]
    intro i v w first second tag
    -- the one place inside a tag is that of the box
    have index : i = 15 := by
      by_contra ne
      rcases i with _ | _ | _ | _ | _ | _ | _ | _ | _ | _ | _ | _ | _ | _ | _ | _ | _ | _ | i
      all_goals first | exact absurd rfl ne | cases tag
    subst index
    rw [Option.some.inj first.symm, Option.some.inj second.symm, box]
  have login : markup .text (fill LOGIN (loginValues d t)) = markup .text (fill LOGIN (loginValues d' t')) := by
    refine markup_fill text rfl (loginValues_inert d t) (loginValues_inert d' t') ?_
    rw [login_places]
    intro i v w _ _ tag
    rcases i with _ | _ | _ | i <;> cases tag
  have afterMain : ∀ live d t, Context.text.after (fill PAGE (pageValues live d t)) = .text := by
    intro live d t
    rw [after_fill text PAGE (pageValues_inert live d t), page_places]
    rfl
  have afterLogin : ∀ d t, Context.text.after (fill LOGIN (loginValues d t)) = .text := by
    intro d t
    rw [after_fill text LOGIN (loginValues_inert d t), login_places]
    rfl
  simp only [indexBody, List.append_assoc, markup_append, afterMain, afterLogin, main, login]

/-- A member of the status whose name needs no escapes. -/
def member (name : String) {text : List Char} {value : Scalar} (plain : name.toList.all isPlain = true)
    (reads : ReadsAs text value) : Member where
  keyText := name.toList
  key := name.toList
  valueText := text
  value := value
  keyRead := (plain_of_all plain).text
  valueRead := reads

/-- The members of the status. -/
def statusMembers (live : Live) (t : Strings) : List Member :=
  [member "mode" (by decide +kernel) (modeText_plain live).text.readsAs,
    member "wifi" (by decide +kernel) (readsAs_bool live.wifiConnected),
    member "sta_ip" (by decide +kernel) (addressText_plain live).text.readsAs,
    member "ssid" (by decide +kernel) (jsonEscape_text t.ssid).readsAs,
    member "can_rx" (by decide +kernel) (readsAs_num live.canRx.toNat),
    member "can_tx" (by decide +kernel) (readsAs_num live.canTx.toNat),
    member "ser_in" (by decide +kernel) (readsAs_num live.serIn.toNat),
    member "ser_out" (by decide +kernel) (readsAs_num live.serOut.toNat),
    member "tcp_in" (by decide +kernel) (readsAs_num live.tcpIn.toNat),
    member "tcp_out" (by decide +kernel) (readsAs_num live.tcpOut.toNat),
    member "ac_status" (by decide +kernel) (stateText_plain live).text.readsAs,
    member "server_key" (by decide +kernel) (keyText_plain live "" (by decide +kernel)).text.readsAs]

lemma statusBody_eq (live : Live) (t : Strings) : statusBody live t = printObject (statusMembers live t) := by
  simp [statusBody, STATUS, fill, partText, statusMembers, member, printObject, printMembers, Member.text,
    number]

/-- A text that is shown cannot leave its place. A text escaped for the page has no bracket and no quote,
each `&` in it begins one of the five references, and putting the characters back for these gives the
text. A text escaped for the status has no control character, no quote and no backslash that is not
escaped, and is read as the text. So two pages that check the box alike have the same markup, and the
status is an object of twelve members, of which the network alone depends on the configurations. -/
theorem reflected_text :
    (∀ s, Inert (htmlEscape s) ∧
      (∀ pre post, htmlEscape s = pre ++ '&' :: post → ∃ e ∈ HTML.table, Entities.tail e <+: post) ∧
      HTML.unescape (htmlEscape s) = s) ∧
    (∀ s, (∀ c ∈ jsonEscape s, 0x20 ≤ c.toNat) ∧
      (∀ c ∈ unescaped (jsonEscape s), c ≠ '"' ∧ c ≠ '\\') ∧
      readString ('"' :: jsonEscape s ++ ['"']) = some (s, [])) ∧
    (∀ live d d' t t', Reads d t → Reads d' t' → d.autoconnect.enableSet = d'.autoconnect.enableSet →
      markup .text (content (indexPage live d t)) = markup .text (content (indexPage live d' t'))) ∧
    ∀ live d t, Reads d t →
      readObject (content (statusJson live t)) = some [("mode".toList, .str (modeText live)),
        ("wifi".toList, .bool live.wifiConnected), ("sta_ip".toList, .str (addressText live)),
        ("ssid".toList, .str t.ssid), ("can_rx".toList, .num live.canRx.toNat),
        ("can_tx".toList, .num live.canTx.toNat), ("ser_in".toList, .num live.serIn.toNat),
        ("ser_out".toList, .num live.serOut.toNat), ("tcp_in".toList, .num live.tcpIn.toNat),
        ("tcp_out".toList, .num live.tcpOut.toNat), ("ac_status".toList, .str (stateText live)),
        ("server_key".toList, .str (keyText live ""))] := by
  refine ⟨fun s => ⟨htmlEscape_inert s, ?_, ?_⟩, fun s => ?_, ?_, ?_⟩
  · intro pre post eq
    rw [htmlEscape_eq] at eq
    exact HTML.escape_amp eq
  · rw [htmlEscape_eq]
    exact HTML.unescape_escape s
  · have text := jsonEscape_text s
    exact ⟨text.printable, text.unescaped_ordinary, text.read []⟩
  · intro live d d' t t' _ _ box
    rw [indexPage, indexPage, content_okResponse (by simp), content_okResponse (by simp)]
    exact markup_indexBody t t' box
  · intro live d t _
    rw [statusJson, content_okResponse (by simp), statusBody_eq]
    exact readObject_print (List.cons_ne_nil _ _)

end EspcanBr.Http
