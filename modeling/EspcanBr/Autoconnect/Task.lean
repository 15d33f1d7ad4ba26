import EspcanBr.Autoconnect.Url
import EspcanBr.Autoconnect.Verifier
import EspcanBr.Base.Machine
import EspcanBr.Config

/-!
# The auto-connect task

`autoconnect_task` of `src/autoconnect.rs` as a machine that moves from one wait to the next: the lock
of its configuration, the resolver, the TCP connection, the TLS handshake with its two callbacks into
the verifier, the writes of `send_token`, `run_port`, the close of the link and its timers. The TLS
library is assumed to open a link only after `verify_certificate` and then `verify_signature` returned
`Ok` (`TlsOpens`). `TaskStep` lists what one event can do.
-/

namespace EspcanBr.Autoconnect
open Base

/-- The status codes of `AUTOCONNECT_STATE`. -/
inductive Status where
  | disabled
  | connecting
  | connected
  | dnsFail
  | tcpFail
  | tlsFail
  | badConfig
  | pinMismatch
  deriving DecidableEq

/-- The seconds to wait after a mismatch of the pin. -/
def PIN_MISMATCH_BACKOFF_S : ℕ := 90

/-- The statics the task writes. -/
structure Shared where
  status : Status
  serverPubkey : Option (List UInt8)
  tcpClients : UInt32
  deriving DecidableEq

/-- What the last callbacks of the TLS library in this handshake were: none, a certificate that was
accepted, that and then a signature that was accepted, or anything else. -/
inductive Handshake where
  | started
  | certified
  | verified
  | failed
  deriving DecidableEq

/-- Where the task waits: for the lock, for a timer (with a subscription it still holds, if `linked`),
for the resolver, the TCP connection or the TLS handshake, in `send_token` with so many writes left, in
`run_port`, or for the link to close. -/
inductive Pc where
  | locking
  | sleeping (secs : ℕ) (linked : Bool)
  | resolving (url : ParsedUrl) (pin : Option (List UInt8))
  | connecting (url : ParsedUrl) (pin : Option (List UInt8)) (ip : List UInt8)
  | opening (url : ParsedUrl) (verifier : PinnedVerifier) (handshake : Handshake)
  | sending (url : ParsedUrl) (left : ℕ)
  | serving (url : ParsedUrl)
  | closing
  deriving DecidableEq

structure Task where
  shared : Shared
  pc : Pc
  deriving DecidableEq

/-- What the task waits for: the configuration with the flag `WIFI_CONNECTED`, a timer, the first IPv4
address of an answer, the outcome of a connection, the callbacks and the outcome of a handshake, the end
of a write (whose error is ignored), of `run_port` and of the close. -/
inductive Event where
  | locked (cfg : AutoConnectConfig) (wifi : Bool)
  | timer
  | resolved (answer : Option (List UInt8))
  | connected (ok : Bool)
  | certificate (transcript : List UInt8) (entries : List CertificateEntry)
  | signature (verify : CertificateVerify)
  | opened (ok : Bool)
  | sent
  | served
  | closed

/-- What the task shows: the start of a round of its loop, a query, a connection, its subscription, the
callbacks, the token it sends and its entry into `run_port`, both with whether the link is TLS. -/
inductive Obs where
  | attempt
  | query (host : List UInt8)
  | dial (ip : List UInt8) (port : UInt16)
  | subscribed
  | unsubscribed
  | certificate (entries : List CertificateEntry) (transcript : List UInt8)
  | signature (verify : CertificateVerify) (ok : Bool)
  | token (tls : Bool) (bytes : List UInt8)
  | served (tls : Bool)
  deriving DecidableEq

namespace Task

def setState (t : Task) (s : Status) : Task := { t with shared := { t.shared with status := s } }

/-- The pin of a URL, if it is usable: no `pubkey`, or a valid one with TLS. -/
def usablePin (url : ParsedUrl) : Option (Option (List UInt8)) :=
  match url.pubkey with
  | some h =>
    match parsePubkey h with
    | some k => if url.tls then some (some k) else none
    | none => none
  | none => some none

/-- `resolve`, up to its wait, and the start of the connection if there is none. -/
def resolve (t : Task) (url : ParsedUrl) (pin : Option (List UInt8)) : Task × List Obs :=
  match parseIpv4 url.host with
  | some ip => ({ t with pc := .connecting url pin ip }, [.dial ip url.port])
  | none => ({ t with pc := .resolving url pin }, [.query url.host])

/-- The loop from the lock to the next wait. -/
def attempt (t : Task) (cfg : AutoConnectConfig) (wifi : Bool) : Task × List Obs :=
  if cfg.enabled = false then ({ t.setState .disabled with pc := .sleeping 3 false }, [])
  -- no state stands for a missing Wi-Fi: the last one stays
  else if wifi = false then ({ t with pc := .sleeping 3 false }, [])
  else
    match parseUrl cfg.urlStr with
    | none => ({ t.setState .badConfig with pc := .sleeping 30 false }, [])
    | some url =>
      match usablePin url with
      | none => ({ t.setState .badConfig with pc := .sleeping 30 false }, [])
      | some pin => (t.setState .connecting).resolve url pin

/-- The state is set, and `send_token` and `run_port` follow. -/
def link (t : Task) (url : ParsedUrl) : Task × List Obs :=
  match url.token with
  | some tok =>
    -- three writes and a flush
    ({ t.setState .connected with pc := .sending url 4 },
      [.token url.tls (ascii "H" ++ tok ++ ascii "\r")])
  | none => ({ t.setState .connected with pc := .serving url }, [.served url.tls])

/-- The end of a round with a link. -/
def finish (t : Task) : Task where
  shared := { t.shared with tcpClients := t.shared.tcpClients - 1 }
  pc := .sleeping (if t.shared.status = .pinMismatch then PIN_MISMATCH_BACKOFF_S else 3) true

/-- One event of the task. -/
def step (C : Crypto) (t : Task) (e : Event) : Option (Task × List Obs) :=
  match t.pc, e with
  | .locking, .locked cfg wifi =>
    let (t, os) := t.attempt cfg wifi
    some (t, .attempt :: os)
  | .sleeping _ linked, .timer =>
    some ({ t with pc := .locking }, if linked then [.unsubscribed] else [])
  | .resolving url pin, .resolved answer =>
    match answer with
    | some ip => some ({ t with pc := .connecting url pin ip }, [.dial ip url.port])
    | none => some ({ t.setState .dnsFail with pc := .sleeping 5 false }, [])
  | .connecting url pin _, .connected ok =>
    if ok then
      let t := { t with shared := { t.shared with tcpClients := t.shared.tcpClients + 1 } }
      if url.tls then some ({ t with pc := .opening url (.new pin) .started }, [.subscribed])
      else
        let (t, os) := t.link url
        some (t, .subscribed :: os)
    else some ({ t.setState .tcpFail with pc := .sleeping 5 false }, [])
  | .opening url v _, .certificate transcript entries =>
    -- `verify_certificate` publishes the key it saw, pinned or not
    let v := v.verifyCertificate transcript entries
    some ({ shared := { t.shared with serverPubkey := v.serverKey }, pc := .opening url v .certified },
      [.certificate entries transcript])
  | .opening url v handshake, .signature verify =>
    let (v, mismatch, result) := v.verifySignature C verify
    let ok := result.isOk
    let t := if mismatch then t.setState .pinMismatch else t
    some ({ t with
      pc := .opening url v (if handshake = .certified ∧ ok then .verified else .failed) },
      [.signature verify ok])
  | .opening url _ _, .opened ok =>
    if ok then some (t.link url)
    else
      -- the mismatch was set by the callback and is kept
      let t := if t.shared.status = .pinMismatch then t else t.setState .tlsFail
      some ({ t with pc := .closing }, [])
  | .sending url left, .sent =>
    if left ≤ 1 then some ({ t with pc := .serving url }, [.served url.tls])
    else some ({ t with pc := .sending url (left - 1) }, [])
  | .serving url, .served =>
    if url.tls then some ({ t with pc := .closing }, []) else some (t.finish, [])
  | .closing, .closed => some (t.finish, [])
  | _, _ => none

end Task

/-- The machine of the task alone. -/
def machine (C : Crypto) : Machine Task Event Obs where
  init := ⟨⟨.disabled, none, 0⟩, .locking⟩
  step := Task.step C

/-- What the loop does from the lock to the next wait. -/
inductive Attempt (t : Task) (cfg : AutoConnectConfig) (wifi : Bool) : Task → List Obs → Prop where
  | disabled :
    cfg.enabled = false →
    Attempt t cfg wifi { t.setState .disabled with pc := .sleeping 3 false } []
  | noWifi :
    cfg.enabled = true →
    wifi = false →
    Attempt t cfg wifi { t with pc := .sleeping 3 false } []
  | badConfig :
    cfg.enabled = true →
    wifi = true →
    (∀ url, parseUrl cfg.urlStr = some url → Task.usablePin url = none) →
    Attempt t cfg wifi { t.setState .badConfig with pc := .sleeping 30 false } []
  | query {url pin} :
    cfg.enabled = true →
    wifi = true →
    parseUrl cfg.urlStr = some url →
    Task.usablePin url = some pin →
    Attempt t cfg wifi { t.setState .connecting with pc := .resolving url pin } [.query url.host]
  | dial {url pin ip} :
    cfg.enabled = true →
    wifi = true →
    parseUrl cfg.urlStr = some url →
    Task.usablePin url = some pin →
    Attempt t cfg wifi { t.setState .connecting with pc := .connecting url pin ip }
      [.dial ip url.port]

/-- What one event of the task does. -/
inductive TaskStep (C : Crypto) (t : Task) : Event → Task → List Obs → Prop where
  | locked {cfg wifi t' os} :
    t.pc = .locking →
    Attempt t cfg wifi t' os →
    TaskStep C t (.locked cfg wifi) t' (.attempt :: os)
  | timer {secs linked} :
    t.pc = .sleeping secs linked →
    TaskStep C t .timer { t with pc := .locking } (if linked then [.unsubscribed] else [])
  | resolved {url pin ip} :
    t.pc = .resolving url pin →
    TaskStep C t (.resolved (some ip)) { t with pc := .connecting url pin ip } [.dial ip url.port]
  | dnsFail {url pin} :
    t.pc = .resolving url pin →
    TaskStep C t (.resolved none) { t.setState .dnsFail with pc := .sleeping 5 false } []
  | connectedTls {url pin ip} :
    t.pc = .connecting url pin ip →
    url.tls = true →
    TaskStep C t (.connected true)
      ⟨{ t.shared with tcpClients := t.shared.tcpClients + 1 }, .opening url (.new pin) .started⟩
      [.subscribed]
  | connectedTcp {url pin ip t'} :
    t.pc = .connecting url pin ip →
    url.tls = false →
    t' = { t with shared := { t.shared with tcpClients := t.shared.tcpClients + 1 } } →
    TaskStep C t (.connected true) (t'.link url).1 (.subscribed :: (t'.link url).2)
  | tcpFail {url pin ip} :
    t.pc = .connecting url pin ip →
    TaskStep C t (.connected false) { t.setState .tcpFail with pc := .sleeping 5 false } []
  | certificate {url v handshake transcript entries} :
    t.pc = .opening url v handshake →
    TaskStep C t (.certificate transcript entries)
      ⟨{ t.shared with serverPubkey := (v.verifyCertificate transcript entries).serverKey },
        .opening url (v.verifyCertificate transcript entries) .certified⟩
      [.certificate entries transcript]
  | accepted {url v handshake verify} :
    t.pc = .opening url v handshake →
    (v.verifySignature C verify).2.2 = .ok () →
    TaskStep C t (.signature verify)
      { t with
        pc := .opening url (v.verifySignature C verify).1
          (if handshake = .certified then .verified else .failed) }
      [.signature verify true]
  | rejected {url v handshake verify t'} :
    t.pc = .opening url v handshake →
    (v.verifySignature C verify).2.2 ≠ .ok () →
    t' = (if (v.verifySignature C verify).2.1 then t.setState .pinMismatch else t) →
    TaskStep C t (.signature verify)
      { t' with pc := .opening url (v.verifySignature C verify).1 .failed } [.signature verify false]
  | opened {url v handshake} :
    t.pc = .opening url v handshake →
    TaskStep C t (.opened true) (t.link url).1 (t.link url).2
  | tlsFail {url v handshake t'} :
    t.pc = .opening url v handshake →
    t' = (if t.shared.status = .pinMismatch then t else t.setState .tlsFail) →
    TaskStep C t (.opened false) { t' with pc := .closing } []
  | sent {url left} :
    t.pc = .sending url left →
    1 < left →
    TaskStep C t .sent { t with pc := .sending url (left - 1) } []
  | tokenSent {url left} :
    t.pc = .sending url left →
    left ≤ 1 →
    TaskStep C t .sent { t with pc := .serving url } [.served url.tls]
  | servedTls {url} :
    t.pc = .serving url →
    url.tls = true →
    TaskStep C t .served { t with pc := .closing } []
  | servedTcp {url} :
    t.pc = .serving url →
    url.tls = false →
    TaskStep C t .served t.finish []
  | closed :
    t.pc = .closing →
    TaskStep C t .closed t.finish []

lemma attempt_sound (t : Task) (cfg : AutoConnectConfig) (wifi : Bool) :
    Attempt t cfg wifi (t.attempt cfg wifi).1 (t.attempt cfg wifi).2 := by
  rw [Task.attempt]
  split
  · exact .disabled ‹_›
  · rename_i enabled
    have enabled := Bool.not_eq_false _ ▸ enabled
    split
    · exact .noWifi enabled ‹_›
    · rename_i up
      have up := Bool.not_eq_false _ ▸ up
      split
      · rename_i none
        exact .badConfig enabled up fun url some => by rw [none] at some; cases some
      · rename_i url parsed
        split
        · rename_i none
          refine .badConfig enabled up fun url' parsed' => ?_
          rw [parsed] at parsed'
          cases parsed'
          exact none
        · rename_i pin usable
          rw [Task.resolve]
          split
          · exact .dial enabled up parsed usable
          · exact .query enabled up parsed usable

/-- A verifier that flags a mismatch of the pin rejects the signature. -/
lemma verifySignature_mismatch {C : Crypto} {v : PinnedVerifier} {verify : CertificateVerify}
    (ok : (v.verifySignature C verify).2.2 = .ok ()) : (v.verifySignature C verify).2.1 = false := by
  rw [PinnedVerifier.verifySignature] at ok ⊢
  split
  · rfl
  · rename_i key found
    rw [found] at ok
    simp only at ok
    split at ok
    · cases ok
    · rename_i same
      rw [if_neg same]
      split
      · rfl
      · rfl

/-- Whatever `Task.step` does is listed by `TaskStep`. -/
theorem step_sound {C : Crypto} {t t' : Task} {e : Event} {os : List Obs}
    (h : t.step C e = some (t', os)) : TaskStep C t e t' os := by
  unfold Task.step at h
  split at h
  · rename_i cfg wifi locking
    cases h
    exact .locked locking (attempt_sound t cfg wifi)
  · rename_i sleeping
    cases h
    exact .timer sleeping
  · rename_i resolving
    split at h
    · cases h
      exact .resolved resolving
    · cases h
      exact .dnsFail resolving
  · rename_i ok connecting
    split at h
    · rename_i yes
      subst yes
      simp only at h
      split at h
      · cases h
        exact .connectedTls connecting ‹_›
      · cases h
        exact .connectedTcp connecting (Bool.not_eq_true _ ▸ ‹_›) rfl
    · rename_i no
      cases Bool.not_eq_true _ ▸ no
      cases h
      exact .tcpFail connecting
  · rename_i opening
    cases h
    exact .certificate opening
  · rename_i url v handshake verify opening
    simp only at h
    cases result : (v.verifySignature C verify).2.2 with
    | ok _ =>
      rw [verifySignature_mismatch result, result] at h
      cases h
      have accepted := TaskStep.accepted (C := C) opening result
      simpa [Except.isOk, Except.toBool] using accepted
    | error err =>
      rw [result] at h
      cases h
      have rejected := TaskStep.rejected (C := C) opening (by rw [result]; exact nofun) rfl
      simpa [Except.isOk, Except.toBool] using rejected
  · rename_i ok opening
    split at h
    · rename_i yes
      subst yes
      have sound := TaskStep.opened (C := C) opening
      rwa [Option.some.inj h] at sound
    · rename_i no
      cases Bool.not_eq_true _ ▸ no
      cases h
      exact .tlsFail opening rfl
  · rename_i sending
    split at h
    · cases h
      exact .tokenSent sending ‹_›
    · cases h
      exact .sent sending (Nat.lt_of_not_le ‹_›)
  · rename_i serving
    split at h
    · cases h
      exact .servedTls serving ‹_›
    · cases h
      exact .servedTcp serving (Bool.not_eq_true _ ▸ ‹_›)
  · rename_i closing
    cases h
    exact .closed closing
  · cases h

/-- The event is the success of a handshake. -/
def opens : Event → Bool
  | .opened ok => ok
  | _ => false

/-- The last callbacks of the handshake, if there is one, were those of a successful one. -/
def verified : Pc → Bool
  | .opening _ _ handshake => handshake = .verified
  | _ => true

/-- What the task relies on: the TLS library opens a link only after `verify_certificate` and then
`verify_signature` returned `Ok`. -/
def TlsOpens (t : Task) (e : Event) : Prop := opens e = true → verified t.pc = true

instance (t : Task) (e : Event) : Decidable (TlsOpens t e) := inferInstanceAs (Decidable (_ → _))

/-- Whether the link that an observation uses is TLS: a token is sent over it, or a port runs on it. -/
def Obs.link : Obs → Option Bool
  | .token tls _ => some tls
  | .served tls => some tls
  | _ => none

/-- The observation is one of a connection being made. -/
def Obs.connects : Obs → Bool
  | .query _ | .dial _ _ | .subscribed | .token _ _ | .served _ => true
  | _ => false

/-- The certificate and the signature of a handshake were accepted, and it is authenticated by the pin
that `hex` denotes. -/
def Secured (C : Crypto) (hex : List UInt8) (os : List Obs) : Prop :=
  ∃ pin pre entries transcript verify post, parsePubkey hex = some pin ∧
    os = pre ++ [.certificate entries transcript, .signature verify true] ++ post ∧
    Authenticated C pin entries transcript verify

/-- Every use of a link is one of a TLS link after an authenticated handshake. -/
def Guarded (C : Crypto) (hex : List UInt8) (os : List Obs) : Prop :=
  ∀ before o after tls, os = before ++ o :: after → o.link = some tls →
    tls = true ∧ Secured C hex before

lemma Secured.append {C : Crypto} {hex : List UInt8} {os : List Obs} (sec : Secured C hex os)
    (os' : List Obs) : Secured C hex (os ++ os') := by
  obtain ⟨pin, pre, entries, transcript, verify, post, parsed, rfl, auth⟩ := sec
  exact ⟨pin, pre, entries, transcript, verify, post ++ os', parsed, List.append_assoc _ _ _, auth⟩

lemma Guarded.append {C : Crypto} {hex : List UInt8} {os os' : List Obs} (guarded : Guarded C hex os)
    (new : ∀ o ∈ os', ∀ tls, o.link = some tls → tls = true ∧ Secured C hex os) :
    Guarded C hex (os ++ os') := by
  intro before o after tls eq uses
  rcases List.append_eq_append_iff.mp eq with ⟨front, rfl, eq'⟩ | ⟨back, rfl, eq'⟩
  · obtain ⟨tls, sec⟩ := new o (eq' ▸ List.mem_append_right _ List.mem_cons_self) tls uses
    exact ⟨tls, sec.append front⟩
  · cases back with
    | nil =>
      rw [List.nil_append] at eq'
      obtain ⟨tls, sec⟩ := new o (eq' ▸ List.mem_cons_self) tls uses
      exact ⟨tls, by simpa using sec⟩
    | cons o' back =>
      obtain ⟨rfl, -⟩ := List.cons_eq_cons.mp eq'
      exact guarded before o back tls rfl uses

/-- Where the task is in a round for a URL with the pubkey `hex`. -/
def Pinned (C : Crypto) (url : ParsedUrl) (hex : List UInt8) (pc : Pc) (os : List Obs) : Prop :=
  match pc with
  | .resolving u pin | .connecting u pin _ =>
    u = url ∧ url.tls = true ∧ ∃ key, pin = some key ∧ parsePubkey hex = some key
  | .opening u v handshake =>
    u = url ∧ url.tls = true ∧ ∃ key, v.pin = some key ∧ parsePubkey hex = some key ∧
      (handshake = .certified → ∃ pre entries transcript, os = pre ++ [.certificate entries transcript] ∧
        v.serverKey = firstKey entries ∧ v.transcript = some transcript) ∧
      (handshake = .verified → Secured C hex os)
  | .sending u _ | .serving u => u = url ∧ url.tls = true ∧ Secured C hex os
  | _ => True

lemma usablePin_pubkey {url : ParsedUrl} {hex : List UInt8} {pin : Option (List UInt8)}
    (pubkey : url.pubkey = some hex) (usable : Task.usablePin url = some pin) :
    url.tls = true ∧ ∃ key, pin = some key ∧ parsePubkey hex = some key := by
  rw [Task.usablePin, pubkey] at usable
  simp only at usable
  split at usable
  · rename_i key parsed
    split at usable
    · cases usable
      exact ⟨‹_›, key, rfl, parsed⟩
    · cases usable
  · cases usable

/-- A link is only used where the task goes on with it. -/
lemma link_spec {C : Crypto} {t : Task} {url : ParsedUrl} {hex : List UInt8} {os : List Obs}
    (tls : url.tls = true) (sec : Secured C hex os) :
    Pinned C url hex (t.link url).1.pc (os ++ (t.link url).2) ∧
      ∀ o ∈ (t.link url).2, ∀ tls, o.link = some tls → tls = true ∧ Secured C hex os := by
  rw [Task.link]
  split
  · refine ⟨⟨rfl, tls, sec.append _⟩, fun o mem b uses => ?_⟩
    cases List.mem_singleton.mp mem
    cases uses
    exact ⟨tls, sec⟩
  · refine ⟨⟨rfl, tls, sec.append _⟩, fun o mem b uses => ?_⟩
    cases List.mem_singleton.mp mem
    cases uses
    exact ⟨tls, sec⟩

/-- A step within a round keeps the pin, and uses a link only after an authenticated handshake. -/
lemma step_pinned {C : Crypto} {url : ParsedUrl} {hex : List UInt8} {t t' : Task} {e os os'}
    (step : TaskStep C t e t' os') (opens : TlsOpens t e) (same : .attempt ∉ os')
    (inv : Pinned C url hex t.pc os) :
    Pinned C url hex t'.pc (os ++ os') ∧
      ∀ o ∈ os', ∀ tls, o.link = some tls → tls = true ∧ Secured C hex os := by
  cases step with
  | locked _ _ => exact absurd List.mem_cons_self same
  | @timer secs linked _ =>
    refine ⟨trivial, fun o mem tls uses => ?_⟩
    cases linked with
    | true =>
      cases List.mem_singleton.mp mem
      cases uses
    | false => cases mem
  | resolved pc =>
    rw [pc] at inv
    refine ⟨inv, fun o mem tls uses => ?_⟩
    cases List.mem_singleton.mp mem
    cases uses
  | connectedTls pc tls =>
    rw [pc] at inv
    obtain ⟨rfl, -, key, pin, parsed⟩ := inv
    refine ⟨⟨rfl, tls, key, pin, parsed, nofun, nofun⟩, fun o mem tls uses => ?_⟩
    cases List.mem_singleton.mp mem
    cases uses
  | connectedTcp pc tcp _ =>
    rw [pc] at inv
    obtain ⟨rfl, tls, -⟩ := inv
    rw [tls] at tcp
    cases tcp
  | @certificate u v handshake transcript entries pc =>
    rw [pc] at inv
    obtain ⟨rfl, tls, key, pin, parsed, -⟩ := inv
    refine ⟨⟨rfl, tls, key, pin, parsed, fun _ => ⟨os, entries, transcript, rfl, rfl, rfl⟩, nofun⟩,
      fun o mem tls uses => ?_⟩
    cases List.mem_singleton.mp mem
    cases uses
  | @accepted u v handshake verify pc ok =>
    -- the key of the last certificate and its transcript are what the signature was verified with
    rw [pc] at inv
    obtain ⟨rfl, tls, key, pin, parsed, cert, -⟩ := inv
    refine ⟨⟨rfl, tls, key, ?_, parsed, ?_, fun yes => ?_⟩, fun o mem tls uses => ?_⟩
    · rw [verifySignature_pin]
      exact pin
    · split
      · exact nofun
      · exact nofun
    · split at yes
      · obtain ⟨pre, entries, transcript, rfl, server, hashed⟩ := cert ‹_›
        refine ⟨key, pre, entries, transcript, verify, [], parsed, ?_,
          verifySignature_pinned pin server hashed ok⟩
        simp
      · cases yes
    · cases List.mem_singleton.mp mem
      cases uses
  | rejected pc _ eq =>
    rw [pc] at inv
    obtain ⟨rfl, tls, key, pin, parsed, -⟩ := inv
    refine ⟨⟨rfl, tls, key, ?_, parsed, nofun, nofun⟩, fun o mem tls uses => ?_⟩
    · rw [verifySignature_pin]
      exact pin
    · cases List.mem_singleton.mp mem
      cases uses
  | opened pc =>
    -- this is where the assumption on the TLS library enters
    have done := opens rfl
    rw [pc] at inv done
    obtain ⟨rfl, tls, -, -, -, -, sec⟩ := inv
    exact link_spec tls (sec (of_decide_eq_true done))
  | tlsFail pc _ => exact ⟨trivial, nofun⟩
  | sent pc _ =>
    rw [pc] at inv
    obtain ⟨rfl, tls, sec⟩ := inv
    exact ⟨⟨rfl, tls, sec.append _⟩, nofun⟩
  | tokenSent pc _ =>
    rw [pc] at inv
    obtain ⟨rfl, tls, sec⟩ := inv
    refine ⟨⟨rfl, tls, sec.append _⟩, fun o mem b uses => ?_⟩
    cases List.mem_singleton.mp mem
    cases uses
    exact ⟨tls, sec⟩
  | _ => exact ⟨trivial, nofun⟩

/-- Between two rounds, without a link. -/
def resting : Pc → Bool
  | .sleeping _ linked => !linked
  | .locking => true
  | _ => false

/-- A round starts with the pin of its URL, or does not get past the configuration. -/
lemma attempt_pinned {C : Crypto} {t t' : Task} {cfg wifi os url hex} (att : Attempt t cfg wifi t' os)
    (parsed : parseUrl cfg.urlStr = some url) (pubkey : url.pubkey = some hex) :
    (∀ before, Pinned C url hex t'.pc before) ∧ (∀ o ∈ os, o.link = none) ∧
      (url.tls = false ∨ parsePubkey hex = none → os = [] ∧ resting t'.pc = true) := by
  -- a round that gets past the configuration has a pin
  have refused : ∀ {u pin}, parseUrl cfg.urlStr = some u → Task.usablePin u = some pin →
      (u = url ∧ url.tls = true ∧ ∃ key, pin = some key ∧ parsePubkey hex = some key) ∧
        ¬ (url.tls = false ∨ parsePubkey hex = none) := by
    intro u pin parsed' usable
    rw [parsed] at parsed'
    cases parsed'
    obtain ⟨tls, key, pin, valid⟩ := usablePin_pubkey pubkey usable
    refine ⟨⟨rfl, tls, key, pin, valid⟩, ?_⟩
    rintro (tcp | none)
    · rw [tls] at tcp
      cases tcp
    · rw [valid] at none
      cases none
  cases att with
  | query _ _ parsed' usable =>
    obtain ⟨pinned, valid⟩ := refused parsed' usable
    refine ⟨fun _ => pinned, fun o mem => ?_, fun no => absurd no valid⟩
    rw [List.mem_singleton.mp mem]
    rfl
  | dial _ _ parsed' usable =>
    obtain ⟨pinned, valid⟩ := refused parsed' usable
    refine ⟨fun _ => pinned, fun o mem => ?_, fun no => absurd no valid⟩
    rw [List.mem_singleton.mp mem]
    rfl
  | _ => exact ⟨fun _ => trivial, nofun, fun _ => ⟨rfl, rfl⟩⟩

/-- Between two rounds only a timer runs out. -/
lemma step_resting {C : Crypto} {t t' : Task} {e os} (step : TaskStep C t e t' os)
    (rest : resting t.pc = true) (same : .attempt ∉ os) : resting t'.pc = true ∧ os = [] := by
  cases step with
  | locked _ _ => exact absurd List.mem_cons_self same
  | @timer secs linked pc =>
    rw [pc] at rest
    cases linked with
    | true => cases rest
    | false => exact ⟨rfl, rfl⟩
  | _ => simp_all [resting]

/-- A round that does not get past the configuration shows nothing. -/
lemma stretch_resting {C : Crypto} {s w : Task} {os : List Obs}
    (run : (machine C).Steps TlsOpens s os w) (rest : resting s.pc = true) (same : .attempt ∉ os) :
    os = [] := by
  have all : .attempt ∉ os → resting w.pc = true ∧ os = [] := by
    refine run.invariant (P := fun w os => .attempt ∉ os → resting w.pc = true ∧ os = []) ?_ ?_
    · intro _
      exact ⟨rest, rfl⟩
    · intro v os v' os' e _ inv _ st same
      rw [List.mem_append, not_or] at same
      obtain ⟨rest, rfl⟩ := inv same.1
      exact step_resting (step_sound st) rest same.2
  exact (all same).2

/-- Within a round every use of a link is guarded, the history `front` of its first step included. -/
lemma stretch_pinned {C : Crypto} {url : ParsedUrl} {hex : List UInt8} {s w : Task} {os front : List Obs}
    (run : (machine C).Steps TlsOpens s os w) (start : Pinned C url hex s.pc front)
    (before : Guarded C hex front) (same : .attempt ∉ os) : Guarded C hex (front ++ os) := by
  have all : .attempt ∉ os → Pinned C url hex w.pc (front ++ os) ∧ Guarded C hex (front ++ os) := by
    refine run.invariant (P := fun w os => .attempt ∉ os →
      Pinned C url hex w.pc (front ++ os) ∧ Guarded C hex (front ++ os)) ?_ ?_
    · intro _
      rw [List.append_nil]
      exact ⟨start, before⟩
    · intro v os v' os' e _ inv c st same
      rw [List.mem_append, not_or] at same
      obtain ⟨pinned, guarded⟩ := inv same.1
      obtain ⟨pinned', new⟩ := step_pinned (step_sound st) c same.2 pinned
      rw [← List.append_assoc]
      exact ⟨pinned', guarded.append new⟩
  exact (all same).2

/-- Pinning, for every round of the task with a URL that has a pubkey, from any state the task may be
in, if the TLS library opens a link only after its callbacks succeeded. A round whose URL is not TLS or
whose pubkey is not valid makes no connection. A round that sends the token or enters `run_port` does
so on a TLS link, after callbacks that succeeded: the key found in the server's first certificate was the
pin, and the signature over the transcript of the handshake was valid under it. -/
theorem autoconnect_pinned {C : Crypto} {s s' w : Task} {cfg wifi url hex} {os os' : List Obs}
    (start : (machine C).step s (.locked cfg wifi) = some (s', os'))
    (parsed : parseUrl cfg.urlStr = some url) (pubkey : url.pubkey = some hex)
    (run : (machine C).Steps TlsOpens s' os w) (round : .attempt ∉ os) :
    (url.tls = false ∨ parsePubkey hex = none → ∀ o ∈ os' ++ os, o.connects = false) ∧
    ∀ before o after tls, os' ++ os = before ++ o :: after → o.link = some tls →
      tls = true ∧ ∃ pin pre entries transcript verify post, parsePubkey hex = some pin ∧
        before = pre ++ [.certificate entries transcript, .signature verify true] ++ post ∧
        Authenticated C pin entries transcript verify := by
  cases step_sound start with
  | locked _ att =>
    obtain ⟨pinned, unused, refused⟩ := attempt_pinned (C := C) att parsed pubkey
    refine ⟨fun no o mem => ?_, ?_⟩
    · obtain ⟨rfl, rest⟩ := refused no
      rw [stretch_resting run rest round, List.append_nil, List.mem_singleton] at mem
      rw [mem]
      rfl
    · refine stretch_pinned run (pinned _) ?_ round
      have none : Guarded C hex [] := by
        intro before o after tls eq _
        simp at eq
      refine none.append fun o mem tls uses => ?_
      · rcases List.mem_cons.mp mem with rfl | mem
        · cases uses
        · rw [unused o mem] at uses
          cases uses

/-- The public key of a server. -/
def samplePoint : List UInt8 :=
  [0x04,
    0x7C, 0xF2, 0x7B, 0x18, 0x8D, 0x03, 0x4F, 0x7E, 0x8A, 0x52, 0x38, 0x03, 0x04, 0xB5, 0x1A, 0xC3,
    0xC0, 0x89, 0x69, 0xE2, 0x77, 0xF2, 0x1B, 0x35, 0xA6, 0x0B, 0x48, 0xFC, 0x47, 0x66, 0x99, 0x78,
    0x07, 0x77, 0x55, 0x10, 0xDB, 0x8E, 0xD0, 0x40, 0x29, 0x3D, 0x9A, 0xC6, 0x9F, 0x74, 0x30, 0xDB,
    0xBA, 0x7D, 0xAD, 0xE6, 0x3C, 0xE9, 0x82, 0x29, 0x9E, 0x04, 0xB7, 0x9D, 0x22, 0x78, 0x73, 0xD1]

/-- The digest of the transcript `hello`. -/
def sampleDigest : List UInt8 :=
  [0x2C, 0xF2, 0x4D, 0xBA, 0x5F, 0xB0, 0xA3, 0x0E, 0x26, 0xE8, 0x3B, 0x2A, 0xC5, 0xB9, 0xE2, 0x9E,
    0x1B, 0x16, 0x1E, 0x5C, 0x1F, 0xA7, 0x42, 0x5E, 0x73, 0x04, 0x33, 0x62, 0x93, 0x8B, 0x98, 0x24]

/-- The server's signature of what CertificateVerify signs for that transcript. -/
def sampleSignature : List UInt8 :=
  [0x30, 0x44, 0x02, 0x20, 0x47, 0x1C, 0x3E, 0x75, 0x8C, 0x49, 0x04, 0x28, 0x5B, 0xBA, 0x7E, 0x53,
    0x11, 0x8E, 0xD0, 0xF5, 0x24, 0xAD, 0xEB, 0x07, 0x57, 0xD2, 0x5B, 0xD2, 0xF8, 0xE7, 0xB0, 0xD7,
    0x6D, 0xFA, 0x71, 0x4C, 0x02, 0x20, 0x25, 0x0E, 0x8C, 0x5F, 0x92, 0x71, 0x24, 0xB3, 0x17, 0x27,
    0xD4, 0x92, 0xD6, 0x0E, 0x4F, 0xEE, 0x19, 0x2F, 0x9C, 0x01, 0xBF, 0x12, 0x89, 0x85, 0x86, 0x4B,
    0xBE, 0xFE, 0x8C, 0x00, 0x6E, 0x1C]

/-- What `sha2` and `p256` compute for that transcript, key and signature. -/
def sampleCrypto : Crypto where
  sha256 transcript := if transcript = ascii "hello" then sampleDigest else []
  fromSec1Bytes key := key = samplePoint
  fromDer signature := signature = sampleSignature
  verify key message signature := key = samplePoint ∧ signature = sampleSignature ∧
    message = List.replicate 64 0x20 ++ ascii "TLS 1.3, server CertificateVerify" ++ [0] ++ sampleDigest

/-- A configuration that pins the key. -/
def sampleConfig : AutoConnectConfig :=
  AutoConnectConfig.new.set true (ascii "tls://10.0.0.1:4433/?pubkey=" ++ hexPairs samplePoint)

theorem autoconnect_pinned_at :
    ∃ s' os' w os before after,
      (machine sampleCrypto).step (machine sampleCrypto).init (.locked sampleConfig true) =
        some (s', os') ∧
      (machine sampleCrypto).Steps TlsOpens s' os w ∧ os' ++ os = before ++ .served true :: after ∧
      ∃ pin pre entries transcript verify post, parsePubkey (hexPairs samplePoint) = some pin ∧
        before = pre ++ [.certificate entries transcript, .signature verify true] ++ post ∧
        Authenticated sampleCrypto pin entries transcript verify := by
  obtain ⟨_, _, s', os', w, os, reach, start, run, rfl, round, served⟩ :=
    Machine.run_step_exec (machine sampleCrypto) TlsOpens [] (.locked sampleConfig true)
      [.connected true, .certificate (ascii "hello") [.x509 (POINT ++ samplePoint.tail)],
        .signature ⟨.ecdsaSecp256r1Sha256, sampleSignature⟩, .opened true]
      (fun s _ _ os => s = (machine sampleCrypto).init ∧ .attempt ∉ os ∧ .served true ∈ os)
      (by decide +kernel)
  obtain ⟨before, after, eq⟩ := List.append_of_mem (List.mem_append_right os' served)
  have parsed : parseUrl sampleConfig.urlStr =
      some ⟨true, ascii "10.0.0.1", 4433, some (hexPairs samplePoint), none⟩ := by decide +kernel
  have pinned := autoconnect_pinned start parsed rfl run round
  exact ⟨s', os', w, os, before, after, start, run, eq, (pinned.2 before _ after true eq rfl).2⟩

end EspcanBr.Autoconnect
