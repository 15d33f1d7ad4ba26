import EspcanBr.Base.Machine
import EspcanBr.Tools.Observe
import EspcanBr.Tools.Pinning
import EspcanBr.Tools.Url

/-!
# The TLS proxy

`pump`, `handle` and `main` of `tools/slcan_tls_proxy.py`: a client at a time, a connection to the relay for
it, and two threads that copy what the one sends to the other. The threads take their steps in any order; what
arrives, how much of it a call of `recv` returns and which calls fail is up to the environment. A call of
`shutdown` is one step.
-/

namespace EspcanBr.Tools.SlcanTlsProxy
open Base Slcan

/-- What `handle` reads of the arguments; `parse_args` exits where the URL has no token. -/
structure Args where
  url : Url
  token : List UInt8
  insecure : Bool
  verbose : Bool
  has_token : url.token = some token ∧ token ≠ []

/-- The two ends that are connected. -/
inductive Side where
  | client
  | server
  deriving DecidableEq

def Side.other : Side → Side
  | .client => .server
  | .server => .client

/-- A connection as the proxy sees it: what was received and what has arrived but was not, what was
sent to the peer, and whether its peer ended the stream, and the proxy shut it down or closed it. -/
structure Socket where
  taken : List UInt8
  unread : List UInt8
  outgoing : List UInt8
  fin : Bool
  shut : Bool
  closed : Bool

namespace Socket

def new : Socket := ⟨[], [], [], false, false, false⟩

/-- There is no connection yet. -/
def none : Socket := { new with closed := true }

/-- What its peer has sent. -/
def incoming (s : Socket) : List UInt8 := s.taken ++ s.unread

end Socket

/-- Where a call of `pump` is. -/
inductive PumpPc where
  | recv
  | sendall (data : List UInt8)
  | observe (data : List UInt8)
  | shutdown (socket : Side) (both : List Side)
  | done
  deriving DecidableEq

/-- A call of `pump`, with its line accumulator and what it printed. -/
structure Pump where
  pc : PumpPc
  acc : List UInt8
  printed : List (List UInt8)
  deriving DecidableEq

/-- How the call a `pump` is in ends. -/
inductive PumpEvent where
  | received (n : ℕ)
  | eof
  | sent
  | printed
  /-- Raised after so many bytes were sent, or so many lines printed. -/
  | error (n : ℕ)
  | shut
  deriving DecidableEq

namespace Pump

def start : Pump := ⟨.recv, [], []⟩

def none : Pump := ⟨.done, [], []⟩

/-- The `finally` of `pump`, for both sockets. -/
def ending (p : Pump) : Pump := { p with pc := .shutdown .client [.server] }

/-- `pump` from the socket `s` to the other one. -/
def step (label : Option (List UInt8)) (s : Side) (sock : Side → Socket) (p : Pump) :
    PumpEvent → Option ((Side → Socket) × Pump)
  | .received n =>
    match p.pc with
    | .recv =>
      if 0 < n ∧ n ≤ 4096 ∧ n ≤ (sock s).unread.length then
        let data := (sock s).unread.take n
        some (Function.update sock s
          { sock s with taken := (sock s).taken ++ data, unread := (sock s).unread.drop n },
          { p with pc := .sendall data })
      else Option.none
    | _ => Option.none
  | .eof =>
    match p.pc with
    | .recv => if (sock s).shut ∨ (sock s).fin ∧ (sock s).unread = [] then some (sock, p.ending) else Option.none
    | _ => Option.none
  | .sent =>
    match p.pc with
    | .sendall data =>
      if (sock s.other).shut then Option.none
      else
        some (Function.update sock s.other { sock s.other with outgoing := (sock s.other).outgoing ++ data },
          { p with pc := if label.isSome then .observe data else .recv })
    | _ => Option.none
  | .printed =>
    match p.pc with
    | .observe data =>
      let (acc, lines) := observe (label.getD []) p.acc data
      some (sock, ⟨.recv, acc, p.printed ++ lines⟩)
    | _ => Option.none
  | .error n =>
    match p.pc with
    | .recv => some (sock, p.ending)
    | .sendall data =>
      -- nothing more is sent on a socket that was shut down
      let part := if (sock s.other).shut then [] else data.take n
      some (Function.update sock s.other { sock s.other with outgoing := (sock s.other).outgoing ++ part },
        p.ending)
    | .observe data =>
      some (sock, { p.ending with printed := p.printed ++ (observe (label.getD []) p.acc data).2.take n })
    | _ => Option.none
  | .shut =>
    match p.pc with
    | .shutdown x both =>
      some (Function.update sock x { sock x with shut := true },
        { p with pc := match both with
          | [] => .done
          | y :: both => .shutdown y both })
    | _ => Option.none

end Pump

/-- Where `main` is: waiting for a client, or in `handle`. -/
inductive MainPc where
  | accept
  | connect
  | auth
  | relay
  | exited
  deriving DecidableEq

/-- The process. `certificate` is what the server presented. -/
structure Proxy where
  main : MainPc
  certificate : Option (List UInt8)
  sock : Side → Socket
  pump : Side → Pump

/-- What happens next. -/
inductive ProxyEvent where
  /-- A client is accepted; setting its socket's option may raise. -/
  | accept (nodelay : Bool)
  /-- The connection to the relay fails, or its handshake ends, with the server's certificate if there is
  one. -/
  | connect (handshake : Option (Option (List UInt8)))
  /-- The token line is sent, or sending it raises after some bytes. -/
  | auth (error : Option ℕ)
  | pump (s : Side) (e : PumpEvent)
  | join
  /-- `KeyboardInterrupt` in the main thread. -/
  | interrupt
  | arrive (s : Side) (bytes : List UInt8)
  | fin (s : Side)
  deriving DecidableEq

/-- The line with the token. -/
def tokenLine (token : List UInt8) : List UInt8 := [ch 'H'] ++ token ++ [CR]

/-- The label of a direction, in verbose mode. -/
def Args.label (a : Args) : Side → Option (List UInt8)
  | .client => if a.verbose then some (ascii "TX") else none
  | .server => if a.verbose then some (ascii "RX") else none

namespace Proxy

/-- The sockets are closed. -/
def close (st : Proxy) (sides : List Side) : Side → Socket :=
  fun s => if s ∈ sides then { st.sock s with closed := true } else st.sock s

/-- The process ends, and its threads with it. -/
def exit (st : Proxy) : Proxy := { st with main := .exited, sock := st.close [.client, .server] }

/-- A client is accepted: nothing has passed yet. -/
def accepted : Proxy := ⟨.connect, none, fun | .client => .new | .server => .none, fun _ => .none⟩

/-- A step of `main` or of a thread. -/
def step (a : Args) (st : Proxy) : ProxyEvent → Option Proxy
  | .accept nodelay =>
    if st.main = .accept then some (if nodelay then accepted else accepted.exit) else none
  | .connect handshake =>
    if st.main = .connect then
      -- the tool does not even try without a pin
      if given a.url.pubkey = false ∧ a.insecure = false then some st.exit
      else
        match handshake with
        | none => some { st with main := .accept, sock := st.close [.client] }
        | some der =>
          let st := { st with certificate := der }
          match tlsConnect a.url.pubkey a.insecure der with
          | .exit _ => some st.exit
          | .connectionError _ => some { st with main := .accept, sock := st.close [.client] }
          | .connected => some { st with main := .auth, sock := Function.update st.sock .server .new }
    else none
  | .auth error =>
    if st.main = .auth then
      let server := st.sock .server
      -- an exception in `handle` leaves the server's socket to the garbage collector
      if a.token.all (· < 0x80) = false then some { st with main := .accept, sock := st.close [.client] }
      else
        match error with
        | some n =>
          let sent := { server with outgoing := (tokenLine a.token).take n }
          let st := { st with sock := Function.update st.sock .server sent }
          some { st with main := .accept, sock := st.close [.server, .client] }
        | none =>
          let sent := { server with outgoing := tokenLine a.token }
          some { st with
            main := .relay
            sock := Function.update st.sock .server sent
            pump := fun _ => .start }
    else none
  | .pump s e =>
    if st.main = .relay then
      ((st.pump s).step (a.label s) s st.sock e).map fun (sock, p) =>
        { st with sock := sock, pump := Function.update st.pump s p }
    else none
  | .join =>
    if st.main = .relay ∧ (st.pump .client).pc = .done ∧ (st.pump .server).pc = .done then
      some { st with main := .accept, sock := st.close [.client, .server] }
    else none
  | .interrupt => if st.main = .exited then none else some st.exit
  | .arrive s bytes =>
    if (st.sock s).closed ∨ (st.sock s).fin then none
    else
      some { st with sock := Function.update st.sock s { st.sock s with unread := (st.sock s).unread ++ bytes } }
  | .fin s =>
    if (st.sock s).closed then none
    else some { st with sock := Function.update st.sock s { st.sock s with fin := true } }

end Proxy

/-- The proxy, which begins without a client. -/
def proxy (a : Args) : Machine Proxy ProxyEvent Unit where
  init := ⟨.accept, none, fun _ => .none, fun _ => .none⟩
  step st e := (st.step a e).map fun st => (st, [])

end EspcanBr.Tools.SlcanTlsProxy
