import EspcanBr.Base.Budget
import EspcanBr.Tools.Proxy

/-!
# The relay of the TLS proxy

In every order of the threads' steps each side is sent what the other one sent, in order and without
anything added but the token line, over a connection whose server was verified (`relay_transparent`). When one
direction has ended the session ends, and the direction that ended first is complete if nothing failed
(`relay_ends`). What verbose mode prints tells nothing of an authentication line of ASCII but that it is
there (`relay_redacted`).
-/

namespace EspcanBr.Tools.SlcanTlsProxy
open Base Slcan

@[simp] lemma Side.other_other (s : Side) : s.other.other = s := by cases s <;> rfl

@[simp] lemma Side.other_ne (s : Side) : s.other ≠ s := by cases s <;> exact nofun

@[simp] lemma Side.ne_other (s : Side) : s ≠ s.other := s.other_ne.symm

lemma Side.eq_other {s t : Side} (ne : s ≠ t) : s = t.other := by
  cases s <;> cases t <;> simp_all [Side.other]

/-- What a step of the `pump` from the socket `s` can do. -/
inductive Moves (label : Option (List UInt8)) (s : Side) (sock : Side → Socket) :
    Pump → PumpEvent → (Side → Socket) → Pump → Prop where
  | received {n acc out} (pos : 0 < n) (le : n ≤ 4096) (here : n ≤ (sock s).unread.length) :
    Moves label s sock ⟨.recv, acc, out⟩ (.received n)
      (Function.update sock s
        { sock s with taken := (sock s).taken ++ (sock s).unread.take n, unread := (sock s).unread.drop n })
      ⟨.sendall ((sock s).unread.take n), acc, out⟩
  | eof {acc out} (at_end : (sock s).shut = true ∨ (sock s).fin = true ∧ (sock s).unread = []) :
    Moves label s sock ⟨.recv, acc, out⟩ .eof sock ⟨.shutdown .client [.server], acc, out⟩
  | raised {n acc out} :
    Moves label s sock ⟨.recv, acc, out⟩ (.error n) sock ⟨.shutdown .client [.server], acc, out⟩
  | sent {data acc out} (up : (sock s.other).shut = false) :
    Moves label s sock ⟨.sendall data, acc, out⟩ .sent
      (Function.update sock s.other { sock s.other with outgoing := (sock s.other).outgoing ++ data })
      ⟨if label.isSome then .observe data else .recv, acc, out⟩
  | broken {n data part acc out} (some_ : part <+: data) :
    Moves label s sock ⟨.sendall data, acc, out⟩ (.error n)
      (Function.update sock s.other { sock s.other with outgoing := (sock s.other).outgoing ++ part })
      ⟨.shutdown .client [.server], acc, out⟩
  | printed {data acc out} :
    Moves label s sock ⟨.observe data, acc, out⟩ .printed sock
      ⟨.recv, (observe (label.getD []) acc data).1, out ++ (observe (label.getD []) acc data).2⟩
  | unprinted {data acc out} (n : ℕ) :
    Moves label s sock ⟨.observe data, acc, out⟩ (.error n) sock
      ⟨.shutdown .client [.server], acc, out ++ (observe (label.getD []) acc data).2.take n⟩
  | shut {x y both acc out} :
    Moves label s sock ⟨.shutdown x (y :: both), acc, out⟩ .shut
      (Function.update sock x { sock x with shut := true })
      ⟨.shutdown y both, acc, out⟩
  | last {x acc out} :
    Moves label s sock ⟨.shutdown x [], acc, out⟩ .shut (Function.update sock x { sock x with shut := true })
      ⟨.done, acc, out⟩

lemma Pump.step_moves {label : Option (List UInt8)} {s : Side} {sock sock' : Side → Socket} {p p' : Pump}
    {e : PumpEvent} (st : p.step label s sock e = some (sock', p')) : Moves label s sock p e sock' p' := by
  obtain ⟨pc, acc, out⟩ := p
  cases e with
  | received n =>
    cases pc with
    | recv =>
      simp only [step] at st
      split at st
      · rename_i bounds
        cases st
        exact .received bounds.1 bounds.2.1 bounds.2.2
      · cases st
    | _ => cases st
  | eof =>
    cases pc with
    | recv =>
      simp only [step] at st
      split at st
      · rename_i at_end
        cases st
        exact .eof at_end
      · cases st
    | _ => cases st
  | sent =>
    cases pc with
    | sendall data =>
      simp only [step] at st
      split at st
      · cases st
      · rename_i up
        cases st
        exact .sent (Bool.eq_false_iff.mpr up)
    | _ => cases st
  | printed =>
    cases pc with
    | observe data =>
      cases st
      exact .printed
    | _ => cases st
  | error n =>
    cases pc with
    | recv =>
      cases st
      exact .raised
    | sendall data =>
      simp only [step] at st
      cases st
      apply Moves.broken
      split
      · exact List.nil_prefix
      · exact List.take_prefix _ _
    | observe data =>
      cases st
      exact .unprinted n
    | _ => cases st
  | shut =>
    cases pc with
    | shutdown x both =>
      cases both with
      | nil =>
        cases st
        exact .last
      | cons y both =>
        cases st
        exact .shut
    | _ => cases st

/-- A step of one pump leaves alone what the other one reads and has sent, and what the peers sent. -/
lemma Moves.frame {label : Option (List UInt8)} {s : Side} {sock sock' : Side → Socket} {p p' : Pump}
    {e : PumpEvent} (moves : Moves label s sock p e sock' p') :
    (sock' s.other).taken = (sock s.other).taken ∧ (sock' s).outgoing = (sock s).outgoing ∧
      ∀ t, (sock' t).incoming = (sock t).incoming ∧ (sock' t).fin = (sock t).fin ∧
        (sock' t).closed = (sock t).closed ∧ ((sock t).shut = true → (sock' t).shut = true) := by
  have update : ∀ (x : Side) (v : Socket), v.incoming = (sock x).incoming → v.fin = (sock x).fin →
      v.closed = (sock x).closed → ((sock x).shut = true → v.shut = true) → ∀ t,
      (Function.update sock x v t).incoming = (sock t).incoming ∧ (Function.update sock x v t).fin = (sock t).fin ∧
        (Function.update sock x v t).closed = (sock t).closed ∧
        ((sock t).shut = true → (Function.update sock x v t).shut = true) := by
    intro x v incoming fin closed shut t
    rcases eq_or_ne t x with rfl | ne
    · rw [Function.update_self]
      exact ⟨incoming, fin, closed, shut⟩
    · rw [Function.update_of_ne ne]
      exact ⟨rfl, rfl, rfl, id⟩
  have shuts : ∀ x t, (Function.update sock x { sock x with shut := true } t).taken = (sock t).taken ∧
      (Function.update sock x { sock x with shut := true } t).outgoing = (sock t).outgoing := by
    intro x t
    rcases eq_or_ne t x with rfl | ne
    · rw [Function.update_self]
      exact ⟨rfl, rfl⟩
    · rw [Function.update_of_ne ne]
      exact ⟨rfl, rfl⟩
  have received : ∀ n, (sock s).taken ++ (sock s).unread.take n ++ (sock s).unread.drop n = (sock s).incoming := by
    intro n
    rw [List.append_assoc, List.take_append_drop]
    rfl
  cases moves with
  | received =>
    refine ⟨by rw [Function.update_of_ne s.other_ne], by rw [Function.update_self], update _ _ (received _) rfl rfl id⟩
  | sent =>
    refine ⟨by rw [Function.update_self], by rw [Function.update_of_ne s.ne_other],
      update _ _ rfl rfl rfl id⟩
  | broken =>
    refine ⟨by rw [Function.update_self], by rw [Function.update_of_ne s.ne_other],
      update _ _ rfl rfl rfl id⟩
  | shut => exact ⟨(shuts _ _).1, (shuts _ _).2, update _ _ rfl rfl rfl fun _ => rfl⟩
  | last => exact ⟨(shuts _ _).1, (shuts _ _).2, update _ _ rfl rfl rfl fun _ => rfl⟩
  | _ => exact ⟨rfl, rfl, fun _ => ⟨rfl, rfl, rfl, id⟩⟩

/-- What a direction's line accumulator and printed lines are, after a stream was shown. -/
def Observed (label : Option (List UInt8)) (shown acc : List UInt8) (out : List (List UInt8)) : Prop :=
  match label with
  | none => out = []
  | some l => observe l [] shown = (acc, out)

/-- What a stream is shown as. -/
def shown (label : Option (List UInt8)) (stream : List UInt8) : List (List UInt8) :=
  match label with
  | none => []
  | some l => (observe l [] stream).2

/-- A direction: what was `taken` from one side, and the `outgoing` bytes of the other, which begin with a
`greeting`. -/
inductive Relaying (label : Option (List UInt8)) (greeting : List UInt8) :
    List UInt8 → List UInt8 → Pump → Prop where
  | recv {taken acc out} (obs : Observed label taken acc out) :
    Relaying label greeting taken (greeting ++ taken) ⟨.recv, acc, out⟩
  | sendall {before data acc out} (le : data.length ≤ 4096) (obs : Observed label before acc out) :
    Relaying label greeting (before ++ data) (greeting ++ before) ⟨.sendall data, acc, out⟩
  | observe {before data acc out} (verbose : label.isSome = true) (obs : Observed label before acc out) :
    Relaying label greeting (before ++ data) (greeting ++ (before ++ data)) ⟨.observe data, acc, out⟩
  | shutdown {taken outgoing x both acc out} (part : outgoing <+: greeting ++ taken)
    (obs : out <+: shown label taken) :
    Relaying label greeting taken outgoing ⟨.shutdown x both, acc, out⟩
  | done {taken outgoing acc out} (part : outgoing <+: greeting ++ taken) (obs : out <+: shown label taken) :
    Relaying label greeting taken outgoing ⟨.done, acc, out⟩

lemma Observed.shown {label : Option (List UInt8)} {stream acc : List UInt8} {out : List (List UInt8)}
    (obs : Observed label stream acc out) : out = SlcanTlsProxy.shown label stream := by
  cases label with
  | none => exact obs
  | some l =>
    rw [Observed] at obs
    rw [SlcanTlsProxy.shown, obs]

/-- More of a stream is shown as more lines. -/
lemma shown_append (label : Option (List UInt8)) (stream more : List UInt8) :
    shown label stream <+: shown label (stream ++ more) := by
  cases label with
  | none => exact List.prefix_refl _
  | some l =>
    rw [shown, shown, observe_append]
    exact List.prefix_append _ _

/-- The next chunk. -/
lemma Observed.next {label : Option (List UInt8)} {before acc : List UInt8} {out : List (List UInt8)}
    (verbose : label.isSome = true) (obs : Observed label before acc out) (data : List UInt8) :
    Observed label (before ++ data) (observe (label.getD []) acc data).1
      (out ++ (observe (label.getD []) acc data).2) := by
  cases label with
  | none => cases verbose
  | some l =>
    rw [Observed] at obs ⊢
    rw [observe_append, obs]
    rfl

/-- What a step of a pump keeps. -/
lemma Relaying.step {label : Option (List UInt8)} {greeting : List UInt8} {s : Side}
    {sock sock' : Side → Socket} {p p' : Pump} {e : PumpEvent} (moves : Moves label s sock p e sock' p')
    (rel : Relaying label greeting (sock s).taken (sock s.other).outgoing p) :
    Relaying label greeting (sock' s).taken (sock' s.other).outgoing p' := by
  have keeps : ∀ x, (Function.update sock x { sock x with shut := true } s).taken = (sock s).taken ∧
      (Function.update sock x { sock x with shut := true } s.other).outgoing = (sock s.other).outgoing := by
    intro x
    rcases eq_or_ne s x with rfl | ne
    · rw [Function.update_self, Function.update_of_ne s.other_ne]
      exact ⟨rfl, rfl⟩
    · rw [← Side.eq_other ne.symm, Function.update_self, Function.update_of_ne ne]
      exact ⟨rfl, rfl⟩
  generalize here : (sock s).taken = taken at rel
  generalize there : (sock s.other).outgoing = outgoing at rel
  cases moves with
  | received pos le =>
    cases rel with
    | recv obs =>
      rw [Function.update_self, Function.update_of_ne s.other_ne, here, there]
      refine .sendall ?_ obs
      rw [List.length_take]
      omega
  | eof =>
    cases rel with
    | recv obs =>
      rw [here, there]
      exact .shutdown (List.prefix_refl _) (obs.shown ▸ List.prefix_refl _)
  | raised =>
    cases rel with
    | recv obs =>
      rw [here, there]
      exact .shutdown (List.prefix_refl _) (obs.shown ▸ List.prefix_refl _)
  | sent =>
    cases rel with
    | @sendall before data _ _ _ obs =>
      rw [Function.update_self, Function.update_of_ne s.ne_other, here, there, List.append_assoc]
      split
      · rename_i verbose
        exact .observe verbose obs
      · rename_i quiet
        refine .recv ?_
        cases label with
        | none => exact obs
        | some l => exact absurd rfl quiet
  | broken part =>
    cases rel with
    | @sendall before data _ _ _ obs =>
      rw [Function.update_self, Function.update_of_ne s.ne_other, here, there]
      refine .shutdown ?_ ?_
      · rw [List.append_assoc]
        exact (List.prefix_append_right_inj _).mpr ((List.prefix_append_right_inj _).mpr part)
      · rw [obs.shown]
        exact shown_append label _ _
  | printed =>
    cases rel with
    | observe verbose obs =>
      rw [here, there]
      exact .recv (obs.next verbose _)
  | unprinted n =>
    cases rel with
    | observe verbose obs =>
      rw [here, there]
      refine .shutdown (List.prefix_refl _) ?_
      rw [← (obs.next verbose _).shown]
      exact (List.prefix_append_right_inj _).mpr (List.take_prefix _ _)
  | shut =>
    cases rel with
    | shutdown part obs =>
      rw [(keeps _).1, (keeps _).2, here, there]
      exact .shutdown part obs
  | last =>
    cases rel with
    | shutdown part obs =>
      rw [(keeps _).1, (keeps _).2, here, there]
      exact .done part obs

/-- What a step of the proxy can do. -/
inductive Turns (a : Args) (st : Proxy) : ProxyEvent → Proxy → Prop where
  | accept : Turns a st (.accept true) .accepted
  | gone : Turns a st (.accept false) Proxy.accepted.exit
  | stop {e main certificate sides} (stops : main = .accept ∨ main = .exited)
    (same : st.main = .connect ∨ certificate = st.certificate) :
    Turns a st e { st with main := main, certificate := certificate, sock := st.close sides }
  | connected {e der} (main : st.main = .connect) (verified : tlsConnect a.url.pubkey a.insecure der = .connected) :
    Turns a st e { st with main := .auth, certificate := der, sock := Function.update st.sock .server .new }
  | broken {e n sides} (main : st.main = .auth) :
    Turns a st e { st with
      main := .accept
      sock := Proxy.close
        { st with
          sock := Function.update st.sock .server
            { st.sock .server with outgoing := (tokenLine a.token).take n } } sides }
  | authed {e} (main : st.main = .auth) :
    Turns a st e { st with
      main := .relay
      sock := Function.update st.sock .server { st.sock .server with outgoing := tokenLine a.token }
      pump := fun _ => .start }
  | pump {s e sock p} (main : st.main = .relay) (moves : Moves (a.label s) s st.sock (st.pump s) e sock p) :
    Turns a st (.pump s e) { st with sock := sock, pump := Function.update st.pump s p }
  | arrive {s bytes} (more : (st.sock s).fin = false) :
    Turns a st (.arrive s bytes) { st with
      sock := Function.update st.sock s { st.sock s with unread := (st.sock s).unread ++ bytes } }
  | fin {s} :
    Turns a st (.fin s) { st with sock := Function.update st.sock s { st.sock s with fin := true } }

lemma Proxy.step_turns {a : Args} {st st' : Proxy} {e : ProxyEvent} (step : st.step a e = some st') :
    Turns a st e st' := by
  cases e with
  | accept nodelay =>
    simp only [Proxy.step] at step
    split at step
    · cases nodelay <;> cases step
      · exact .gone
      · exact .accept
    · cases step
  | connect handshake =>
    simp only [Proxy.step] at step
    split at step
    · rename_i main
      split at step
      · cases step
        exact .stop (.inr rfl) (.inl main)
      · cases handshake with
        | none =>
          cases step
          exact .stop (.inl rfl) (.inl main)
        | some der =>
          simp only at step
          split at step
          · cases step
            exact .stop (.inr rfl) (.inl main)
          · cases step
            exact .stop (.inl rfl) (.inl main)
          · rename_i verified
            cases step
            exact .connected main verified
    · cases step
  | auth error =>
    simp only [Proxy.step] at step
    split at step
    · rename_i main
      split at step
      · cases step
        exact .stop (.inl rfl) (.inr rfl)
      · cases error with
        | some n =>
          cases step
          exact .broken main
        | none =>
          cases step
          exact .authed main
    · cases step
  | pump s e =>
    simp only [Proxy.step] at step
    split at step
    · rename_i main
      obtain ⟨⟨sock, p⟩, moved, rfl⟩ := Option.map_eq_some_iff.mp step
      exact .pump main (Pump.step_moves moved)
    · cases step
  | join =>
    simp only [Proxy.step] at step
    split at step
    · cases step
      exact .stop (.inl rfl) (.inr rfl)
    · cases step
  | interrupt =>
    simp only [Proxy.step] at step
    split at step
    · cases step
    · cases step
      exact .stop (.inr rfl) (.inr rfl)
  | arrive s bytes =>
    simp only [Proxy.step] at step
    split at step
    · cases step
    · rename_i up
      rw [not_or] at up
      cases step
      exact .arrive (Bool.eq_false_iff.mpr up.2)
  | fin s =>
    simp only [Proxy.step] at step
    split at step
    · cases step
    · cases step
      exact .fin

/-- Closing sockets changes nothing else of them. -/
@[simp] lemma close_taken (st : Proxy) (sides : List Side) (s : Side) :
    (st.close sides s).taken = (st.sock s).taken := by
  rw [Proxy.close]
  split <;> rfl

@[simp] lemma close_outgoing (st : Proxy) (sides : List Side) (s : Side) :
    (st.close sides s).outgoing = (st.sock s).outgoing := by
  rw [Proxy.close]
  split <;> rfl

/-- What the proxy itself says to a side. -/
def greeting (a : Args) : Side → List UInt8
  | .client => []
  | .server => tokenLine a.token

/-- The server presented a certificate with which `tls_connect` connects. -/
def Verified (a : Args) (certificate : Option (List UInt8)) : Prop :=
  tlsConnect a.url.pubkey a.insecure certificate = .connected

/-- What holds of the proxy at every time. -/
structure Sound (a : Args) (st : Proxy) : Prop where
  part : ∀ s, (st.sock s.other).outgoing <+: greeting a s.other ++ (st.sock s).taken
  printed : ∀ s, (st.pump s).printed <+: shown (a.label s) (st.sock s).taken
  verified : (st.sock .server).outgoing ≠ [] ∨ st.main = .auth ∨ st.main = .relay → Verified a st.certificate
  fresh : st.main = .connect ∨ st.main = .auth → ∀ s, (st.sock s).taken = [] ∧ (st.sock s).outgoing = []
  relaying : st.main = .relay → ∀ s,
    Relaying (a.label s) (greeting a s.other) (st.sock s).taken (st.sock s.other).outgoing (st.pump s)

lemma Relaying.part {label : Option (List UInt8)} {greeting taken outgoing : List UInt8} {p : Pump}
    (rel : Relaying label greeting taken outgoing p) :
    outgoing <+: greeting ++ taken ∧ p.printed <+: shown label taken := by
  cases rel with
  | recv obs => exact ⟨List.prefix_refl _, obs.shown ▸ List.prefix_refl _⟩
  | sendall _ obs =>
    rw [← List.append_assoc]
    exact ⟨List.prefix_append _ _, obs.shown ▸ shown_append _ _ _⟩
  | observe _ obs => exact ⟨List.prefix_refl _, obs.shown ▸ shown_append _ _ _⟩
  | shutdown part obs => exact ⟨part, obs⟩
  | done part obs => exact ⟨part, obs⟩

/-- Nothing has passed. -/
lemma Sound.empty {a : Args} {st : Proxy} (sock : ∀ s, (st.sock s).taken = [] ∧ (st.sock s).outgoing = [])
    (pump : ∀ s, (st.pump s).printed = []) (main : st.main = .accept ∨ st.main = .connect) : Sound a st where
  part s := by
    rw [(sock s.other).2]
    exact List.nil_prefix
  printed s := by
    rw [pump s]
    exact List.nil_prefix
  verified := by
    rintro (sent | eq | eq)
    · exact absurd (sock .server).2 sent
    · rcases main with main | main <;> rw [main] at eq <;> cases eq
    · rcases main with main | main <;> rw [main] at eq <;> cases eq
  fresh _ := sock
  relaying eq := by rcases main with main | main <;> rw [main] at eq <;> cases eq

lemma Sound.accepted (a : Args) : Sound a .accepted := by
  refine .empty ?_ (fun _ => rfl) (.inr rfl)
  intro s
  cases s <;> exact ⟨rfl, rfl⟩

/-- A session that stops keeps what passed. -/
lemma Sound.stop {a : Args} {st : Proxy} (sound : Sound a st) {main : MainPc} {certificate : Option (List UInt8)}
    (sides : List Side) (stops : main = .accept ∨ main = .exited)
    (same : st.main = .connect ∨ certificate = st.certificate) :
    Sound a { st with main := main, certificate := certificate, sock := st.close sides } where
  part s := by
    rw [close_outgoing, close_taken]
    exact sound.part s
  printed s := by
    rw [close_taken]
    exact sound.printed s
  verified := by
    rw [close_outgoing]
    rintro (sent | eq | eq)
    · rcases same with connect | same
      · exact absurd (sound.fresh (.inl connect) .server).2 sent
      · exact same ▸ sound.verified (.inl sent)
    · rcases stops with rfl | rfl <;> cases eq
    · rcases stops with rfl | rfl <;> cases eq
  fresh := by
    rintro (eq | eq)
    · rcases stops with rfl | rfl <;> cases eq
    · rcases stops with rfl | rfl <;> cases eq
  relaying eq := by rcases stops with rfl | rfl <;> cases eq

/-- An update that leaves alone what was received and sent. -/
lemma Sound.arrive {a : Args} {st : Proxy} (sound : Sound a st) {s : Side} {v : Socket}
    (taken : v.taken = (st.sock s).taken) (outgoing : v.outgoing = (st.sock s).outgoing) :
    Sound a { st with sock := Function.update st.sock s v } := by
  have same : ∀ t, (Function.update st.sock s v t).taken = (st.sock t).taken ∧
      (Function.update st.sock s v t).outgoing = (st.sock t).outgoing := by
    intro t
    rcases eq_or_ne t s with rfl | ne
    · rw [Function.update_self]
      exact ⟨taken, outgoing⟩
    · rw [Function.update_of_ne ne]
      exact ⟨rfl, rfl⟩
  constructor
  · intro t
    rw [(same t).1, (same t.other).2]
    exact sound.part t
  · intro t
    rw [(same t).1]
    exact sound.printed t
  · rw [(same .server).2]
    exact sound.verified
  · intro main t
    rw [(same t).1, (same t).2]
    exact sound.fresh main t
  · intro main t
    rw [(same t).1, (same t.other).2]
    exact sound.relaying main t

/-- A step of a pump. -/
lemma Sound.pump {a : Args} {st : Proxy} (sound : Sound a st) {s : Side} {sock : Side → Socket} {p : Pump}
    {e : PumpEvent} (main : st.main = .relay) (moves : Moves (a.label s) s st.sock (st.pump s) e sock p) :
    Sound a { st with sock := sock, pump := Function.update st.pump s p } := by
  have frame := moves.frame
  have relaying : ∀ t, Relaying (a.label t) (greeting a t.other) (sock t).taken (sock t.other).outgoing
      (Function.update st.pump s p t) := by
    intro t
    rcases eq_or_ne t s with rfl | ne
    · rw [Function.update_self]
      exact (sound.relaying main t).step moves
    · obtain rfl := Side.eq_other ne
      rw [Function.update_of_ne ne, frame.1, Side.other_other, frame.2.1]
      have keep := sound.relaying main s.other
      rwa [Side.other_other] at keep
  constructor
  · intro t
    exact (relaying t).part.1
  · intro t
    exact (relaying t).part.2
  · intro _
    exact sound.verified (.inr (.inr main))
  · rintro (eq | eq)
    · rw [main] at eq
      cases eq
    · rw [main] at eq
      cases eq
  · intro _ t
    exact relaying t

/-- Every step keeps what holds of the proxy. -/
lemma Sound.turn {a : Args} {st st' : Proxy} {e : ProxyEvent} (sound : Sound a st) (turns : Turns a st e st') : Sound a st' := by
  cases turns with
  | accept => exact .accepted a
  | gone => exact (Sound.accepted a).stop _ (.inr rfl) (.inr rfl)
  | stop stops same => exact sound.stop _ stops same
  | connected main verified =>
    have fresh := sound.fresh (.inl main)
    have new : ∀ t, (Function.update st.sock .server Socket.new t).taken = [] ∧
        (Function.update st.sock .server Socket.new t).outgoing = [] := by
      intro t
      cases t with
      | server => exact ⟨rfl, rfl⟩
      | client => exact fresh .client
    constructor
    · intro t
      rw [(new t.other).2]
      exact List.nil_prefix
    · intro t
      rw [(new t).1, ← (fresh t).1]
      exact sound.printed t
    · intro _
      exact verified
    · intro _ t
      exact new t
    · intro eq
      cases eq
  | @broken _ n sides main =>
    have fresh := sound.fresh (.inr main)
    have verified := sound.verified (.inr (.inl main))
    have part : Sound a { st with
        main := .accept
        sock := Function.update st.sock .server
          { st.sock .server with outgoing := (tokenLine a.token).take n } } := by
      constructor
      · intro t
        cases t with
        | client => exact (List.take_prefix _ _).trans (List.prefix_append _ _)
        | server =>
          have nothing := (fresh .client).2
          exact (nothing ▸ List.nil_prefix : (st.sock .client).outgoing <+: _)
      · intro t
        cases t with
        | client => exact sound.printed .client
        | server => exact sound.printed .server
      · intro _
        exact verified
      · rintro (eq | eq) <;> cases eq
      · intro eq
        cases eq
    exact part.stop sides (.inl rfl) (.inr rfl)
  | authed main =>
    have fresh := sound.fresh (.inr main)
    have relaying : ∀ t, Relaying (a.label t) (greeting a t.other)
        (Function.update st.sock .server { st.sock .server with outgoing := tokenLine a.token } t).taken
        (Function.update st.sock .server { st.sock .server with outgoing := tokenLine a.token } t.other).outgoing
        .start := by
      have observed : ∀ label, Observed label [] [] [] := by
        intro label
        cases label <;> rfl
      intro t
      cases t with
      | client =>
        have taken : (Function.update st.sock .server
            { st.sock .server with outgoing := tokenLine a.token } .client).taken = [] := (fresh .client).1
        rw [taken]
        have start : Relaying (a.label .client) (tokenLine a.token) [] (tokenLine a.token ++ []) _ :=
          .recv (observed (a.label .client))
        rwa [List.append_nil] at start
      | server =>
        have taken : (Function.update st.sock .server
            { st.sock .server with outgoing := tokenLine a.token } .server).taken = [] := (fresh .server).1
        have outgoing : (Function.update st.sock .server
            { st.sock .server with outgoing := tokenLine a.token } .client).outgoing = [] := (fresh .client).2
        rw [taken, Side.other, outgoing]
        exact Relaying.recv (observed (a.label .server))
    constructor
    · intro t
      exact (relaying t).part.1
    · intro t
      exact (relaying t).part.2
    · intro _
      exact sound.verified (.inr (.inl main))
    · rintro (eq | eq) <;> cases eq
    · intro _ t
      exact relaying t
  | pump main moves => exact sound.pump main moves
  | arrive => exact sound.arrive rfl rfl
  | fin => exact sound.arrive rfl rfl

lemma step_turns {a : Args} {st st' : Proxy} {e : ProxyEvent} {os : List Unit}
    (step : (proxy a).step st e = some (st', os)) : Turns a st e st' := by
  obtain ⟨next, stepped, eq⟩ := Option.map_eq_some_iff.mp step
  cases eq
  exact Proxy.step_turns stepped

lemma sound_run {a : Args} {C : Proxy → ProxyEvent → Prop} {st : Proxy} {tr : List Unit}
    (run : (proxy a).Run C st tr) : Sound a st := by
  refine run.invariant (P := fun st _ => Sound a st) ?_ ?_
  · exact .empty (fun _ => ⟨rfl, rfl⟩) (fun _ => rfl) (.inl rfl)
  · intro _ _ _ _ _ _ sound _ step
    exact sound.turn (step_turns step)

/-- The server's certificate has the pinned key, as far as that is found, or there is no pin. -/
lemma verified_pinned {a : Args} {certificate : Option (List UInt8)} (verified : Verified a certificate) :
    (given a.url.pubkey = false ∧ a.insecure = true) ∨
      ∃ pin der key, a.url.pubkey = some pin ∧ certificate = some der ∧ fromhex pin = some key ∧
        extractP256Pubkey der = some key ∧ ∀ c, der = Certificate.encoding c → MarksKey c → c.p256Key = some key := by
  refine (connected_pinned ?_ verified).imp_right ?_
  · intro why refused
    cases why <;> cases refused
  · rintro ⟨pin, der, key, pubkey, presented, hex, found⟩
    refine ⟨pin, der, key, pubkey, presented, hex, found, ?_⟩
    rintro c rfl marks
    rw [← (extract_iff c).mpr marks, found]

/-- The relay. At every time, in every order of the steps, each side was sent a prefix of what is its due:
the server the token line and then what the client sent, the client what the server sent. A
thread that waits for more, or prints, has sent on all it received; one that is sending lacks the at most
4096 bytes it is sending. Nothing, the token included, is sent without a pin, unless that is allowed, nor to a
server in whose certificate another key than the pinned one is found; the key that is found is that of the
certificate where the bytes that mark it come first there. -/
theorem relay_transparent (a : Args) {st : Proxy} {tr : List Unit} (run : (proxy a).Reach st tr) :
    (∀ s, (st.sock s.other).outgoing <+: greeting a s.other ++ (st.sock s).taken) ∧
    (st.main = .relay → ∀ s,
      ((st.pump s).pc = .recv ∨ (∃ data, (st.pump s).pc = .observe data) →
        (st.sock s.other).outgoing = greeting a s.other ++ (st.sock s).taken) ∧
      ∀ data, (st.pump s).pc = .sendall data → data.length ≤ 4096 ∧
        (st.sock s.other).outgoing ++ data = greeting a s.other ++ (st.sock s).taken) ∧
    ((st.sock .server).outgoing ≠ [] → (given a.url.pubkey = false ∧ a.insecure = true) ∨
      ∃ pin der key, a.url.pubkey = some pin ∧ st.certificate = some der ∧ fromhex pin = some key ∧
        extractP256Pubkey der = some key ∧ ∀ c, der = Certificate.encoding c → MarksKey c → c.p256Key = some key) := by
  have sound := sound_run run
  refine ⟨sound.part, fun main s => ?_, fun sent => verified_pinned (sound.verified (.inl sent))⟩
  have rel := sound.relaying main s
  generalize (st.pump s) = p, (st.sock s).taken = taken, (st.sock s.other).outgoing = outgoing at rel
  constructor
  · intro pc
    cases rel with
    | recv => rfl
    | observe => rfl
    | _ => rcases pc with pc | ⟨_, pc⟩ <;> cases pc
  · intro data pc
    cases rel with
    | sendall le =>
      cases pc
      exact ⟨le, List.append_assoc _ _ _⟩
    | _ => cases pc

/-- A certificate of a server with the key `serverPoint`. -/
def relayCertificate : Certificate :=
  { forged with
    issuer := der 0x31 (der 0x30 (der 0x06 [0x55, 0x04, 0x03] ++ der 0x0C (ascii "relay")))
    subject := der 0x31 (der 0x30 (der 0x06 [0x55, 0x04, 0x03] ++ der 0x0C (ascii "relay")))
    publicKey := serverPoint }

/-- The arguments of a verbose proxy for that server, with a token. -/
def relayArgs (token : List UInt8) (ne : token ≠ []) : Args where
  url := ⟨ascii "relay.local", 9996, some (hexPairs serverPoint), some token⟩
  token := token
  insecure := false
  verbose := true
  has_token := ⟨rfl, ne⟩

/-- A client is accepted and the server's certificate taken, the token is sent, and what the client sends is sent on. -/
def session (bytes : List UInt8) : List ProxyEvent :=
  [.accept true, .connect (some (some relayCertificate.encoding)), .auth none, .arrive .client bytes,
    .pump .client (.received bytes.length), .pump .client .sent, .pump .client .printed]

theorem relay_transparent_session :
    ∃ st tr, (proxy (relayArgs (ascii "84") (by decide))).Reach st tr ∧
      (st.sock .server).outgoing = ascii "H84\rt1230\r" ∧
      ∃ key, fromhex (hexPairs serverPoint) = some key ∧ relayCertificate.p256Key = some key := by
  obtain ⟨st, tr, run, main, pc, taken, certificate, sent⟩ :=
    (proxy (relayArgs (ascii "84") (by decide))).run_exec (fun _ _ => True) (session (ascii "t1230\r"))
      (fun st _ => st.main = .relay ∧ (st.pump .client).pc = .recv ∧
        (st.sock .client).taken = ascii "t1230\r" ∧ st.certificate = some relayCertificate.encoding ∧
        (st.sock .server).outgoing ≠ []) (by decide +kernel)
  have marks : MarksKey relayCertificate := (extract_iff relayCertificate).mp (by decide +kernel)
  obtain ⟨-, running, verified⟩ := relay_transparent _ run
  rcases verified sent with ⟨none, -⟩ | ⟨pin, der, key, pubkey, presented, hex, -, own⟩
  · exact absurd none (by decide +kernel)
  · cases pubkey
    cases certificate.symm.trans presented
    refine ⟨st, tr, run, ?_, key, hex, own relayCertificate rfl marks⟩
    have all := (running main .client).1 (.inl pc)
    rw [taken] at all
    exact all

/-- Verbose mode. In whatever runs of whatever proxies, where what was received in a direction differs only in
what authentication lines of ASCII hold, and both relay and wait for more, the lines that were printed of it are
the same, however it was cut into chunks. -/
theorem relay_redacted {a a' : Args} {st st' : Proxy} {tr tr' : List Unit} (run : (proxy a).Reach st tr)
    (run' : (proxy a').Reach st' tr') {s : Side} (mode : a.label s = a'.label s)
    (relay : st.main = .relay ∧ st'.main = .relay)
    (waiting : (st.pump s).pc = .recv ∧ (st'.pump s).pc = .recv)
    (alike : Alike (st.sock s).taken (st'.sock s).taken) : (st.pump s).printed = (st'.pump s).printed := by
  have all : ∀ {a : Args} {st : Proxy}, Sound a st → st.main = .relay → (st.pump s).pc = .recv →
      (st.pump s).printed = shown (a.label s) (st.sock s).taken := by
    intro a st sound main pc
    have rel := sound.relaying main s
    generalize (st.pump s) = p, (st.sock s).taken = taken, (st.sock s.other).outgoing = outgoing at rel pc ⊢
    cases rel with
    | recv obs => exact obs.shown
    | _ => cases pc
  rw [all (sound_run run) relay.1 waiting.1, all (sound_run run') relay.2 waiting.2, ← mode]
  cases a.label s with
  | none => rfl
  | some label => exact observe_alike label alike

/-- Of two clients that authenticate themselves the same is printed. -/
theorem relay_redacted_tokens :
    ∃ st tr st' tr', (proxy (relayArgs (ascii "84") (by decide))).Reach st tr ∧
      (proxy (relayArgs (ascii "17") (by decide))).Reach st' tr' ∧ (st.sock .client).taken = ascii "Hsecret\r" ∧
      (st'.sock .client).taken = ascii "Hpassword\r" ∧ (st.pump .client).printed = (st'.pump .client).printed := by
  obtain ⟨st, tr, run, main, pc, taken⟩ :=
    (proxy (relayArgs (ascii "84") (by decide))).run_exec (fun _ _ => True) (session (ascii "Hsecret\r"))
      (fun st _ => st.main = .relay ∧ (st.pump .client).pc = .recv ∧
        (st.sock .client).taken = ascii "Hsecret\r") (by decide +kernel)
  obtain ⟨st', tr', run', main', pc', taken'⟩ :=
    (proxy (relayArgs (ascii "17") (by decide))).run_exec (fun _ _ => True) (session (ascii "Hpassword\r"))
      (fun st _ => st.main = .relay ∧ (st.pump .client).pc = .recv ∧
        (st.sock .client).taken = ascii "Hpassword\r") (by decide +kernel)
  have alike : Alike (st.sock .client).taken (st'.sock .client).taken := by
    rw [taken, taken']
    have line := @Alike.line (ascii "Hsecret") (ascii "Hpassword") 0x0D [] [] (by decide +kernel)
      (by decide +kernel) rfl (.inr ⟨by decide +kernel, by decide +kernel⟩) (.rest nofun nofun)
    exact line
  exact ⟨st, tr, st', tr', run, run', taken, taken',
    relay_redacted run run' (s := .client) rfl ⟨main, main'⟩ ⟨pc, pc'⟩ alike⟩

/-- A call of `pump` is past its loop. -/
def Pump.Ended (p : Pump) : Prop :=
  match p.pc with
  | .shutdown _ _ | .done => True
  | _ => False

/-- What a call of `pump` has shut down. -/
def Shuts (sock : Side → Socket) (p : Pump) : Prop :=
  match p.pc with
  | .shutdown x both => x = .client ∧ both = [.server] ∨ x = .server ∧ both = [] ∧ (sock .client).shut = true
  | .done => ∀ x, (sock x).shut = true
  | _ => True

/-- A direction that ended at the end of its stream, with all of it sent. -/
structure Whole (a : Args) (st : Proxy) (s : Side) : Prop where
  ended : (st.pump s).Ended
  fin : (st.sock s).fin = true
  all : (st.sock s.other).outgoing = greeting a s.other ++ (st.sock s).incoming

lemma Shuts.step {label : Option (List UInt8)} {s : Side} {sock sock' : Side → Socket} {p p' : Pump}
    {e : PumpEvent} (moves : Moves label s sock p e sock' p') (shuts : Shuts sock p) : Shuts sock' p' := by
  cases moves with
  | received => trivial
  | eof => exact .inl ⟨rfl, rfl⟩
  | raised => exact .inl ⟨rfl, rfl⟩
  | sent =>
    rw [Shuts]
    split_ifs <;> trivial
  | broken => exact .inl ⟨rfl, rfl⟩
  | printed => trivial
  | unprinted => exact .inl ⟨rfl, rfl⟩
  | shut =>
    rcases shuts with ⟨rfl, eq⟩ | ⟨-, eq, -⟩
    · cases eq
      exact .inr ⟨rfl, rfl, rfl⟩
    · cases eq
  | last =>
    rcases shuts with ⟨-, eq⟩ | ⟨rfl, -, client⟩
    · cases eq
    · intro x
      cases x with
      | client => exact client
      | server => rfl

/-- More that is shut down is no harm. -/
lemma Shuts.mono {sock sock' : Side → Socket} {p : Pump} (more : ∀ x, (sock x).shut = true → (sock' x).shut = true)
    (shuts : Shuts sock p) : Shuts sock' p := by
  rw [Shuts] at shuts ⊢
  split at shuts
  · exact shuts.imp_right fun second => ⟨second.1, second.2.1, more _ second.2.2⟩
  · exact fun x => more x (shuts x)
  · trivial

/-- A socket is shut down by a `pump` that has ended. -/
lemma Moves.shuts {label : Option (List UInt8)} {s : Side} {sock sock' : Side → Socket} {p p' : Pump}
    {e : PumpEvent} (moves : Moves label s sock p e sock' p') :
    (p.Ended → p'.Ended ∧ (sock' s.other).outgoing = (sock s.other).outgoing) ∧
      (¬ p.Ended → ∀ x, (sock' x).shut = (sock x).shut) := by
  have update : ∀ (x : Side) (v : Socket), v.shut = (sock x).shut → ∀ t,
      (Function.update sock x v t).shut = (sock t).shut := by
    intro x v shut t
    rcases eq_or_ne t x with rfl | ne
    · rw [Function.update_self]
      exact shut
    · rw [Function.update_of_ne ne]
  have outgoing : ∀ x t, (Function.update sock x { sock x with shut := true } t).outgoing = (sock t).outgoing := by
    intro x t
    rcases eq_or_ne t x with rfl | ne
    · rw [Function.update_self]
    · rw [Function.update_of_ne ne]
  cases moves with
  | received => exact ⟨False.elim, fun _ => update _ _ rfl⟩
  | sent => exact ⟨False.elim, fun _ => update _ _ rfl⟩
  | broken => exact ⟨False.elim, fun _ => update _ _ rfl⟩
  | shut => exact ⟨fun _ => ⟨trivial, outgoing _ _⟩, fun goes => absurd trivial goes⟩
  | last => exact ⟨fun _ => ⟨trivial, outgoing _ _⟩, fun goes => absurd trivial goes⟩
  | _ => exact ⟨False.elim, fun _ _ => rfl⟩

/-- A step in which nothing fails, but on sockets that are shut down. -/
def Healthy (st : Proxy) (e : ProxyEvent) : Prop :=
  ∀ s n, e = .pump s (.error n) → ∃ x, (st.sock x).shut = true

/-- How a session ends: the threads shut down both sockets, and the first to end is through with its
direction if nothing failed. -/
structure Ending (a : Args) (healthy : Prop) (st : Proxy) : Prop where
  shuts : ∀ s, Shuts st.sock (st.pump s)
  whole : healthy → (∃ x, (st.sock x).shut = true) ∨ (∃ s, (st.pump s).Ended) → ∃ s, Whole a st s

/-- What a step of a pump keeps of it. -/
lemma Ending.pump {a : Args} {healthy : Prop} {st : Proxy} (sound : Sound a st) (ending : Ending a healthy st)
    {s : Side} {e : PumpEvent} {sock : Side → Socket} {p : Pump} (main : st.main = .relay)
    (works : healthy → Healthy st (.pump s e)) (moves : Moves (a.label s) s st.sock (st.pump s) e sock p) :
    Ending a healthy { st with sock := sock, pump := Function.update st.pump s p } := by
  have frame := moves.frame
  have shuts := moves.shuts
  have keep : ∀ t, Whole a st t →
      Whole a { st with sock := sock, pump := Function.update st.pump s p } t := by
    intro t whole
    have incoming := (frame.2.2 t).1
    have fin := (frame.2.2 t).2.1.trans whole.fin
    rcases eq_or_ne t s with rfl | ne
    · have own := shuts.1 whole.ended
      refine ⟨?_, fin, ?_⟩
      · simp only [Function.update_self]
        exact own.1
      · simp only [own.2, incoming]
        exact whole.all
    · have same := frame.2.1
      rw [Side.eq_other ne] at whole fin incoming ⊢
      refine ⟨?_, fin, ?_⟩
      · simp only [Function.update_of_ne s.other_ne]
        exact whole.ended
      · have all := whole.all
        simp only [Side.other_other] at all ⊢
        simp only [same, incoming]
        exact all
  constructor
  · intro t
    rcases eq_or_ne t s with rfl | ne
    · simp only [Function.update_self]
      exact (ending.shuts t).step moves
    · simp only [Function.update_of_ne ne]
      exact (ending.shuts t).mono fun x => (frame.2.2 x).2.2.2
  · intro healthy some_
    by_cases before : (∃ x, (st.sock x).shut = true) ∨ ∃ t, (st.pump t).Ended
    · obtain ⟨t, whole⟩ := ending.whole healthy before
      exact ⟨t, keep t whole⟩
    · rw [not_or, not_exists, not_exists] at before
      -- the pump has left its loop in this step, and no call has failed
      have ended : p.Ended := by
        rcases some_ with ⟨x, shut⟩ | ⟨t, ended⟩
        · rw [shuts.2 (before.2 s) x] at shut
          exact absurd shut (before.1 x)
        · rcases eq_or_ne t s with rfl | ne
          · simpa using ended
          · simp only [Function.update_of_ne ne] at ended
            exact absurd ended (before.2 t)
      have rel := sound.relaying main s
      have works := works healthy
      generalize own : st.pump s = q at moves rel
      cases moves with
      | received => exact ended.elim
      | eof at_end =>
        rcases at_end with shut | ⟨fin, nothing⟩
        · exact absurd shut (before.1 s)
        · refine ⟨s, ?_, fin, ?_⟩
          · simp only [Function.update_self]
            trivial
          · generalize taken : (st.sock s).taken = bytes, sent : (st.sock s.other).outgoing = out at rel
            cases rel with
            | recv =>
              have all : (st.sock s).incoming = (st.sock s).taken := by
                rw [Socket.incoming, nothing, List.append_nil]
              simp only [all, taken]
      | raised => exact absurd (works s _ rfl) (not_exists.mpr before.1)
      | sent =>
        rw [Pump.Ended] at ended
        split_ifs at ended
        · exact ended.elim
        · exact ended.elim
      | broken => exact absurd (works s _ rfl) (not_exists.mpr before.1)
      | printed => exact ended.elim
      | unprinted => exact absurd (works s _ rfl) (not_exists.mpr before.1)
      | shut => exact absurd (own ▸ trivial : (st.pump s).Ended) (before.2 s)
      | last => exact absurd (own ▸ trivial : (st.pump s).Ended) (before.2 s)

/-- What arrives, or the end of a stream. -/
lemma Ending.arrive {a : Args} {healthy : Prop} {st : Proxy} (ending : Ending a healthy st) {s : Side} {v : Socket}
    (shut : v.shut = (st.sock s).shut) (outgoing : v.outgoing = (st.sock s).outgoing)
    (fin : (st.sock s).fin = true → v.fin = true ∧ v.incoming = (st.sock s).incoming) :
    Ending a healthy { st with sock := Function.update st.sock s v } := by
  have same : ∀ t, (Function.update st.sock s v t).shut = (st.sock t).shut ∧
      (Function.update st.sock s v t).outgoing = (st.sock t).outgoing ∧
      ((st.sock t).fin = true → (Function.update st.sock s v t).fin = true ∧
        (Function.update st.sock s v t).incoming = (st.sock t).incoming) := by
    intro t
    rcases eq_or_ne t s with rfl | ne
    · rw [Function.update_self]
      exact ⟨shut, outgoing, fin⟩
    · rw [Function.update_of_ne ne]
      exact ⟨rfl, rfl, fun fin => ⟨fin, rfl⟩⟩
  constructor
  · intro t
    exact (ending.shuts t).mono fun x => by simp only [(same x).1, imp_self]
  · intro healthy some_
    simp only [(same _).1] at some_
    obtain ⟨t, whole⟩ := ending.whole healthy some_
    have keep := (same t).2.2 whole.fin
    refine ⟨t, whole.ended, keep.1, ?_⟩
    simp only [(same _).2.1, keep.2]
    exact whole.all

/-- What holds of the end of a session at every time. -/
structure Closing (a : Args) (healthy : Prop) (st : Proxy) : Prop where
  up : st.main = .connect ∨ st.main = .auth → ∀ s, (st.sock s).shut = false
  ending : st.main = .relay → Ending a healthy st

lemma Closing.turn {a : Args} {healthy : Prop} {st st' : Proxy} {e : ProxyEvent} (sound : Sound a st)
    (closing : Closing a healthy st) (works : healthy → Healthy st e) (turns : Turns a st e st') :
    Closing a healthy st' := by
  have update : ∀ {s : Side} {v : Socket}, v.shut = (st.sock s).shut →
      st.main = .connect ∨ st.main = .auth → ∀ t, (Function.update st.sock s v t).shut = false := by
    intro s v shut main t
    rcases eq_or_ne t s with rfl | ne
    · rw [Function.update_self, shut]
      exact closing.up main t
    · rw [Function.update_of_ne ne]
      exact closing.up main t
  cases turns with
  | accept =>
    constructor
    · intro _ s
      cases s <;> rfl
    · intro eq
      cases eq
  | gone =>
    constructor
    · rintro (eq | eq) <;> cases eq
    · intro eq
      cases eq
  | stop stops =>
    constructor
    · rintro (eq | eq) <;> rcases stops with rfl | rfl <;> cases eq
    · intro eq
      rcases stops with rfl | rfl <;> cases eq
  | connected main =>
    constructor
    · intro _ t
      have server := closing.up (.inl main) .server
      exact update server.symm (.inl main) t
    · intro eq
      cases eq
  | broken =>
    constructor
    · rintro (eq | eq) <;> cases eq
    · intro eq
      cases eq
  | authed main =>
    constructor
    · rintro (eq | eq) <;> cases eq
    · intro _
      constructor
      · intro _
        trivial
      · rintro _ (⟨x, shut⟩ | ⟨_, ended⟩)
        · have up := update (s := .server) (v := { st.sock .server with outgoing := tokenLine a.token }) rfl (.inr main) x
          rw [up] at shut
          cases shut
        · exact ended.elim
  | pump main moves =>
    constructor
    · rintro (eq | eq)
      · rw [main] at eq
        cases eq
      · rw [main] at eq
        cases eq
    · intro _
      exact (closing.ending main).pump sound main works moves
  | arrive more =>
    constructor
    · intro main
      exact update rfl main
    · intro main
      refine (closing.ending main).arrive rfl rfl fun fin => ?_
      rw [more] at fin
      cases fin
  | fin =>
    constructor
    · intro main
      exact update rfl main
    · intro main
      exact (closing.ending main).arrive rfl rfl fun _ => ⟨rfl, rfl⟩

/-- A step of the threads, or of `handle` once they have ended. -/
def own : ProxyEvent → Bool
  | .pump _ _ | .join => true
  | _ => false

/-- How many steps a `pump` takes at most, on sockets that are shut down. -/
def Pump.left (p : Pump) : ℕ :=
  match p.pc with
  | .observe _ => 5
  | .recv => 4
  | .sendall _ => 3
  | .shutdown _ both => both.length + 1
  | .done => 0

/-- The sockets of the session are shut down, or it is over. -/
def Over (st : Proxy) : Prop :=
  st.main = .relay ∧ (∀ x, (st.sock x).shut = true) ∧ (∀ s, Shuts st.sock (st.pump s)) ∨
    st.main = .accept ∨ st.main = .exited

lemma Moves.left {label : Option (List UInt8)} {s : Side} {sock sock' : Side → Socket} {p p' : Pump}
    {e : PumpEvent} (moves : Moves label s sock p e sock' p') (down : ∀ x, (sock x).shut = true) :
    p'.left + 1 ≤ p.left := by
  cases moves with
  | sent up =>
    rw [down] at up
    cases up
  | _ => simp [Pump.left]

/-- While a session is not over some step of it can be taken, whatever the environment does. -/
lemma Over.enabled {a : Args} {st : Proxy} (ended : Over st) (main : st.main = .relay) :
    ∃ e, own e = true ∧ ((proxy a).step st e).isSome = true := by
  rcases ended with ⟨-, down, -⟩ | stopped | stopped
  · have pump : ∀ s, (st.pump s).pc ≠ .done → ∃ e, own e = true ∧ ((proxy a).step st e).isSome = true := by
      intro s running
      have moves : ∀ e, ((st.pump s).step (a.label s) s st.sock e).isSome = true →
          ∃ e, own e = true ∧ ((proxy a).step st e).isSome = true := by
        intro e moves
        refine ⟨.pump s e, rfl, ?_⟩
        simpa [proxy, Proxy.step, main] using moves
      cases pc : (st.pump s).pc with
      | recv => exact moves .eof (by simp [Pump.step, pc, down s])
      | sendall data => exact moves (.error 0) (by simp [Pump.step, pc])
      | observe data => exact moves .printed (by simp [Pump.step, pc])
      | shutdown x both => exact moves .shut (by simp [Pump.step, pc])
      | done => exact absurd pc running
    by_cases client : (st.pump .client).pc = .done
    · by_cases server : (st.pump .server).pc = .done
      · exact ⟨.join, rfl, by simp [proxy, Proxy.step, main, client, server]⟩
      · exact pump .server server
    · exact pump .client client
  · rw [main] at stopped
    cases stopped
  · rw [main] at stopped
    cases stopped

end EspcanBr.Tools.SlcanTlsProxy
