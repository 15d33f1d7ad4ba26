import EspcanBr.Tools.Encode
import EspcanBr.Tools.Reader

/-!
# The serial tool

`main` of `tools/slcan_tool.py`: it probes the adapter with `V` until it answers (`wait_ready`), starts the
reader, opens the channel, sends its frames and closes the channel. What it does next does not depend on the
replies but in `wait_ready`. A line is sent as a whole.
-/

namespace EspcanBr.Tools
open Base Slcan Transport

/-- The options `main` reads. -/
structure Options where
  bitrate : Fin 9
  id : ℤ
  ext : Bool
  rtr : Bool
  gen : Args
  count : ℤ
  listen : Bool
  noOpen : Bool

/-- What `wait_ready` looks for. -/
def VERSION : List UInt8 := [ch 'V', ch '1', ch '0', ch '1', ch '3']

section Lines
variable (o : Options) (random : ℕ → ℕ → UInt8)

/-- The startup lines. -/
def Options.startup : List (List UInt8) :=
  if o.noOpen then [] else [[ch 'C'], [ch 'S', ch '0' + UInt8.ofNat o.bitrate], [ch 'O']]

/-- The payload of the `n`-th frame. -/
def Options.payload (n : ℕ) : List UInt8 := if o.rtr then [] else (makePayloadGen o.gen random n).getD []

/-- The line of the `n`-th frame. -/
def Options.line (n : ℕ) : List UInt8 := encodeFrame o.id (o.payload random n) o.ext o.rtr

/-- The lines of the first frames. -/
def Options.lines (tx : ℕ) : List (List UInt8) := (List.range tx).map (o.line random)

/-- The line of `finally`. -/
def Options.finish : List (List UInt8) := if o.noOpen then [] else [[ch 'C']]

end Lines

/-- Where `main` is: at the top of `wait_ready`'s loop, reading the replies to a probe, at the startup lines, in
the loop, in `finally`, at its end, or gone, if the payload is no hex. -/
inductive HostPc where
  | ready
  | answer (buf : List UInt8)
  | startup (i : ℕ)
  | loop
  | closing
  | closed
  | exited
  deriving DecidableEq

/-- `main`, the reader once it is started, and `stats["tx"]`. -/
structure Host where
  pc : HostPc
  reader : Option Reader
  tx : ℕ
  deriving DecidableEq

/-- What the tool does next: a probe that discards bytes, a read of `wait_ready`, its time for a reply or for
all over, the next line, Ctrl-C, or a read of the reader. -/
inductive HostEvent where
  | probe (discarded : ℕ)
  | chunk (n : ℕ)
  | again
  | giveUp
  | line
  | interrupt
  | read (n : ℕ)
  deriving DecidableEq

namespace Host
variable (o : Options) (random : ℕ → ℕ → UInt8)

/-- The reader is started. -/
def start (h : Host) : Host := { h with pc := .startup 0, reader := some .new }

def new : Host :=
  if o.noOpen then start ⟨.ready, none, 0⟩ else ⟨.ready, none, 0⟩

/-- One step of the tool: what has arrived and is left after it, and the lines it sends. -/
def step (h : Host) (arrived : List UInt8) : HostEvent → Option (Host × List UInt8 × List (List UInt8))
  | .probe discarded =>
    if h.pc = .ready ∧ discarded ≤ arrived.length then
      some ({ h with pc := .answer [] }, arrived.drop discarded, [[ch 'V']])
    else none
  | .chunk n =>
    match h.pc with
    | .answer buf =>
      if 0 < n ∧ n ≤ 64 ∧ n ≤ arrived.length then
        let buf := buf ++ arrived.take n
        some (if VERSION <:+: buf then h.start else { h with pc := .answer buf }, arrived.drop n, [])
      else none
    | _ => none
  | .again =>
    match h.pc with
    | .answer _ => some ({ h with pc := .ready }, arrived, [])
    | _ => none
  | .giveUp => if h.pc = .ready then some (h.start, arrived, []) else none
  | .line =>
    match h.pc with
    | .startup i =>
      match o.startup[i]? with
      | some line => some ({ h with pc := .startup (i + 1) }, arrived, [line])
      | none =>
        let made := (makePayloadGen o.gen random 0).isSome
        some ({ h with pc := if made then .loop else .exited }, arrived, [])
    | .loop =>
      if o.listen then none
      else
        let tx := h.tx + 1
        let pc := if o.count ≠ 0 ∧ o.count ≤ tx then .closing else .loop
        some ({ h with pc := pc, tx := tx }, arrived, [o.line random h.tx])
    | .closing => some ({ h with pc := .closed }, arrived, o.finish)
    | _ => none
  | .interrupt => if h.pc = .loop then some ({ h with pc := .closing }, arrived, []) else none
  | .read n =>
    match h.reader with
    | some r =>
      if h.pc ≠ .exited ∧ 0 < n ∧ n ≤ 256 ∧ n ≤ arrived.length then
        some ({ h with reader := some (r.read (arrived.take n)) }, arrived.drop n, [])
      else none
    | none => none

/-- The lines sent since `wait_ready`. -/
def sent (h : Host) : List (List UInt8) :=
  match h.pc with
  | .ready | .answer _ => []
  | .startup i => o.startup.take i
  | .loop | .closing | .exited => o.startup ++ o.lines random h.tx
  | .closed => o.startup ++ o.lines random h.tx ++ o.finish

/-- The tool is in `wait_ready`. -/
def probing (h : Host) : Prop := h.pc = .ready ∨ ∃ buf, h.pc = .answer buf

/-- What the fields are good for: there is no reader in `wait_ready`, and no frame is sent before the loop. -/
structure Ok (h : Host) : Prop where
  reader : h.probing ↔ h.reader = none
  early : h.probing ∨ (∃ i, h.pc = .startup i) → h.tx = 0

/-- What a step of the tool does to what has arrived: the reader is started or not, and takes bytes or not. -/
inductive Takes (h h' : Host) (arrived left : List UInt8) : Prop where
  | discard (bytes : List UInt8) :
    h.probing →
    h'.probing →
    arrived = bytes ++ left →
    Takes h h' arrived left
  | start (bytes : List UInt8) :
    h.probing →
    h'.reader = some .new →
    arrived = bytes ++ left →
    Takes h h' arrived left
  | read {r : Reader} (bytes : List UInt8) :
    h.reader = some r →
    h'.reader = some (r.read bytes) →
    arrived = bytes ++ left →
    Takes h h' arrived left

/-- What a step of the tool sends: a probe in `wait_ready`, or what it counts as sent. -/
inductive Sends (h h' : Host) (lines : List (List UInt8)) : Prop where
  | probe :
    h.probing →
    h'.probing →
    lines = [[ch 'V']] →
    Sends h h' lines
  | sent :
    h'.sent o random = h.sent o random ++ lines →
    Sends h h' lines

variable {o random} {h h' : Host} {arrived left : List UInt8} {lines : List (List UInt8)}

lemma ok_new (opens : o.noOpen = false) : (new o).Ok ∧ (new o).probing := by
  rw [new, opens]
  refine ⟨⟨?_, fun _ => rfl⟩, .inl rfl⟩
  exact ⟨fun _ => rfl, fun _ => .inl rfl⟩

lemma sent_probing (probing : h.probing) : h.sent o random = [] := by
  rcases probing with pc | ⟨buf, pc⟩
  · rw [sent, pc]
  · rw [sent, pc]

/-- The reader of a tool that is past `wait_ready`. -/
lemma Ok.running (ok : h.Ok) (past : ¬ h.probing) : ∃ r, h.reader = some r := by
  rw [ok.reader] at past
  exact Option.ne_none_iff_exists'.mp past

/-- What a step of the tool does. -/
structure Does (o : Options) (random : ℕ → ℕ → UInt8) (h h' : Host) (arrived left : List UInt8)
    (lines : List (List UInt8)) (e : HostEvent) : Prop where
  ok : h'.Ok
  takes : Takes h h' arrived left
  sends : Sends o random h h' lines
  ready : h.probing → ¬ h'.probing → e = .giveUp ∨ arrived ≠ []

/-- The reader is started after `wait_ready`. -/
lemma start_does (bytes : List UInt8) {e : HostEvent} (ok : h.Ok) (probing : h.probing)
    (eq : arrived = bytes ++ left) (why : e = .giveUp ∨ arrived ≠ []) :
    Does o random h h.start arrived left [] e where
  ok := by
    refine ⟨⟨fun no => ?_, fun no => by cases no⟩, fun _ => ok.early (.inl probing)⟩
    rcases no with pc | ⟨buf, pc⟩
    · cases pc
    · cases pc
  takes := .start bytes probing rfl eq
  sends := by
    apply Sends.sent
    rw [sent_probing probing, sent]
    rfl
  ready := fun _ _ => why

/-- A step within `wait_ready`. -/
lemma probing_does (bytes : List UInt8) {pc : HostPc} {e : HostEvent} (ok : h.Ok) (probing : h.probing)
    (stays : pc = .ready ∨ ∃ buf, pc = .answer buf) (eq : arrived = bytes ++ left)
    (sends : lines = [] ∨ lines = [[ch 'V']]) : Does o random h { h with pc := pc } arrived left lines e where
  ok := ⟨⟨fun _ => ok.reader.mp probing, fun _ => stays⟩, fun _ => ok.early (.inl probing)⟩
  takes := .discard bytes probing stays eq
  sends := by
    rcases sends with rfl | rfl
    · apply Sends.sent
      rw [sent_probing probing, List.append_nil]
      exact sent_probing stays
    · exact .probe probing stays rfl
  ready := fun _ no => absurd stays no

/-- A step of `main` behind `wait_ready`. -/
lemma main_does (tx : ℕ) {pc : HostPc} {e : HostEvent} (ok : h.Ok) (past : ¬ h.probing)
    (stays : ¬ (pc = .ready ∨ ∃ buf, pc = .answer buf)) (early : (∃ i, pc = .startup i) → tx = 0)
    (sends : ({ h with pc := pc, tx := tx } : Host).sent o random = h.sent o random ++ lines) :
    Does o random h { h with pc := pc, tx := tx } arrived arrived lines e where
  ok := by
    refine ⟨⟨fun no => absurd no stays, fun no => ?_⟩, fun no => ?_⟩
    · exact absurd (ok.reader.mpr no) past
    · exact early (no.resolve_left stays)
  takes := by
    obtain ⟨r, reader⟩ := ok.running past
    exact .read [] reader reader rfl
  sends := .sent sends
  ready := fun probing => absurd probing past

lemma past_of {pc : HostPc} (eq : h.pc = pc) (other : ¬ (pc = .ready ∨ ∃ buf, pc = .answer buf)) :
    ¬ h.probing := by
  rintro (ready | ⟨buf, answer⟩)
  · exact other (.inl (eq.symm.trans ready))
  · exact other (.inr ⟨buf, eq.symm.trans answer⟩)

/-- One more frame line. -/
lemma lines_succ (tx : ℕ) : o.lines random (tx + 1) = o.lines random tx ++ [o.line random tx] := by
  rw [Options.lines, List.range_succ, List.map_append]
  rfl

/-- Every step does so. -/
lemma step_does {e : HostEvent} (ok : h.Ok) (st : h.step o random arrived e = some (h', left, lines)) :
    Does o random h h' arrived left lines e := by
  cases e with
  | probe discarded =>
    simp only [step, Option.ite_none_right_eq_some, Option.some.injEq, Prod.mk.injEq] at st
    obtain ⟨⟨pc, -⟩, rfl, rfl, rfl⟩ := st
    exact probing_does _ ok (.inl pc) (.inr ⟨[], rfl⟩) (List.take_append_drop discarded arrived).symm (.inr rfl)
  | chunk n =>
    simp only [step] at st
    split at st
    · rename_i buf pc
      simp only [Option.ite_none_right_eq_some, Option.some.injEq, Prod.mk.injEq] at st
      obtain ⟨⟨pos, -, le⟩, rfl, rfl, rfl⟩ := st
      have cut := (List.take_append_drop n arrived).symm
      split
      · refine start_does _ ok (.inr ⟨buf, pc⟩) cut (.inr fun none => ?_)
        rw [none, List.length_nil] at le
        omega
      · exact probing_does _ ok (.inr ⟨buf, pc⟩) (.inr ⟨_, rfl⟩) cut (.inl rfl)
    · cases st
  | again =>
    simp only [step] at st
    split at st
    · rename_i buf pc
      cases st
      exact probing_does [] ok (.inr ⟨buf, pc⟩) (.inl rfl) rfl (.inl rfl)
    · cases st
  | giveUp =>
    simp only [step, Option.ite_none_right_eq_some, Option.some.injEq, Prod.mk.injEq] at st
    obtain ⟨pc, rfl, rfl, rfl⟩ := st
    exact start_does [] ok (.inl pc) rfl (.inl rfl)
  | line =>
    simp only [step] at st
    split at st
    · rename_i i pc
      have past := past_of pc (by simp)
      have zero := ok.early (.inr ⟨i, pc⟩)
      have before : h.sent o random = o.startup.take i := by
        rw [sent, pc]
      split at st
      · rename_i line get
        cases st
        refine main_does h.tx ok past (by simp) (fun _ => zero) ?_
        rw [before]
        simp only [sent]
        rw [List.take_add_one, get]
        rfl
      · rename_i none
        cases st
        have whole : o.startup.take i = o.startup := List.take_of_length_le (List.getElem?_eq_none_iff.mp none)
        refine main_does h.tx ok past ?_ (fun _ => zero) ?_
        · split <;> simp
        · rw [before, whole, zero, List.append_nil]
          split
          · exact List.append_nil _
          · exact List.append_nil _
    · rename_i pc
      have past := past_of pc (by simp)
      split at st
      · cases st
      · cases st
        refine main_does _ ok past ?_ ?_ ?_
        · split <;> simp
        · rintro ⟨i, eq⟩
          split at eq
          · cases eq
          · cases eq
        · have before : h.sent o random = o.startup ++ o.lines random h.tx := by
            rw [sent, pc]
          rw [before, List.append_assoc, ← lines_succ]
          split
          · rfl
          · rfl
    · rename_i pc
      cases st
      refine main_does h.tx ok (past_of pc (by simp)) (by simp) (by simp) ?_
      rw [sent, sent, pc]
    · cases st
  | interrupt =>
    simp only [step, Option.ite_none_right_eq_some, Option.some.injEq, Prod.mk.injEq] at st
    obtain ⟨pc, rfl, rfl, rfl⟩ := st
    refine main_does h.tx ok (past_of pc (by simp)) (by simp) (by simp) ?_
    rw [sent, sent, pc, List.append_nil]
  | read n =>
    simp only [step] at st
    split at st
    · rename_i r reader
      simp only [Option.ite_none_right_eq_some, Option.some.injEq, Prod.mk.injEq] at st
      obtain ⟨-, rfl, rfl, rfl⟩ := st
      have past : ¬ h.probing := by
        rw [ok.reader, reader]
        simp
      refine ⟨⟨⟨fun no => absurd no past, fun no => by cases no⟩, ok.early⟩,
        .read _ reader rfl (List.take_append_drop n arrived).symm, .sent (List.append_nil _).symm,
        fun probing => absurd probing past⟩
    · cases st

/-- What was sent begins the lines of a whole session. -/
lemma sent_prefix (o : Options) (random : ℕ → ℕ → UInt8) (h : Host) :
    h.sent o random <+: o.startup ++ o.lines random h.tx ++ o.finish := by
  rw [sent]
  split
  · exact List.nil_prefix
  · exact List.nil_prefix
  · rw [List.append_assoc]
    exact (List.take_prefix _ _).trans (List.prefix_append _ _)
  · exact List.prefix_append _ _
  · exact List.prefix_append _ _
  · exact List.prefix_append _ _
  · exact List.prefix_rfl

end Host

/-- The digits of an encoded line. -/
lemma encoded_digits_short (canId : ℤ) {data : List UInt8} (ext rtr : Bool) (short : data.length ≤ 8) :
    ∃ digits, encodeFrame canId data ext rtr = letter ext rtr :: digits ∧ digits.length ≤ 25 ∧
      ∀ c ∈ digits, (hexVal c).isSome := by
  refine ⟨_, encodeFrame_fields canId data ext rtr, ?_, ?_⟩
  · have log : Nat.log 16 data.length = 0 := Nat.log_of_lt (by omega)
    have ids : idLength ext ≤ 8 := by cases ext <;> decide
    have pairs : (if rtr then [] else hexPairs data).length ≤ 16 := by
      split
      · exact Nat.zero_le _
      · rw [length_hexPairs]
        omega
    rw [log, List.length_append, List.length_cons, List.length_append, length_hexDigits, length_hexDigits]
    omega
  · intro c mem
    rcases List.mem_append.mp mem with mem | mem
    · exact isSome_hexDigits _ _ c mem
    · rcases List.mem_cons.mp mem with rfl | mem
      · exact isSome_hexChar _
      · rcases List.mem_append.mp mem with mem | mem
        · exact isSome_hexDigits _ _ c mem
        · split at mem
          · cases mem
          · exact isSome_hexPairs _ c mem

/-- A payload that fits a frame is accepted, as the frame it is. -/
lemma encoded_accepted (canId : ℤ) {data : List UInt8} (ext rtr : Bool) (short : data.length ≤ 8) :
    ∃ f, parseTx (encodeFrame canId data ext rtr) = some f ∧ Encoded f canId data ext rtr := by
  have log : Nat.log 16 data.length = 0 := Nat.log_of_lt (by omega)
  have tx : TxLine (encodeFrame canId data ext rtr) ext rtr (maskedId canId ext) data.length
      (if rtr then [] else data) := by
    refine ⟨hexDigits (idLength ext) (maskedId canId ext), hexChar (UInt8.ofNat data.length),
      if rtr then [] else hexPairs data, [], ?_, length_hexDigits _ _, ?_, hexVal_digit (by omega), ?_, ?_⟩
    · rw [encodeFrame_fields, log, leadingDigit_of_lt (by omega), List.append_nil]
      rfl
    · rw [hexNum_hexDigits, Nat.mod_eq_of_lt (maskedId_lt _ _)]
    · split
      · rfl
      · exact hexBytes_hexPairs data
    · split
      · rfl
      · rfl
  obtain ⟨f, parsed, -⟩ := tx.accepted short
  exact ⟨f, parsed, encoded_short (by omega) parsed⟩

end EspcanBr.Tools
