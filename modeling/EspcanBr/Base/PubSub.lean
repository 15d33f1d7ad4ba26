import Mathlib

/-!
# A broadcast queue that overwrites its oldest message

A channel keeps the last `CAP` messages published on it. Every subscriber has a read position of its
own, the id of the message it reads next; publishing never waits for a subscriber, so a slow one may
find its next message overwritten, and then goes on with the oldest message still kept. `avail` is
what a subscriber can still read, `behind` how many messages it has not read, overwritten ones
included. `Follows` relates what a subscriber took since some moment to what was due to it, and `Since`
says that it missed none of what was published since.
-/

namespace EspcanBr.Base

/-- The last `CAP` messages, the id of the next one, and the number of subscribers. -/
structure PubSub (α : Type*) (CAP SUBS : ℕ) where
  queue : List α
  nextId : ℕ
  subscribers : ℕ
  length_eq : queue.length = min CAP nextId
  deriving DecidableEq

namespace PubSub
variable {α : Type*} {CAP SUBS : ℕ}

/-- An empty channel. -/
def new : PubSub α CAP SUBS := ⟨[], 0, 0, by simp⟩

/-- The id of the oldest message kept. -/
def startId (q : PubSub α CAP SUBS) : ℕ := q.nextId - q.queue.length

/-- Publishes without waiting: the oldest message makes room if the queue is full. -/
def publishImmediate [NeZero CAP] (q : PubSub α CAP SUBS) (m : α) : PubSub α CAP SUBS where
  queue := (if q.queue.length = CAP then q.queue.tail else q.queue) ++ [m]
  nextId := q.nextId + 1
  subscribers := q.subscribers
  length_eq := by
    have len := q.length_eq
    have pos := Nat.pos_of_neZero CAP
    split <;> simp only [List.length_append, List.length_tail, List.length_singleton] <;> omega

/-- A new subscriber starts at the next message; `none` if there are `SUBS` already. -/
def subscriber (q : PubSub α CAP SUBS) : Option (PubSub α CAP SUBS × ℕ) :=
  if q.subscribers < SUBS then some ({ q with subscribers := q.subscribers + 1 }, q.nextId) else none

/-- A subscription takes a free slot and starts behind nothing. -/
lemma subscriber_eq_some {q q' : PubSub α CAP SUBS} {pos : ℕ} (h : q.subscriber = some (q', pos)) :
    q.subscribers < SUBS ∧ q' = { q with subscribers := q.subscribers + 1 } ∧ pos = q.nextId := by
  rw [subscriber] at h
  split at h
  · rename_i free
    cases h
    exact ⟨free, rfl, rfl⟩
  · cases h

/-- A subscriber leaves. -/
def unregister (q : PubSub α CAP SUBS) : PubSub α CAP SUBS :=
  { q with subscribers := q.subscribers - 1 }

/-- The next message for the subscriber at `pos`, how many it missed before it, and its new position;
`none` while there is no message to read. -/
def nextMessagePure (q : PubSub α CAP SUBS) (pos : ℕ) : Option (α × ℕ × ℕ) :=
  let cur := max pos q.startId
  q.queue[cur - q.startId]?.map fun m => (m, cur - pos, cur + 1)

/-- What the subscriber at `pos` can still read. -/
def avail (q : PubSub α CAP SUBS) (pos : ℕ) : List α := q.queue.drop (pos - q.startId)

/-- How many messages the subscriber at `pos` has not read. -/
def behind (q : PubSub α CAP SUBS) (pos : ℕ) : ℕ := q.nextId - pos

/-- There are never more than `CAP` messages to read. -/
lemma avail_length_le (q : PubSub α CAP SUBS) (pos : ℕ) : (q.avail pos).length ≤ CAP := by
  have len := q.length_eq
  simp only [avail, List.length_drop]
  omega

/-- A subscriber that is not behind has nothing to read. -/
lemma avail_eq_nil {q : PubSub α CAP SUBS} {pos : ℕ} (h : q.behind pos = 0) : q.avail pos = [] := by
  have len := q.length_eq
  simp only [avail, behind, startId, List.drop_eq_nil_iff] at *
  omega

/-- Nothing to read means nothing missed either. -/
lemma behind_eq_zero [NeZero CAP] {q : PubSub α CAP SUBS} {pos : ℕ} (h : q.avail pos = []) :
    q.behind pos = 0 := by
  have len := q.length_eq
  have pos := Nat.pos_of_neZero CAP
  simp only [avail, behind, startId, List.drop_eq_nil_iff] at *
  omega

section Publish
variable [NeZero CAP]

lemma queue_publish (q : PubSub α CAP SUBS) (m : α) :
    (q.publishImmediate m).queue =
      (if q.queue.length = CAP then q.queue.tail else q.queue) ++ [m] := rfl

@[simp] lemma nextId_publish (q : PubSub α CAP SUBS) (m : α) :
    (q.publishImmediate m).nextId = q.nextId + 1 := rfl

@[simp] lemma subscribers_publish (q : PubSub α CAP SUBS) (m : α) :
    (q.publishImmediate m).subscribers = q.subscribers := rfl

lemma startId_publish (q : PubSub α CAP SUBS) (m : α) :
    (q.publishImmediate m).startId =
      if q.queue.length = CAP then q.startId + 1 else q.startId := by
  have len := q.length_eq
  have pos := Nat.pos_of_neZero CAP
  simp only [startId, publishImmediate]
  split <;> simp only [List.length_append, List.length_tail, List.length_singleton] <;> omega

/-- Publishing adds a message at the end of what a subscriber can read, and takes its first one away
if the subscriber is `CAP` messages behind. -/
lemma avail_publish {q : PubSub α CAP SUBS} {pos : ℕ} (le : pos ≤ q.nextId) (m : α) :
    (q.publishImmediate m).avail pos =
      (if CAP ≤ q.behind pos then (q.avail pos).tail else q.avail pos) ++ [m] := by
  have len := q.length_eq
  have cap := Nat.pos_of_neZero CAP
  have start : q.startId = q.nextId - q.queue.length := rfl
  rw [avail, startId_publish]
  by_cases full : q.queue.length = CAP
  · rw [queue_publish, if_pos full, if_pos full]
    have tail : q.queue.tail.length = CAP - 1 := by rw [List.length_tail, full]
    rw [List.drop_append_of_le_length (by omega), ← List.drop_one, List.drop_drop]
    by_cases slow : CAP ≤ q.behind pos
    · rw [if_pos slow, avail, ← List.drop_one, List.drop_drop]
      simp only [behind] at slow
      rw [show pos - (q.startId + 1) = 0 by omega, show pos - q.startId = 0 by omega]
    · rw [if_neg slow, avail]
      simp only [behind] at slow
      rw [show 1 + (pos - (q.startId + 1)) = pos - q.startId by omega]
  · rw [queue_publish, if_neg full, if_neg full]
    rw [List.drop_append_of_le_length (by omega), if_neg (by simp only [behind]; omega), avail]

/-- Publishing never adds more than the message. -/
lemma avail_publish_sublist {q : PubSub α CAP SUBS} {pos : ℕ} (le : pos ≤ q.nextId) (m : α) :
    ((q.publishImmediate m).avail pos).Sublist (q.avail pos ++ [m]) := by
  rw [avail_publish le]
  split
  · exact (List.tail_sublist _).append_right _
  · exact List.Sublist.refl _

end Publish

/-- A subscriber reads the first of the messages it can read, and stays within the channel. -/
lemma nextMessagePure_spec {q : PubSub α CAP SUBS} {pos : ℕ} {m : α} {lag pos' : ℕ}
    (h : q.nextMessagePure pos = some (m, lag, pos')) :
    q.avail pos = m :: q.avail pos' ∧ pos' = pos + lag + 1 ∧ pos' ≤ q.nextId ∧
      lag = q.startId - pos := by
  have len := q.length_eq
  simp only [nextMessagePure, Option.map_eq_some_iff, Prod.mk.injEq] at h
  obtain ⟨m', get, rfl, rfl, rfl⟩ := h
  obtain ⟨lt, get⟩ := List.getElem?_eq_some_iff.mp get
  have start : q.startId = q.nextId - q.queue.length := rfl
  refine ⟨?_, by omega, by omega, by omega⟩
  have cur : max pos q.startId - q.startId = pos - q.startId := by omega
  have next : max pos q.startId + 1 - q.startId = pos - q.startId + 1 := by omega
  rw [avail, avail, next, ← get]
  simp only [cur] at lt ⊢
  exact List.drop_eq_getElem_cons lt

/-- A subscriber at most `CAP` messages behind misses nothing. -/
lemma lag_eq_zero {q : PubSub α CAP SUBS} {pos : ℕ} {m : α} {lag pos' : ℕ}
    (h : q.nextMessagePure pos = some (m, lag, pos')) (le : q.behind pos ≤ CAP) : lag = 0 := by
  obtain ⟨-, -, -, rfl⟩ := nextMessagePure_spec h
  have len := q.length_eq
  simp only [behind, startId] at *
  omega

/-- Nothing to read is all that keeps a subscriber waiting. -/
lemma avail_of_none {q : PubSub α CAP SUBS} {pos : ℕ} (h : q.nextMessagePure pos = none) :
    q.avail pos = [] := by
  have len := q.length_eq
  simp only [nextMessagePure, Option.map_eq_none_iff, List.getElem?_eq_none_iff] at h
  simp only [avail, startId, List.drop_eq_nil_iff] at *
  omega

/-- The message read next is one before `id`, or a subscriber that is not before `id` reads it too. -/
lemma nextMessagePure_max {q : PubSub α CAP SUBS} {pos : ℕ} {m : α} {lag pos' : ℕ} (id : ℕ)
    (h : q.nextMessagePure pos = some (m, lag, pos')) :
    pos' ≤ id ∨ (id < pos' ∧ ∃ lag', q.nextMessagePure (max pos id) = some (m, lag', pos')) := by
  simp only [nextMessagePure, Option.map_eq_some_iff, Prod.mk.injEq] at h ⊢
  obtain ⟨m', get, rfl, rfl, rfl⟩ := h
  rcases Nat.lt_or_ge (max pos q.startId) id with lt | le
  · exact .inl lt
  · have cur : max (max pos id) q.startId = max pos q.startId := by omega
    rw [← cur] at get ⊢
    exact .inr ⟨by omega, _, m', get, rfl, rfl, rfl⟩

/-- The subscriber at `pos` took the messages `taken` and missed `lost` others since a moment from
which on the messages `due` were to be read, and `total` were to be read or had been overwritten. -/
structure Follows (q : PubSub α CAP SUBS) (pos : ℕ) (due taken : List α) (total lost : ℕ) : Prop where
  pos_le : pos ≤ q.nextId
  sublist : (taken ++ q.avail pos).Sublist due
  count : taken.length + lost + q.behind pos = total

namespace Follows
variable {q : PubSub α CAP SUBS} {pos : ℕ} {due taken : List α} {total lost : ℕ}

/-- At the start nothing is taken. -/
lemma start (le : pos ≤ q.nextId) : q.Follows pos (q.avail pos) [] (q.behind pos) 0 :=
  ⟨le, List.Sublist.refl _, by simp⟩

/-- A published message becomes due. -/
lemma publish [NeZero CAP] (fol : q.Follows pos due taken total lost) (m : α) :
    (q.publishImmediate m).Follows pos (due ++ [m]) taken (total + 1) lost where
  pos_le := Nat.le_succ_of_le fol.pos_le
  sublist := by
    have more := (avail_publish_sublist fol.pos_le m).append_left taken
    rw [← List.append_assoc] at more
    exact more.trans (fol.sublist.append_right [m])
  count := by
    have count := fol.count
    have le := fol.pos_le
    simp only [behind, nextId_publish] at *
    omega

/-- A message read is taken. -/
lemma next (fol : q.Follows pos due taken total lost) {m lag pos'}
    (h : q.nextMessagePure pos = some (m, lag, pos')) :
    q.Follows pos' due (taken ++ [m]) total (lost + lag) := by
  obtain ⟨eq, rfl, le, -⟩ := nextMessagePure_spec h
  refine ⟨le, ?_, ?_⟩
  · have sub := fol.sublist
    rwa [eq, List.append_cons] at sub
  · have count := fol.count
    simp only [behind, List.length_append, List.length_singleton] at *
    omega

/-- Subscribing and leaving do not touch the messages. -/
lemma congr (fol : q.Follows pos due taken total lost) {q' : PubSub α CAP SUBS}
    (queue : q'.queue = q.queue) (nextId : q'.nextId = q.nextId) :
    q'.Follows pos due taken total lost := by
  obtain ⟨pos_le, sublist, count⟩ := fol
  refine ⟨?_, ?_, ?_⟩
  · rwa [nextId]
  · rwa [avail, startId, queue, nextId]
  · rwa [behind, nextId]

/-- A subscriber that caught up without missing a message took all that was due. -/
lemma taken_eq (fol : q.Follows pos due taken total 0) (idle : q.behind pos = 0)
    (all : total = due.length) : taken = due := by
  have sub := fol.sublist
  have count := fol.count
  rw [avail_eq_nil idle, List.append_nil] at sub
  exact sub.eq_of_length (by omega)

end Follows

/-- The subscriber at `pos` took the messages `taken`, and of the messages `due`, those from `id` on, it
missed none. -/
def Since (q : PubSub α CAP SUBS) (pos id : ℕ) (due taken : List α) : Prop :=
  ∃ old new, taken = old ++ new ∧ q.Follows (max pos id) due new due.length 0 ∧ (pos ≤ id → new = [])

namespace Since
variable {q : PubSub α CAP SUBS} {pos id : ℕ} {due taken : List α}

/-- At the start nothing is due. -/
lemma start (le : pos ≤ q.nextId) : q.Since pos q.nextId [] [] := by
  have fol := Follows.start (q := q) (Nat.le_refl q.nextId)
  have none : q.behind q.nextId = 0 := Nat.sub_self _
  rw [avail_eq_nil none, none] at fol
  refine ⟨[], [], rfl, ?_, fun _ => rfl⟩
  rwa [Nat.max_eq_right le]

/-- A published message becomes due. -/
lemma publish [NeZero CAP] (since : q.Since pos id due taken) (m : α) :
    (q.publishImmediate m).Since pos id (due ++ [m]) taken := by
  obtain ⟨old, new, eq, fol, none⟩ := since
  refine ⟨old, new, eq, ?_, none⟩
  rw [List.length_append]
  exact fol.publish m

/-- A message read is taken, if no more than `CAP` of the messages due wait. -/
lemma next (since : q.Since pos id due taken) {m lag pos'} (prompt : q.behind (max pos id) ≤ CAP)
    (h : q.nextMessagePure pos = some (m, lag, pos')) : q.Since pos' id due (taken ++ [m]) := by
  obtain ⟨old, new, rfl, fol, none⟩ := since
  obtain ⟨-, after, -, -⟩ := nextMessagePure_spec h
  rcases nextMessagePure_max id h with le | ⟨lt, lag', due⟩
  · have early : pos ≤ id := by omega
    cases none early
    refine ⟨old ++ [m], [], by simp, ?_, fun _ => rfl⟩
    rwa [Nat.max_eq_right le, ← Nat.max_eq_right early]
  · have fol := fol.next due
    rw [lag_eq_zero due prompt] at fol
    refine ⟨old, new ++ [m], List.append_assoc _ _ _, ?_, fun le => absurd le (Nat.not_le_of_lt lt)⟩
    rwa [Nat.max_eq_left lt.le]

/-- Subscribing and leaving do not touch the messages. -/
lemma congr (since : q.Since pos id due taken) {q' : PubSub α CAP SUBS} (queue : q'.queue = q.queue)
    (nextId : q'.nextId = q.nextId) : q'.Since pos id due taken := by
  obtain ⟨old, new, eq, fol, none⟩ := since
  exact ⟨old, new, eq, fol.congr queue nextId, none⟩

/-- A subscriber that caught up took all that was due. -/
lemma taken_eq (since : q.Since pos id due taken) (idle : q.behind pos = 0) :
    ∃ old, taken = old ++ due := by
  obtain ⟨old, new, rfl, fol, -⟩ := since
  have idle : q.behind (max pos id) = 0 := by
    simp only [behind] at *
    omega
  exact ⟨old, by rw [fol.taken_eq idle rfl]⟩

end Since
end PubSub
end EspcanBr.Base
