import EspcanBr.Base.Window

/-!
# The activity LED

The last loop of `main` in `src/main.rs`, and `level_from_count` of `src/led.rs`. At every tick the loop
writes how much the frame counters grew to the next of ten buckets, and shows the sum over the buckets
as a level. The buckets are a ring of the last ten differences, so the sum is the number of frames in
the window, although the counters wrap (`led_window`). Additions that overflow panic, and are `none`.
-/

namespace EspcanBr.Led
open Base

def LED_BUCKETS : ℕ := 10
def STATUS_BLUE : UInt8 := 10
def FRAMES_FOR_FULL : UInt32 := 50
def MAX_LEVEL : UInt8 := 64
def MIN_LEVEL : UInt8 := 4

/-- `saturating_mul`. -/
def saturatingMul (a b : UInt32) : UInt32 := UInt32.ofNat (min (a.toNat * b.toNat) (2 ^ 32 - 1))

/-- The sum of two numbers, if it does not overflow. -/
def add (a b : UInt32) : Option UInt32 := if a.toNat + b.toNat < 2 ^ 32 then some (a + b) else none

/-- `iter().sum()`. -/
def sum (buckets : List UInt32) : Option UInt32 := buckets.foldlM add 0

/-- `level_from_count`. -/
def levelFromCount (count : UInt32) : Option UInt8 :=
  if count = 0 then some 0
  else
    let span := (MAX_LEVEL - MIN_LEVEL).toUInt32
    let extra := saturatingMul count span / FRAMES_FOR_FULL
    (add MIN_LEVEL.toUInt32 extra).map fun level => (min level MAX_LEVEL.toUInt32).toUInt8

/-- The variables of the loop. -/
structure Loop where
  rxBuckets : List UInt32
  txBuckets : List UInt32
  idx : ℕ
  lastRx : UInt32
  lastTx : UInt32
  deriving DecidableEq

def Loop.new : Loop := ⟨.replicate LED_BUCKETS 0, .replicate LED_BUCKETS 0, 0, 0, 0⟩

/-- What a tick reads: the counters and the flags. -/
structure Tick where
  rx : UInt32
  tx : UInt32
  tcpClients : UInt32
  configMode : Bool
  wifiConnected : Bool

/-- What a tick shows: the arguments of `level_from_count`, and the colours. -/
structure Shown where
  rxCount : UInt32
  txCount : UInt32
  r : UInt8
  g : UInt8
  b : UInt8
  deriving DecidableEq

/-- The status colour. -/
def blue (idx : ℕ) (e : Tick) : UInt8 :=
  if 0 < e.tcpClients then if idx = 0 then 0 else STATUS_BLUE
  else if e.configMode ∨ e.wifiConnected then if idx = 0 then STATUS_BLUE else 0
  else 0

/-- One tick. -/
def Loop.tick (s : Loop) (e : Tick) : Option (Loop × Shown) :=
  if s.idx < s.rxBuckets.length ∧ s.idx < s.txBuckets.length then do
    let rxBuckets := s.rxBuckets.set s.idx (e.rx - s.lastRx)
    let txBuckets := s.txBuckets.set s.idx (e.tx - s.lastTx)
    let rxCount ← sum rxBuckets
    let g ← levelFromCount rxCount
    let txCount ← sum txBuckets
    let r ← levelFromCount txCount
    some (⟨rxBuckets, txBuckets, (s.idx + 1) % LED_BUCKETS, e.rx, e.tx⟩,
      ⟨rxCount, txCount, r, g, blue s.idx e⟩)
  else none

/-- The loop after so many ticks. -/
def after (ticks : ℕ → Tick) : ℕ → Option Loop
  | 0 => some .new
  | t + 1 => do
    let s ← after ticks t
    let (s, _) ← s.tick (ticks t)
    some s

/-- The level in numbers. -/
def levelOf (count : ℕ) : ℕ := if count = 0 then 0 else min (4 + min (count * 60) (2 ^ 32 - 1) / 50) 64

lemma add_eq {a b : UInt32} (fits : a.toNat + b.toNat < 2 ^ 32) :
    ∃ c, add a b = some c ∧ c.toNat = a.toNat + b.toNat := by
  refine ⟨a + b, if_pos fits, ?_⟩
  rw [UInt32.toNat_add, Nat.mod_eq_of_lt fits]

lemma levelFromCount_eq (count : UInt32) :
    ∃ level, levelFromCount count = some level ∧ level.toNat = levelOf count.toNat := by
  rw [levelFromCount, levelOf]
  by_cases zero : count = 0
  · subst zero
    exact ⟨0, rfl, rfl⟩
  · have pos : count.toNat ≠ 0 := fun eq => zero (UInt32.toNat_inj.mp eq)
    rw [if_neg zero, if_neg pos]
    have product : (saturatingMul count (MAX_LEVEL - MIN_LEVEL).toUInt32).toNat =
        min (count.toNat * 60) (2 ^ 32 - 1) := by
      have span : (MAX_LEVEL - MIN_LEVEL).toUInt32.toNat = 60 := rfl
      rw [saturatingMul, span, UInt32.toNat_ofNat']
      omega
    have extra : (saturatingMul count (MAX_LEVEL - MIN_LEVEL).toUInt32 / FRAMES_FOR_FULL).toNat =
        min (count.toNat * 60) (2 ^ 32 - 1) / 50 := by
      rw [UInt32.toNat_div, product]
      rfl
    have four : MIN_LEVEL.toUInt32.toNat = 4 := rfl
    obtain ⟨level, eq, value⟩ := add_eq (a := MIN_LEVEL.toUInt32)
      (b := saturatingMul count (MAX_LEVEL - MIN_LEVEL).toUInt32 / FRAMES_FOR_FULL) (by omega)
    dsimp only
    rw [eq]
    refine ⟨_, rfl, ?_⟩
    have max : MAX_LEVEL.toUInt32.toNat = 64 := rfl
    rw [four, extra] at value
    rw [UInt32.toNat_toUInt8]
    have cap : min level MAX_LEVEL.toUInt32 =
        if level ≤ MAX_LEVEL.toUInt32 then level else MAX_LEVEL.toUInt32 := rfl
    rw [cap]
    split
    · rename_i le
      have le := UInt32.le_iff_toNat_le.mp le
      omega
    · rename_i gt
      have gt := mt UInt32.le_iff_toNat_le.mpr gt
      omega

/-- The sum of the buckets, if it fits. -/
lemma sum_eq {buckets : List UInt32} (fits : (buckets.map UInt32.toNat).sum < 2 ^ 32) :
    ∃ count, sum buckets = some count ∧ count.toNat = (buckets.map UInt32.toNat).sum := by
  have from_acc : ∀ (buckets : List UInt32) (acc : UInt32),
      acc.toNat + (buckets.map UInt32.toNat).sum < 2 ^ 32 →
      ∃ count, buckets.foldlM add acc = some count ∧
        count.toNat = acc.toNat + (buckets.map UInt32.toNat).sum := by
    intro buckets
    induction buckets with
    | nil => exact fun acc _ => ⟨acc, rfl, rfl⟩
    | cons b buckets ih =>
      intro acc fits
      rw [List.map_cons, List.sum_cons] at fits ⊢
      obtain ⟨acc', eq, value⟩ := add_eq (a := acc) (b := b) (by omega)
      obtain ⟨count, done, total⟩ := ih acc' (by omega)
      refine ⟨count, ?_, by omega⟩
      rw [List.foldlM_cons, eq]
      exact done
  obtain ⟨count, eq, value⟩ := from_acc buckets 0 (by simpa using fits)
  exact ⟨count, eq, by simpa using value⟩

/-- The readings of a counter at the ticks are those of a number of frames that starts at zero and grows
by less than `2 ^ 32` in any ten ticks. -/
structure Counted (frames : ℕ → ℕ) (reading : ℕ → UInt32) : Prop where
  zero : frames 0 = 0
  mono : Monotone frames
  slow : ∀ t, frames (t + 10) < frames t + 2 ^ 32
  reading : ∀ t, reading t = UInt32.ofNat (frames (t + 1))

/-- What the loop writes to the buckets. -/
def growth (frames : ℕ → ℕ) (t : ℕ) : UInt32 := UInt32.ofNat (frames (t + 1)) - UInt32.ofNat (frames t)

/-- The loop after so many ticks, by the numbers of frames. -/
def loopAt (rx tx : ℕ → ℕ) (t : ℕ) : Loop where
  rxBuckets := ring LED_BUCKETS 0 (growth rx) t
  txBuckets := ring LED_BUCKETS 0 (growth tx) t
  idx := t % LED_BUCKETS
  lastRx := UInt32.ofNat (rx t)
  lastTx := UInt32.ofNat (tx t)

/-- The buckets have the frames of the window, which fit. -/
lemma Counted.sum_ring {frames : ℕ → ℕ} {reading : ℕ → UInt32} (counted : Counted frames reading) (t : ℕ) :
    ((ring LED_BUCKETS 0 (growth frames) t).map UInt32.toNat).sum = frames t - frames (t - min t LED_BUCKETS) ∧
      frames t - frames (t - min t LED_BUCKETS) < 2 ^ 32 := by
  obtain ⟨-, mono, slow, -⟩ := counted
  have ten : LED_BUCKETS = 10 := rfl
  have diff : ∀ k, (growth frames k).toNat = frames (k + 1) - frames k := by
    intro k
    have later := mono (show k + 1 ≤ k + 10 by omega)
    exact toNat_sub_counter (mono (Nat.le_succ k)) (later.trans_lt (slow k))
  have window : t - min t LED_BUCKETS = t - LED_BUCKETS := by omega
  rw [window]
  refine ⟨sum_ring_counter (show 0 < LED_BUCKETS by decide) (w := UInt32.toNat) rfl mono diff t, ?_⟩
  have later := mono (show t ≤ t - LED_BUCKETS + 10 by omega)
  have less := slow (t - LED_BUCKETS)
  omega

/-- A tick, by the numbers of frames. -/
lemma tick_eq {rx tx : ℕ → ℕ} {ticks : ℕ → Tick} (countedRx : Counted rx fun t => (ticks t).rx)
    (countedTx : Counted tx fun t => (ticks t).tx) (t : ℕ) :
    ∃ shown, (loopAt rx tx t).tick (ticks t) = some (loopAt rx tx (t + 1), shown) ∧
      shown.rxCount.toNat = rx (t + 1) - rx (t + 1 - min (t + 1) LED_BUCKETS) ∧
      shown.txCount.toNat = tx (t + 1) - tx (t + 1 - min (t + 1) LED_BUCKETS) ∧
      levelFromCount shown.rxCount = some shown.g ∧ levelFromCount shown.txCount = some shown.r := by
  obtain ⟨rxSum, rxFits⟩ := countedRx.sum_ring (t + 1)
  obtain ⟨txSum, txFits⟩ := countedTx.sum_ring (t + 1)
  obtain ⟨rxCount, rxEq, rxValue⟩ := sum_eq (rxSum.trans_lt rxFits)
  obtain ⟨txCount, txEq, txValue⟩ := sum_eq (txSum.trans_lt txFits)
  obtain ⟨g, gEq, -⟩ := levelFromCount_eq rxCount
  obtain ⟨r, rEq, -⟩ := levelFromCount_eq txCount
  have inside : t % LED_BUCKETS < LED_BUCKETS := Nat.mod_lt t (by decide)
  refine ⟨⟨rxCount, txCount, r, g, blue (t % LED_BUCKETS) (ticks t)⟩, ?_, rxValue.trans rxSum,
    txValue.trans txSum, gEq, rEq⟩
  simp only [ring, growth] at rxEq txEq
  simp only [Loop.tick, loopAt, length_ring, inside, and_self, if_true, countedRx.reading t,
    countedTx.reading t, rxEq, txEq, gEq, rEq, Option.bind_eq_bind, Option.bind_some, ring, growth,
    Nat.mod_add_mod]

/-- The loop does not panic. -/
lemma after_eq {rx tx : ℕ → ℕ} {ticks : ℕ → Tick} (countedRx : Counted rx fun t => (ticks t).rx)
    (countedTx : Counted tx fun t => (ticks t).tx) (t : ℕ) : after ticks t = some (loopAt rx tx t) := by
  induction t with
  | zero => simp [after, Loop.new, loopAt, ring, countedRx.zero, countedTx.zero]
  | succ t ih =>
    obtain ⟨shown, eq, -⟩ := tick_eq countedRx countedTx t
    rw [after, ih, Option.bind_eq_bind, Option.bind_some, eq]
    rfl

/-- The LED window. For every two numbers of frames that start at zero and grow by less than `2 ^ 32` in
any ten ticks, however often their counters wrap, and whatever the flags are: no tick panics, and the
value passed for each direction is the number of frames in the last ten ticks, or in all if there were
fewer. Of every value the level is zero if and only if it is, it is otherwise within the bounds, and a
larger value has no lower level. -/
theorem led_window :
    (∀ rx tx ticks, Counted rx (fun t => (ticks t).rx) → Counted tx (fun t => (ticks t).tx) →
      ∀ t, ∃ s s' shown, after ticks t = some s ∧ s.tick (ticks t) = some (s', shown) ∧
        after ticks (t + 1) = some s' ∧
        shown.rxCount.toNat = rx (t + 1) - rx (t + 1 - min (t + 1) LED_BUCKETS) ∧
        shown.txCount.toNat = tx (t + 1) - tx (t + 1 - min (t + 1) LED_BUCKETS) ∧
        levelFromCount shown.rxCount = some shown.g ∧ levelFromCount shown.txCount = some shown.r) ∧
    (∀ count, ∃ level, levelFromCount count = some level ∧ (level = 0 ↔ count = 0) ∧
      (count ≠ 0 → MIN_LEVEL ≤ level ∧ level ≤ MAX_LEVEL)) ∧
    ∀ count count' level level', count ≤ count' → levelFromCount count = some level →
      levelFromCount count' = some level' → level ≤ level' := by
  refine ⟨fun rx tx ticks countedRx countedTx t => ?_, fun count => ?_, ?_⟩
  · obtain ⟨shown, eq, spec⟩ := tick_eq countedRx countedTx t
    exact ⟨_, _, shown, after_eq countedRx countedTx t, eq, after_eq countedRx countedTx (t + 1), spec⟩
  · obtain ⟨level, eq, value⟩ := levelFromCount_eq count
    have min : MIN_LEVEL.toNat = 4 := rfl
    have max : MAX_LEVEL.toNat = 64 := rfl
    refine ⟨level, eq, ?_, fun ne => ?_⟩
    · rw [← UInt8.toNat_inj, ← UInt32.toNat_inj, value, levelOf, UInt8.toNat_zero, UInt32.toNat_zero]
      split <;> omega
    · have pos : count.toNat ≠ 0 := fun zero => ne (UInt32.toNat_inj.mp zero)
      rw [UInt8.le_iff_toNat_le, UInt8.le_iff_toNat_le, min, max, value, levelOf, if_neg pos]
      omega
  · intro count count' level level' le eq eq'
    obtain ⟨_, here, value⟩ := levelFromCount_eq count
    obtain ⟨_, here', value'⟩ := levelFromCount_eq count'
    cases here.symm.trans eq
    cases here'.symm.trans eq'
    have le := UInt32.le_iff_toNat_le.mp le
    rw [UInt8.le_iff_toNat_le, value, value', levelOf, levelOf]
    split <;> split <;> omega

end EspcanBr.Led
