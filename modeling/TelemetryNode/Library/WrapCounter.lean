import Mathlib.Data.Nat.Notation

/-!
# Free-running counters with a wrap flag

A counter that counts down from `load`, and starts over with the tick that finds it at zero. Such a
wrap sets a flag, which stays set until it is read; reading it clears it. However many wraps there
were since the last read, one read reports them all.

## Main definitions

* `WrapCounter.tick`, `WrapCounter.after`: one and several ticks.
* `WrapCounter.read`: read the flag.
* `WrapCounter.Fresh`: the flag is clear, and the counter has just started over.
* `WrapCounter.potential`: how far the counter is ahead of a fresh one.

## Main results

* `WrapCounter.count_after`, `WrapCounter.countFlag_after`: the counter after any number of ticks.
* `WrapCounter.potential_after_le`: the potential rises by at most one with each tick.
* `WrapCounter.potential_read_of_set`: a read that reports a wrap takes a whole period from it.
-/

/-- A counter with the value `load` that it starts over from and its wrap flag. -/
structure WrapCounter where
  load : ℕ
  val : ℕ
  countFlag : Bool
  val_le : val ≤ load

namespace WrapCounter

/-- The number of ticks from one wrap to the next. -/
def period (s : WrapCounter) : ℕ := s.load + 1

/-- The number of ticks since the last wrap. -/
def count (s : WrapCounter) : ℕ := s.load - s.val

/-- One tick. The flag is set with the tick that reloads the counter. -/
def tick (s : WrapCounter) : WrapCounter :=
  if s.val = 0 then { s with val := s.load, countFlag := true, val_le := Nat.le_refl _ }
  else { s with val := s.val - 1, val_le := Nat.le_trans (Nat.sub_le _ _) s.val_le }

/-- `n` ticks. -/
def after (s : WrapCounter) : ℕ → WrapCounter
  | 0 => s
  | n + 1 => (s.after n).tick

/-- Read the flag, which clears it. -/
def read (s : WrapCounter) : Bool × WrapCounter := (s.countFlag, { s with countFlag := false })

theorem period_pos (s : WrapCounter) : 0 < s.period := Nat.succ_pos _

theorem count_lt_period (s : WrapCounter) : s.count < s.period :=
  Nat.lt_succ_of_le (Nat.sub_le _ _)

@[simp]
theorem period_tick (s : WrapCounter) : s.tick.period = s.period := by
  unfold tick
  split <;> rfl

@[simp]
theorem period_after (s : WrapCounter) (n : ℕ) : (s.after n).period = s.period := by
  induction n with
  | zero => rfl
  | succ n ih => rw [after, period_tick, ih]

@[simp]
theorem period_read (s : WrapCounter) : s.read.2.period = s.period := rfl

@[simp]
theorem count_read (s : WrapCounter) : s.read.2.count = s.count := rfl

@[simp]
theorem countFlag_read (s : WrapCounter) : s.read.2.countFlag = false := rfl

theorem count_tick (s : WrapCounter) : s.tick.count = (s.count + 1) % s.period := by
  have hle := s.val_le
  unfold tick
  split
  · rename_i hval
    simp only [count, period, hval]
    rw [Nat.sub_self, Nat.sub_zero, Nat.mod_self]
  · rename_i hval
    simp only [count, period]
    rw [Nat.mod_eq_of_lt (by omega)]
    omega

/-- A tick wraps when it ends a period. -/
theorem countFlag_tick (s : WrapCounter) :
    s.tick.countFlag = true ↔ s.countFlag = true ∨ s.count + 1 = s.period := by
  have hle := s.val_le
  have hval : s.val = 0 ↔ s.count + 1 = s.period := by
    simp only [count, period]
    omega
  unfold tick
  split
  · rename_i h
    simp [hval.mp h]
  · rename_i h
    simp [mt hval.mpr h]

/-- The counter goes round with its period. -/
theorem count_after (s : WrapCounter) (n : ℕ) : (s.after n).count = (s.count + n) % s.period := by
  induction n with
  | zero => exact (Nat.mod_eq_of_lt s.count_lt_period).symm
  | succ n ih => rw [after, count_tick, ih, period_after, Nat.mod_add_mod, Nat.add_assoc]

/-- The flag is set once the running period has ended. -/
theorem countFlag_after (s : WrapCounter) (n : ℕ) :
    (s.after n).countFlag = true ↔ s.countFlag = true ∨ s.period ≤ s.count + n := by
  induction n with
  | zero => simp [after, Nat.not_le.mpr s.count_lt_period]
  | succ n ih =>
    rw [after, countFlag_tick, ih, count_after, period_after, or_assoc]
    apply or_congr_right
    rcases Nat.lt_or_ge (s.count + n) s.period with hlt | hge
    · rw [Nat.mod_eq_of_lt hlt]
      omega
    · -- an earlier tick has ended it
      constructor
      · intro
        omega
      · intro
        exact .inl hge

/-! ## How far a counter is ahead -/

/-- The flag is clear, and the counter has just started over. -/
def Fresh (s : WrapCounter) : Prop := s.countFlag = false ∧ s.val = s.load

instance (s : WrapCounter) : Decidable s.Fresh :=
  inferInstanceAs (Decidable (_ ∧ _))

/-- The ticks that a reader of the flag is given for nothing: the elapsed part of the running
period, and a period for a flag that is set already. -/
def potential (s : WrapCounter) : ℕ := (if s.countFlag = true then s.period else 0) + s.count

theorem fresh_iff (s : WrapCounter) : s.Fresh ↔ s.potential = 0 := by
  have hle := s.val_le
  have hpos := s.period_pos
  cases hflag : s.countFlag with
  | false =>
    simp only [Fresh, potential, hflag, count, Bool.false_eq_true, if_false, true_and]
    omega
  | true =>
    simp only [Fresh, potential, hflag, Bool.true_eq_false, if_true, false_and, false_iff]
    omega

/-- With each tick a counter gets ahead by at most one tick, and by less when it wraps with the flag
set. -/
theorem potential_after_le (s : WrapCounter) (n : ℕ) :
    (s.after n).potential ≤ s.potential + n := by
  have hmod := Nat.mod_le (s.count + n) s.period
  simp only [potential, countFlag_after, count_after, period_after]
  by_cases hflag : s.countFlag = true
  · simp only [hflag, true_or, if_true]
    omega
  · simp only [hflag, false_or, Bool.false_eq_true, if_false]
    split
    · rename_i hge
      -- the period the flag stands for is one of the ticks
      have hsub : (s.count + n) % s.period ≤ s.count + n - s.period := by
        rw [Nat.mod_eq_sub_mod hge]
        exact Nat.mod_le _ _
      omega
    · omega

/-- A read that reports a wrap takes a whole period. -/
theorem potential_read_of_set {s : WrapCounter} (h : s.countFlag = true) :
    s.read.2.potential + s.period = s.potential := by
  simp only [potential, countFlag_read, count_read, h, Bool.false_eq_true, if_false, if_true]
  omega

/-- A read that reports none leaves the counter as it is. -/
theorem read_of_clear {s : WrapCounter} (h : s.countFlag = false) : s.read = (false, s) := by
  unfold read
  rw [h]
  cases s
  simp_all

end WrapCounter
