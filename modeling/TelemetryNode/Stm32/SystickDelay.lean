import TelemetryNode.Library.WrapCounter

/-!
# The millisecond delay and the wake pulse

`delay_ms` of `stm32_firmware/drivers/src/systick_delay.c`, and `uart_wake_esp32` of
`stm32_firmware/middleware/src/uart_handshake.c`, which times its pulse and its settle delay with
it. SysTick is a free-running counter with a wrap flag. Time is counted in its clock ticks, and a
period of it is the code's millisecond. Nothing else reads `CTRL`, so the flag that a call of
`delay_ms` finds may be from any time since the last one.

## Main definitions

* `SystickDelay.delayMs`: `delay_ms`, whose reads of `CTRL` may come at any increasing times.
* `SystickDelay.uartWakeEsp32`: `uart_wake_esp32`.

## Main results

* `SystickDelay.exists_delayMs`: every call of `delay_ms` returns.
* `SystickDelay.le_delayMs`: it may be short by what the counter is ahead of a fresh one.
* `SystickDelay.stale_delayMs_le`: if the flag is set from before the call, a delay is short by a
  period, up to the time between reads.
* `SystickDelay.exists_short_settle`: the settle delay may be short however `uart_wake_esp32`
  starts.
* `SystickDelay.delays_never_short_iff`: the calls that are never short are those that start with a
  fresh counter; the same goes for the two waits of `uart_wake_esp32`.
-/

namespace TelemetryNode.SystickDelay

/-- When a call of `delay_ms` reads `CTRL`: the ticks from its start to each of the reads. -/
structure PollTimes where
  time : ℕ → ℕ
  increasing : ∀ k, time k < time (k + 1)

/-- Where a call of `delay_ms` is: the reads it has done, the count of its outer loop, the time of
its last read, and the counter after it. -/
structure Delay where
  reads : ℕ
  i : ℕ
  now : ℕ
  systick : WrapCounter

/-- One read of `CTRL`. If the flag is set, it ends the inner loop. -/
def Delay.poll (polls : PollTimes) (d : Delay) : Delay :=
  let (flag, systick) := (d.systick.after (polls.time d.reads - d.now)).read
  { reads := d.reads + 1
    i := if flag then d.i + 1 else d.i
    now := polls.time d.reads
    systick := systick }

/-- The two loops. The result is `none` when `fuel` reads do not get them to their end. -/
def delayLoop (polls : PollTimes) (ms : ℕ) : (fuel : ℕ) → Delay → Option Delay
  | 0, d => if d.i < ms then none else some d
  | fuel + 1, d => if d.i < ms then delayLoop polls ms fuel (d.poll polls) else some d

/-- `delay_ms`. There is fuel for a read in each tick that it can take. -/
def delayMs (systick : WrapCounter) (polls : PollTimes) (ms : BitVec 32) : Option Delay :=
  delayLoop polls ms.toNat (ms.toNat * systick.period + 1) ⟨0, 0, 0, systick⟩

/-- When a call of `delay_ms` reads `CTRL`, and the ticks from its return until the next statement
takes effect. -/
structure Waiting where
  polls : PollTimes
  rest : ℕ

/-- A call of `uart_wake_esp32`: the ticks that `WAKE_PIN` is set for, the counter when it is reset,
and the ticks from there to the first frame byte. -/
structure Wake where
  pulse : ℕ
  atReset : WrapCounter
  settle : ℕ

/-- `uart_wake_esp32`, from the write that sets `WAKE_PIN` on. The reads of each `delay_ms` are
timed from the write to the pin that it follows. -/
def uartWakeEsp32 (systick : WrapCounter) (pulse settle : Waiting) : Option Wake := do
  let high ← delayMs systick pulse.polls 10#32
  let atReset := high.systick.after pulse.rest
  let low ← delayMs atReset settle.polls 100#32
  return {
    pulse := high.now + pulse.rest
    atReset := atReset
    settle := low.now + settle.rest }

variable {polls : PollTimes} {ms fuel : ℕ} {d d' : Delay}

/-! ## The loops -/

/-- A read either finds the flag set, clears it and counts, or only takes its time. -/
theorem Delay.poll_cases (polls : PollTimes) (d : Delay) :
    ((d.systick.after (polls.time d.reads - d.now)).countFlag = true ∧
        d.poll polls = ⟨d.reads + 1, d.i + 1, polls.time d.reads,
          (d.systick.after (polls.time d.reads - d.now)).read.2⟩) ∨
      ((d.systick.after (polls.time d.reads - d.now)).countFlag = false ∧
        d.poll polls = ⟨d.reads + 1, d.i, polls.time d.reads,
          d.systick.after (polls.time d.reads - d.now)⟩) := by
  cases hflag : (d.systick.after (polls.time d.reads - d.now)).countFlag with
  | true =>
    refine .inl ⟨rfl, ?_⟩
    simp only [poll, WrapCounter.read, hflag, if_true]
  | false =>
    refine .inr ⟨rfl, ?_⟩
    rw [poll, WrapCounter.read_of_clear hflag]
    simp only [Bool.false_eq_true, if_false]

theorem delayLoop_of_le (h : ms ≤ d.i) : delayLoop polls ms fuel d = some d := by
  cases fuel <;> rw [delayLoop, if_neg (Nat.not_lt.mpr h)]

theorem delayLoop_of_lt (h : d.i < ms) :
    delayLoop polls ms (fuel + 1) d = delayLoop polls ms fuel (d.poll polls) := by
  rw [delayLoop, if_pos h]

/-- What every read preserves holds when the loops end. -/
theorem delayLoop_invariant {Inv : Delay → Prop}
    (hpoll : ∀ d : Delay, d.i < ms → Inv d → Inv (d.poll polls))
    (h : delayLoop polls ms fuel d = some d') (hinv : Inv d) : Inv d' ∧ ms ≤ d'.i := by
  induction fuel generalizing d with
  | zero =>
    rcases Nat.lt_or_ge d.i ms with hi | hi
    · rw [delayLoop, if_pos hi] at h
      cases h
    · rw [delayLoop_of_le hi] at h
      cases h
      exact ⟨hinv, hi⟩
  | succ fuel ih =>
    rcases Nat.lt_or_ge d.i ms with hi | hi
    · rw [delayLoop_of_lt hi] at h
      exact ih h (hpoll d hi hinv)
    · rw [delayLoop_of_le hi] at h
      cases h
      exact ⟨hinv, hi⟩

theorem mul_period_succ (h : d.i < ms) (period : ℕ) :
    (ms - d.i) * period = (ms - (d.i + 1)) * period + period := by
  rw [← Nat.succ_mul]
  congr 1
  omega

/-- The loops end. A read that finds the flag clear comes later in the period than the one before
it, apart from the first one, which may come at the start of the call. -/
theorem exists_delayLoop (h : (ms - d.i) * d.systick.period + (d.now + 1 - polls.time d.reads) ≤
    fuel + d.systick.count) : ∃ d', delayLoop polls ms fuel d = some d' := by
  induction fuel generalizing d with
  | zero =>
    have hcount := d.systick.count_lt_period
    rcases Nat.lt_or_ge d.i ms with hi | hi
    · rw [mul_period_succ hi] at h
      omega
    · exact ⟨d, delayLoop_of_le hi⟩
  | succ fuel ih =>
    rcases Nat.lt_or_ge d.i ms with hi | hi
    · have hcount := d.systick.count_lt_period
      have hincreasing := polls.increasing d.reads
      rw [delayLoop_of_lt hi]
      apply ih
      rcases d.poll_cases polls with ⟨-, hpoll⟩ | ⟨hclear, hpoll⟩
      -- a read that finds the flag set counts a millisecond, and a period less is left
      · rw [mul_period_succ hi] at h
        rw [hpoll]
        simp only [WrapCounter.period_read, WrapCounter.period_after]
        omega
      -- a read that finds it clear comes before the next wrap, further on in the period
      · have hwrap : ¬d.systick.period ≤ d.systick.count + (polls.time d.reads - d.now) := by
          intro hwrap
          rw [(d.systick.countFlag_after _).mpr (.inr hwrap)] at hclear
          exact Bool.false_ne_true hclear.symm
        rw [hpoll]
        simp only [WrapCounter.period_after, WrapCounter.count_after]
        rw [Nat.mod_eq_of_lt (Nat.lt_of_not_le hwrap)]
        omega
    · exact ⟨d, delayLoop_of_le hi⟩

/-- Every call of `delay_ms` returns. -/
theorem exists_delayMs (s : WrapCounter) (polls : PollTimes) (ms : BitVec 32) :
    ∃ d, delayMs s polls ms = some d := by
  apply exists_delayLoop
  simp only [Nat.sub_zero]
  omega

/-! ## The shortest delay -/

/-- Each wrap that is counted has taken a period, apart from what the counter was ahead at first. -/
structure Paid (s : WrapCounter) (polls : PollTimes) (d : Delay) : Prop where
  period_eq : d.systick.period = s.period
  now_le : d.now ≤ polls.time d.reads
  paid : d.i * s.period + d.systick.potential ≤ d.now + s.potential

theorem Paid.poll {s : WrapCounter} (h : Paid s polls d) : Paid s polls (d.poll polls) := by
  have hincreasing := Nat.le_of_lt (polls.increasing d.reads)
  have hnow := h.now_le
  have hpaid := h.paid
  have hahead := d.systick.potential_after_le (polls.time d.reads - d.now)
  rcases d.poll_cases polls with ⟨hset, hpoll⟩ | ⟨-, hpoll⟩
  · -- the read takes a period from what the counter is ahead
    have hread := WrapCounter.potential_read_of_set hset
    rw [WrapCounter.period_after, h.period_eq] at hread
    rw [hpoll]
    refine ⟨by simp [h.period_eq], hincreasing, ?_⟩
    simp only [Nat.add_mul, Nat.one_mul]
    omega
  · rw [hpoll]
    refine ⟨by simp [h.period_eq], hincreasing, ?_⟩
    simp only
    omega

theorem paid_delayMs {s : WrapCounter} {ms : BitVec 32} (h : delayMs s polls ms = some d) :
    Paid s polls d ∧ ms.toNat ≤ d.i := by
  have hstart : Paid s polls ⟨0, 0, 0, s⟩ := by
    refine ⟨rfl, Nat.zero_le _, ?_⟩
    simp only [Nat.zero_mul]
    omega
  exact delayLoop_invariant (fun d _ hd => hd.poll) h hstart

/-- A delay may be short by what the counter is ahead when it starts. -/
theorem le_delayMs {s : WrapCounter} {ms : BitVec 32} (h : delayMs s polls ms = some d) :
    ms.toNat * s.period ≤ d.now + s.potential := by
  obtain ⟨hpaid, hi⟩ := paid_delayMs h
  calc ms.toNat * s.period ≤ d.i * s.period := Nat.mul_le_mul_right _ hi
    _ ≤ d.i * s.period + d.systick.potential := Nat.le_add_right _ _
    _ ≤ d.now + s.potential := hpaid.paid

theorem period_of_delayMs {s : WrapCounter} {ms : BitVec 32} (h : delayMs s polls ms = some d) :
    d.systick.period = s.period :=
  (paid_delayMs h).1.period_eq

/-! ## Short delays -/

/-- Reads that are a period apart. -/
def everyPeriod (first : ℕ) (s : WrapCounter) : PollTimes where
  time k := first + k * s.period
  increasing k := by
    have hpos := s.period_pos
    rw [Nat.succ_mul]
    omega

/-- Every read has found the flag set. -/
structure AllCounted (s : WrapCounter) (ms first : ℕ) (d : Delay) : Prop where
  period_eq : d.systick.period = s.period
  reads_eq : d.reads = d.i
  i_le : d.i ≤ ms
  now_eq : d.now + s.period = first + d.i * s.period

theorem AllCounted.poll {s : WrapCounter} {first : ℕ} (hi : d.i < ms)
    (h : AllCounted s ms first d) : AllCounted s ms first (d.poll (everyPeriod first s)) := by
  have hnow := h.now_eq
  have htime : (everyPeriod first s).time d.reads = d.now + s.period := by
    rw [hnow, h.reads_eq]
    rfl
  have hset : (d.systick.after ((everyPeriod first s).time d.reads - d.now)).countFlag = true := by
    apply (d.systick.countFlag_after _).mpr
    right
    rw [htime, h.period_eq]
    omega
  rcases d.poll_cases (everyPeriod first s) with ⟨-, hpoll⟩ | ⟨hclear, -⟩
  · rw [hpoll]
    refine ⟨by simp [h.period_eq], by simp [h.reads_eq], hi, ?_⟩
    simp only [htime, Nat.succ_mul]
    omega
  · exact absurd (hclear.symm.trans hset) Bool.false_ne_true

/-- If the first read finds the flag set, it stands for a whole period. -/
theorem delayMs_everyPeriod {s : WrapCounter} {first : ℕ} {ms : BitVec 32}
    (hset : (s.after first).countFlag = true) (hms : 1 ≤ ms.toNat)
    (h : delayMs s (everyPeriod first s) ms = some d) :
    d.now + s.period = first + ms.toNat * s.period := by
  have hfirst : (everyPeriod first s).time 0 = first := by simp [everyPeriod]
  rw [delayMs, delayLoop_of_lt hms] at h
  have hstart : AllCounted s ms.toNat first (Delay.poll (everyPeriod first s) ⟨0, 0, 0, s⟩) := by
    rcases Delay.poll_cases (everyPeriod first s) ⟨0, 0, 0, s⟩ with ⟨-, hpoll⟩ | ⟨hclear, -⟩
    · rw [hpoll]
      exact ⟨by simp, rfl, hms, by simp [hfirst]⟩
    · rw [hfirst] at hclear
      exact absurd (hclear.symm.trans hset) Bool.false_ne_true
  obtain ⟨hend, hi⟩ := delayLoop_invariant (fun d hi hd => hd.poll hi) h hstart
  rw [hend.now_eq, Nat.le_antisymm hi hend.i_le]

/-- A counter that is ahead reports a wrap before a period has passed. -/
theorem exists_early_wrap {s : WrapCounter} (h : ¬s.Fresh) :
    ∃ first < s.period, (s.after first).countFlag = true := by
  have hlt := s.count_lt_period
  by_cases hflag : s.countFlag = true
  · exact ⟨0, s.period_pos, hflag⟩
  · have hcount : s.count ≠ 0 := by
      intro hcount
      apply h
      rw [WrapCounter.fresh_iff, WrapCounter.potential, if_neg hflag, hcount]
    refine ⟨s.period - s.count, by omega, (s.countFlag_after _).mpr (.inr ?_)⟩
    omega

theorem exists_short_delayMs {s : WrapCounter} (h : ¬s.Fresh) {ms : BitVec 32}
    (hms : 1 ≤ ms.toNat) :
    ∃ polls d, delayMs s polls ms = some d ∧ d.now < ms.toNat * s.period := by
  obtain ⟨first, hfirst, hset⟩ := exists_early_wrap h
  obtain ⟨d, hd⟩ := exists_delayMs s (everyPeriod first s) ms
  refine ⟨_, d, hd, ?_⟩
  have hnow := delayMs_everyPeriod hset hms hd
  omega

/-! ## A flag from before the call -/

/-- The reads of a call come within `gap` of its start and of one another. -/
structure PollTimes.Within (polls : PollTimes) (gap : ℕ) : Prop where
  first_le : polls.time 0 ≤ gap
  next_le : ∀ k, polls.time (k + 1) ≤ polls.time k + gap

/-- Reads that miss no wrap. Since the first of them, which found the flag set and the counter at
`s`, the counter has gone round once for each count of the loop after it. -/
structure NoneMissed (s : WrapCounter) (polls : PollTimes) (ms gap : ℕ) (d : Delay) : Prop where
  period_eq : d.systick.period = s.period
  flag_clear : d.systick.countFlag = false
  now_le : d.now ≤ polls.time d.reads
  next_le : polls.time d.reads ≤ d.now + gap
  i_le : d.i ≤ ms
  elapsed : d.now + s.period + s.count = polls.time 0 + d.i * s.period + d.systick.count
  end_le : d.i = ms → d.now + s.period ≤ polls.time 0 + ms * s.period + gap

theorem NoneMissed.poll {s : WrapCounter} {gap : ℕ} (hpolls : polls.Within gap)
    (hgap : gap ≤ s.period) (hi : d.i < ms) (h : NoneMissed s polls ms gap d) :
    NoneMissed s polls ms gap (d.poll polls) := by
  have hcount := d.systick.count_lt_period
  have helapsed := h.elapsed
  have hnow := h.now_le
  have hle := h.next_le
  have hwrap := d.systick.countFlag_after (polls.time d.reads - d.now)
  rw [h.flag_clear] at hwrap
  simp only [Bool.false_eq_true, false_or] at hwrap
  rw [h.period_eq] at hwrap hcount
  have hincreasing := Nat.le_of_lt (polls.increasing d.reads)
  have hnext := hpolls.next_le d.reads
  rcases d.poll_cases polls with ⟨hset, hpoll⟩ | ⟨hclear, hpoll⟩
  · have hge := hwrap.mp hset
    -- one wrap since the last read, and no more
    have hmod : (d.systick.count + (polls.time d.reads - d.now)) % s.period =
        d.systick.count + (polls.time d.reads - d.now) - s.period := by
      rw [Nat.mod_eq_sub_mod hge, Nat.mod_eq_of_lt (by omega)]
    rw [hpoll]
    refine ⟨by simp [h.period_eq], rfl, hincreasing, hnext, hi, ?_, ?_⟩
    · simp only [WrapCounter.count_read, WrapCounter.count_after, h.period_eq, hmod, Nat.succ_mul]
      omega
    · simp only
      intro hend
      rw [← hend, Nat.succ_mul]
      omega
  · have hlt := Nat.lt_of_not_le (mt hwrap.mpr (by rw [hclear]; exact Bool.false_ne_true))
    rw [hpoll]
    refine ⟨by simp [h.period_eq], hclear, hincreasing, hnext, h.i_le, ?_, ?_⟩
    · simp only [WrapCounter.count_after, h.period_eq, Nat.mod_eq_of_lt hlt]
      omega
    · intro hend
      exact absurd hend (Nat.ne_of_lt hi)

/-- With the flag set from before, a delay is a period short, up to the time between reads. -/
theorem stale_delayMs_le {s : WrapCounter} {ms : BitVec 32} {gap : ℕ}
    (hflag : s.countFlag = true) (hpolls : polls.Within gap) (hgap : gap ≤ s.period)
    (hms : 1 ≤ ms.toNat) (h : delayMs s polls ms = some d) :
    d.now + s.period ≤ ms.toNat * s.period + 2 * gap := by
  rw [delayMs, delayLoop_of_lt hms] at h
  -- the first read counts at once, whatever the counter is at
  have hstart : NoneMissed (s.after (polls.time 0)) polls ms.toNat gap
      (Delay.poll polls ⟨0, 0, 0, s⟩) := by
    rcases Delay.poll_cases polls ⟨0, 0, 0, s⟩ with ⟨-, hpoll⟩ | ⟨hclear, -⟩
    · rw [hpoll]
      have hfirst := Nat.mul_le_mul_right s.period hms
      refine ⟨rfl, rfl, Nat.le_of_lt (polls.increasing 0), hpolls.next_le 0, hms, ?_, ?_⟩
      · simp only [WrapCounter.count_read, WrapCounter.period_after, Nat.sub_zero, Nat.zero_add,
          Nat.one_mul]
      · simp only [WrapCounter.period_after]
        intro
        omega
    · have hset := (s.countFlag_after (polls.time 0)).mpr (.inl hflag)
      exact absurd (hclear.symm.trans hset) Bool.false_ne_true
  obtain ⟨hend, hi⟩ := delayLoop_invariant
    (fun d hi hd => hd.poll hpolls (by rw [WrapCounter.period_after]; exact hgap) hi) h hstart
  have hle := hend.end_le (Nat.le_antisymm hend.i_le hi)
  have hfirst := hpolls.first_le
  rw [WrapCounter.period_after] at hle
  omega

/-! ## The calls that are never short -/

theorem returned_iff {α : Type} {call : Option α} {a : α} {P : α → Prop} (h : call = some a) :
    (∃ b, call = some b ∧ P b) ↔ P a := by
  simp [h]

theorem delayMs_never_short_iff (s : WrapCounter) {ms : BitVec 32} (hms : 1 ≤ ms.toNat) :
    (∀ polls, ∃ d, delayMs s polls ms = some d ∧ ms.toNat * s.period ≤ d.now) ↔ s.Fresh := by
  constructor
  · intro h
    apply Decidable.byContradiction
    intro hfresh
    obtain ⟨polls, d, hd, hshort⟩ := exists_short_delayMs hfresh hms
    have hlong := (returned_iff hd).mp (h polls)
    omega
  · intro hfresh polls
    obtain ⟨d, hd⟩ := exists_delayMs s polls ms
    have hle := le_delayMs hd
    rw [(s.fresh_iff).mp hfresh] at hle
    exact ⟨d, hd, hle⟩

theorem uartWakeEsp32_eq {s : WrapCounter} (pulse settle : Waiting) {high low : Delay}
    (hhigh : delayMs s pulse.polls 10#32 = some high)
    (hlow : delayMs (high.systick.after pulse.rest) settle.polls 100#32 = some low) :
    uartWakeEsp32 s pulse settle = some ⟨high.now + pulse.rest, high.systick.after pulse.rest,
      low.now + settle.rest⟩ := by
  rw [uartWakeEsp32, hhigh, Option.bind_eq_bind, Option.bind_some]
  simp only [hlow]
  rfl

/-- If the flag is set from before as `WAKE_PIN` is set, and `CTRL` is read often, the pulse is
short. -/
theorem stale_pulse_lt {s : WrapCounter} {pulse settle : Waiting} {wake : Wake} {gap : ℕ}
    (hflag : s.countFlag = true) (hpolls : pulse.polls.Within gap)
    (hgap : 2 * gap + pulse.rest < s.period) (h : uartWakeEsp32 s pulse settle = some wake) :
    wake.pulse < 10 * s.period := by
  obtain ⟨high, hhigh⟩ := exists_delayMs s pulse.polls 10#32
  obtain ⟨low, hlow⟩ := exists_delayMs (high.systick.after pulse.rest) settle.polls 100#32
  rw [uartWakeEsp32_eq pulse settle hhigh hlow, Option.some_inj] at h
  have hle : high.now + s.period ≤ 10 * s.period + 2 * gap :=
    stale_delayMs_le hflag hpolls (by omega) (by decide) hhigh
  rw [← h]
  simp only
  omega

/-- A wait that the next statement follows at once. -/
def atOnce (polls : PollTimes) : Waiting := ⟨polls, 0⟩

theorem pulse_never_short_iff (s : WrapCounter) :
    (∀ pulse settle, ∃ wake, uartWakeEsp32 s pulse settle = some wake ∧
      10 * s.period ≤ wake.pulse) ↔ s.Fresh := by
  have hms : 1 ≤ (10#32).toNat := by decide
  rw [← delayMs_never_short_iff s hms]
  constructor
  · intro h polls
    obtain ⟨high, hhigh⟩ := exists_delayMs s polls 10#32
    obtain ⟨low, hlow⟩ := exists_delayMs high.systick polls 100#32
    have hwake := uartWakeEsp32_eq (atOnce polls) (atOnce polls) hhigh hlow
    exact ⟨high, hhigh, (returned_iff hwake).mp (h _ _)⟩
  · intro h pulse settle
    obtain ⟨high, hhigh, hlong⟩ := h pulse.polls
    obtain ⟨low, hlow⟩ := exists_delayMs (high.systick.after pulse.rest) settle.polls 100#32
    exact ⟨_, uartWakeEsp32_eq _ _ hhigh hlow, Nat.le_trans hlong (Nat.le_add_right _ _)⟩

theorem settle_never_short_iff {s : WrapCounter} {pulse : Waiting} {high : Delay}
    (hhigh : delayMs s pulse.polls 10#32 = some high) :
    (∀ settle, ∃ wake, uartWakeEsp32 s pulse settle = some wake ∧
      100 * s.period ≤ wake.settle) ↔ (high.systick.after pulse.rest).Fresh := by
  have hperiod : (high.systick.after pulse.rest).period = s.period := by
    rw [WrapCounter.period_after, period_of_delayMs hhigh]
  have hms : 1 ≤ (100#32).toNat := by decide
  rw [← delayMs_never_short_iff _ hms, hperiod]
  constructor
  · intro h polls
    obtain ⟨low, hlow⟩ := exists_delayMs (high.systick.after pulse.rest) polls 100#32
    have hwake := uartWakeEsp32_eq _ (atOnce polls) hhigh hlow
    exact ⟨low, hlow, (returned_iff hwake).mp (h _)⟩
  · intro h settle
    obtain ⟨low, hlow, hlong⟩ := h settle.polls
    exact ⟨_, uartWakeEsp32_eq _ _ hhigh hlow, Nat.le_trans hlong (Nat.le_add_right _ _)⟩

/-- A fresh counter is not fresh a tick later. -/
theorem not_fresh_after_one {s : WrapCounter} (h : s.Fresh) : ¬(s.after 1).Fresh := by
  intro hnext
  have hcount : s.count = 0 := by
    rw [WrapCounter.count, h.2, Nat.sub_self]
  have hpotential := (s.after 1).fresh_iff.mp hnext
  rw [WrapCounter.potential, hnext.1, WrapCounter.count_after, hcount] at hpotential
  have hwrap := mt (s.countFlag_after 1).mpr (by rw [hnext.1]; exact Bool.false_ne_true)
  rw [Nat.mod_eq_of_lt (by omega)] at hpotential
  simp at hpotential

/-- However `uart_wake_esp32` starts, its settle delay may be short. -/
theorem exists_short_settle (s : WrapCounter) :
    ∃ pulse settle wake, uartWakeEsp32 s pulse settle = some wake ∧
      wake.settle < 100 * s.period := by
  obtain ⟨high, hhigh⟩ := exists_delayMs s (everyPeriod 0 s) 10#32
  -- a write to the pin that comes a tick late finds the counter a tick on
  obtain ⟨rest, hrest⟩ : ∃ rest, ¬(high.systick.after rest).Fresh := by
    by_cases hfresh : high.systick.Fresh
    · exact ⟨1, not_fresh_after_one hfresh⟩
    · exact ⟨0, hfresh⟩
  have hms : 1 ≤ (100#32).toNat := by decide
  obtain ⟨polls, low, hlow, hshort⟩ := exists_short_delayMs hrest hms
  rw [WrapCounter.period_after, period_of_delayMs hhigh] at hshort
  exact ⟨⟨everyPeriod 0 s, rest⟩, atOnce polls, _, uartWakeEsp32_eq _ _ hhigh hlow, hshort⟩

/-- A call of `delay_ms` returns, and it takes its full number of periods whenever it reads `CTRL`
if and only if it starts with a fresh counter. So the pulse of `uart_wake_esp32` is never short if
and only if the counter is fresh when `WAKE_PIN` is set, and its settle delay is never short if and
only if the counter is fresh when the pin is reset. That it is fresh then, no counter at the start
of `uart_wake_esp32` can ensure: for each of them there are reads with a short settle delay. -/
theorem delays_never_short_iff (s : WrapCounter) :
    (∀ ms : BitVec 32, 1 ≤ ms.toNat →
      (∀ polls, ∃ d, delayMs s polls ms = some d) ∧
      ((∀ polls, ∃ d, delayMs s polls ms = some d ∧ ms.toNat * s.period ≤ d.now) ↔ s.Fresh)) ∧
    ((∀ pulse settle, ∃ wake, uartWakeEsp32 s pulse settle = some wake ∧
      10 * s.period ≤ wake.pulse) ↔ s.Fresh) ∧
    (∀ pulse settle, ∃ wake, uartWakeEsp32 s pulse settle = some wake ∧
      ((∀ settle', ∃ wake', uartWakeEsp32 s pulse settle' = some wake' ∧
        100 * s.period ≤ wake'.settle) ↔ wake.atReset.Fresh)) ∧
    ∃ pulse settle wake, uartWakeEsp32 s pulse settle = some wake ∧
      wake.settle < 100 * s.period := by
  refine ⟨?_, pulse_never_short_iff s, ?_, exists_short_settle s⟩
  · intro ms hms
    exact ⟨fun polls => exists_delayMs s polls ms, delayMs_never_short_iff s hms⟩
  · intro pulse settle
    obtain ⟨high, hhigh⟩ := exists_delayMs s pulse.polls 10#32
    obtain ⟨low, hlow⟩ := exists_delayMs (high.systick.after pulse.rest) settle.polls 100#32
    exact ⟨_, uartWakeEsp32_eq _ _ hhigh hlow, settle_never_short_iff hhigh⟩

/-- SysTick at 4 MHz, just after a wrap that was read. -/
def freshSystick : WrapCounter := ⟨3999, 3999, false, Nat.le_refl _⟩

theorem delays_never_short_iff_fresh :
    ∀ polls, ∃ d, delayMs freshSystick polls 10#32 = some d ∧ 10 * freshSystick.period ≤ d.now :=
  (((delays_never_short_iff freshSystick).1 10#32 (by decide)).2).mpr (by decide)

/-- The same counter, but the last wrap was not read. -/
def staleSystick : WrapCounter := ⟨3999, 3999, true, Nat.le_refl _⟩

/-- With the flag set from before, the first read counts at once. If the others come with the wraps,
`delay_ms(10)` returns after nine periods, and the pulse is that short. -/
theorem wake_pulse_short :
    ∃ d wake, delayMs staleSystick (everyPeriod 0 staleSystick) 10#32 = some d ∧
      d.now = 9 * staleSystick.period ∧
      uartWakeEsp32 staleSystick (atOnce (everyPeriod 0 staleSystick))
        (atOnce (everyPeriod 0 staleSystick)) = some wake ∧
      wake.pulse = 9 * staleSystick.period ∧ wake.pulse < 10 * staleSystick.period := by
  obtain ⟨d, hd⟩ := exists_delayMs staleSystick (everyPeriod 0 staleSystick) 10#32
  obtain ⟨low, hlow⟩ := exists_delayMs d.systick (everyPeriod 0 staleSystick) 100#32
  have hperiod : staleSystick.period = 4000 := rfl
  have hms : (10#32).toNat = 10 := rfl
  have hset : (staleSystick.after 0).countFlag = true := rfl
  have hnow := delayMs_everyPeriod hset (by decide) hd
  rw [hms] at hnow
  refine ⟨d, _, hd, by omega, uartWakeEsp32_eq _ _ hd hlow, ?_⟩
  simp only [atOnce]
  omega

end TelemetryNode.SystickDelay
