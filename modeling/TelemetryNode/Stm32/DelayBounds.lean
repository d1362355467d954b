import TelemetryNode.Stm32.SystickDelay

/-!
# How long the delays take

`delay_ms` neither starts SysTick anew nor clears the flag of earlier wraps, so a delay may be
short. But never by two periods, and if `CTRL` is read at least once a period, it is not longer than
it should be, apart from the time between two reads. What the first wait of `uart_wake_esp32` uses
up of an early wrap is not there for the second one, so both together are short by less than two
periods.

## Main results

* `SystickDelay.delayMs_le`: the longest delay.
* `SystickDelay.wake_bounds`: the pulse, the settle delay, and both together.
-/

namespace TelemetryNode.SystickDelay

variable {polls : PollTimes} {d : Delay}

/-! ## The shortest delays -/

/-- A counter is ahead by less than two periods. -/
theorem potential_lt (s : WrapCounter) : s.potential < 2 * s.period := by
  have hcount := s.count_lt_period
  unfold WrapCounter.potential
  split <;> omega

/-! ## The longest delays -/

/-- Reads that miss no wrap: since the start of the call, when the flag was clear and the counter at
`s`, the counter has gone round once for each count of the loop. -/
structure OnTime (s : WrapCounter) (polls : PollTimes) (ms gap : ℕ) (d : Delay) : Prop where
  period_eq : d.systick.period = s.period
  flag_clear : d.systick.countFlag = false
  now_le : d.now ≤ polls.time d.reads
  next_le : polls.time d.reads ≤ d.now + gap
  elapsed : d.now + s.count = d.i * s.period + d.systick.count
  /-- The read that ends the loops comes soon after its wrap. -/
  end_le : d.i = ms → 0 < ms → d.systick.count ≤ gap

theorem OnTime.poll {s : WrapCounter} {ms gap : ℕ} (hpolls : polls.Within gap)
    (hgap : gap ≤ s.period) (hi : d.i < ms) (h : OnTime s polls ms gap d) :
    OnTime s polls ms gap (d.poll polls) := by
  have hcount := d.systick.count_lt_period
  have helapsed := h.elapsed
  have hnow := h.now_le
  have hle := h.next_le
  have hwrap := d.systick.countFlag_after (polls.time d.reads - d.now)
  rw [h.flag_clear] at hwrap
  simp only [Bool.false_eq_true, false_or] at hwrap
  rw [h.period_eq] at hwrap hcount
  have hincreasing := Nat.le_of_lt (polls.increasing d.reads)
  have hnext := hpolls.next_le d.reads
  rcases d.poll_cases polls with ⟨hset, hpoll⟩ | ⟨hclear, hpoll⟩
  · have hge := hwrap.mp hset
    -- the counter has gone round once, and not far since
    have hcount' : (d.systick.after (polls.time d.reads - d.now)).count =
        d.systick.count + (polls.time d.reads - d.now) - s.period := by
      rw [WrapCounter.count_after, h.period_eq, Nat.mod_eq_sub_mod hge, Nat.mod_eq_of_lt (by omega)]
    rw [hpoll]
    refine ⟨by simp [h.period_eq], rfl, hincreasing, hnext, ?_, fun _ _ => ?_⟩
    · simp only [WrapCounter.count_read, hcount', Nat.succ_mul]
      omega
    · simp only [WrapCounter.count_read, hcount']
      omega
  · have hlt := Nat.lt_of_not_le (mt hwrap.mpr (by rw [hclear]; exact Bool.false_ne_true))
    rw [hpoll]
    refine ⟨by simp [h.period_eq], hclear, hincreasing, hnext, ?_, fun hend _ => ?_⟩
    · simp only [WrapCounter.count_after, h.period_eq, Nat.mod_eq_of_lt hlt]
      omega
    · exact absurd hend (Nat.ne_of_lt hi)

/-- The loops count no further than they have to. -/
theorem i_le_of_delayLoop {ms fuel : ℕ} {d d' : Delay} (hi : d.i ≤ ms)
    (h : delayLoop polls ms fuel d = some d') : d'.i = ms := by
  have hpoll : ∀ d : Delay, d.i < ms → d.i ≤ ms → (d.poll polls).i ≤ ms := by
    intro d hlt _
    rcases d.poll_cases polls with ⟨-, hpoll⟩ | ⟨-, hpoll⟩ <;> rw [hpoll]
    · exact hlt
    · exact Nat.le_of_lt hlt
  obtain ⟨hle, hge⟩ := delayLoop_invariant hpoll h hi
  exact Nat.le_antisymm hle hge

/-- If `CTRL` is read at least once a period, a delay is not longer than it should be, apart from
the time between two reads. -/
theorem delayMs_le {s : WrapCounter} {ms : BitVec 32} {gap : ℕ} (hpolls : polls.Within gap)
    (hgap : gap ≤ s.period) (h : delayMs s polls ms = some d) :
    d.now ≤ ms.toNat * s.period + gap := by
  rcases Nat.eq_zero_or_pos ms.toNat with hzero | hpos
  · -- no read at all
    rw [delayMs, delayLoop_of_le (Nat.le_of_eq hzero)] at h
    cases h
    exact Nat.zero_le _
  · cases hflag : s.countFlag with
    | true =>
      have hle := stale_delayMs_le hflag hpolls hgap hpos h
      omega
    | false =>
      have hstart : OnTime s polls ms.toNat gap ⟨0, 0, 0, s⟩ := by
        refine ⟨rfl, hflag, Nat.zero_le _, ?_, ?_, fun hend => ?_⟩
        · rw [Nat.zero_add]
          exact hpolls.first_le
        · simp
        · exact absurd hend (Nat.ne_of_lt hpos)
      obtain ⟨hend, -⟩ := delayLoop_invariant (fun d hi hd => hd.poll hpolls hgap hi) h hstart
      have hi := i_le_of_delayLoop (Nat.zero_le _) h
      have helapsed := hend.elapsed
      have hsoon := hend.end_le hi hpos
      rw [hi] at helapsed
      omega

/-! ## The wake pulse and the settle delay -/

/-- For every counter as `WAKE_PIN` is set, and for all reads of `CTRL` within `gap` of each other,
which is at most a period: `uart_wake_esp32` returns. The pulse takes more than 8 and at most 10
periods, apart from the time between two reads and until the next statement, and the settle delay
more than 98 and at most 100. From the pulse's start to the first frame byte it is more than 108
periods. -/
theorem wake_bounds {s : WrapCounter} {pulse settle : Waiting} {gap : ℕ}
    (hpulse : pulse.polls.Within gap) (hsettle : settle.polls.Within gap) (hgap : gap ≤ s.period) :
    ∃ wake, uartWakeEsp32 s pulse settle = some wake ∧
      8 * s.period < wake.pulse ∧ wake.pulse ≤ 10 * s.period + gap + pulse.rest ∧
      98 * s.period < wake.settle ∧ wake.settle ≤ 100 * s.period + gap + settle.rest ∧
      108 * s.period < wake.pulse + wake.settle := by
  obtain ⟨high, hhigh⟩ := exists_delayMs s pulse.polls 10#32
  obtain ⟨low, hlow⟩ := exists_delayMs (high.systick.after pulse.rest) settle.polls 100#32
  refine ⟨_, uartWakeEsp32_eq pulse settle hhigh hlow, ?_⟩
  have hperiod : (high.systick.after pulse.rest).period = s.period := by
    rw [WrapCounter.period_after, period_of_delayMs hhigh]
  have hahead := potential_lt s
  have hahead' := potential_lt (high.systick.after pulse.rest)
  -- what is left of an early wrap after the pulse
  obtain ⟨hpaid, hi⟩ := paid_delayMs hhigh
  have hleft := hpaid.paid
  have hrest := high.systick.potential_after_le pulse.rest
  have hten := Nat.mul_le_mul_right s.period hi
  have hhundred := le_delayMs hlow
  have hpulse_le := delayMs_le hpulse hgap hhigh
  have hsettle_le := delayMs_le hsettle (by rw [hperiod]; exact hgap) hlow
  rw [hperiod] at hahead' hhundred hsettle_le
  simp only [BitVec.toNat_ofNat] at hten hhundred hpulse_le hsettle_le
  refine ⟨?_, ?_, ?_, ?_, ?_⟩ <;> simp only <;> omega

theorem everyPeriod_within {first : ℕ} {s : WrapCounter} (hfirst : first ≤ s.period) :
    (everyPeriod first s).Within s.period := by
  constructor
  · simpa [everyPeriod] using hfirst
  · intro k
    simp only [everyPeriod, Nat.succ_mul]
    omega

/-- With the flag set from before, and a read in each period. -/
theorem wake_bounds_stale :
    ∃ wake, uartWakeEsp32 staleSystick (atOnce (everyPeriod 0 staleSystick))
        (atOnce (everyPeriod 0 staleSystick)) = some wake ∧
      32000 < wake.pulse ∧ wake.pulse ≤ 44000 ∧ 432000 < wake.pulse + wake.settle := by
  have hwithin := everyPeriod_within (Nat.zero_le staleSystick.period)
  obtain ⟨wake, hwake, hlt, hle, -, -, hboth⟩ :=
    @wake_bounds _ (atOnce _) (atOnce _) _ hwithin hwithin (Nat.le_refl _)
  exact ⟨wake, hwake, hlt, hle, hboth⟩

end TelemetryNode.SystickDelay
