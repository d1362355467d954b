import TelemetryNode.Stm32.MainLoop

/-!
# What becomes of a complete batch

The interrupt handler sets `data_ready_flag`, and the loop tests it at its top, uses it, and clears
it after averaging. Two windows remain. From the clear (or a test that finds it unset) to the `WFI`,
a set flag is not tested again before the core sleeps. From the first read of the averaging to the
clear, a set flag is cleared although the packet holds older samples.

## Main results

* `no_sleep_on_pending_data`: the core never sleeps on a set flag in runs without an interrupt in
  the first window.
* `no_lost_notification`: no notification is lost in runs without an interrupt in the second window.
-/

namespace TelemetryNode.MainLoop

open DmaAdc

/-- From here on the loop reaches the `WFI` without testing the flag. -/
def Pc.headedForSleep : Pc → Bool
  | .wakeEsp32 | .sendTelemetry | .waitAck | .setCommError | .clearWakeupFlags | .selectStop2
  | .setSleepDeep | .waitForInterrupt => true
  | _ => false

/-- Samples have been read for the packet at hand, and the flag is still to be cleared. -/
def Pc.averaging : Pc → Bool
  | .averageChannel channel i _ => channel.val ≠ 0 ∨ i ≠ 0
  | .setStatusFlags | .clearDataReady => true
  | _ => false

/-! ## What a statement of the loop does -/

variable {s s' : Core} {m : Move}

/-- The loop changes the driver only by clearing the flag. -/
theorem driver_of_cpu (h : s.cpu = some s') :
    s'.driver = if s.pc = .clearDataReady then s.driver.clearDataReady else s.driver := by
  cases hpc : s.pc <;> simp only [Core.cpu, hpc, Option.some.injEq, reduceCtorEq] at h
  case averageChannel channel i sum =>
    split at h <;> cases h <;> rfl
  all_goals
    subst h
    rfl

/-- The loop heads for sleep only from a test that finds the flag unset, or from the clear. -/
theorem headedForSleep_of_cpu (h : s.cpu = some s')
    (hsleep : s'.pc.headedForSleep ∨ s'.pc = .halted) :
    s.pc.headedForSleep ∨ s.pc = .clearDataReady ∨
      (s.pc = .testDataReady ∧ s.driver.dataReadyFlag = 0#8) := by
  cases hpc : s.pc <;> simp only [Core.cpu, hpc, Option.some.injEq, reduceCtorEq] at h
  case testDataReady =>
    -- the only branch that looks at the flag
    subst h
    by_cases hflag : s.driver.dataReadyFlag = 0#8
    · exact .inr (.inr ⟨rfl, hflag⟩)
    · simp [Driver.isDataReady, hflag, Pc.headedForSleep] at hsleep
  case averageChannel channel i sum =>
    split at h <;> cases h
    -- the next sample, or the next channel or statement: none of them heads for sleep
    · simp [Pc.headedForSleep] at hsleep
    · match channel with
      | 0 | 1 | 2 => simp [afterAverage, Pc.headedForSleep] at hsleep
  case setTimestamp | setStatusFlags | clearSleepDeep =>
    subst h
    simp [Pc.headedForSleep] at hsleep
  all_goals simp [Pc.headedForSleep]

/-- The record changes with the first read of an averaging and with a transmission only. -/
theorem record_of_cpu (h : s.cpu = some s') :
    s'.serviced = s.serviced ∧
      ((s'.batch = s.batch ∧ s'.transmitted = s.transmitted) ∨
        (s'.batch = some s.serviced ∧ s'.transmitted = s.transmitted) ∨
        (s'.transmitted = s.transmitted ++ [(s.batch, s.dataPacket)])) := by
  cases hpc : s.pc <;> simp only [Core.cpu, hpc, Option.some.injEq, reduceCtorEq] at h
  case averageChannel channel i sum =>
    split at h <;> cases h
    · refine ⟨rfl, ?_⟩
      by_cases hfirst : channel = 0 ∧ i = 0
      · exact .inr (.inl ⟨if_pos hfirst, rfl⟩)
      · exact .inl ⟨if_neg hfirst, rfl⟩
    · exact ⟨rfl, .inl ⟨rfl, rfl⟩⟩
  case sendTelemetry =>
    subst h
    exact ⟨rfl, .inr (.inr rfl)⟩
  all_goals
    subst h
    exact ⟨rfl, .inl ⟨rfl, rfl⟩⟩

/-- The loop has read samples either already before, or by the first read, which sets `batch`. -/
theorem averaging_of_cpu (h : s.cpu = some s') (havg : s'.pc.averaging) :
    (s.pc.averaging ∧ s'.batch = s.batch) ∨ s'.batch = some s.serviced := by
  cases hpc : s.pc <;> simp only [Core.cpu, hpc, Option.some.injEq, reduceCtorEq] at h
  case testDataReady | waitForInterrupt =>
    subst h
    split at havg <;> simp [Pc.averaging] at havg
  case averageChannel channel i sum =>
    split at h <;> cases h
    · by_cases hfirst : channel = 0 ∧ i = 0
      · exact .inr (if_pos hfirst)
      · refine .inl ⟨?_, if_neg hfirst⟩
        simp only [Pc.averaging, decide_eq_true_eq]
        exact not_and_or.mp fun h0 => hfirst ⟨Fin.ext h0.1, h0.2⟩
    · rename_i hdone
      refine .inl ⟨?_, rfl⟩
      simp only [Pc.averaging, decide_eq_true_eq]
      exact .inr fun h0 => hdone (by rw [h0]; decide)
  case setStatusFlags =>
    subst h
    exact .inl ⟨rfl, rfl⟩
  all_goals
    subst h
    simp [Pc.averaging] at havg

/-! ## Sleep -/

/-- The flag is unset from where the loop heads for sleep until the core wakes. -/
def SleepInv (s : Core) : Prop :=
  s.pc.headedForSleep ∨ s.pc = .halted → s.driver.dataReadyFlag = 0#8

/-- An interrupt is not serviced while the loop heads for sleep. -/
def NotHeadedForSleep (s : Core) (m : Move) : Prop := m = .interrupt → s.pc.headedForSleep = false

instance : DecidableRel NotHeadedForSleep := fun s m => by
  unfold NotHeadedForSleep
  infer_instance

theorem sleepInv_step (hinv : SleepInv s) (hm : NotHeadedForSleep s m) (h : s.step m = some s') :
    SleepInv s' := by
  intro hsleep
  cases m with
  | cpu =>
    -- the clear makes the flag 0, and nothing else the loop does touches it
    rw [driver_of_cpu h]
    split
    · exact s.driver.clearDataReady_dataReadyFlag
    · rename_i hclear
      rcases headedForSleep_of_cpu h hsleep with hbefore | hpc | ⟨-, hflag⟩
      · exact hinv (.inl hbefore)
      · exact absurd hpc hclear
      · exact hflag
  | endWait ackReceived =>
    simp only [Core.step, Core.endWait] at h
    split at h
    · rename_i hpc
      cases h
      exact hinv (.inl (by rw [hpc]; rfl))
    · cases h
  | interrupt =>
    -- the core was halted and is woken, or it was not heading for sleep and still is not
    simp only [Core.step, Core.interrupt] at h
    split at h
    · cases h
      have hawake := hm rfl
      by_cases hpc : s.pc = .halted
      · simp [hpc, Pc.headedForSleep] at hsleep
      · simp [hpc, hawake] at hsleep
    · cases h
  | transfer value =>
    cases h
    rw [Driver.transfer_dataReadyFlag]
    exact hinv hsleep
  | transferError =>
    cases h
    exact hinv hsleep

/-- In a run in which no interrupt is serviced between the clear of the flag, or a test that finds
it unset, and the `WFI`, the flag is unset whenever the core is halted. -/
theorem no_sleep_on_pending_data (h : system.ReachableUnder NotHeadedForSleep s)
    (hhalted : s.pc = .halted) : s.driver.dataReadyFlag = 0#8 := by
  have hinv : SleepInv s := by
    refine h.invariant ?_ fun s m s' hinv hm hstep => sleepInv_step hinv hm hstep
    rintro s ⟨packet, rfl⟩
    exact fun _ => rfl
  exact hinv (.inr hhalted)

/-- A lap of the buffer, and the interrupt that announces it. -/
def batchArrives : List Move := List.replicate 48 (.transfer 0x0123#16) ++ [.interrupt]

/-- The loop from the test that finds the flag set to the wait for the ACK. -/
def transmits : List Move := List.replicate 57 .cpu

/-- A batch is averaged and transmitted, and the core sleeps with the flag unset. -/
theorem no_sleep_on_pending_data_one_batch :
    ∃ s, system.ReachableUnder NotHeadedForSleep s ∧ s.pc = .halted ∧
      s.driver.dataReadyFlag = 0#8 := by
  have hstart : (system.restrict NotHeadedForSleep).Reachable
      (.start (dataPacket 0#16 0#16 0#16)) := .init ⟨_, rfl⟩
  obtain ⟨s, hs, hhalted⟩ := hstart.exists_of_exec
    (batchArrives ++ transmits ++ [.endWait true, .cpu, .cpu, .cpu, .cpu])
    (fun s => s.pc = .halted) (by decide +kernel)
  have hpc : s.pc = .halted := by simpa using hhalted
  exact ⟨s, .of_restrict hs, hpc, no_sleep_on_pending_data (.of_restrict hs) hpc⟩

/-- A second batch completes while the loop waits for the ACK. Its interrupt is serviced, and the
core goes to sleep with the flag set and nothing pending that would wake it. -/
theorem sleeps_on_batch_during_handshake :
    ∃ s, system.Reachable s ∧ s.pc = .halted ∧ s.driver.irqPending = false ∧
      s.driver.dataReadyFlag ≠ 0#8 := by
  have hstart : system.Reachable (.start (dataPacket 0#16 0#16 0#16)) := .init ⟨_, rfl⟩
  obtain ⟨s, hs, h⟩ := hstart.exists_of_exec
    (batchArrives ++ transmits ++ batchArrives ++ [.endWait true, .cpu, .cpu, .cpu, .cpu])
    (fun s => s.pc = .halted ∧ s.driver.irqPending = false ∧ s.driver.dataReadyFlag ≠ 0#8)
    (by decide +kernel)
  exact ⟨s, hs, by simpa using h⟩

/-! ## Notifications -/

/-- The latest interrupt that was serviced is answered: a packet for which all samples were read
after it has been transmitted, or is at hand. -/
def LatestAnswered (s : Core) : Prop :=
  s.serviced = 0 ∨ s.batch = some s.serviced ∨ ∃ packet, (some s.serviced, packet) ∈ s.transmitted

/-- While the samples are read no interrupt is serviced, and an unset flag means that the latest one
is answered. -/
def NotificationInv (s : Core) : Prop :=
  (s.pc.averaging → s.batch = some s.serviced) ∧
    (s.driver.dataReadyFlag = 0#8 → LatestAnswered s)

/-- An interrupt is not serviced between the first read of an averaging and the clear of the
flag. -/
def NotAveraging (s : Core) (m : Move) : Prop := m = .interrupt → s.pc.averaging = false

instance : DecidableRel NotAveraging := fun s m => by
  unfold NotAveraging
  infer_instance

theorem latestAnswered_of_cpu (h : s.cpu = some s') (hs : LatestAnswered s) :
    LatestAnswered s' := by
  obtain ⟨hserviced, hrecord⟩ := record_of_cpu h
  unfold LatestAnswered at hs ⊢
  rw [hserviced]
  rcases hs with hnone | hbatch | ⟨packet, hmem⟩
  · exact .inl hnone
  · rcases hrecord with ⟨hsame, -⟩ | ⟨hfirst, -⟩ | hsent
    · exact .inr (.inl (hsame.trans hbatch))
    · exact .inr (.inl hfirst)
    · refine .inr (.inr ⟨s.dataPacket, ?_⟩)
      rw [hsent, hbatch]
      exact List.mem_append_right _ List.mem_cons_self
  · refine .inr (.inr ⟨packet, ?_⟩)
    -- what was transmitted stays so
    rcases hrecord with ⟨-, hsame⟩ | ⟨-, hsame⟩ | hsent
    · exact hsame ▸ hmem
    · exact hsame ▸ hmem
    · exact hsent ▸ List.mem_append_left _ hmem

theorem notificationInv_step (hinv : NotificationInv s) (hm : NotAveraging s m)
    (h : s.step m = some s') : NotificationInv s' := by
  obtain ⟨hbatch, hanswered⟩ := hinv
  cases m with
  | cpu =>
    refine ⟨fun havg => ?_, fun hflag => latestAnswered_of_cpu h ?_⟩
    · rw [(record_of_cpu h).1]
      rcases averaging_of_cpu h havg with ⟨hbefore, hsame⟩ | hfirst
      · exact hsame.trans (hbatch hbefore)
      · exact hfirst
    · rw [driver_of_cpu h] at hflag
      split at hflag
      · -- what the clear erases is the notification for the batch at hand
        rename_i hpc
        exact .inr (.inl (hbatch (by rw [hpc]; rfl)))
      · exact hanswered hflag
  | endWait ackReceived =>
    simp only [Core.step, Core.endWait] at h
    split at h
    · cases h
      refine ⟨fun havg => ?_, hanswered⟩
      cases ackReceived <;> simp [Pc.averaging] at havg
    · cases h
  | interrupt =>
    simp only [Core.step, Core.interrupt] at h
    split at h
    · rename_i hpending
      cases h
      refine ⟨fun havg => ?_, fun hflag => ?_⟩
      · have hidle := hm rfl
        by_cases hpc : s.pc = .halted
        · simp [hpc, Pc.averaging] at havg
        · simp [hpc, hidle] at havg
      -- the flag is set, so there is nothing to show
      · have hset := s.driver.irqHandler_dataReadyFlag hpending
        rw [hset] at hflag
        exact absurd hflag (by decide)
    · cases h
  | transfer value =>
    cases h
    exact ⟨hbatch, fun hflag => hanswered (by rwa [Driver.transfer_dataReadyFlag] at hflag)⟩
  | transferError =>
    cases h
    exact ⟨hbatch, hanswered⟩

/-- In a run in which no interrupt is serviced between the first read of an averaging and the clear
of the flag, an unset flag means that the latest interrupt is answered by a packet whose samples
were all read after it. -/
theorem no_lost_notification (h : system.ReachableUnder NotAveraging s)
    (hflag : s.driver.dataReadyFlag = 0#8) : LatestAnswered s := by
  have hinv : NotificationInv s := by
    refine h.invariant ?_ fun s m s' hinv hm hstep => notificationInv_step hinv hm hstep
    rintro s ⟨packet, rfl⟩
    exact ⟨fun havg => by simp [Core.start, Pc.averaging] at havg, fun _ => .inl rfl⟩
  exact hinv.2 hflag

/-- A batch is averaged and transmitted after its interrupt. -/
theorem no_lost_notification_one_batch :
    ∃ s, system.ReachableUnder NotAveraging s ∧ s.serviced = 1 ∧ s.driver.dataReadyFlag = 0#8 ∧
      LatestAnswered s := by
  have hstart : (system.restrict NotAveraging).Reachable (.start (dataPacket 0#16 0#16 0#16)) :=
    .init ⟨_, rfl⟩
  obtain ⟨s, hs, h⟩ := hstart.exists_of_exec (batchArrives ++ transmits)
    (fun s => s.serviced = 1 ∧ s.driver.dataReadyFlag = 0#8) (by decide +kernel)
  obtain ⟨hserviced, hflag⟩ : s.serviced = 1 ∧ s.driver.dataReadyFlag = 0#8 := by simpa using h
  exact ⟨s, .of_restrict hs, hserviced, hflag, no_lost_notification (.of_restrict hs) hflag⟩

/-- A second batch completes after the first sample of the first one was read. The clear erases its
notification, and no packet answers it. -/
theorem notification_lost_while_averaging :
    ∃ s, system.Reachable s ∧ s.driver.dataReadyFlag = 0#8 ∧ ¬ LatestAnswered s := by
  have hstart : system.Reachable (.start (dataPacket 0#16 0#16 0#16)) := .init ⟨_, rfl⟩
  obtain ⟨s, hs, h⟩ := hstart.exists_of_exec
    (batchArrives ++ [.cpu, .cpu, .cpu] ++ batchArrives ++ List.replicate 52 .cpu)
    (fun s => s.driver.dataReadyFlag = 0#8 ∧ s.serviced = 2 ∧ s.batch = some 1 ∧
      s.transmitted = []) (by decide +kernel)
  obtain ⟨hflag, hserviced, hbatch, hnone⟩ : s.driver.dataReadyFlag = 0#8 ∧ s.serviced = 2 ∧
      s.batch = some 1 ∧ s.transmitted = [] := by simpa using h
  refine ⟨s, hs, hflag, ?_⟩
  simp [LatestAnswered, hserviced, hbatch, hnone]

end TelemetryNode.MainLoop
