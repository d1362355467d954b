import TelemetryNode.System.EndToEnd

/-!
# How long the STM32 is awake

From one `__WFI` to the next the loop executes a bounded number of steps, whatever the ESP32, the
link, the interrupts and the sampling hardware do in the meantime: the wait for the ACK polls at
most 100000 times, and no other statement waits for the ESP32. For the same reason a set flag leads
to a packet after a bounded number of steps.

The steps that are counted are the statements of the loop, the bytes written to `TDR` and the polls
of `RXNE` in the wait for the ACK. A call of `uart_wake_esp32` is one of them. The polls of `TXE`
and `TC` in `uart_send_buffer`, and those of `COUNTFLAG` in `delay_ms`, wait for the transmitter and
for the timer of the STM32 itself; they are not moves of this system and not counted. How long the
transmitter can keep `uart_send_buffer` is the subject of `WireLevel.send_bounded`, and how long the
timer keeps `uart_wake_esp32` that of `SystickDelay.wake_bounds`.

## Main definitions

* `DutyCycle.own`: the moves that are counted.
* `DutyCycle.left`: how many of them are left of a pass of the loop.

## Main results

* `DutyCycle.awake_bounded`: unless the core is halted, one of these moves is enabled, and the next
  `__WFI` is reached within `awakeSteps` of them.
* `DutyCycle.announced_answered`: with the flag set, the next packet is transmitted within
  `awakeSteps` of them.
-/

namespace TelemetryNode.DutyCycle

open DmaAdc MainLoop Sampling UartHandshake Pipeline EndToEnd

/-- The moves that are counted as steps of the STM32: statements of the loop, the return of the
call, writes to `TDR`, the end of `uart_send_buffer`, and polls of `RXNE`. -/
def own : Option MainLoop.Move × Option Pipeline.Move → Bool
  | (some .cpu, _) | (some (.endWait _), _) => true
  | (_, some .transmit) | (_, some .startWait) | (_, some .poll) => true
  | _ => false

/-- How many steps are left of a call. -/
def senderLeft : Sender → ℕ
  | .idle => 0
  | .sending rest => rest.length + ackTimeoutLoops + 2
  | .waiting timer => ackTimeoutLoops - timer + 1

/-- How many steps are left from a call of `uart_send_telemetry_and_wait_ack` on. -/
def sendLeft : ℕ := UartFrame.size + ackTimeoutLoops + 9

theorem le_sendLeft : 9 ≤ sendLeft := Nat.le_add_left 9 _

/-- How many steps are left of a pass of the loop, at most. -/
def left : Pc → Sender → ℕ
  | .testDataReady, _ => sendLeft + 56
  | .setTimestamp, _ => sendLeft + 55
  | .averageChannel channel i _, _ =>
    sendLeft + 3 + ((adcBufferDepth + 1) * (adcChannels - channel) - i)
  | .setStatusFlags, _ => sendLeft + 3
  | .clearDataReady, _ => sendLeft + 2
  | .wakeEsp32, _ => sendLeft + 1
  | .sendTelemetry, _ => sendLeft
  | .waitAck, sender => senderLeft sender + 6
  | .setCommError, _ => 6
  | .clearWakeupFlags, _ => 5
  | .selectStop2, _ => 4
  | .setSleepDeep, _ => 3
  | .waitForInterrupt, _ => 2
  | .halted, _ | .clearSleepDeep, _ => 1

/-- What a step does to what is left of the pass: it is less than before, with the `__WFI` still to
come, and with the transmission still to come if it was. The other cases are the transmission
itself, the `__WFI`, the end of the pass, and a test that finds the flag unset. -/
inductive Progress (c c' : Core) (before after : ℕ) : Prop
  | send : c.pc = .sendTelemetry → c'.transmitted = c.transmitted ++ [(c.batch, c.dataPacket)] →
      after + 1 = sendLeft → Progress c c' before after
  | sleep : c.pc = .waitForInterrupt → after = 1 → Progress c c' before after
  | wrap : c.pc = .clearSleepDeep → after = sendLeft + 56 → Progress c c' before after
  | nothing : c.pc = .testDataReady → c.driver.dataReadyFlag = 0#8 → after = 5 →
      Progress c c' before after
  | less : after < before → 2 ≤ after → (sendLeft ≤ before → sendLeft ≤ after) →
      Progress c c' before after

/-- A statement of the loop, unless it transmits. -/
theorem progress_of_cpu {c c' : Core} (h : c.cpu = some c') (hsend : c.pc ≠ .sendTelemetry)
    (hpasses : ∀ channel i sum, c.pc = .averageChannel channel i sum → i ≤ adcBufferDepth)
    (sender : Sender) :
    Progress c c' (left c.pc sender) (left c'.pc sender) := by
  cases hpc : c.pc <;> simp only [Core.cpu, hpc, Option.some.injEq, reduceCtorEq] at h
  case testDataReady =>
    subst h
    by_cases hready : c.driver.isDataReady ≠ 0
    · refine .less ?_ ?_ ?_ <;> simp only [if_pos hready, left] <;> omega
    · refine .nothing hpc (not_not.mp hready) ?_
      simp only [if_neg hready, left]
  case averageChannel channel i sum =>
    have hchannel := channel.isLt
    have hi := hpasses channel i sum hpc
    split at h <;> cases h
    · refine .less ?_ ?_ ?_ <;> simp only [left, adcChannels, adcBufferDepth] at * <;> omega
    -- a channel takes 17 steps, and the last of them leads to the next channel
    · rename_i hdone
      have hcases : ∀ channel : Fin adcChannels, channel = 0 ∨ channel = 1 ∨ channel = 2 := by
        decide
      rcases hcases channel with rfl | rfl | rfl <;> refine .less ?_ ?_ ?_ <;>
        simp [left, adcChannels, adcBufferDepth, afterAverage] at * <;> omega
  case sendTelemetry => exact absurd hpc hsend
  case waitForInterrupt =>
    subst h
    refine .sleep hpc ?_
    dsimp only
    split <;> rfl
  case clearSleepDeep =>
    subst h
    exact .wrap hpc rfl
  all_goals
    subst h
    refine .less ?_ ?_ ?_ <;> simp only [left, sendLeft, adcChannels, adcBufferDepth] <;> omega

/-! ## In the composed system -/

variable {mqttClient : Bool} {s s' : Whole} {l : Option MainLoop.Move × Option Pipeline.Move}

/-- How many steps are left of the pass at hand. -/
def leftOf (s : Whole) : ℕ := left s.1.core.pc s.2.sender

/-- A call never has more steps left than it has at its beginning. -/
theorem senderLeft_le (h : s.2.sender.unsent.length ≤ UartFrame.size) :
    senderLeft s.2.sender + 7 ≤ sendLeft := by
  cases hsender : s.2.sender with
  | idle => simp only [senderLeft, sendLeft]; omega
  | sending rest =>
    rw [hsender] at h
    simp only [Sender.unsent] at h
    simp only [senderLeft, sendLeft]
    omega
  | waiting timer => simp only [senderLeft, sendLeft]; omega

/-- A step of a call has progress. -/
theorem progress_of_wait {c c' : Core} {before after : ℕ} (hbefore : before + 1 ≤ sendLeft)
    (hlt : after < before) (hafter : 2 ≤ after) : Progress c c' before after := by
  refine .less hlt hafter fun hle => ?_
  omega

/-- The STM32 makes progress with its own steps, and with no other ones. -/
theorem progress_step (h : (EndToEnd.system mqttClient).Reachable s)
    (hstep : (EndToEnd.system mqttClient).step s l = some s') :
    (own l = true ∧ Progress s.1.core s'.1.core (leftOf s) (leftOf s')) ∨
      (own l = false ∧ leftOf s' = leftOf s) := by
  have hlinked := linked_of_reachable h
  have hle := senderLeft_le hlinked.unsent
  cases step_cases hstep with
  | call stm32 link hpc hstm32 hlink =>
    obtain ⟨core, hcore, rfl⟩ := Option.map_eq_some_iff.mp hstm32
    obtain ⟨-, rfl⟩ := step_call hlink
    simp only [Core.step, Core.cpu, hpc, Option.some.injEq] at hcore
    subst hcore
    refine .inl ⟨rfl, .send hpc (by rw [record_core]) ?_⟩
    simp only [leftOf, record_core, left, senderLeft, length_wireFrame, sendLeft]
  | statement stm32 hpc hstm32 =>
    obtain ⟨core, hcore, rfl⟩ := Option.map_eq_some_iff.mp hstm32
    refine .inl ⟨rfl, ?_⟩
    simp only [leftOf, record_core]
    exact progress_of_cpu hcore hpc
      (fun channel i sum => passes_le (reachable_core (reachable_stm32 h))) s.2.sender
  | returns ackReceived stm32 link hreturns hstm32 hlink =>
    obtain ⟨core, hcore, rfl⟩ := Option.map_eq_some_iff.mp hstm32
    obtain ⟨timer, hsender, -, -⟩ := step_poll_of hlink
    simp only [Core.step, Core.endWait] at hcore
    split at hcore <;> cases hcore
    rename_i hwait
    refine .inl ⟨rfl, ?_⟩
    simp only [leftOf, record_core, hwait]
    rw [hsender] at hle ⊢
    cases ackReceived <;> apply progress_of_wait <;> simp only [left, senderLeft, sendLeft] <;>
      simp only [senderLeft, sendLeft] at hle <;> simp <;> omega
  | polls link hnone hlink =>
    obtain ⟨timer, hsender, -, hpoll⟩ := step_poll_of hlink
    have hwait : s.1.core.pc = .waitAck := hlinked.active.mpr (by simp [hsender])
    refine .inl ⟨rfl, ?_⟩
    obtain ⟨result, hreturns, -⟩ | ⟨-, htimer, hsender'⟩ := hpoll
    · exact absurd (hnone.symm.trans hreturns) (by simp)
    · rw [hsender] at hle
      apply progress_of_wait <;> simp only [leftOf, hwait, hsender, hsender', left, senderLeft] <;>
        simp only [senderLeft] at hle <;> omega
  | hardware m stm32 hm hstm32 =>
    obtain ⟨core, hcore, rfl⟩ := Option.map_eq_some_iff.mp hstm32
    have hown : own (some m, none) = false := by cases m <;> first | rfl | cases hm
    refine .inr ⟨hown, ?_⟩
    simp only [leftOf, record_core]
    cases m with
    | interrupt =>
      simp only [Core.step, Core.interrupt] at hcore
      split at hcore <;> cases hcore
      dsimp only
      -- the interrupt wakes the core
      split
      · rename_i hhalted
        rw [hhalted]
        rfl
      · rfl
    | transfer value | transferError =>
      cases hcore
      rfl
    | cpu | endWait ackReceived => cases hm
  | aside m link hm hlink =>
    obtain ⟨-, hsender⟩ := frame_of_aside hm hlink
    rcases hsender with ⟨htransmit, hwait, hsame⟩ | ⟨b, rest, rfl, hbefore, hafter⟩ |
      ⟨rfl, hbefore, hafter⟩
    · refine .inr ⟨?_, ?_⟩
      · cases m <;> first | rfl | exact absurd rfl htransmit | exact absurd rfl hwait | cases hm
      · simp only [leftOf, hsame]
    · have hwait : s.1.core.pc = .waitAck := hlinked.active.mpr (by simp [hbefore])
      refine .inl ⟨rfl, ?_⟩
      rw [hbefore] at hle
      simp only [senderLeft, List.length_cons] at hle
      apply progress_of_wait <;>
        simp only [leftOf, hwait, hbefore, hafter, left, senderLeft, List.length_cons] <;> omega
    · have hwait : s.1.core.pc = .waitAck := hlinked.active.mpr (by simp [hbefore])
      refine .inl ⟨rfl, ?_⟩
      rw [hbefore] at hle
      simp only [senderLeft, List.length_nil] at hle
      apply progress_of_wait <;>
        simp only [leftOf, hwait, hbefore, hafter, left, senderLeft, List.length_nil] <;> omega

/-! ## The STM32 never waits for the others -/

/-- The loop is at a statement, waits in a call, or is halted. -/
theorem exists_cpu {c : Core} (hwait : c.pc ≠ .waitAck) (hhalted : c.pc ≠ .halted) :
    ∃ c', c.cpu = some c' := by
  cases hpc : c.pc <;> simp only [Core.cpu, hpc, Option.some.injEq, exists_eq']
  case averageChannel channel i sum => split <;> exact ⟨_, rfl⟩
  case waitAck => exact absurd hpc hwait
  case halted => exact absurd hpc hhalted

/-- A step of the composed system from a step of each component. -/
theorem exists_step (mqttClient : Bool) {m : Option MainLoop.Move} {n : Option Pipeline.Move}
    (hsync : sync s.1 s.2 m n = true)
    (hstm32 : ∃ stm32, Sampling.system.stepIf s.1 m = some stm32)
    (hlink : ∃ link, (Pipeline.system mqttClient).stepIf s.2 n = some link) :
    ∃ s', (EndToEnd.system mqttClient).step s (m, n) = some s' := by
  obtain ⟨stm32, hstm32⟩ := hstm32
  obtain ⟨link, hlink⟩ := hlink
  exact ⟨(stm32, link), TransitionSystem.step_parallel_iff.mpr ⟨hsync, hstm32, hlink⟩⟩

/-- A call that is active has a next step: it never waits for the other side. -/
theorem exists_call_step (mqttClient : Bool) (hwait : s.1.core.pc = .waitAck)
    (hactive : s.2.sender ≠ .idle) :
    ∃ l s', own l = true ∧ (EndToEnd.system mqttClient).step s l = some s' := by
  match hsender : s.2.sender with
  | .idle => exact absurd hsender hactive
  | .sending [] =>
    have hlink : ∃ link, s.2.step mqttClient .startWait = some link := by
      simp only [Node.step, hsender, Option.some.injEq, exists_eq']
    obtain ⟨s', hs'⟩ := exists_step mqttClient (m := none) (n := some .startWait) rfl
      ⟨s.1, rfl⟩ hlink
    exact ⟨_, s', rfl, hs'⟩
  | .sending (b :: rest) =>
    have hlink : ∃ link, s.2.step mqttClient .transmit = some link := by
      simp only [Node.step, hsender, Option.some.injEq, exists_eq']
    obtain ⟨s', hs'⟩ := exists_step mqttClient (m := none) (n := some .transmit) rfl
      ⟨s.1, rfl⟩ hlink
    exact ⟨_, s', rfl, hs'⟩
  | .waiting timer =>
    have hlink : ∃ link, s.2.step mqttClient .poll = some link := by
      simp only [Node.step, hsender]
      split <;> exact ⟨_, rfl⟩
    -- the poll that returns is a move of both components, every other one of the link alone
    cases hreturns : pollReturns s.2 with
    | none =>
      obtain ⟨s', hs'⟩ := exists_step mqttClient (m := none) (n := some .poll)
        (decide_eq_true hreturns) ⟨s.1, rfl⟩ hlink
      exact ⟨_, s', rfl, hs'⟩
    | some ackReceived =>
      have hstm32 : ∃ stm32, s.1.step (.endWait ackReceived) = some stm32 := by
        simp only [Recorder.step, Core.step, Core.endWait, hwait, if_true, Option.map_some,
          Option.some.injEq, exists_eq']
      obtain ⟨s', hs'⟩ := exists_step mqttClient (m := some (.endWait ackReceived))
        (n := some .poll) (decide_eq_true hreturns) hstm32 hlink
      exact ⟨_, s', rfl, hs'⟩

/-- Unless the core is halted, the STM32 has a next step. -/
theorem exists_own_step (h : (EndToEnd.system mqttClient).Reachable s)
    (hhalted : s.1.core.pc ≠ .halted) :
    ∃ l s', own l = true ∧ (EndToEnd.system mqttClient).step s l = some s' := by
  have hlinked := linked_of_reachable h
  by_cases hwait : s.1.core.pc = .waitAck
  · exact exists_call_step mqttClient hwait (hlinked.active.mp hwait)
  obtain ⟨core, hcore⟩ := exists_cpu hwait hhalted
  have hstm32 : ∃ stm32, s.1.step .cpu = some stm32 :=
    ⟨s.1.record core .cpu, Option.map_eq_some_iff.mpr ⟨core, hcore, rfl⟩⟩
  by_cases hsend : s.1.core.pc = .sendTelemetry
  -- the last call has returned, so the next one can begin
  · have hidle : s.2.sender = .idle := not_not.mp fun hactive => hwait (hlinked.active.mpr hactive)
    have hlink : ∃ link, s.2.step mqttClient (.call s.1.core.dataPacket) = some link := by
      simp only [Node.step, hidle, transmitted_eq]
      exact ⟨_, rfl⟩
    obtain ⟨s', hs'⟩ := exists_step mqttClient (m := some .cpu)
      (n := some (.call s.1.core.dataPacket)) (decide_eq_true ⟨hsend, rfl⟩) hstm32 hlink
    exact ⟨_, s', rfl, hs'⟩
  · obtain ⟨s', hs'⟩ := exists_step mqttClient (m := some .cpu) (n := none)
      (decide_eq_true hsend) hstm32 ⟨s.2, rfl⟩
    exact ⟨_, s', rfl, hs'⟩

/-! ## Back to sleep -/

/-- The counted steps from one `__WFI` to the next, at most. -/
def awakeSteps : ℕ := 100081

theorem left_pos (pc : Pc) (sender : Sender) : 1 ≤ left pc sender := by
  cases pc <;> simp only [left, sendLeft] <;> omega

theorem left_eq_two_iff (pc : Pc) (sender : Sender) :
    left pc sender = 2 ↔ pc = .waitForInterrupt := by
  cases pc <;> simp only [left, sendLeft, reduceCtorEq, iff_false] <;> omega

/-- A pass of the loop has no more steps than this. -/
theorem leftOf_le (h : (EndToEnd.system mqttClient).Reachable s) : leftOf s ≤ sendLeft + 56 := by
  have hle := senderLeft_le (linked_of_reachable h).unsent
  unfold leftOf
  cases hpc : s.1.core.pc <;> simp only [left, sendLeft] at hle ⊢ <;> try omega
  case averageChannel channel i sum =>
    have hi := passes_le (reachable_core (reachable_stm32 h)) hpc
    have hchannel := channel.isLt
    simp only [adcChannels, adcBufferDepth] at *
    omega

/-- The steps left until the core reaches the `__WFI`. -/
def untilSleep (s : Whole) : ℕ := if 2 ≤ leftOf s then leftOf s - 2 else leftOf s + sendLeft + 54

theorem untilSleep_le (h : (EndToEnd.system mqttClient).Reachable s) :
    untilSleep s ≤ awakeSteps := by
  have hle := leftOf_le h
  have hsend : sendLeft = 100026 := rfl
  unfold untilSleep awakeSteps
  split <;> omega

/-- The `__WFI` comes closer with each step of the STM32. -/
theorem untilSleep_step (h : (EndToEnd.system mqttClient).Reachable s)
    (hpc : s.1.core.pc ≠ .waitForInterrupt)
    (hstep : (EndToEnd.system mqttClient).step s l = some s') :
    s'.1.core.pc = .waitForInterrupt ∨ untilSleep s' + (own l).toNat ≤ untilSleep s := by
  by_cases hgoal : s'.1.core.pc = .waitForInterrupt
  · exact .inl hgoal
  right
  have hpos : 1 ≤ leftOf s := left_pos s.1.core.pc s.2.sender
  have hne : leftOf s ≠ 2 := fun h2 => hpc ((left_eq_two_iff _ _).mp h2)
  have hne' : leftOf s' ≠ 2 := fun h2 => hgoal ((left_eq_two_iff _ _).mp h2)
  have hlong := le_sendLeft
  unfold untilSleep
  rcases progress_step h hstep with ⟨hown, hprogress⟩ | ⟨hown, hsame⟩
  · rw [hown, Bool.toNat_true]
    cases hprogress with
    | send hsend _ hafter =>
      have hbefore : leftOf s = sendLeft := by rw [leftOf, hsend]; rfl
      split <;> split <;> omega
    | sleep hsleep => exact absurd hsleep hpc
    -- the end of a pass: what is left is the whole of the next one, up to its `__WFI`
    | wrap hwrap hafter =>
      have hbefore : leftOf s = 1 := by rw [leftOf, hwrap]; rfl
      split <;> split <;> omega
    | nothing htest hflag hafter =>
      have hbefore : leftOf s = sendLeft + 56 := by rw [leftOf, htest]; rfl
      split <;> split <;> omega
    | less hlt hafter => split <;> split <;> omega
  · rw [hown, Bool.toNat_false, hsame, Nat.add_zero]

/-- From every reachable state, and whatever the ESP32, the link, the interrupts and the sampling
hardware do: unless the core is halted, a counted step of the STM32 is enabled, so that none of them
waits for the ESP32 or the link; and a run that does not reach the `__WFI` has at most 100081 of
them. -/
theorem awake_bounded (h : (EndToEnd.system mqttClient).Reachable s) :
    (s.1.core.pc ≠ .halted →
      ∃ l s', own l = true ∧ (EndToEnd.system mqttClient).step s l = some s') ∧
    ∀ ls s', (EndToEnd.system mqttClient).exec s ls = some s' →
      (∀ ms ns t, ls = ms ++ ns → (EndToEnd.system mqttClient).exec s ms = some t →
        t.1.core.pc ≠ .waitForInterrupt) →
      ls.countP own ≤ awakeSteps := by
  refine ⟨exists_own_step h, fun ls s' hexec hawake => ?_⟩
  have hpc : s.1.core.pc ≠ .waitForInterrupt := hawake [] ls s rfl rfl
  refine (TransitionSystem.countP_le_rank
    (fun s => (EndToEnd.system mqttClient).Reachable s ∧ s.1.core.pc ≠ .waitForInterrupt)
    (fun s => s.1.core.pc = .waitForInterrupt) untilSleep own ?_ ⟨h, hpc⟩ hexec hawake).trans
    (untilSleep_le h)
  rintro s l s' ⟨hs, hpc⟩ hstep
  by_cases hgoal : s'.1.core.pc = .waitForInterrupt
  · exact .inl hgoal
  · exact .inr ⟨⟨hs.next hstep, hgoal⟩, (untilSleep_step hs hpc hstep).resolve_left hgoal⟩

/-- The first byte of the frame has been written; the rest of the call and the statements up to the
last one before the `__WFI`. -/
def backToSleep : List (Option MainLoop.Move × Option Pipeline.Move) :=
  onePacket.drop 110 ++ List.replicate 2 (some .cpu, none)

/-- From the middle of a call to the last state before the `__WFI`. -/
theorem awake_bounded_in_call :
    ∃ s s', (EndToEnd.system true).Reachable s ∧ s.1.core.pc = .waitAck ∧
      (∃ l s', own l = true ∧ (EndToEnd.system true).step s l = some s') ∧
      (EndToEnd.system true).exec s backToSleep = some s' ∧ s'.1.core.pc = .setSleepDeep ∧
      backToSleep.countP own ≤ awakeSteps := by
  obtain ⟨s, hs, h⟩ := EndToEnd.reachable_start.exists_of_exec (onePacket.take 110)
    (fun s => s.1.core.pc = .waitAck ∧
      (EndToEnd.system true).along (fun s => s.1.core.pc ≠ .waitForInterrupt) s backToSleep ∧
      ((EndToEnd.system true).exec s backToSleep).any fun s' => s'.1.core.pc = .setSleepDeep)
    (by decide +kernel)
  obtain ⟨hpc, hawake, hany⟩ := of_decide_eq_true h
  obtain ⟨s', hexec, hend⟩ := (Option.any_eq_true _ _).mp hany
  obtain ⟨hnext, hbound⟩ := awake_bounded hs
  refine ⟨s, s', hs, hpc, hnext (by rw [hpc]; simp), hexec, of_decide_eq_true hend, ?_⟩
  refine hbound backToSleep s' hexec fun ms ns t hsplit ht => ?_
  have hbefore := TransitionSystem.of_along hawake hsplit ht
  exact of_decide_eq_true hbefore

/-! ## From the flag to the packet -/

/-- The flag is set, or the packet for which it was cleared is still to be transmitted. -/
def Announced (c : Core) : Prop := c.driver.dataReadyFlag ≠ 0#8 ∨ c.pc.untilSent = true

/-- The steps left until the next transmission, when the flag is set. -/
def untilAnswered (s : Whole) : ℕ :=
  if sendLeft ≤ leftOf s then leftOf s - sendLeft else leftOf s + 56

theorem untilSent_iff (pc : Pc) : pc.untilSent = true ↔ pc = .wakeEsp32 ∨ pc = .sendTelemetry := by
  cases pc <;> simp [Pc.untilSent]

/-- What is announced stays so until the packet goes out. -/
theorem announced_step {c c' : Core} {m : MainLoop.Move} (h : Announced c)
    (hstep : c.step m = some c') (hsent : c'.transmitted.length = c.transmitted.length) :
    Announced c' := by
  by_cases hcpu : m = .cpu
  · subst hcpu
    -- the clear is the only statement that takes the flag, and it hands over to the packet
    by_cases huntil : c.pc.untilSent
    · rcases (untilSent_iff c.pc).mp huntil with hpc | hpc <;>
        simp only [Core.step, Core.cpu, hpc, Option.some.injEq] at hstep <;> subst hstep
      · exact .inr rfl
      · simp at hsent
    · by_cases hclear : c.pc = .clearDataReady
      · simp only [Core.step, Core.cpu, hclear, Option.some.injEq] at hstep
        subst hstep
        exact .inr rfl
      · refine .inl ?_
        rw [driver_of_cpu hstep, if_neg hclear]
        exact h.resolve_right huntil
  · cases m with
    | cpu => exact absurd rfl hcpu
    | endWait ackReceived =>
      simp only [Core.step, Core.endWait] at hstep
      split at hstep <;> cases hstep
      -- in the wait nothing but the flag announces
      rename_i hwait
      exact .inl (h.resolve_right (by rw [hwait]; simp [Pc.untilSent]))
    | interrupt =>
      simp only [Core.step, Core.interrupt] at hstep
      split at hstep <;> cases hstep
      rename_i hpending
      refine .inl ?_
      rw [c.driver.irqHandler_dataReadyFlag hpending]
      decide
    | transfer value =>
      cases hstep
      exact h.imp_left fun hflag => by rwa [Driver.transfer_dataReadyFlag]
    | transferError =>
      cases hstep
      exact h

/-- The loop makes a move of its own, or none, in a step of the composed system. -/
theorem core_step (hstep : (EndToEnd.system mqttClient).step s l = some s') :
    s'.1.core = s.1.core ∨ ∃ m, s.1.core.step m = some s'.1.core := by
  rcases TransitionSystem.stepIf_cases (TransitionSystem.step_parallel_iff.mp hstep).2.1 with
    hsame | ⟨m, hm⟩
  · exact .inl (congrArg Recorder.core hsame)
  · obtain ⟨core, hcore, heq⟩ := Option.map_eq_some_iff.mp hm
    refine .inr ⟨m, ?_⟩
    rw [← heq, record_core]
    exact hcore

/-- Packets that were transmitted stay so. -/
theorem transmitted_le (hstep : (EndToEnd.system mqttClient).step s l = some s') :
    s.1.core.transmitted.length ≤ s'.1.core.transmitted.length := by
  rcases core_step hstep with hsame | ⟨m, hm⟩
  · rw [hsame]
  · by_cases hcpu : m = .cpu
    · subst hcpu
      rcases transmitted_cpu hm with hsame | ⟨-, hsent⟩
      · rw [hsame]
      · rw [hsent, List.length_append]
        exact Nat.le_add_right _ _
    · rw [(frame_of_environment hm hcpu).2.2.1]

/-- The transmission comes closer with each step of the STM32. -/
theorem untilAnswered_step (h : (EndToEnd.system mqttClient).Reachable s)
    (hannounced : Announced s.1.core)
    (hstep : (EndToEnd.system mqttClient).step s l = some s')
    (hsent : s'.1.core.transmitted.length = s.1.core.transmitted.length) :
    untilAnswered s' + (own l).toNat ≤ untilAnswered s := by
  have hlong := le_sendLeft
  unfold untilAnswered
  rcases progress_step h hstep with ⟨hown, hprogress⟩ | ⟨hown, hsame⟩
  · rw [hown, Bool.toNat_true]
    cases hprogress with
    | send hsend hmore =>
      rw [hmore, List.length_append] at hsent
      exact absurd hsent (Nat.succ_ne_self _)
    | sleep hsleep hafter =>
      have hbefore : leftOf s = 2 := by rw [leftOf, hsleep]; rfl
      split <;> split <;> omega
    | wrap hwrap hafter =>
      have hbefore : leftOf s = 1 := by rw [leftOf, hwrap]; rfl
      split <;> split <;> omega
    -- with the flag set the test does not pass on to the `__WFI`
    | nothing htest hflag =>
      rcases hannounced with hset | huntil
      · exact absurd hflag hset
      · rw [htest] at huntil
        exact absurd huntil Bool.false_ne_true
    | less hlt hafter hkeep => split <;> split <;> omega
  · rw [hown, Bool.toNat_false, hsame, Nat.add_zero]

theorem untilAnswered_le (h : (EndToEnd.system mqttClient).Reachable s) :
    untilAnswered s ≤ awakeSteps := by
  have hle := leftOf_le h
  have hsend : sendLeft = 100026 := rfl
  unfold untilAnswered awakeSteps
  split <;> omega

/-- With the flag set, a run in which no packet is transmitted has at most 100081 counted steps of
the STM32, whatever the others do in between. The packet is not always that of the lap which set the
flag: the samples may have been read before it, as when the interrupt comes while they are averaged,
and then `dma_adc_clear_data_ready` erases the notification. -/
theorem announced_answered (h : (EndToEnd.system mqttClient).Reachable s)
    (hflag : s.1.core.driver.dataReadyFlag ≠ 0#8)
    {ls : List (Option MainLoop.Move × Option Pipeline.Move)} {s' : Whole}
    (hexec : (EndToEnd.system mqttClient).exec s ls = some s')
    (hsent : s'.1.core.transmitted.length = s.1.core.transmitted.length) :
    ls.countP own ≤ awakeSteps := by
  refine (TransitionSystem.countP_le_rank
    (fun t => (EndToEnd.system mqttClient).Reachable t ∧ Announced t.1.core ∧
      t.1.core.transmitted.length = s.1.core.transmitted.length)
    (fun t => s.1.core.transmitted.length < t.1.core.transmitted.length) untilAnswered own ?_
    ⟨h, .inl hflag, rfl⟩ hexec ?_).trans (untilAnswered_le h)
  · rintro t l t' ⟨ht, hannounced, hlength⟩ hstep
    have hle := transmitted_le hstep
    by_cases hmore : s.1.core.transmitted.length < t'.1.core.transmitted.length
    · exact .inl hmore
    have hsame : t'.1.core.transmitted.length = t.1.core.transmitted.length := by omega
    refine .inr ⟨⟨ht.next hstep, ?_, hsame.trans hlength⟩,
      untilAnswered_step ht hannounced hstep hsame⟩
    rcases core_step hstep with hcore | ⟨m, hm⟩
    · rwa [hcore]
    · exact announced_step hannounced hm hsame
  · rintro ms ns t rfl ht hmore
    rw [TransitionSystem.exec_append, ht, Option.bind_some] at hexec
    -- nothing that was transmitted is taken back in the rest of the run
    have hle := TransitionSystem.exec_invariant
      (I := fun u => t.1.core.transmitted.length ≤ u.1.core.transmitted.length)
      (fun u l u' hu hstep => hu.trans (transmitted_le hstep)) le_rfl hexec
    omega

/-- The whole way from the test that finds the flag set to the statement that transmits. -/
theorem announced_answered_to_transmission :
    ∃ s s', (EndToEnd.system true).Reachable s ∧
      (EndToEnd.system true).exec s (List.replicate 56 (some .cpu, none)) = some s' ∧
      s'.1.core.pc = .sendTelemetry ∧
      (List.replicate 56 (some .cpu, none)).countP own ≤ awakeSteps := by
  obtain ⟨s, hs, h⟩ := EndToEnd.reachable_start.exists_of_exec (onePacket.take 49)
    (fun s => s.1.core.driver.dataReadyFlag ≠ 0#8 ∧
      ((EndToEnd.system true).exec s (List.replicate 56 (some .cpu, none))).any fun s' =>
        s'.1.core.transmitted.length = s.1.core.transmitted.length ∧
          s'.1.core.pc = .sendTelemetry) (by decide +kernel)
  obtain ⟨hflag, hany⟩ := of_decide_eq_true h
  obtain ⟨s', hexec, hsent⟩ := (Option.any_eq_true _ _).mp hany
  obtain ⟨hsame, hpc⟩ := of_decide_eq_true hsent
  exact ⟨s, s', hs, hexec, hpc, announced_answered hs hflag hexec hsame⟩

end TelemetryNode.DutyCycle
