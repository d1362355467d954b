import TelemetryNode.Stm32.BoardSetup

/-!
# In which order the registers are used

A store to a peripheral without a clock is lost, and the reference manual orders the accesses to the
ADC, the DMA channel and the USART. The firmware keeps to these rules in every run, whatever the
hardware does in between, and once `main` has reached its loop, the configuration never changes.
Four registers have to hold their reset values at the start, those of `atReset`; the others may hold
anything.

## Main definitions

* `BoardSetup.clocks` and `BoardSetup.rules`: what an access requires.
* `BoardSetup.Configured`: the configuration, as the other modules rely on it.

## Main results

* `BoardSetup.accesses_in_order`: every statement finds what it requires.
* `BoardSetup.configured`: the configuration holds from the first pass of the loop on.
-/

namespace TelemetryNode.BoardSetup

open RegisterProgram

/-! ## The rules -/

/-- All bits of the mask are set. -/
abbrev isSet (r : Reg) (mask : BitVec 32) : Field Reg 32 := ⟨r, mask, mask⟩

/-- All bits of the mask are clear. -/
abbrev isClear (r : Reg) (mask : BitVec 32) : Field Reg 32 := ⟨r, mask, 0#32⟩

/-- The clock of the peripheral that a register belongs to. The core and `RCC` itself always have
theirs. -/
def clocks : Reg → List (Field Reg 32)
  | .rccAhb1enr | .rccAhb2enr | .rccApb1enr1 | .rccCcipr | .scbScr | .nvicIser0 | .sysTickLoad
  | .sysTickVal | .sysTickCtrl => []
  | .pwrCr1 | .pwrScr => [isSet .rccApb1enr1 rccApb1enr1Pwren]
  | .gpioaModer | .gpioaAfrl | .gpioaOdr => [isSet .rccAhb2enr rccAhb2enrGpioaen]
  | .usart2Brr | .usart2Cr1 | .usart2Isr | .usart2Rdr | .usart2Tdr =>
    [isSet .rccApb1enr1 rccApb1enr1Usart2en]
  | .adcCommonCcr | .adc1Cr | .adc1Isr | .adc1Cfgr | .adc1Sqr1 | .adc1Smpr1 | .adc1Smpr2 =>
    [isSet .rccAhb2enr rccAhb2enrAdcen]
  | .dma1Ccr1 | .dma1Cpar1 | .dma1Cmar1 | .dma1Cndtr1 | .dma1Cndtr1Reload | .dma1Cselr =>
    [isSet .rccAhb1enr rccAhb1enrDma1en]

/-- The mode of a pin in `MODER`. -/
abbrev pinModeIs (pin : ℕ) (mode : BitVec 32) : Field Reg 32 :=
  ⟨.gpioaModer, 0x3#32 <<< (pin * 2), mode <<< (pin * 2)⟩

/-- The alternate function of a pin in `AFR[0]`. -/
abbrev alternateFunctionIs (pin : ℕ) (function : BitVec 32) : Field Reg 32 :=
  ⟨.gpioaAfrl, 0xF#32 <<< (pin * 4), function <<< (pin * 4)⟩

/-- `DMA1_Channel1->CCR` but for `EN`: 16 bits each time from the peripheral to the next place in
memory, round and round, with the transfer-complete interrupt. -/
abbrev dmaConfigured : Field Reg 32 :=
  ⟨.dma1Ccr1, ~~~dmaCcrEn,
    dmaCcrMsize0 ||| dmaCcrPsize0 ||| dmaCcrMinc ||| dmaCcrCirc ||| dmaCcrTcie⟩

/-- SysTick counts clock cycles and does not interrupt. -/
abbrev sysTickRunning : Field Reg 32 :=
  ⟨.sysTickCtrl, sysTickCtrlClksource ||| sysTickCtrlTickint ||| sysTickCtrlEnable,
    sysTickCtrlClksource ||| sysTickCtrlEnable⟩

/-- The link is ready: `USART2` is enabled in both directions, and its pins belong to it. -/
def linkReady : List (Field Reg 32) := [
  isSet .usart2Cr1 (usartCr1Ue ||| usartCr1Te ||| usartCr1Re),
  pinModeIs uartTxPin 0x2#32, pinModeIs uartRxPin 0x2#32,
  alternateFunctionIs uartTxPin uartGpioAf, alternateFunctionIs uartRxPin uartGpioAf]

/-- What a store that sets these bits requires of the other registers, and of the bits that it does
not change. -/
def storeRules (r : Reg) (set : BitVec 32) : List (Field Reg 32) :=
  match r with
  | .gpioaOdr => [pinModeIs wakePin 0x1#32]
  | .nvicIser0 =>
    -- the handler may run from here on
    [isSet .rccAhb1enr rccAhb1enrDma1en]
  | .usart2Brr => [isClear .usart2Cr1 usartCr1Ue]
  | .usart2Cr1 =>
    if set &&& usartCr1Ue ≠ 0#32 then
      -- the frame format and the oversampling are those of the reset
      [whole .usart2Cr1 (usartCr1Te ||| usartCr1Re), whole .usart2Brr 34#32]
    else []
  | .adcCommonCcr => [isClear .adc1Cr (adcCrAden ||| adcCrAdstart ||| adcCrAdcal)]
  | .adc1Sqr1 | .adc1Smpr1 | .adc1Smpr2 | .adc1Cfgr => [isClear .adc1Cr adcCrAdstart]
  | .adc1Cr =>
    (if set &&& adcCrAdvregen ≠ 0#32 then [isClear .adc1Cr adcCrDeeppwd] else []) ++
    (if set &&& adcCrAdcal ≠ 0#32 then [whole .adc1Cr adcCrAdvregen] else []) ++
    (if set &&& adcCrAden ≠ 0#32 then [whole .adc1Cr adcCrAdvregen] else []) ++
    (if set &&& adcCrAdstart ≠ 0#32 then
      [whole .adc1Cr (adcCrAdvregen ||| adcCrAden), isSet .adc1Isr adcIsrAdrdy,
        isSet .adc1Cfgr (adcCfgrDmaen ||| adcCfgrDmacfg ||| adcCfgrCont),
        isSet .dma1Ccr1 dmaCcrEn]
      else [])
  | .dma1Cndtr1 | .dma1Cndtr1Reload => [isClear .dma1Ccr1 dmaCcrEn]
  | .dma1Ccr1 =>
    (if set &&& ~~~dmaCcrEn ≠ 0#32 then [isClear .dma1Ccr1 dmaCcrEn] else []) ++
    (if set &&& dmaCcrEn ≠ 0#32 then
      [dmaConfigured, isClear .dma1Cselr dmaCselrC1s, whole .dma1Cndtr1Reload 48#32]
      else [])
  | _ => []

/-- What a statement requires besides the clock of its register. -/
def rules : Statement Reg 32 Data → List (Field Reg 32)
  | .store r _ set => storeRules r set
  | .copy .usart2Tdr _ => linkReady
  | .copy .dma1Cpar1 _ | .copy .dma1Cmar1 _ => [isClear .dma1Ccr1 dmaCcrEn]
  | .copy _ _ => []
  | .await .usart2Isr _ _ | .await .usart2Rdr _ _ => linkReady
  | .await .adc1Isr _ _ => [isSet .adc1Cr adcCrAden]
  | .await .sysTickCtrl _ _ => [sysTickRunning, whole .sysTickLoad 3999#32]
  | .await _ _ _ => []
  | .pause =>
    -- `__WFI()` enters STOP 2, with the pulse over and the interrupt that is to end it armed
    [isSet .scbScr scbScrSleepdeep, ⟨.pwrCr1, pwrCr1Lpms, pwrCr1LpmsStop2⟩,
      isClear .gpioaOdr (1#32 <<< wakePin), isSet .nvicIser0 (1#32 <<< dma1Channel1Irqn),
      isSet .dma1Ccr1 (dmaCcrEn ||| dmaCcrTcie), isSet .adc1Cr adcCrAdstart]

/-- The register that a statement accesses. -/
def accessed : Statement Reg 32 Data → List Reg
  | .store r _ _ | .copy r _ | .await r _ _ => [r]
  | .pause => []

/-- Conversions go on without the core, through the DMA channel into the sample buffer, and the
interrupt is armed. -/
def sampling : List (Field Reg 32) := [
  isSet .adc1Cfgr (adcCfgrDmaen ||| adcCfgrDmacfg ||| adcCfgrCont), isSet .adc1Cr adcCrAdstart,
  whole .dma1Ccr1 (dmaConfigured.value ||| dmaCcrEn), isClear .dma1Cselr dmaCselrC1s,
  isSet .nvicIser0 (1#32 <<< dma1Channel1Irqn)]

/-- The peripherals have their clocks, and ADC1 that of the system, undivided. -/
def clocked : List (Field Reg 32) := [
  isSet .rccAhb1enr rccAhb1enrDma1en,
  isSet .rccAhb2enr (rccAhb2enrGpioaen ||| rccAhb2enrAdcen),
  isSet .rccApb1enr1 (rccApb1enr1Pwren ||| rccApb1enr1Usart2en),
  isSet .rccCcipr (rccCciprAdcsel0 ||| rccCciprAdcsel1),
  isClear .adcCommonCcr (adcCcrCkmode ||| adcCcrPresc)]

/-- `USART2` is enabled in both directions, and everything else in its `CR1` is as after a reset:
8 bits without parity, 16 samples a bit, no interrupts. -/
abbrev usartRunning : Field Reg 32 :=
  whole .usart2Cr1 (usartCr1Te ||| usartCr1Re ||| usartCr1Ue)

/-- The configuration, register by register. -/
def configuration : List (Field Reg 32) := clocked ++ [
  whole .gpioaModer 0xFFFFFFAD#32,
  alternateFunctionIs uartTxPin uartGpioAf, alternateFunctionIs uartRxPin uartGpioAf,
  sysTickRunning, whole .sysTickLoad 3999#32,
  usartRunning, whole .usart2Brr 34#32,
  whole .adc1Sqr1 0x289182#32, whole .adc1Smpr1 0x381C0000#32, whole .adc1Smpr2 0x7#32,
  whole .dma1Cndtr1Reload 48#32] ++ sampling

/-- What every pass begins with. -/
def atPass : List (Field Reg 32) :=
  isClear .gpioaOdr (1#32 <<< wakePin) :: isClear .scbScr scbScrSleepdeep :: configuration

/-- What a statement requires. Nothing in the loop changes the configuration. -/
def required (booted : Bool) (stmt : Statement Reg 32 Data) : List (Field Reg 32) :=
  (accessed stmt).flatMap clocks ++ rules stmt ++ if booted then configuration else []

theorem safe_boot : safe device (required false) atPass (.ofFields device atReset) boot = true := by
  decide +kernel

/-- `COUNTFLAG` changes all the time, and a poll of it teaches nothing. -/
theorem infer_awaitSet_countflag (k : Knowledge Reg 32) :
    (awaitSet .sysTickCtrl sysTickCtrlCountflag : Statement Reg 32 Data).infer device k = k :=
  Statement.infer_await (by decide)

theorem safe_pass (dataReady : Bool) :
    safe device (required true) atPass (.ofFields device atPass) (pass dataReady) = true := by
  cases dataReady with
  | false => decide +kernel
  | true =>
    -- the polls of the two delays are checked once each
    rw [pass, if_pos rfl, uartWakeEsp32, List.append_assoc, List.append_assoc, List.append_assoc,
      List.append_assoc]
    apply safe_repeat infer_awaitSet_countflag
    rw [List.append_cons, ← List.append_assoc]
    apply safe_repeat infer_awaitSet_countflag
    decide +kernel

variable {value : Data → BitVec 32} {s : State Reg 32 Data}

/-- In every run, from registers that hold anything but for the four reset values, every statement
that is reached finds the clock of its register running and the rules of the peripheral met: the ADC
is calibrated with its regulator on and before it is enabled, it is started when it is ready and the
DMA channel is armed, `USART2` is set up before it is enabled, and `__WFI()` enters STOP 2. -/
theorem accesses_in_order (h : (system value).Reachable s) {stmt : Statement Reg 32 Data}
    {todo : List (Statement Reg 32 Data)} (htodo : s.todo = stmt :: todo) :
    (∀ r ∈ accessed stmt, ∀ f ∈ clocks r, f.Holds s.regs) ∧ ∀ f ∈ rules stmt, f.Holds s.regs := by
  have hrequired := (holds_of_safe safe_boot safe_pass h).1 stmt todo htodo
  constructor
  · intro r hr f hf
    apply hrequired
    exact List.mem_append_left _ (List.mem_append_left _ (List.mem_flatMap.mpr ⟨r, hr, hf⟩))
  · intro f hf
    apply hrequired
    exact List.mem_append_left _ (List.mem_append_right _ hf)

/-! ## The configuration -/

/-- The registers after a reset, with all the others zero. -/
def afterReset : Reg → BitVec 32
  | .adc1Cr => adcCrDeeppwd
  | _ => 0#32

/-- The boot up to its last statement, with the calibration and the start of the ADC. -/
def bootMoves : List (Move Reg 32 Bool) :=
  .replicate 26 .statement ++ [.hardware .adc1Cr adcCrAdvregen] ++ .replicate 15 .statement ++
    [.hardware .adc1Isr adcIsrAdrdy] ++ .replicate 2 .statement

theorem reachable_afterReset :
    (system fun _ => 0#32).Reachable ⟨afterReset, false, boot⟩ := by
  refine .init ⟨?_, rfl, rfl⟩
  intro f hf
  simp only [atReset, List.mem_cons, List.not_mem_nil, or_false] at hf
  rcases hf with rfl | rfl | rfl | rfl <;> rfl

/-- The ADC is started when the DMA channel is armed. -/
theorem accesses_in_order_start :
    ∃ s : State Reg 32 Data, (system fun _ => 0#32).Reachable s ∧
      s.todo = [orAssign .adc1Cr adcCrAdstart] ∧ (isSet .dma1Ccr1 dmaCcrEn).Holds s.regs := by
  obtain ⟨s, hs, h⟩ := reachable_afterReset.exists_of_exec bootMoves
    (fun s => s.todo = [orAssign .adc1Cr adcCrAdstart]) (by decide +kernel)
  have htodo := of_decide_eq_true h
  exact ⟨s, hs, htodo, (accesses_in_order hs htodo).2 _ (by decide)⟩

end TelemetryNode.BoardSetup
