import TelemetryNode.Common.ProtocolSpec
import TelemetryNode.Library.RegisterProgram
import TelemetryNode.Stm32.DmaAdc

/-!
# The registers of the STM32

The stores and polls of the firmware, in their order: the initialisation that `main` runs, and then,
for ever, the wake pulse, the transmission and `pm_enter_stop_mode`. The hardware changes its own
bits at any time. A loop that only polls is one statement; the loop of `dma_adc_init` on `settle`
touches no register and is left out.

## Main definitions

* `BoardSetup.Reg`: the registers, and `BoardSetup.device`: how they answer to stores, and which of
  their bits are not the program's own.
* `BoardSetup.boot` and `BoardSetup.pass`: what `main` does, from the functions of the drivers.
* `BoardSetup.system`: all interleavings with the hardware.
-/

namespace TelemetryNode.BoardSetup

open RegisterProgram

/-! ## The registers -/

/-- The registers of `stm32l476xx.h` and `core_cm4.h` that the firmware uses. -/
inductive Reg
  | rccAhb1enr
  | rccAhb2enr
  | rccApb1enr1
  | rccCcipr
  | pwrCr1
  | pwrScr
  | scbScr
  | nvicIser0
  | sysTickLoad
  | sysTickVal
  | sysTickCtrl
  | gpioaModer
  /-- `GPIOA->AFR[0]`. -/
  | gpioaAfrl
  /-- What the pins are driven to. Stores to `GPIOA->BSRR` change it. -/
  | gpioaOdr
  | usart2Brr
  | usart2Cr1
  | usart2Isr
  | usart2Rdr
  | usart2Tdr
  | adcCommonCcr
  | adc1Cr
  | adc1Isr
  | adc1Cfgr
  | adc1Sqr1
  | adc1Smpr1
  | adc1Smpr2
  | dma1Ccr1
  | dma1Cpar1
  | dma1Cmar1
  /-- `DMA1_Channel1->CNDTR`, which the channel counts down. -/
  | dma1Cndtr1
  /-- What the channel reloads `CNDTR` with at the end of a lap. A store to `CNDTR` changes it. -/
  | dma1Cndtr1Reload
  | dma1Cselr
  deriving DecidableEq, Repr

/-- The values that are not written in the source: two addresses, and the frame. -/
inductive Data
  /-- `(uint32_t)&ADC1->DR`. -/
  | adc1Dr
  /-- `(uint32_t)adc_buffer`. -/
  | adcBuffer
  /-- A byte of the frame. -/
  | frameByte (i : ℕ)
  deriving DecidableEq, Repr

/-- A bit of a register. -/
abbrev bit (i : ℕ) : BitVec 32 := 1#32 <<< i

abbrev rccAhb1enrDma1en : BitVec 32 := bit 0
abbrev rccAhb2enrGpioaen : BitVec 32 := bit 0
abbrev rccAhb2enrAdcen : BitVec 32 := bit 13
abbrev rccApb1enr1Usart2en : BitVec 32 := bit 17
abbrev rccApb1enr1Pwren : BitVec 32 := bit 28
abbrev rccCciprAdcsel0 : BitVec 32 := bit 28
abbrev rccCciprAdcsel1 : BitVec 32 := bit 29
abbrev pwrCr1Lpms : BitVec 32 := 0x7#32
abbrev pwrCr1LpmsStop2 : BitVec 32 := bit 1
abbrev pwrScrCwuf : BitVec 32 := 0x1F#32
abbrev scbScrSleepdeep : BitVec 32 := bit 2
abbrev sysTickCtrlEnable : BitVec 32 := bit 0
abbrev sysTickCtrlTickint : BitVec 32 := bit 1
abbrev sysTickCtrlClksource : BitVec 32 := bit 2
abbrev sysTickCtrlCountflag : BitVec 32 := bit 16
abbrev usartCr1Ue : BitVec 32 := bit 0
abbrev usartCr1Re : BitVec 32 := bit 2
abbrev usartCr1Te : BitVec 32 := bit 3
abbrev usartIsrTc : BitVec 32 := bit 6
abbrev usartIsrTxe : BitVec 32 := bit 7
abbrev adcCcrCkmode : BitVec 32 := 0x3#32 <<< 16
abbrev adcCcrPresc : BitVec 32 := 0xF#32 <<< 18
abbrev adcCrAden : BitVec 32 := bit 0
abbrev adcCrAddis : BitVec 32 := bit 1
abbrev adcCrAdstart : BitVec 32 := bit 2
abbrev adcCrJadstart : BitVec 32 := bit 3
abbrev adcCrAdstp : BitVec 32 := bit 4
abbrev adcCrJadstp : BitVec 32 := bit 5
abbrev adcCrAdvregen : BitVec 32 := bit 28
abbrev adcCrDeeppwd : BitVec 32 := bit 29
abbrev adcCrAdcaldif : BitVec 32 := bit 30
abbrev adcCrAdcal : BitVec 32 := bit 31
abbrev adcIsrAdrdy : BitVec 32 := bit 0
abbrev adcCfgrDmaen : BitVec 32 := bit 0
abbrev adcCfgrDmacfg : BitVec 32 := bit 1
abbrev adcCfgrCont : BitVec 32 := bit 13
abbrev dmaCcrEn : BitVec 32 := bit 0
abbrev dmaCcrTcie : BitVec 32 := bit 1
abbrev dmaCcrCirc : BitVec 32 := bit 5
abbrev dmaCcrMinc : BitVec 32 := bit 7
abbrev dmaCcrPsize0 : BitVec 32 := bit 8
abbrev dmaCcrMsize0 : BitVec 32 := bit 10
abbrev dmaCndtrNdt : BitVec 32 := 0xFFFF#32
abbrev dmaCselrC1s : BitVec 32 := 0xF#32

/-- `DMA1_Channel1_IRQn`. -/
abbrev dma1Channel1Irqn : ℕ := 11

/-- The bits of `ADC1->CR` that software can only set. -/
def adcCrSetOnly : BitVec 32 :=
  adcCrAden ||| adcCrAddis ||| adcCrAdstart ||| adcCrJadstart ||| adcCrAdstp ||| adcCrJadstp |||
    adcCrAdcal

/-- The hardware ends a calibration, a stop and a disabling by clearing their bits; in continuous
mode it leaves `ADSTART` set. It sets and clears flags, except that `ADRDY` stays set while the ADC
is enabled. The DMA channel counts `CNDTR` down and reloads it; a transfer error, which would
disable the channel, is left out. -/
def device : Device Reg 32 where
  clearedByOne
    | .adc1Isr | .pwrScr => .allOnes 32
    | _ => 0#32
  setByOne
    | .adc1Cr => adcCrSetOnly
    | .nvicIser0 => .allOnes 32
    | _ => 0#32
  rising
    | .adc1Isr | .usart2Isr | .usart2Rdr | .sysTickVal => .allOnes 32
    | .sysTickCtrl => sysTickCtrlCountflag
    | .dma1Cndtr1 => dmaCndtrNdt
    | _ => 0#32
  falling
    | .usart2Isr | .usart2Rdr | .sysTickVal => .allOnes 32
    | .adc1Isr => ~~~adcIsrAdrdy
    | .adc1Cr => adcCrAdcal ||| adcCrAdstp ||| adcCrJadstp ||| adcCrAddis
    | .sysTickCtrl => sysTickCtrlCountflag
    | .dma1Cndtr1 => dmaCndtrNdt
    | _ => 0#32

/-! ## The statements -/

/-- `*r = x`. -/
abbrev assign (r : Reg) (x : BitVec 32) : Statement Reg 32 Data := .store r (.allOnes 32) x

/-- `*r |= mask`. -/
abbrev orAssign (r : Reg) (mask : BitVec 32) : Statement Reg 32 Data := .store r 0#32 mask

/-- `*r &= ~mask`. -/
abbrev andNotAssign (r : Reg) (mask : BitVec 32) : Statement Reg 32 Data := .store r mask 0#32

/-- `GPIOA->BSRR = x`: the low half sets pins, and the high half resets the others. -/
abbrev assignBsrr (x : BitVec 32) : Statement Reg 32 Data :=
  .store .gpioaOdr (x >>> 16) (x &&& 0xFFFF#32)

/-- `DMA1_Channel1->CNDTR = x`: the count, and with it what it is reloaded with. -/
abbrev assignCndtr (x : BitVec 32) : List (Statement Reg 32 Data) :=
  [assign .dma1Cndtr1 x, assign .dma1Cndtr1Reload x]

/-- `while ((*r & mask) == 0U)`. -/
abbrev awaitSet (r : Reg) (mask : BitVec 32) : Statement Reg 32 Data := .await r mask mask

/-- `while ((*r & mask) != 0U)`. -/
abbrev awaitClear (r : Reg) (mask : BitVec 32) : Statement Reg 32 Data := .await r mask 0#32

/-! ## The board -/

/-- `WAKE_PIN`. -/
abbrev wakePin : ℕ := 0

/-- `UART_TX_PIN`. -/
abbrev uartTxPin : ℕ := 2

/-- `UART_RX_PIN`. -/
abbrev uartRxPin : ℕ := 3

/-- `UART_GPIO_AF`. -/
abbrev uartGpioAf : BitVec 32 := 7#32

/-- `ADC_CH_BATTERY_NUM`. -/
abbrev adcChBatteryNum : BitVec 32 := 6#32

/-- `ADC_CH_TEMP_NUM`. -/
abbrev adcChTempNum : BitVec 32 := 9#32

/-- `ADC_CH_GENERIC_NUM`. -/
abbrev adcChGenericNum : BitVec 32 := 10#32

/-- `SystemCoreClock`, which nothing changes. -/
abbrev systemCoreClock : BitVec 32 := 4000000#32

/-! ## power_manager.c -/

/-- `pm_init`. -/
def pmInit : List (Statement Reg 32 Data) := [orAssign .rccApb1enr1 rccApb1enr1Pwren]

/-- `pm_configure_unused_gpios_analog`. -/
def pmConfigureUnusedGpiosAnalog : List (Statement Reg 32 Data) := [
  orAssign .rccAhb2enr rccAhb2enrGpioaen,
  assign .gpioaModer 0xFFFFFFFF#32,
  andNotAssign .gpioaModer (0x3#32 <<< (wakePin * 2)),
  orAssign .gpioaModer (0x1#32 <<< (wakePin * 2)),
  andNotAssign .gpioaModer (0x3#32 <<< (uartTxPin * 2)),
  orAssign .gpioaModer (0x2#32 <<< (uartTxPin * 2)),
  andNotAssign .gpioaModer (0x3#32 <<< (uartRxPin * 2)),
  orAssign .gpioaModer (0x2#32 <<< (uartRxPin * 2))]

/-- `pm_disable_unused_clocks`. There are none. -/
def pmDisableUnusedClocks : List (Statement Reg 32 Data) := []

/-- `pm_enter_stop_mode`. -/
def pmEnterStopMode : List (Statement Reg 32 Data) := [
  orAssign .pwrScr pwrScrCwuf,
  .store .pwrCr1 pwrCr1Lpms pwrCr1LpmsStop2,
  orAssign .scbScr scbScrSleepdeep,
  -- `__WFI()`
  .pause,
  andNotAssign .scbScr scbScrSleepdeep]

/-! ## systick_delay.c -/

/-- `systick_delay_init`. -/
def systickDelayInit : List (Statement Reg 32 Data) := [
  assign .sysTickLoad (systemCoreClock / 1000#32 - 1#32),
  assign .sysTickVal 0#32,
  assign .sysTickCtrl (sysTickCtrlClksource ||| sysTickCtrlEnable)]

/-- `delay_ms(ms)`. -/
def delayMs (ms : ℕ) : List (Statement Reg 32 Data) :=
  .replicate ms (awaitSet .sysTickCtrl sysTickCtrlCountflag)

/-! ## uart_handshake.c -/

/-- `uart_handshake_init`. -/
def uartHandshakeInit : List (Statement Reg 32 Data) := [
  orAssign .rccApb1enr1 rccApb1enr1Usart2en,
  andNotAssign .gpioaAfrl ((0xF#32 <<< (uartTxPin * 4)) ||| (0xF#32 <<< (uartRxPin * 4))),
  orAssign .gpioaAfrl ((uartGpioAf <<< (uartTxPin * 4)) ||| (uartGpioAf <<< (uartRxPin * 4))),
  assign .usart2Brr (systemCoreClock / 115200#32),
  orAssign .usart2Cr1 (usartCr1Te ||| usartCr1Re),
  orAssign .usart2Cr1 usartCr1Ue]

/-- `uart_wake_esp32`. -/
def uartWakeEsp32 : List (Statement Reg 32 Data) :=
  [assignBsrr (1#32 <<< wakePin)] ++ delayMs 10 ++ [assignBsrr (1#32 <<< (wakePin + 16))] ++
    delayMs 100

/-- `uart_send_buffer(&frame, length)`. -/
def uartSendBuffer (length : ℕ) : List (Statement Reg 32 Data) :=
  (List.range length).flatMap (fun i =>
    [awaitSet .usart2Isr usartIsrTxe, .copy .usart2Tdr (.frameByte i)]) ++
    [awaitSet .usart2Isr usartIsrTc]

/-- `uart_wait_for_byte`, which reads `ISR` and, when `RXNE` is set, `RDR`. -/
def uartWaitForByte : List (Statement Reg 32 Data) :=
  [.await .usart2Isr 0#32 0#32, .await .usart2Rdr 0#32 0#32]

/-- `uart_send_telemetry_and_wait_ack`. -/
def uartSendTelemetryAndWaitAck : List (Statement Reg 32 Data) :=
  uartSendBuffer UartFrame.size ++ uartWaitForByte

/-! ## dma_adc.c -/

/-- `dma_adc_init`. -/
def dmaAdcInit : List (Statement Reg 32 Data) := [
  orAssign .rccAhb2enr (rccAhb2enrGpioaen ||| rccAhb2enrAdcen),
  orAssign .rccAhb1enr rccAhb1enrDma1en,
  orAssign .rccCcipr (rccCciprAdcsel0 ||| rccCciprAdcsel1),
  andNotAssign .adcCommonCcr (adcCcrCkmode ||| adcCcrPresc),
  andNotAssign .adc1Cr adcCrDeeppwd,
  orAssign .adc1Cr adcCrAdvregen,
  andNotAssign .adc1Cr adcCrAdcaldif,
  orAssign .adc1Cr adcCrAdcal,
  awaitClear .adc1Cr adcCrAdcal,
  andNotAssign .dma1Ccr1 dmaCcrEn,
  .copy .dma1Cpar1 .adc1Dr,
  .copy .dma1Cmar1 .adcBuffer] ++
  assignCndtr (BitVec.ofNat 32 (DmaAdc.adcChannels * DmaAdc.adcBufferDepth)) ++ [
  assign .dma1Ccr1
    (dmaCcrMsize0 ||| dmaCcrPsize0 ||| dmaCcrMinc ||| dmaCcrCirc ||| dmaCcrTcie),
  andNotAssign .dma1Cselr dmaCselrC1s,
  -- `NVIC_EnableIRQ(DMA1_Channel1_IRQn)`
  assign .nvicIser0 (1#32 <<< dma1Channel1Irqn),
  assign .adc1Sqr1 (BitVec.ofNat 32 (DmaAdc.adcChannels - 1) ||| (adcChBatteryNum <<< 6) |||
    (adcChTempNum <<< 12) ||| (adcChGenericNum <<< 18)),
  assign .adc1Smpr1 ((0x7#32 <<< 18) ||| (0x7#32 <<< 27)),
  assign .adc1Smpr2 0x7#32,
  orAssign .adc1Cfgr (adcCfgrDmaen ||| adcCfgrDmacfg ||| adcCfgrCont),
  orAssign .adc1Isr adcIsrAdrdy,
  orAssign .adc1Cr adcCrAden,
  awaitSet .adc1Isr adcIsrAdrdy]

/-- `dma_adc_start`. -/
def dmaAdcStart : List (Statement Reg 32 Data) :=
  [orAssign .dma1Ccr1 dmaCcrEn, orAssign .adc1Cr adcCrAdstart]

/-! ## main.c -/

/-- `main` up to its loop. -/
def boot : List (Statement Reg 32 Data) :=
  pmInit ++ pmConfigureUnusedGpiosAnalog ++ pmDisableUnusedClocks ++ systickDelayInit ++
    uartHandshakeInit ++ dmaAdcInit ++ dmaAdcStart

/-- A pass through the loop of `main`, with what `dma_adc_is_data_ready()` returned. -/
def pass (dataReady : Bool) : List (Statement Reg 32 Data) :=
  (if dataReady then uartWakeEsp32 ++ uartSendTelemetryAndWaitAck else []) ++ pmEnterStopMode

/-- All of a register. -/
abbrev whole (r : Reg) (x : BitVec 32) : Field Reg 32 := ⟨r, .allOnes 32, x⟩

/-- What a reset leaves, as far as the firmware relies on it. The other registers hold anything. -/
def atReset : List (Field Reg 32) :=
  [whole .gpioaOdr 0#32, whole .usart2Cr1 0#32, whole .adc1Cr adcCrDeeppwd, whole .scbScr 0#32]

/-- All interleavings of `main` with the hardware, for any addresses and any frames. -/
def system (value : Data → BitVec 32) :
    TransitionSystem (State Reg 32 Data) (Move Reg 32 Bool) :=
  RegisterProgram.system device value atReset boot pass

end TelemetryNode.BoardSetup
