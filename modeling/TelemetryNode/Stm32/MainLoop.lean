import TelemetryNode.Library.TransitionSystem
import TelemetryNode.Stm32.DataPacket
import TelemetryNode.Stm32.DmaAdc

/-!
# The superloop of the STM32 and its interrupt

The loop of `main` in `stm32_firmware/app/src/main.c`, with the functions it calls, as a program
that `DMA1_Channel1_IRQHandler` and the hardware interrupt between any two statements. Each `Pc` is
the statement to be executed next. A read of the sample buffer is a statement of its own, since the
buffer is written all the time; the busy waits of the wake pulse and of the transmission touch
nothing that the handler touches, and are one statement each.

## Main definitions

* `MainLoop.Core`: the state of the core, with the driver and a record of what has been averaged and
  transmitted.
* `MainLoop.Core.cpu`: one statement of the loop.
* `MainLoop.system`: all interleavings of the loop, the interrupt and the hardware.
-/

namespace TelemetryNode.MainLoop

open DmaAdc

/-- The statements of the loop. -/
inductive Pc
  /-- `if (dma_adc_is_data_ready())`. -/
  | testDataReady
  /-- `data_packet.timestamp_ms = 0`. -/
  | setTimestamp
  /-- In the loop of `dma_adc_get_averaged_channel(channel)`, before its pass `i`. -/
  | averageChannel (channel : Fin adcChannels) (i : ℕ) (sum : BitVec 32)
  /-- `data_packet.status_flags = 0x01`. -/
  | setStatusFlags
  /-- `dma_adc_clear_data_ready()`. -/
  | clearDataReady
  /-- `uart_wake_esp32()`. -/
  | wakeEsp32
  /-- The frame of `uart_send_telemetry_and_wait_ack(&data_packet)` goes out. -/
  | sendTelemetry
  /-- Its wait for the ACK. -/
  | waitAck
  /-- `data_packet.status_flags |= 0x02`. -/
  | setCommError
  /-- `PWR->SCR |= PWR_SCR_CWUF`, the first statement of `pm_enter_stop_mode`. -/
  | clearWakeupFlags
  /-- `PWR->CR1 = (PWR->CR1 & ~PWR_CR1_LPMS) | PWR_CR1_LPMS_STOP2`. -/
  | selectStop2
  /-- `SCB->SCR |= SCB_SCR_SLEEPDEEP_Msk`. -/
  | setSleepDeep
  /-- `__WFI()`. -/
  | waitForInterrupt
  /-- Halted within `__WFI()`. -/
  | halted
  /-- `SCB->SCR &= ~SCB_SCR_SLEEPDEEP_Msk`. -/
  | clearSleepDeep
  deriving DecidableEq

/-- The core, the driver, and a record of the run. -/
structure Core where
  pc : Pc
  driver : Driver
  dataPacket : TelemetryPayload
  /-- `SLEEPDEEP`. -/
  sleepDeep : Bool
  /-- Record: how many transfer-complete interrupts have been serviced. -/
  serviced : ℕ
  /-- Record: how many had been when the averaging of the packet at hand began. -/
  batch : Option ℕ
  /-- Record: the packets transmitted so far, each with its `batch`. -/
  transmitted : List (Option ℕ × TelemetryPayload)
  deriving DecidableEq

/-- The core at the first statement of the loop. The packet is not initialised. -/
def Core.start (dataPacket : TelemetryPayload) : Core where
  pc := .testDataReady
  driver := .start
  dataPacket := dataPacket
  sleepDeep := false
  serviced := 0
  batch := none
  transmitted := []

/-- The assignment of an average to the packet. -/
def setReading (packet : TelemetryPayload) (channel : Fin adcChannels) (value : BitVec 16) :
    TelemetryPayload :=
  match channel with
  | 0 => { packet with batteryMv := value }
  | 1 => { packet with tempSensor := value }
  | 2 => { packet with adcCh1 := value }

/-- The statement after an average is assigned. -/
def afterAverage (channel : Fin adcChannels) : Pc :=
  match channel with
  | 0 => .averageChannel 1 0 0#32
  | 1 => .averageChannel 2 0 0#32
  | 2 => .setStatusFlags

/-- The next statement of the loop, if the core is not halted. The end of the wait for the ACK is
not its own doing (`Core.endWait`). -/
def Core.cpu (s : Core) : Option Core :=
  match s.pc with
  | .testDataReady =>
    some { s with pc := if s.driver.isDataReady ≠ 0 then .setTimestamp else .clearWakeupFlags }
  | .setTimestamp =>
    some { s with
      dataPacket := { s.dataPacket with timestampMs := 0#32 }
      pc := .averageChannel 0 0 0#32 }
  | .averageChannel channel i sum =>
    if h : i < adcBufferDepth then
      some { s with
        pc := .averageChannel channel (i + 1) (accumulate s.driver channel ⟨i, h⟩ sum)
        batch := if channel = 0 ∧ i = 0 then some s.serviced else s.batch }
    else
      some { s with
        dataPacket := setReading s.dataPacket channel (average sum)
        pc := afterAverage channel }
  | .setStatusFlags =>
    some { s with
      dataPacket := { s.dataPacket with statusFlags := 0x01#8 }
      pc := .clearDataReady }
  | .clearDataReady => some { s with driver := s.driver.clearDataReady, pc := .wakeEsp32 }
  | .wakeEsp32 => some { s with pc := .sendTelemetry }
  | .sendTelemetry =>
    some { s with
      transmitted := s.transmitted ++ [(s.batch, s.dataPacket)]
      batch := none
      pc := .waitAck }
  | .waitAck => none
  | .setCommError =>
    some { s with
      dataPacket := { s.dataPacket with statusFlags := s.dataPacket.statusFlags ||| 0x02#8 }
      pc := .clearWakeupFlags }
  | .clearWakeupFlags => some { s with pc := .selectStop2 }
  | .selectStop2 => some { s with pc := .setSleepDeep }
  | .setSleepDeep => some { s with sleepDeep := true, pc := .waitForInterrupt }
  | .waitForInterrupt =>
    -- an interrupt that is pending already does not let the core halt
    some { s with pc := if s.driver.irqPending then .clearSleepDeep else .halted }
  | .halted => none
  | .clearSleepDeep => some { s with sleepDeep := false, pc := .testDataReady }

/-- `uart_send_telemetry_and_wait_ack` returns. -/
def Core.endWait (s : Core) (ackReceived : Bool) : Option Core :=
  if s.pc = .waitAck then
    some { s with pc := if ackReceived then .clearWakeupFlags else .setCommError }
  else none

/-- A requested interrupt is serviced. It also wakes a halted core. -/
def Core.interrupt (s : Core) : Option Core :=
  if s.driver.irqPending then
    some { s with
      driver := s.driver.irqHandler
      serviced := s.serviced + 1
      pc := if s.pc = .halted then .clearSleepDeep else s.pc }
  else none

/-- The moves of the system. -/
inductive Move
  /-- The core executes the next statement. -/
  | cpu
  /-- The wait for the ACK ends. -/
  | endWait (ackReceived : Bool)
  /-- `DMA1_Channel1_IRQHandler` runs. -/
  | interrupt
  /-- A conversion is transferred. -/
  | transfer (value : BitVec 16)
  /-- A transfer error is flagged. -/
  | transferError
  deriving DecidableEq

/-- The state after a move, if it is possible. -/
def Core.step (s : Core) : Move → Option Core
  | .cpu => s.cpu
  | .endWait ackReceived => s.endWait ackReceived
  | .interrupt => s.interrupt
  | .transfer value => some { s with driver := s.driver.transfer value }
  | .transferError => some { s with driver := { s.driver with transferError := true } }

/-- All interleavings, from the first statement of the loop on. -/
def system : TransitionSystem Core Move where
  init s := ∃ packet, s = Core.start packet
  step := Core.step

end TelemetryNode.MainLoop
