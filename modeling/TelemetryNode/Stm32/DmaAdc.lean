import Mathlib.Data.Nat.Notation

/-!
# The sampling driver of the STM32

The state of `stm32_firmware/drivers/src/dma_adc.c`: the circular buffer that DMA1 channel 1 fills
with the conversions of ADC1, the flag by which the interrupt handler tells the main loop about a
complete lap, and the two DMA flags the handler looks at.

## Main definitions

* `DmaAdc.Driver.transfer`: what the hardware does with one conversion.
* `DmaAdc.Driver.irqHandler`: `DMA1_Channel1_IRQHandler`.
* `DmaAdc.accumulate` and `DmaAdc.average`: the loop of `dma_adc_get_averaged_channel` and its
  result.
-/

namespace TelemetryNode.DmaAdc

/-- `ADC_CHANNELS`. -/
abbrev adcChannels : ℕ := 3

/-- `ADC_BUFFER_DEPTH`. -/
abbrev adcBufferDepth : ℕ := 16

/-- The static variables of the driver, and the registers of DMA1 that it depends on. -/
structure Driver where
  adcBuffer : Vector (BitVec 16) (adcChannels * adcBufferDepth)
  dataReadyFlag : BitVec 8
  /-- The slots of this lap that are filled: the length of the buffer less `CNDTR`. -/
  filled : Fin (adcChannels * adcBufferDepth)
  /-- `TCIF1`. -/
  transferComplete : Bool
  /-- `TEIF1`. -/
  transferError : Bool
  deriving DecidableEq

/-- The driver when `dma_adc_start` returns. -/
def Driver.start : Driver where
  adcBuffer := .replicate _ 0#16
  dataReadyFlag := 0#8
  filled := ⟨0, by decide⟩
  transferComplete := false
  transferError := false

/-- A conversion is stored in the next slot. With the last slot the lap is complete: `CNDTR` is
reloaded, and `TCIF1` is set. -/
def Driver.transfer (d : Driver) (value : BitVec 16) : Driver :=
  let adcBuffer := d.adcBuffer.set d.filled value
  if h : d.filled + 1 < adcChannels * adcBufferDepth then
    { d with adcBuffer, filled := ⟨d.filled + 1, h⟩ }
  else { d with adcBuffer, filled := ⟨0, by decide⟩, transferComplete := true }

/-- The interrupt is requested. Only `TCIE` is set, so an error does not request it. -/
def Driver.irqPending (d : Driver) : Bool := d.transferComplete

/-- `DMA1_Channel1_IRQHandler`. -/
def Driver.irqHandler (d : Driver) : Driver :=
  let d := if d.transferComplete then { d with transferComplete := false, dataReadyFlag := 1#8 }
    else d
  if d.transferError then { d with transferError := false } else d

/-- `dma_adc_is_data_ready`. -/
def Driver.isDataReady (d : Driver) : BitVec 8 := d.dataReadyFlag

/-- `dma_adc_clear_data_ready`. -/
def Driver.clearDataReady (d : Driver) : Driver := { d with dataReadyFlag := 0#8 }

/-- One pass of the loop of `dma_adc_get_averaged_channel`. -/
def accumulate (d : Driver) (channel : Fin adcChannels) (i : Fin adcBufferDepth) (sum : BitVec 32) :
    BitVec 32 :=
  have hslot : i * adcChannels + channel < adcChannels * adcBufferDepth := by
    have := channel.isLt
    have := i.isLt
    simp only [adcChannels, adcBufferDepth] at *
    omega
  sum + (d.adcBuffer[i * adcChannels + channel]).setWidth 32

/-- What `dma_adc_get_averaged_channel` returns after its loop. -/
def average (sum : BitVec 32) : BitVec 16 := (sum / BitVec.ofNat 32 adcBufferDepth).setWidth 16

/-! ## What each operation does to the flags -/

namespace Driver

variable (d : Driver)

@[simp]
theorem transfer_dataReadyFlag (value : BitVec 16) :
    (d.transfer value).dataReadyFlag = d.dataReadyFlag := by
  unfold transfer
  split <;> rfl

@[simp]
theorem clearDataReady_dataReadyFlag : d.clearDataReady.dataReadyFlag = 0#8 := rfl

/-- The handler tells the main loop about every interrupt that was requested. -/
theorem irqHandler_dataReadyFlag (h : d.irqPending) : d.irqHandler.dataReadyFlag = 1#8 := by
  have hcomplete : d.transferComplete = true := h
  unfold irqHandler
  cases d.transferError <;> simp [hcomplete]

end Driver

end TelemetryNode.DmaAdc
