import TelemetryNode.Stm32.UartHandshake

/-!
# The packets of the application

The `data_packet` that `main` of `stm32_firmware/app/src/main.c` fills in, and its frame byte by
byte.
-/

namespace TelemetryNode

/-- `data_packet` as it is transmitted, for the averages of the three channels. -/
def dataPacket (battery temp adc : BitVec 16) : TelemetryPayload where
  timestampMs := 0#32
  batteryMv := battery
  tempSensor := temp
  adcCh1 := adc
  statusFlags := 0x01#8

/-- Three averages of 12-bit conversions. -/
structure Readings where
  battery : BitVec 16
  temp : BitVec 16
  adc : BitVec 16
  battery_le : battery.toNat ≤ 4095
  temp_le : temp.toNat ≤ 4095
  adc_le : adc.toNat ≤ 4095

/-- The packet for three readings. -/
def Readings.packet (r : Readings) : TelemetryPayload := dataPacket r.battery r.temp r.adc

/-- The low byte of a word. -/
def lowByte (x : BitVec 16) : Byte := x.setWidth 8

/-- The high byte of a word. -/
def highByte (x : BitVec 16) : Byte := (x >>> 8).setWidth 8

theorem encode_two (x : BitVec 16) : LittleEndian.encode 2 x = [lowByte x, highByte x] := by
  simp [LittleEndian.encode, List.range_succ, lowByte, highByte]

theorem toNat_highByte (x : BitVec 16) : (highByte x).toNat = x.toNat / 256 := by
  have := x.isLt
  rw [highByte, BitVec.toNat_setWidth, BitVec.toNat_ushiftRight, Nat.shiftRight_eq_div_pow]
  omega

/-- The high byte of a 12-bit reading is below 16. -/
theorem highByte_lt {x : BitVec 16} (h : x.toNat ≤ 4095) : (highByte x).toNat < 16 := by
  rw [toNat_highByte]
  omega

/-- The bytes of a packet in memory. -/
theorem toBytes_dataPacket (battery temp adc : BitVec 16) :
    (dataPacket battery temp adc).toBytes =
      [0, 0, 0, 0, lowByte battery, highByte battery, lowByte temp, highByte temp, lowByte adc,
        highByte adc, 1] := by
  have hts : LittleEndian.encode 4 (0#32) = [0, 0, 0, 0] := by decide
  have hstatus : LittleEndian.encode 1 (0x01#8) = [1] := by decide
  simp only [TelemetryPayload.toBytes, dataPacket, encode_two, hts, hstatus, List.cons_append,
    List.nil_append]

end TelemetryNode
