import TelemetryNode.Library.Crc
import TelemetryNode.Library.LittleEndian

/-!
# The UART protocol shared by both controllers

The wire format of `common/protocol_spec.h`: the sync, ACK and NACK bytes, the packed telemetry
payload and frame, and the checksum both sides compute. Both controllers are little-endian and the
structures are packed, so the memory image of a structure is the concatenation of the
little-endian images of its fields.

## Main definitions

* `TelemetryPayload.toBytes` and `TelemetryPayload.ofBytes`: the memory image of a payload, and the
  payload read out of one.
* `UartFrame.toBytes`: the memory image of a frame.
* `calculateCrc16`: the checksum as the code computes it, with the promotions to `int` and the
  16-bit loop counter.

## Main results

* `TelemetryPayload.ofBytes_toBytes` and `TelemetryPayload.toBytes_ofBytes`: payloads and 11-byte
  images determine each other.
* `calculateCrc16_eq`: the checksum of a buffer that is long enough is the CRC register with
  generator `0x1021` started at `0xFFFF`.
-/

namespace TelemetryNode

/-- `uint8_t`. -/
abbrev Byte := BitVec 8

/-- `PROTOCOL_SYNC_BYTE_1`. -/
def protocolSyncByte1 : Byte := 0xAA#8

/-- `PROTOCOL_SYNC_BYTE_2`. -/
def protocolSyncByte2 : Byte := 0x55#8

/-- `PROTOCOL_ACK_BYTE`. -/
def protocolAckByte : Byte := 0x06#8

/-- `PROTOCOL_NACK_BYTE`. -/
def protocolNackByte : Byte := 0x15#8

/-- `telemetry_payload_t`. -/
structure TelemetryPayload where
  /-- Uptime or RTC timestamp. -/
  timestampMs : BitVec 32
  /-- Battery voltage. -/
  batteryMv : BitVec 16
  /-- Temperature sensor value. -/
  tempSensor : BitVec 16
  /-- General ADC channel. -/
  adcCh1 : BitVec 16
  /-- Flags. -/
  statusFlags : BitVec 8
  deriving DecidableEq, Repr

/-- `uart_frame_t`. -/
structure UartFrame where
  /-- First sync byte. -/
  sync1 : Byte
  /-- Second sync byte. -/
  sync2 : Byte
  /-- Length of the payload. -/
  length : BitVec 16
  /-- The payload. -/
  payload : TelemetryPayload
  /-- CRC16 of the payload. -/
  crc16 : BitVec 16
  deriving DecidableEq, Repr

namespace TelemetryPayload

/-- `sizeof(telemetry_payload_t)`, packed. -/
def size : ℕ := 4 + 2 + 2 + 2 + 1

/-- The memory image of a payload. -/
def toBytes (p : TelemetryPayload) : List Byte :=
  LittleEndian.encode 4 p.timestampMs ++ LittleEndian.encode 2 p.batteryMv ++
    LittleEndian.encode 2 p.tempSensor ++ LittleEndian.encode 2 p.adcCh1 ++
    LittleEndian.encode 1 p.statusFlags

/-- The payload whose memory image is given. -/
def ofBytes (l : List Byte) : TelemetryPayload where
  timestampMs := LittleEndian.decode 32 (l.take 4)
  batteryMv := LittleEndian.decode 16 ((l.drop 4).take 2)
  tempSensor := LittleEndian.decode 16 ((l.drop 6).take 2)
  adcCh1 := LittleEndian.decode 16 ((l.drop 8).take 2)
  statusFlags := LittleEndian.decode 8 ((l.drop 10).take 1)

@[simp]
theorem length_toBytes (p : TelemetryPayload) : p.toBytes.length = size := by
  simp [toBytes, size]

/-- A payload is recovered from its memory image. -/
@[simp]
theorem ofBytes_toBytes (p : TelemetryPayload) : ofBytes p.toBytes = p := by
  cases p with
  | mk ts batt temp adc status =>
    have hts : LittleEndian.decode 32 (LittleEndian.encode 4 ts) = ts :=
      LittleEndian.decode_encode (by omega) ts
    have hbatt : LittleEndian.decode 16 (LittleEndian.encode 2 batt) = batt :=
      LittleEndian.decode_encode (by omega) batt
    have htemp : LittleEndian.decode 16 (LittleEndian.encode 2 temp) = temp :=
      LittleEndian.decode_encode (by omega) temp
    have hadc : LittleEndian.decode 16 (LittleEndian.encode 2 adc) = adc :=
      LittleEndian.decode_encode (by omega) adc
    have hstatus : LittleEndian.decode 8 (LittleEndian.encode 1 status) = status :=
      LittleEndian.decode_encode (by omega) status
    simp [ofBytes, toBytes, List.drop_append, hts, hbatt, htemp, hadc, hstatus,
      List.take_of_length_le, List.drop_eq_nil_of_le]

/-- An image of the right size is recovered from the payload read out of it. -/
theorem toBytes_ofBytes {l : List Byte} (h : l.length = size) : (ofBytes l).toBytes = l := by
  have hfield : ∀ {w : ℕ} (m : List Byte) (n : ℕ), m.length = n → 8 * n ≤ w →
      LittleEndian.encode n (LittleEndian.decode w m) = m := by
    rintro w m n rfl hw
    exact LittleEndian.encode_decode hw
  rw [size] at h
  -- each field takes exactly the bytes of its width, so none of them is lost
  have hts := hfield (w := 32) (l.take 4) 4 (by simp; omega) (by omega)
  have hbatt := hfield (w := 16) ((l.drop 4).take 2) 2 (by simp; omega) (by omega)
  have htemp := hfield (w := 16) ((l.drop 6).take 2) 2 (by simp; omega) (by omega)
  have hadc := hfield (w := 16) ((l.drop 8).take 2) 2 (by simp; omega) (by omega)
  have hstatus := hfield (w := 8) ((l.drop 10).take 1) 1 (by simp; omega) (by omega)
  simp only [toBytes, ofBytes, hts, hbatt, htemp, hadc, hstatus]
  rw [← List.take_add, ← List.take_add, ← List.take_add, ← List.take_add]
  exact List.take_of_length_le (by omega)

/-- Different payloads have different images. -/
theorem toBytes_injective : Function.Injective toBytes := by
  intro p q h
  rw [← ofBytes_toBytes p, h, ofBytes_toBytes]

end TelemetryPayload

namespace UartFrame

/-- `sizeof(uart_frame_t)`, packed. -/
def size : ℕ := 1 + 1 + 2 + TelemetryPayload.size + 2

/-- The memory image of a frame. -/
def toBytes (f : UartFrame) : List Byte :=
  LittleEndian.encode 1 f.sync1 ++ LittleEndian.encode 1 f.sync2 ++
    LittleEndian.encode 2 f.length ++ f.payload.toBytes ++ LittleEndian.encode 2 f.crc16

@[simp]
theorem length_toBytes (f : UartFrame) : f.toBytes.length = size := by
  simp [toBytes, size, TelemetryPayload.size]

end UartFrame

/-! ## The checksum -/

/-- One pass of the inner loop of `calculate_crc16`: `crc` is promoted to `int`, shifted, and cut
back to 16 bits by the assignment. -/
def crcBit (crc : BitVec 16) : BitVec 16 :=
  if crc.setWidth 32 &&& 0x8000#32 ≠ 0 then
    ((crc.setWidth 32 <<< 1) ^^^ 0x1021#32).setWidth 16
  else (crc.setWidth 32 <<< 1).setWidth 16

/-- One pass of the outer loop of `calculate_crc16`, for the byte `b`. -/
def crcByte (crc : BitVec 16) (b : Byte) : BitVec 16 :=
  crcBit^[8] ((crc.setWidth 32 ^^^ ((b.setWidth 16).setWidth 32 <<< 8)).setWidth 16)

/-- The outer loop of `calculate_crc16`, from counter value `i` on. The result is `none` when a
byte outside `data` is read, or when the loop has not ended after `fuel` tests of its
condition. -/
def crcLoop (data : List Byte) (length : BitVec 16) : ℕ → BitVec 16 → BitVec 16 →
    Option (BitVec 16)
  | 0, _, _ => none
  | fuel + 1, i, crc =>
    if i.toNat < length.toNat then do
      let b ← data[i.toNat]?
      crcLoop data length fuel (i + 1#16) (crcByte crc b)
    else some crc

/-- `calculate_crc16`. The 16-bit counter takes at most `0x10000` values. -/
def calculateCrc16 (data : List Byte) (length : BitVec 16) : Option (BitVec 16) :=
  crcLoop data length 0x10000 0#16 0xFFFF#16

/-- The checksum of a message: the CRC register with generator `0x1021`, started at `0xFFFF`. -/
def crc16 (bs : List Byte) : BitVec 16 := Crc.run 0x1021#16 0xFFFF#16 bs

/-- The promotions do not matter to one bit step. -/
theorem crcBit_eq (crc : BitVec 16) : crcBit crc = Crc.shift 0x1021#16 crc := by
  -- the mask picks out the top bit of the register
  have htest : (crc.setWidth 32 &&& 0x8000#32 ≠ 0) ↔ crc.msb = true := by
    have hmask : crc.setWidth 32 &&& 0x8000#32 =
        if crc.msb then 0x8000#32 else 0#32 := by
      apply BitVec.eq_of_getLsbD_eq
      intro i hi
      rw [show (0x8000#32 : BitVec 32) = BitVec.twoPow 32 15 by rfl, BitVec.and_twoPow,
        BitVec.getLsbD_setWidth, BitVec.msb_eq_getLsbD_last]
      simp
    rw [hmask]
    cases crc.msb <;> simp
  have hshift : (crc.setWidth 32 <<< 1).setWidth 16 = crc <<< 1 := by
    apply BitVec.eq_of_getLsbD_eq
    intro i hi
    simp only [BitVec.getLsbD_setWidth, BitVec.getLsbD_shiftLeft]
    have h32 : i < 32 := by omega
    have h31 : i - 1 < 32 := by omega
    simp [hi, h32, h31]
  unfold crcBit Crc.shift
  rw [BitVec.setWidth_xor, hshift]
  exact if_congr htest rfl rfl

/-- The promotions do not matter to one byte step. -/
theorem crcByte_eq (crc : BitVec 16) (b : Byte) : crcByte crc b = Crc.feed 0x1021#16 crc b := by
  -- the assignment cuts off what the promoted shift moves beyond bit 15
  have hmix : (crc.setWidth 32 ^^^ ((b.setWidth 16).setWidth 32 <<< 8)).setWidth 16 =
      crc ^^^ (b.setWidth 16 <<< (16 - 8)) := by
    rw [BitVec.setWidth_xor]
    congr 1
    · simp
    · apply BitVec.eq_of_getLsbD_eq
      intro i hi
      simp only [BitVec.getLsbD_setWidth, BitVec.getLsbD_shiftLeft]
      have h32 : i < 32 := by omega
      have h24 : i - 8 < 32 := by omega
      simp [hi, h32, h24]
  rw [crcByte, Crc.feed, hmix, funext crcBit_eq]

/-- A 16-bit counter that is below a 16-bit bound does not wrap. -/
theorem toNat_add_one_of_lt {i bound : BitVec 16} (h : i.toNat < bound.toNat) :
    (i + 1#16).toNat = i.toNat + 1 := by
  have hbound := bound.isLt
  rw [BitVec.toNat_add]
  exact Nat.mod_eq_of_lt (by simp; omega)

/-- The loop from counter value `i` on feeds the remaining bytes. The counter stops at `length`. -/
theorem crcLoop_eq {data : List Byte} {length : BitVec 16} (hdata : length.toNat ≤ data.length)
    {fuel : ℕ} {i : BitVec 16} (hi : i.toNat ≤ length.toNat)
    (hfuel : length.toNat < i.toNat + fuel) (crc : BitVec 16) :
    crcLoop data length fuel i crc =
      some (Crc.run 0x1021#16 crc ((data.take length.toNat).drop i.toNat)) := by
  induction fuel generalizing i crc with
  -- with more fuel than passes left, the fuel does not run out before the loop ends
  | zero => omega
  | succ fuel ih =>
    by_cases hlt : i.toNat < length.toNat
    · have hnext := toNat_add_one_of_lt hlt
      have hget : data[i.toNat]? = some data[i.toNat] := List.getElem?_eq_getElem (by omega)
      have hdrop : (data.take length.toNat).drop i.toNat =
          data[i.toNat] :: (data.take length.toNat).drop (i.toNat + 1) := by
        rw [List.drop_eq_getElem_cons (by rw [List.length_take]; omega), List.getElem_take]
      rw [crcLoop, if_pos hlt, hget, hdrop, Crc.run_cons, ← crcByte_eq, ← hnext]
      exact ih (by omega) (by omega) _
    · have hdrop : (data.take length.toNat).drop i.toNat = [] := by
        refine List.drop_eq_nil_of_le ?_
        rw [List.length_take]
        omega
      rw [crcLoop, if_neg hlt, hdrop, Crc.run_nil]

/-- The code computes the checksum of the first `length` bytes, whenever the buffer holds that
many. -/
theorem calculateCrc16_eq {data : List Byte} {length : BitVec 16}
    (h : length.toNat ≤ data.length) :
    calculateCrc16 data length = some (crc16 (data.take length.toNat)) := by
  have := length.isLt
  exact crcLoop_eq h (by simp) (by simp; omega) _

/-- The checksum of a whole payload image. -/
theorem calculateCrc16_payload {data : List Byte} (h : data.length = TelemetryPayload.size) :
    calculateCrc16 data 11#16 = some (crc16 data) := by
  rw [TelemetryPayload.size] at h
  rw [calculateCrc16_eq (by simp [h]), List.take_of_length_le (by simp [h])]

/-- The published check value of CRC-16/CCITT-FALSE, for the text `123456789`. -/
example : calculateCrc16 [0x31, 0x32, 0x33, 0x34, 0x35, 0x36, 0x37, 0x38, 0x39] 9#16 =
    some 0x29B1#16 := by decide +kernel

end TelemetryNode
