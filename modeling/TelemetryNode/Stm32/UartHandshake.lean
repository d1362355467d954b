import TelemetryNode.Common.ProtocolSpec

/-!
# The sending side of the UART handshake

The functions of `stm32_firmware/middleware/src/uart_handshake.c` that build and send a frame and
wait for the response. The busy loops on `TXE` and `TC` only wait for the hardware; each byte
written to `TDR` goes onto the wire in turn.

## Main definitions

* `UartHandshake.buildFrame`, `UartHandshake.uartSendBuffer` and `UartHandshake.transmitted`: the
  bytes that `uart_send_telemetry_and_wait_ack` writes to `TDR`.
* `UartHandshake.pollForByte`: one pass of the loop of `uart_wait_for_byte`.
* `UartHandshake.Sender`: how far a call of `uart_send_telemetry_and_wait_ack` has got.

## Main results

* `UartHandshake.transmitted_eq`: every payload is sent as `wireFrame`.
-/

namespace TelemetryNode.UartHandshake

/-- The frame `uart_send_telemetry_and_wait_ack` builds. -/
def buildFrame (payload : TelemetryPayload) : Option UartFrame := do
  let length := BitVec.ofNat 16 TelemetryPayload.size
  let crc ← calculateCrc16 payload.toBytes length
  return {
    sync1 := protocolSyncByte1
    sync2 := protocolSyncByte2
    length := length
    payload := payload
    crc16 := crc }

/-- The bytes `uart_send_buffer` writes to `TDR`, in order; `none` if it would read outside
`data`. -/
def uartSendBuffer (data : List Byte) (length : BitVec 16) : Option (List Byte) :=
  (List.range length.toNat).mapM fun i => data[i]?

/-- The bytes `uart_send_telemetry_and_wait_ack` puts on the wire for a payload. -/
def transmitted (payload : TelemetryPayload) : Option (List Byte) := do
  let frame ← buildFrame payload
  uartSendBuffer frame.toBytes (BitVec.ofNat 16 UartFrame.size)

/-- The 17 bytes of the frame of a payload. -/
def wireFrame (payload : TelemetryPayload) : List Byte :=
  protocolSyncByte1 :: protocolSyncByte2 :: 0x0B#8 :: 0x00#8 ::
    (payload.toBytes ++ LittleEndian.encode 2 (crc16 payload.toBytes))

@[simp]
theorem length_wireFrame (p : TelemetryPayload) : (wireFrame p).length = UartFrame.size := by
  simp [wireFrame, UartFrame.size, TelemetryPayload.size]

theorem mapM_eq_map {α β : Type} {l : List α} {f : α → Option β} {g : α → β}
    (h : ∀ a ∈ l, f a = some (g a)) : l.mapM f = some (l.map g) := by
  induction l with
  | nil => rfl
  | cons a l ih =>
    rw [List.mapM_cons, h a List.mem_cons_self, ih fun b hb => h b (List.mem_cons_of_mem a hb)]
    rfl

/-- Sending a whole buffer writes its bytes in order. -/
theorem uartSendBuffer_eq {data : List Byte} {length : BitVec 16}
    (h : length.toNat = data.length) : uartSendBuffer data length = some data := by
  -- no index of the loop is outside the buffer
  have hget : ∀ i ∈ List.range data.length, data[i]? = some (data.getD i 0#8) := by
    intro i hi
    rw [List.getElem?_eq_getElem (List.mem_range.mp hi),
      List.getD_eq_getElem _ _ (List.mem_range.mp hi)]
  rw [uartSendBuffer, h, mapM_eq_map hget]
  refine congrArg some (List.ext_getElem (by simp) fun i hi hi' => ?_)
  simp [hi']

/-- Every payload is sent, as its wire frame. -/
theorem transmitted_eq (p : TelemetryPayload) : transmitted p = some (wireFrame p) := by
  have hlength : BitVec.ofNat 16 TelemetryPayload.size = 11#16 := rfl
  -- the fields of the packed frame, in memory order
  have himage : UartFrame.toBytes ⟨protocolSyncByte1, protocolSyncByte2, 11#16, p,
      crc16 p.toBytes⟩ = wireFrame p := by
    simp [UartFrame.toBytes, wireFrame, LittleEndian.encode, List.range_succ]
  have hbuild : buildFrame p =
      some ⟨protocolSyncByte1, protocolSyncByte2, 11#16, p, crc16 p.toBytes⟩ := by
    rw [buildFrame, hlength, calculateCrc16_payload p.length_toBytes]
    rfl
  rw [transmitted, hbuild, Option.bind_eq_bind, Option.bind_some, himage]
  exact uartSendBuffer_eq (by rw [length_wireFrame]; rfl)

/-- What is sent for a payload is its wire frame. -/
theorem wireFrame_of_transmitted {p : TelemetryPayload} {frame : List Byte}
    (h : transmitted p = some frame) : wireFrame p = frame :=
  Option.some_inj.mp ((transmitted_eq p).symm.trans h)

/-- The bytes of several calls in a row. -/
def sentStream (payloads : List TelemetryPayload) : Option (List Byte) := do
  let frames ← payloads.mapM transmitted
  return frames.flatten

theorem sentStream_eq (payloads : List TelemetryPayload) :
    sentStream payloads = some (payloads.flatMap wireFrame) := by
  rw [sentStream, mapM_eq_map fun p _ => transmitted_eq p]
  rfl

/-! ## Waiting for the response -/

/-- The number of polls `uart_send_telemetry_and_wait_ack` waits for. -/
def ackTimeoutLoops : ℕ := 100000

/-- What one pass of the loop of `uart_wait_for_byte` ends in. -/
inductive Poll
  | again (timer : ℕ)
  | returned (result : Bool)
  deriving DecidableEq, Repr

/-- One test of the loop condition of `uart_wait_for_byte` with its pass. `rdr` is the received
byte, while `RXNE` is set; reading it clears `RXNE`. -/
def pollForByte (expectedByte : Byte) (timeoutLoops timer : ℕ) (rdr : Option Byte) :
    Poll × Option Byte :=
  if timer < timeoutLoops then
    match rdr with
    | some rxData => (if rxData = expectedByte then .returned true else .again (timer + 1), none)
    | none => (.again (timer + 1), none)
  else (.returned false, rdr)

/-- One pass of the loop: it reads the byte it waits for, or another one or none, or it has timed
out. -/
theorem pollForByte_cases (expectedByte : Byte) (timeoutLoops timer : ℕ) (rdr : Option Byte) :
    (timer < timeoutLoops ∧ rdr = some expectedByte ∧
        pollForByte expectedByte timeoutLoops timer rdr = (.returned true, none)) ∨
      (timer < timeoutLoops ∧ rdr ≠ some expectedByte ∧
        pollForByte expectedByte timeoutLoops timer rdr = (.again (timer + 1), none)) ∨
      (timeoutLoops ≤ timer ∧
        pollForByte expectedByte timeoutLoops timer rdr = (.returned false, rdr)) := by
  unfold pollForByte
  by_cases htimer : timer < timeoutLoops
  · cases rdr with
    | none => simp [htimer]
    | some rxData => by_cases hrx : rxData = expectedByte <;> simp [htimer, hrx]
  · simp [htimer, Nat.not_lt.mp htimer]

/-- How far `uart_send_telemetry_and_wait_ack` has got. -/
inductive Sender
  /-- No call is active. -/
  | idle
  /-- In `uart_send_buffer`, with these bytes still to be written. -/
  | sending (rest : List Byte)
  /-- In `uart_wait_for_byte`, at this count of its timer. -/
  | waiting (timer : ℕ)
  deriving DecidableEq, Repr

/-- The bytes a call has still to write. -/
def Sender.unsent : Sender → List Byte
  | .sending rest => rest
  | _ => []

end TelemetryNode.UartHandshake
