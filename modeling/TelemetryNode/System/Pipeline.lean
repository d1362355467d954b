import TelemetryNode.Esp32.MqttPublisher
import TelemetryNode.Esp32.UartReceiver
import TelemetryNode.Library.BoundedFifo
import TelemetryNode.Library.TransitionSystem
import TelemetryNode.Stm32.UartHandshake

/-!
# The whole node

The STM32 in its calls of `uart_send_telemetry_and_wait_ack`, the two tasks of the ESP32 with the
queue between them, and the UART link between the controllers, as one transition system. Every party
takes its steps whenever it can, in any order: a byte, a poll, a response or a payload may be
delayed by anything the others do.

The link neither loses nor alters nor reorders bytes, and so does the receive buffer of the UART
driver. `USART2` of the STM32 has room for one received byte: a byte that arrives while the last one
has not been read is lost there (overrun).

## Main definitions

* `Pipeline.Node`: the state, with a record of the calls, their results, what was acknowledged and
  what was published.
* `Pipeline.system`: all interleavings, with or without an MQTT client.
-/

namespace TelemetryNode.Pipeline

open UartHandshake UartReceiver MqttPublisher

/-- The capacity of the queue that `app_main` creates. -/
def queueLength : ℕ := 10

/-- `BUF_SIZE` of `uart_receiver.cpp`. -/
def bufSize : ℕ := 1024

/-- The two controllers and the link. -/
structure Node where
  /-- Where the STM32 is in a call. -/
  sender : Sender
  /-- The received byte in `USART2`, while `RXNE` is set. -/
  rdr : Option Byte
  /-- The bytes on their way to the ESP32. -/
  uplink : List Byte
  /-- The bytes that the UART driver of the ESP32 holds. -/
  rxRing : List Byte
  /-- The bytes that the last `uart_read_bytes` returned and that are still to be processed. -/
  data : List Byte
  /-- The locals of `uart_receiver_task`. -/
  context : Context
  /-- The calls that the byte processed last still has to make. -/
  todo : List Call
  /-- The bytes on their way to the STM32. -/
  downlink : List Byte
  queue : BoundedFifo TelemetryPayload queueLength
  publisher : Publisher
  /-- What the MQTT client was asked to publish. -/
  messages : List PublishCall
  /-- Record: the payloads passed to `uart_send_telemetry_and_wait_ack`. -/
  calls : List TelemetryPayload
  /-- Record: what its calls returned. -/
  results : List Bool
  /-- Record: the payloads for which an ACK was sent. -/
  acked : List TelemetryPayload
  /-- Record: the payloads for which the MQTT client was asked. -/
  published : List TelemetryPayload

/-- What `payload_buf` holds. -/
def Node.payloadBuf (s : Node) : TelemetryPayload := .ofBytes s.context.payloadBuf.toList

/-- Both controllers idle, and nothing anywhere. -/
def Node.start (payloadBuf : Vector Byte TelemetryPayload.size) : Node where
  sender := .idle
  rdr := none
  uplink := []
  rxRing := []
  data := []
  context := .start payloadBuf
  todo := []
  downlink := []
  queue := .empty
  publisher := .waiting
  messages := []
  calls := []
  results := []
  acked := []
  published := []

/-- The moves of the parties and of the link. -/
inductive Move
  /-- The STM32 calls `uart_send_telemetry_and_wait_ack`, with a pointer that is not `NULL`. -/
  | call (payload : TelemetryPayload)
  /-- The STM32 writes the next byte of the frame to `TDR`. -/
  | transmit
  /-- The STM32 has sent the frame, and enters `uart_wait_for_byte`. -/
  | startWait
  /-- One pass of the loop of `uart_wait_for_byte`. -/
  | poll
  /-- A byte reaches the ESP32. -/
  | arriveUp
  /-- A byte reaches the STM32. -/
  | arriveDown
  /-- `uart_read_bytes` returns with at most `count` bytes; with none after a timeout or an error.
  -/
  | read (count : ℕ)
  /-- The receiver task handles a byte. -/
  | process
  /-- The receiver task makes the next call that a byte has led to. -/
  | perform
  /-- `xQueueReceive` returns with a payload. -/
  | receive
  /-- The publisher task formats its payload and hands it to the MQTT client. -/
  | publish

/-- The receiver task makes a call. `xQueueSend` blocks while the queue is full. -/
def Node.perform (s : Node) : Option Node :=
  match s.todo with
  | [] => none
  | .sendResponse b :: todo =>
    some { s with
      todo := todo
      downlink := s.downlink ++ [b]
      acked := if b = protocolAckByte then s.acked ++ [s.payloadBuf] else s.acked }
  | .xQueueSend :: todo => do
    let queue ← s.queue.send s.payloadBuf
    return { s with todo := todo, queue := queue }

/-- The receiver task handles the next byte of its buffer, once the last one is done with. -/
def Node.process (s : Node) : Option Node :=
  match s.todo, s.data with
  | [], b :: data => do
    let (context, todo) ← processByte true s.context b
    return { s with data := data, context := context, todo := todo }
  | _, _ => none

/-- The state after a move, if it is possible. -/
def Node.step (mqttClient : Bool) (s : Node) : Move → Option Node
  | .call payload =>
    match s.sender with
    | .idle => do
      let frame ← transmitted payload
      return { s with sender := .sending frame, calls := s.calls ++ [payload] }
    | _ => none
  | .transmit =>
    match s.sender with
    | .sending (b :: rest) => some { s with sender := .sending rest, uplink := s.uplink ++ [b] }
    | _ => none
  | .startWait =>
    match s.sender with
    | .sending [] => some { s with sender := .waiting 0 }
    | _ => none
  | .poll =>
    match s.sender with
    | .waiting timer =>
      match pollForByte protocolAckByte ackTimeoutLoops timer s.rdr with
      | (.again timer, rdr) => some { s with sender := .waiting timer, rdr := rdr }
      | (.returned result, rdr) =>
        some { s with sender := .idle, rdr := rdr, results := s.results ++ [result] }
    | _ => none
  | .arriveUp =>
    match s.uplink with
    | b :: uplink => some { s with uplink := uplink, rxRing := s.rxRing ++ [b] }
    | [] => none
  | .arriveDown =>
    match s.downlink with
    | b :: downlink => some { s with downlink := downlink, rdr := some (s.rdr.getD b) }
    | [] => none
  | .read count =>
    if s.todo = [] ∧ s.data = [] ∧ count ≤ bufSize then
      some { s with data := s.rxRing.take count, rxRing := s.rxRing.drop count }
    else none
  | .process => s.process
  | .perform => s.perform
  | .receive =>
    match s.publisher, s.queue.receive with
    | .waiting, some (data, queue) => some { s with publisher := .holding data, queue := queue }
    | _, _ => none
  | .publish =>
    match s.publisher with
    | .holding data =>
      if mqttClient then
        some { s with
          publisher := .waiting
          messages := s.messages ++ [publishCall data]
          published := s.published ++ [data] }
      else some { s with publisher := .waiting }
    | .waiting => none

/-- All interleavings. `mqttClient` is the test `mqtt_client != NULL`. -/
def system (mqttClient : Bool) : TransitionSystem Node Move where
  init s := ∃ payloadBuf, s = Node.start payloadBuf
  step := Node.step mqttClient

/-! ## When a move is possible, and what it does -/

variable {mqttClient : Bool} {s s' : Node}

theorem step_call {payload : TelemetryPayload}
    (h : s.step mqttClient (.call payload) = some s') :
    s.sender = .idle ∧
      s' = { s with sender := .sending (wireFrame payload), calls := s.calls ++ [payload] } := by
  simp only [Node.step] at h
  split at h
  · rename_i hidle
    rw [transmitted_eq] at h
    exact ⟨hidle, (Option.some_inj.mp h).symm⟩
  · cases h

theorem step_transmit (h : s.step mqttClient .transmit = some s') :
    ∃ b rest, s.sender = .sending (b :: rest) ∧
      s' = { s with sender := .sending rest, uplink := s.uplink ++ [b] } := by
  simp only [Node.step] at h
  split at h
  · exact ⟨_, _, ‹_›, (Option.some_inj.mp h).symm⟩
  · cases h

theorem step_startWait (h : s.step mqttClient .startWait = some s') :
    s.sender = .sending [] ∧ s' = { s with sender := .waiting 0 } := by
  simp only [Node.step] at h
  split at h
  · exact ⟨‹_›, (Option.some_inj.mp h).symm⟩
  · cases h

theorem step_poll (h : s.step mqttClient .poll = some s') :
    ∃ timer, s.sender = .waiting timer ∧
      ((timer < ackTimeoutLoops ∧ s.rdr = some protocolAckByte ∧
          s' = { s with sender := .idle, rdr := none, results := s.results ++ [true] }) ∨
        (timer < ackTimeoutLoops ∧ s.rdr ≠ some protocolAckByte ∧
          s' = { s with sender := .waiting (timer + 1), rdr := none }) ∨
        (ackTimeoutLoops ≤ timer ∧
          s' = { s with sender := .idle, results := s.results ++ [false] })) := by
  simp only [Node.step] at h
  split at h
  · rename_i timer hsender
    refine ⟨timer, hsender, ?_⟩
    rcases pollForByte_cases protocolAckByte ackTimeoutLoops timer s.rdr with
      ⟨htimer, hrdr, hpoll⟩ | ⟨htimer, hrdr, hpoll⟩ | ⟨htimer, hpoll⟩ <;>
      rw [hpoll] at h
    · exact .inl ⟨htimer, hrdr, (Option.some_inj.mp h).symm⟩
    · exact .inr (.inl ⟨htimer, hrdr, (Option.some_inj.mp h).symm⟩)
    · exact .inr (.inr ⟨htimer, (Option.some_inj.mp h).symm⟩)
  · cases h

theorem step_arriveUp (h : s.step mqttClient .arriveUp = some s') :
    ∃ b uplink, s.uplink = b :: uplink ∧
      s' = { s with uplink := uplink, rxRing := s.rxRing ++ [b] } := by
  simp only [Node.step] at h
  split at h
  · exact ⟨_, _, ‹_›, (Option.some_inj.mp h).symm⟩
  · cases h

theorem step_arriveDown (h : s.step mqttClient .arriveDown = some s') :
    ∃ b downlink, s.downlink = b :: downlink ∧
      s' = { s with downlink := downlink, rdr := some (s.rdr.getD b) } := by
  simp only [Node.step] at h
  split at h
  · exact ⟨_, _, ‹_›, (Option.some_inj.mp h).symm⟩
  · cases h

theorem step_read {count : ℕ} (h : s.step mqttClient (.read count) = some s') :
    s.todo = [] ∧ s.data = [] ∧ count ≤ bufSize ∧
      s' = { s with data := s.rxRing.take count, rxRing := s.rxRing.drop count } := by
  simp only [Node.step] at h
  split at h
  · rename_i hready
    exact ⟨hready.1, hready.2.1, hready.2.2, (Option.some_inj.mp h).symm⟩
  · cases h

theorem step_process (h : s.step mqttClient .process = some s') :
    ∃ b data context todo, s.todo = [] ∧ s.data = b :: data ∧
      processByte true s.context b = some (context, todo) ∧
      s' = { s with data := data, context := context, todo := todo } := by
  simp only [Node.step, Node.process] at h
  split at h
  · obtain ⟨⟨context, todo⟩, hbyte, h⟩ := Option.bind_eq_some_iff.mp h
    exact ⟨_, _, context, todo, ‹_›, ‹_›, hbyte, (Option.some_inj.mp h).symm⟩
  · cases h

theorem step_perform (h : s.step mqttClient .perform = some s') :
    (∃ b todo, s.todo = .sendResponse b :: todo ∧
        s' = { s with
          todo := todo
          downlink := s.downlink ++ [b]
          acked := if b = protocolAckByte then s.acked ++ [s.payloadBuf] else s.acked }) ∨
      ∃ todo queue, s.todo = .xQueueSend :: todo ∧ s.queue.send s.payloadBuf = some queue ∧
        s' = { s with todo := todo, queue := queue } := by
  simp only [Node.step, Node.perform] at h
  split at h
  · cases h
  · exact .inl ⟨_, _, ‹_›, (Option.some_inj.mp h).symm⟩
  · obtain ⟨queue, hsend, h⟩ := Option.bind_eq_some_iff.mp h
    exact .inr ⟨_, queue, ‹_›, hsend, (Option.some_inj.mp h).symm⟩

theorem step_receive (h : s.step mqttClient .receive = some s') :
    ∃ data queue, s.publisher = .waiting ∧ s.queue.receive = some (data, queue) ∧
      s' = { s with publisher := .holding data, queue := queue } := by
  simp only [Node.step] at h
  split at h
  · exact ⟨_, _, ‹_›, ‹_›, (Option.some_inj.mp h).symm⟩
  · cases h

theorem step_publish (h : s.step true .publish = some s') :
    ∃ data, s.publisher = .holding data ∧
      s' = { s with
        publisher := .waiting
        messages := s.messages ++ [publishCall data]
        published := s.published ++ [data] } := by
  simp only [Node.step, if_true] at h
  split at h
  · exact ⟨_, ‹_›, (Option.some_inj.mp h).symm⟩
  · cases h

end TelemetryNode.Pipeline
