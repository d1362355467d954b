import Mathlib.Data.Int.Notation
import TelemetryNode.Common.ProtocolSpec
import TelemetryNode.Library.Transducer

/-!
# The frame receiver of the ESP32

The task `uart_receiver_task` of `components/uart_receiver/uart_receiver.cpp`: one `switch` over the
parser state for each byte, inside a loop over what each `uart_read_bytes` call returned.

The `switch` only touches the locals of the task, except for two calls: `send_response`, and
`xQueueSend` with a pointer to `payload_buf`. `processByte` computes the locals and lists these
calls in program order; a call is carried out with the locals it left, so that `xQueueSend` copies
what `payload_buf` holds at that time. A byte whose handling would leave `payload_buf` has no
result.

## Main definitions

* `UartReceiver.processByte`: the `switch`.
* `UartReceiver.receiver`: the loop body, with its calls carried out.
* `UartReceiver.uartReceiverTask`: the task over a list of `uart_read_bytes` results.
-/

namespace TelemetryNode.UartReceiver

/-- The parser states, one per field of `uart_frame_t` in wire order. -/
inductive State
  | sync1 | sync2 | lenL | lenH | payload | crcL | crcH
  deriving DecidableEq, Repr

/-- The locals of `uart_receiver_task`. -/
structure Context where
  state : State
  expectedLength : BitVec 16
  payloadIdx : BitVec 16
  receivedCrc : BitVec 16
  /-- `payload_buf`, through the byte pointer `payload_ptr`. -/
  payloadBuf : Vector Byte TelemetryPayload.size
  deriving DecidableEq, Repr

/-- The locals when the task starts. `payload_buf` is not initialised: it holds anything. -/
def Context.start (payloadBuf : Vector Byte TelemetryPayload.size) : Context where
  state := .sync1
  expectedLength := 0#16
  payloadIdx := 0#16
  receivedCrc := 0#16
  payloadBuf := payloadBuf

/-- The calls by which the `switch` reaches out of the task. -/
inductive Call
  /-- `send_response(response_byte)`. -/
  | sendResponse (responseByte : Byte)
  /-- `xQueueSend(out_queue, &payload_buf, portMAX_DELAY)`. -/
  | xQueueSend
  deriving DecidableEq, Repr

/-- What the rest of the system sees of the task. -/
inductive Effect
  /-- A byte written to the UART. -/
  | response (responseByte : Byte)
  /-- A payload copied into the queue. -/
  | queued (payload : TelemetryPayload)
  deriving DecidableEq, Repr

/-- The `switch` for the byte `b`. `outQueue` is the test `out_queue != NULL`. -/
def processByte (outQueue : Bool) (c : Context) (b : Byte) : Option (Context × List Call) :=
  match c.state with
  | .sync1 =>
    some ({ c with state := if b = protocolSyncByte1 then .sync2 else .sync1 }, [])
  | .sync2 =>
    some ({ c with state := if b = protocolSyncByte2 then .lenL else .sync1 }, [])
  | .lenL =>
    some ({ c with expectedLength := b.setWidth 16, state := .lenH }, [])
  | .lenH =>
    let expectedLength := c.expectedLength ||| (b.setWidth 16 <<< 8)
    if expectedLength.toNat = TelemetryPayload.size then
      some ({ c with expectedLength, state := .payload, payloadIdx := 0#16 }, [])
    else
      some ({ c with expectedLength, state := .sync1 }, [])
  | .payload =>
    -- a write outside `payload_buf` has no defined behaviour
    if h : c.payloadIdx.toNat < TelemetryPayload.size then
      let payloadIdx := c.payloadIdx + 1#16
      some ({ c with
        payloadBuf := c.payloadBuf.set c.payloadIdx.toNat b h
        payloadIdx
        state := if c.expectedLength.toNat ≤ payloadIdx.toNat then .crcL else .payload }, [])
    else none
  | .crcL =>
    some ({ c with receivedCrc := b.setWidth 16, state := .crcH }, [])
  | .crcH => do
    let receivedCrc := c.receivedCrc ||| (b.setWidth 16 <<< 8)
    let calcCrc ← calculateCrc16 c.payloadBuf.toList c.expectedLength
    -- the ACK goes out before the queue is asked to take the payload
    let calls :=
      if calcCrc = receivedCrc then
        Call.sendResponse protocolAckByte :: (if outQueue then [Call.xQueueSend] else [])
      else [Call.sendResponse protocolNackByte]
    some ({ c with receivedCrc, state := .sync1 }, calls)

/-- What a call does, given the locals at that time. -/
def Call.effect (c : Context) : Call → Effect
  | .sendResponse b => .response b
  | .xQueueSend => .queued (TelemetryPayload.ofBytes c.payloadBuf.toList)

/-- One pass of the `for` loop, with its calls carried out. -/
def receiver (outQueue : Bool) : Transducer Context Byte Effect where
  step c b := (processByte outQueue c b).map fun r => (r.1, r.2.map (Call.effect r.1))

/-- What a call of `uart_read_bytes` returns: its result, negative on an error, and the buffer,
which holds at least that many bytes. -/
structure UartRead where
  len : ℤ
  data : List Byte
  len_le : len ≤ data.length

/-- The bytes the `for` loop visits: none for an empty or a failed read. -/
def UartRead.bytes (r : UartRead) : List Byte := r.data.take r.len.toNat

/-- The task `uart_receiver_task` over the results of its first calls of `uart_read_bytes`. -/
def uartReceiverTask (outQueue : Bool) (c : Context) (reads : List UartRead) :
    Option (Context × List Effect) :=
  (receiver outQueue).runChunks c (reads.map UartRead.bytes)

/-- The bytes of several reads in a row. -/
def received (reads : List UartRead) : List Byte := (reads.map UartRead.bytes).flatten

/-- The response bytes among some effects. -/
def responses (es : List Effect) : List Byte :=
  es.filterMap fun
    | .response b => some b
    | .queued _ => none

/-- The queued payloads among some effects. -/
def queuedPayloads (es : List Effect) : List TelemetryPayload :=
  es.filterMap fun
    | .response _ => none
    | .queued p => some p

@[simp]
theorem responses_append (es fs : List Effect) :
    responses (es ++ fs) = responses es ++ responses fs := List.filterMap_append

@[simp]
theorem queuedPayloads_append (es fs : List Effect) :
    queuedPayloads (es ++ fs) = queuedPayloads es ++ queuedPayloads fs := List.filterMap_append

/-- The task sees the bytes, not how the reads cut them. -/
theorem uartReceiverTask_eq (outQueue : Bool) (c : Context) (reads : List UartRead) :
    uartReceiverTask outQueue c reads = (receiver outQueue).run c (received reads) :=
  Transducer.runChunks_eq_run _ _ _

/-- A run has one outcome. -/
theorem exists_outcome_iff {outQueue : Bool} {c c' : Context} {reads : List UartRead}
    {es : List Effect} (h : uartReceiverTask outQueue c reads = some (c', es))
    {P : List Effect → Prop} :
    (∃ c₁ es₁, uartReceiverTask outQueue c reads = some (c₁, es₁) ∧ P es₁) ↔ P es := by
  simp [h]

/-! ## The course of a run -/

/-- A read of which only the first `n` bytes have been handled. -/
def UartRead.cutOff (r : UartRead) (n : ℕ) : UartRead :=
  ⟨min r.len n, r.data, Int.le_trans (Int.min_le_left _ _) r.len_le⟩

/-- Some reads, of which only the first `n` bytes have been handled. -/
def readsUntil : List UartRead → ℕ → List UartRead
  | [], _ => []
  | r :: reads, n => r.cutOff n :: readsUntil reads (n - r.bytes.length)

theorem bytes_cutOff (r : UartRead) (n : ℕ) : (r.cutOff n).bytes = r.bytes.take n := by
  have hmin : (min r.len n).toNat = min n r.len.toNat := by omega
  rw [UartRead.bytes, UartRead.bytes, List.take_take, UartRead.cutOff, hmin]

theorem received_readsUntil (reads : List UartRead) (n : ℕ) :
    received (readsUntil reads n) = (received reads).take n := by
  induction reads generalizing n with
  | nil => rw [readsUntil, received, List.map_nil, List.flatten_nil, List.take_nil]
  | cons r reads ih =>
    have hrest := ih (n - r.bytes.length)
    unfold received at hrest ⊢
    rw [readsUntil, List.map_cons, List.flatten_cons, hrest, bytes_cutOff, List.map_cons,
      List.flatten_cons, List.take_append]

/-- What the task has done when it has handled `n` bytes of its reads. -/
def effectsUntil (outQueue : Bool) (c : Context) (reads : List UartRead) (n : ℕ) :
    Option (List Effect) :=
  (uartReceiverTask outQueue c (readsUntil reads n)).map Prod.snd

theorem effectsUntil_eq (outQueue : Bool) (c : Context) (reads : List UartRead) (n : ℕ) :
    effectsUntil outQueue c reads n =
      ((receiver outQueue).run c ((received reads).take n)).map Prod.snd := by
  rw [effectsUntil, uartReceiverTask_eq, received_readsUntil]

/-- What the task has done at some point begins what it does in all. -/
theorem effectsUntil_begins {outQueue : Bool} {c c' : Context} {reads : List UartRead}
    {es : List Effect} (h : uartReceiverTask outQueue c reads = some (c', es)) (n : ℕ) :
    ∃ before, effectsUntil outQueue c reads n = some before ∧ before <+: es := by
  rw [uartReceiverTask_eq, ← List.take_append_drop n (received reads)] at h
  obtain ⟨c₁, before, hrun, hprefix⟩ := (receiver outQueue).outputs_begins h
  refine ⟨before, ?_, hprefix⟩
  rw [effectsUntil_eq, hrun]
  rfl

end TelemetryNode.UartReceiver
