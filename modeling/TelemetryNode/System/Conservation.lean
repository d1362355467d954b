import TelemetryNode.Link.WireFrame
import TelemetryNode.Stm32.DataPacket
import TelemetryNode.System.Pipeline

/-!
# Nothing is lost, duplicated or reordered between the controllers and the broker

The invariant of the whole node: the payloads passed to the STM32's calls split into those whose
frames the receiver has completed and those whose frames it has not. The bytes of the latter are
spread over the parser, the receive buffer, the link and the call that is active; the former have
been acknowledged and queued, except for the one that the receiver still holds.

## Main definitions

* `Pipeline.InvAt`: the invariant, for a given split.

## Main results

* `Pipeline.order_and_conservation`: what holds of every reachable state.
-/

namespace TelemetryNode.Pipeline

open UartHandshake UartReceiver MqttPublisher

/-- The calls that a completed frame leads to. -/
def acceptCalls : List Call := [.sendResponse protocolAckByte, .xQueueSend]

/-- The payload of a completed frame, while its ACK is still to be sent. -/
def Node.unacked (s : Node) : List TelemetryPayload :=
  if s.todo = acceptCalls then [s.payloadBuf] else []

/-- The payload of a completed frame, while it is still to be queued. -/
def Node.unqueued (s : Node) : List TelemetryPayload := if s.todo = [] then [] else [s.payloadBuf]

/-- The payloads that have been queued, whatever became of them since. -/
def Node.queued (s : Node) : List TelemetryPayload :=
  s.published ++ s.publisher.held ++ s.queue.items

/-- The invariant, when the receiver has completed the frames of `done`, and `part` of the next one,
which is the first of `rest`. -/
structure InvAt (s : Node) (done rest : List TelemetryPayload) (part : List Byte) : Prop where
  calls : s.calls = done ++ rest
  stream : part ++ (s.data ++ (s.rxRing ++ (s.uplink ++ s.sender.unsent))) = rest.flatMap wireFrame
  part_length : part.length < UartFrame.size
  context : Implements s.context part
  todo : s.todo = [] ∨ s.todo = acceptCalls ∨ s.todo = [.xQueueSend]
  acked : s.acked ++ s.unacked = done
  queued : s.queued ++ s.unqueued = done
  messages : s.messages = s.published.map publishCall

/-- The invariant. -/
def Inv (s : Node) : Prop := ∃ done rest part, InvAt s done rest part

theorem inv_start (payloadBuf : Vector Byte TelemetryPayload.size) :
    Inv (Node.start payloadBuf) := by
  refine ⟨[], [], [], ?_⟩
  constructor
  case part_length => decide
  case context => exact implements_of_sync1 rfl
  case todo => exact .inl rfl
  all_goals rfl

/-! ## What each move keeps -/

variable {s s' : Node} {done rest : List TelemetryPayload} {part : List Byte}

/-- A call adds its frame to what is still to be received. -/
theorem inv_call {payload : TelemetryPayload} (h : InvAt s done rest part)
    (hstep : s.step true (.call payload) = some s') : Inv s' := by
  obtain ⟨hidle, rfl⟩ := step_call hstep
  have hstream := h.stream
  rw [hidle] at hstream
  refine ⟨done, rest ++ [payload], part, { h with calls := ?_, stream := ?_ }⟩
  · simp [h.calls]
  · simp only [Sender.unsent, List.append_nil] at hstream ⊢
    rw [List.flatMap_append, ← hstream]
    simp

/-- The sender moves its bytes to the link. -/
theorem inv_transmit (h : InvAt s done rest part) (hstep : s.step true .transmit = some s') :
    InvAt s' done rest part := by
  obtain ⟨b, bytes, hsender, rfl⟩ := step_transmit hstep
  have hstream := h.stream
  rw [hsender] at hstream
  exact { h with stream := by simpa [Sender.unsent] using hstream }

theorem inv_startWait (h : InvAt s done rest part) (hstep : s.step true .startWait = some s') :
    InvAt s' done rest part := by
  obtain ⟨hsender, rfl⟩ := step_startWait hstep
  have hstream := h.stream
  rw [hsender] at hstream
  exact { h with stream := hstream }

/-- The wait for the ACK has no bytes to send. -/
theorem inv_poll (h : InvAt s done rest part) (hstep : s.step true .poll = some s') :
    InvAt s' done rest part := by
  obtain ⟨timer, hsender, hpoll⟩ := step_poll hstep
  have hstream := h.stream
  rw [hsender] at hstream
  rcases hpoll with ⟨-, -, rfl⟩ | ⟨-, -, rfl⟩ | ⟨-, rfl⟩ <;> exact { h with stream := hstream }

/-- The link and the read move the bytes on, in order. -/
theorem inv_arriveUp (h : InvAt s done rest part) (hstep : s.step true .arriveUp = some s') :
    InvAt s' done rest part := by
  obtain ⟨b, uplink, huplink, rfl⟩ := step_arriveUp hstep
  have hstream := h.stream
  rw [huplink] at hstream
  exact { h with stream := by simpa using hstream }

theorem inv_arriveDown (h : InvAt s done rest part) (hstep : s.step true .arriveDown = some s') :
    InvAt s' done rest part := by
  obtain ⟨b, downlink, -, rfl⟩ := step_arriveDown hstep
  exact { h with }

theorem inv_read {count : ℕ} (h : InvAt s done rest part)
    (hstep : s.step true (.read count) = some s') : InvAt s' done rest part := by
  obtain ⟨-, hdata, -, rfl⟩ := step_read hstep
  have hstream := h.stream
  rw [hdata, List.nil_append] at hstream
  refine { h with stream := ?_ }
  rw [← hstream, ← List.append_assoc (s.rxRing.take count), List.take_append_drop]

/-- The calls whose effects are an ACK and a queued payload. -/
theorem calls_of_effects {c : Context} {calls : List Call} {p : TelemetryPayload}
    (h : calls.map (Call.effect c) = [.response protocolAckByte, .queued p]) :
    calls = acceptCalls ∧ .ofBytes c.payloadBuf.toList = p := by
  match calls with
  | [.sendResponse b, .xQueueSend] =>
    simp only [List.map_cons, List.map_nil, Call.effect, List.cons.injEq, Effect.response.injEq,
      Effect.queued.injEq, and_true] at h
    exact ⟨by rw [h.1]; rfl, h.2⟩
  | [] | [_] | _ :: _ :: _ :: _ => simp at h
  | [_, .sendResponse _] | [.xQueueSend, _] => simp [Call.effect] at h

/-- A byte continues the frame that was begun, or completes it: then its payload is in
`payload_buf`, still to be acknowledged and queued. -/
theorem inv_process (h : InvAt s done rest part) (hstep : s.step true .process = some s') :
    Inv s' := by
  obtain ⟨b, data, context, calls, htodo, hdata, hbyte, rfl⟩ := step_process hstep
  -- the task does what the frame scanner does, with the calls that make its effects
  obtain ⟨context', calls', hbyte', heffects, himpl⟩ := processByte_spec true h.context b
  obtain ⟨rfl, rfl⟩ : context' = context ∧ calls' = calls := by simpa [hbyte'] using hbyte
  have hstream := h.stream
  rw [hdata, List.cons_append] at hstream
  have hacked := h.acked
  have hqueued := h.queued
  simp only [Node.unacked, Node.queued, Node.unqueued, htodo, acceptCalls] at hacked hqueued
  rcases frameScanner_byte hstream h.part_length with
    ⟨hshort, hnext, hout⟩ | ⟨p, rest', rfl, hmore, hnext, hout⟩
  -- the frame goes on: the byte moves from the buffer to the parser
  · obtain rfl : calls' = [] := by simpa [hout] using heffects
    refine ⟨done, rest, part ++ [b], { h with
      stream := ?_, part_length := ?_, context := ?_, todo := ?_, acked := ?_, queued := ?_ }⟩
    · simpa using hstream
    · simpa using hshort
    · rwa [hnext] at himpl
    · exact .inl rfl
    · simpa [Node.unacked, acceptCalls] using hacked
    · simpa [Node.queued, Node.unqueued] using hqueued
  -- the frame is complete: its payload moves from `rest` to `done`
  · rw [hout] at heffects
    obtain ⟨rfl, hp⟩ := calls_of_effects heffects
    refine ⟨done ++ [p], rest', [], { h with
      calls := ?_, stream := ?_, part_length := ?_, context := ?_, todo := ?_, acked := ?_
      queued := ?_ }⟩
    · simpa using h.calls
    · exact hmore
    · decide
    · rwa [hnext] at himpl
    · exact .inr (.inl rfl)
    · simpa [Node.unacked, Node.payloadBuf, hp] using hacked
    · rw [← hqueued]
      simp [Node.queued, Node.unqueued, Node.payloadBuf, acceptCalls, hp]

/-- The ACK goes out, and then the payload goes into the queue. -/
theorem inv_perform (h : InvAt s done rest part) (hstep : s.step true .perform = some s') :
    InvAt s' done rest part := by
  have htodos := h.todo
  have hacked := h.acked
  have hqueued := h.queued
  rcases step_perform hstep with ⟨b, todo, htodo, rfl⟩ | ⟨todo, queue, htodo, hsend, rfl⟩
  · obtain ⟨rfl, rfl⟩ : b = protocolAckByte ∧ todo = [.xQueueSend] := by
      simpa [htodo, acceptCalls] using htodos
    simp only [Node.unacked, Node.queued, Node.unqueued, htodo, acceptCalls] at hacked hqueued
    refine { h with todo := .inr (.inr rfl), acked := ?_, queued := ?_ }
    · simpa [Node.unacked, acceptCalls] using hacked
    · simpa [Node.queued, Node.unqueued, Node.payloadBuf] using hqueued
  · obtain rfl : todo = [] := by simpa [htodo, acceptCalls] using htodos
    simp only [Node.unacked, Node.queued, Node.unqueued, htodo, acceptCalls] at hacked hqueued
    refine { h with todo := .inl rfl, acked := ?_, queued := ?_ }
    · simpa [Node.unacked, acceptCalls] using hacked
    · simpa [Node.queued, Node.unqueued, s.queue.items_of_send hsend] using hqueued

/-- The publisher takes the oldest payload from the queue. -/
theorem inv_receive (h : InvAt s done rest part) (hstep : s.step true .receive = some s') :
    InvAt s' done rest part := by
  obtain ⟨data, queue, hwaiting, hreceive, rfl⟩ := step_receive hstep
  have hqueued := h.queued
  rw [Node.queued, hwaiting, s.queue.items_of_receive hreceive] at hqueued
  refine { h with queued := ?_ }
  simpa [Node.queued, Node.unqueued, Node.payloadBuf] using hqueued

theorem inv_publish (h : InvAt s done rest part) (hstep : s.step true .publish = some s') :
    InvAt s' done rest part := by
  obtain ⟨data, hholding, rfl⟩ := step_publish hstep
  have hqueued := h.queued
  rw [Node.queued, hholding] at hqueued
  refine { h with queued := ?_, messages := ?_ }
  · simpa [Node.queued, Node.unqueued, Node.payloadBuf] using hqueued
  · simp [h.messages]

/-- Every move keeps the invariant. -/
theorem inv_step (h : Inv s) {m : Move} (hstep : s.step true m = some s') : Inv s' := by
  obtain ⟨done, rest, part, h⟩ := h
  cases m with
  | call payload => exact inv_call h hstep
  | transmit => exact ⟨done, rest, part, inv_transmit h hstep⟩
  | startWait => exact ⟨done, rest, part, inv_startWait h hstep⟩
  | poll => exact ⟨done, rest, part, inv_poll h hstep⟩
  | arriveUp => exact ⟨done, rest, part, inv_arriveUp h hstep⟩
  | arriveDown => exact ⟨done, rest, part, inv_arriveDown h hstep⟩
  | read count => exact ⟨done, rest, part, inv_read h hstep⟩
  | process => exact inv_process h hstep
  | perform => exact ⟨done, rest, part, inv_perform h hstep⟩
  | receive => exact ⟨done, rest, part, inv_receive h hstep⟩
  | publish => exact ⟨done, rest, part, inv_publish h hstep⟩

theorem inv_of_reachable (h : (system true).Reachable s) : Inv s := by
  refine h.invariant (I := Inv) ?_ fun s m s' hinv hstep => inv_step (m := m) hinv hstep
  rintro s ⟨payloadBuf, rfl⟩
  exact inv_start payloadBuf

/-! ## What the invariant says -/

/-- The payload that the receiver holds after its ACK, until the queue takes it. -/
def Node.heldByReceiver (s : Node) : List TelemetryPayload :=
  if s.todo = [.xQueueSend] then [s.payloadBuf] else []

/-- No call is active, no byte is on its way or in a buffer, and neither task has anything left to
do. -/
def Node.Drained (s : Node) : Prop :=
  s.sender = .idle ∧ s.uplink = [] ∧ s.rxRing = [] ∧ s.data = [] ∧ s.todo = [] ∧
    s.queue.items = [] ∧ s.publisher = .waiting

/-- The receiver is blocked in `xQueueSend`. -/
def Node.Stalled (s : Node) : Prop := s.todo = [.xQueueSend] ∧ s.perform = none

/-- Nothing is acknowledged that is not queued, except what the receiver holds. -/
theorem acked_eq (h : InvAt s done rest part) :
    s.acked = s.published ++ s.publisher.held ++ s.queue.items ++ s.heldByReceiver := by
  -- both sides account for the completed frames
  have hsame : s.acked ++ s.unacked = s.queued ++ s.unqueued := h.acked.trans h.queued.symm
  rcases h.todo with htodo | htodo | htodo
  · simpa [Node.unacked, Node.unqueued, Node.queued, Node.heldByReceiver, acceptCalls, htodo]
      using hsame
  · simpa [Node.unacked, Node.unqueued, Node.queued, Node.heldByReceiver, acceptCalls, htodo,
      ← List.append_assoc] using hsame
  · simpa [Node.unacked, Node.unqueued, Node.queued, Node.heldByReceiver, acceptCalls, htodo]
      using hsame

/-- With nothing on its way, every frame has been completed and its payload published. -/
theorem drained_published (h : InvAt s done rest part) (hdrained : s.Drained) :
    s.published = s.calls := by
  obtain ⟨hsender, huplink, hring, hdata, htodo, hqueue, hpublisher⟩ := hdrained
  -- the only bytes left are those the parser holds
  have hstream := h.stream
  have hlen := h.part_length
  simp only [hsender, huplink, hring, hdata, Sender.unsent, List.append_nil] at hstream
  obtain rfl : rest = [] := by
    cases rest with
    | nil => rfl
    | cons p rest =>
      -- a frame that was not completed has bytes on their way
      rw [hstream, List.flatMap_cons, List.length_append, length_wireFrame] at hlen
      omega
  have hqueued := h.queued
  simp only [Node.queued, Node.unqueued, htodo, hqueue, hpublisher, Publisher.held, if_true,
    List.append_nil] at hqueued
  rw [hqueued, h.calls, List.append_nil]

/-- What was published begins the completed frames, and these begin the calls. -/
theorem published_begins (h : (system true).Reachable s) :
    s.published <+: s.calls ∧ (s.Drained → s.published = s.calls) := by
  obtain ⟨done, rest, part, hinv⟩ := inv_of_reachable h
  refine ⟨?_, drained_published hinv⟩
  -- what was published begins the completed frames, and these begin the calls
  rw [hinv.calls, ← hinv.queued, Node.queued]
  simp only [List.append_assoc]
  exact List.prefix_append _ _

theorem queue_full_of_stalled (h : s.Stalled) : s.queue.items.length = queueLength := by
  obtain ⟨htodo, hblocked⟩ := h
  simp only [Node.perform, htodo] at hblocked
  cases hsend : s.queue.send s.payloadBuf with
  | none => exact (s.queue.send_eq_none_iff _).mp hsend
  | some queue => simp [hsend] at hblocked

/-- While the receiver has calls to make, nothing writes to its locals. -/
theorem context_of_todo {m : Move} (hstep : s.step true m = some s') (htodo : s.todo ≠ []) :
    s'.context = s.context := by
  cases m with
  | process =>
    -- the next byte waits until the calls are made
    obtain ⟨b, data, context, calls, hdone, -⟩ := step_process hstep
    exact absurd hdone htodo
  | perform => rcases step_perform hstep with ⟨b, todo, -, rfl⟩ | ⟨todo, queue, -, -, rfl⟩ <;> rfl
  | poll =>
    obtain ⟨timer, -, hpoll⟩ := step_poll hstep
    rcases hpoll with ⟨-, -, rfl⟩ | ⟨-, -, rfl⟩ | ⟨-, rfl⟩ <;> rfl
  | call payload => rw [(step_call hstep).2]
  | startWait => rw [(step_startWait hstep).2]
  | read count => rw [(step_read hstep).2.2.2]
  | transmit =>
    obtain ⟨b, rest, -, rfl⟩ := step_transmit hstep
    rfl
  | arriveUp =>
    obtain ⟨b, uplink, -, rfl⟩ := step_arriveUp hstep
    rfl
  | arriveDown =>
    obtain ⟨b, downlink, -, rfl⟩ := step_arriveDown hstep
    rfl
  | receive =>
    obtain ⟨data, queue, -, -, rfl⟩ := step_receive hstep
    rfl
  | publish =>
    obtain ⟨data, -, rfl⟩ := step_publish hstep
    rfl

/-- In every reachable state: (a) what was published is a prefix of what was passed to the calls,
and all of it once everything is drained; (b) what was acknowledged is what was published, then what
the publisher holds, what the queue holds and what the receiver holds; (c) the receiver is blocked
only while the queue holds 10 payloads, and while it has calls to make no move but its own changes
`payload_buf`. Each published payload is the one formatted for the MQTT client, and the receiver
never gets stuck on a byte. -/
theorem order_and_conservation (h : (system true).Reachable s) :
    (s.published <+: s.calls ∧ (s.Drained → s.published = s.calls)) ∧
      s.acked = s.published ++ s.publisher.held ++ s.queue.items ++ s.heldByReceiver ∧
      (s.Stalled → s.queue.items.length = queueLength) ∧
      (∀ m s', s.step true m = some s' → s.todo ≠ [] → s'.context = s.context) ∧
      s.messages = s.published.map publishCall ∧
      (s.todo = [] → s.data ≠ [] → s.process ≠ none) := by
  obtain ⟨done, rest, part, hinv⟩ := inv_of_reachable h
  refine ⟨published_begins h, acked_eq hinv, fun hstalled => ?_, fun m s' hstep htodo => ?_,
    hinv.messages, fun htodo hdata => ?_⟩
  · exact queue_full_of_stalled hstalled
  · exact context_of_todo hstep htodo
  · obtain ⟨b, data, hdata⟩ := List.exists_cons_of_ne_nil hdata
    obtain ⟨context, calls, hbyte, -⟩ := processByte_spec true hinv.context b
    simp [Node.process, htodo, hdata, hbyte]

instance (s : Node) : Decidable s.Drained := by
  unfold Node.Drained
  infer_instance

/-- A call, with its frame on the wire and the wait for the ACK begun. -/
def beginCall (payload : TelemetryPayload) : List Move :=
  .call payload :: List.replicate UartFrame.size .transmit ++ [.startWait]

/-- The receiver reads a frame and answers it, and the answer reaches the STM32. -/
def answerFrame : List Move :=
  List.replicate UartFrame.size .arriveUp ++ .read UartFrame.size ::
    List.replicate UartFrame.size .process ++ [.perform, .perform, .arriveDown]

/-- One packet goes all the way. -/
theorem order_and_conservation_one_packet :
    ∃ s, (system true).Reachable s ∧ s.Drained ∧ s.calls = [dataPacket 330#16 1000#16 2000#16] ∧
      s.published = s.calls := by
  have hstart : (system true).Reachable (.start (.replicate _ 0#8)) := .init ⟨_, rfl⟩
  obtain ⟨s, hs, h⟩ := hstart.exists_of_exec
    (beginCall (dataPacket 330#16 1000#16 2000#16) ++ answerFrame ++ [.poll, .receive, .publish])
    (fun s => s.Drained ∧ s.calls = [dataPacket 330#16 1000#16 2000#16]) (by decide +kernel)
  obtain ⟨hdrained, hcalls⟩ : s.Drained ∧ s.calls = [dataPacket 330#16 1000#16 2000#16] := by
    simpa using h
  exact ⟨s, hs, hdrained, hcalls, (order_and_conservation hs).1.2 hdrained⟩

end TelemetryNode.Pipeline
