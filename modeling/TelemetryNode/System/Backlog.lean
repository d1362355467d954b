import Mathlib.Data.Bool.Count
import TelemetryNode.System.AckAgreement

/-!
# How much can pile up

The STM32 waits for the answer to a frame before it sends the next one, and gives up after a
while. So the bytes and responses on their way are bounded by the calls that have failed, and as
long as these are few, the receive buffer of the UART driver is never full: a driver that drops
bytes when its buffer is full behaves like the one of `Pipeline`, which never does.

## Main definitions

* `Pipeline.Node.inFlight`: the bytes of frames that are on their way.
* `Pipeline.dropping`: the node with the receive buffer that `uart_receiver_init` asks for.

## Main results

* `Pipeline.backlog_le`: bounds on bytes, responses and payloads, in every reachable state.
* `Pipeline.nothing_dropped`: no byte is dropped in a run in which at most 119 calls have failed.
-/

namespace TelemetryNode.Pipeline

open UartHandshake UartReceiver MqttPublisher

/-- How many calls have returned `false`. -/
def Node.failures (s : Node) : ℕ := s.results.count false

/-- The calls whose frames need not have been completed: the failed ones, and the active one. -/
def Node.openCalls (s : Node) : ℕ := s.failures + if s.sender = .idle then 0 else 1

/-- The bytes of frames between the STM32 and the parser. -/
def Node.inFlight (s : Node) : ℕ :=
  s.sender.unsent.length + s.uplink.length + s.rxRing.length + s.data.length

/-- The responses that the STM32 has not read. -/
def Node.unread (s : Node) : ℕ := s.downlink.length + s.rdr.toList.length

variable {s s' : Node}

/-! ## Responses -/

/-- Nothing but ACKs is sent. -/
def OnlyAcks (s : Node) : Prop := ∀ b ∈ s.rdr.toList ++ s.downlink, b = protocolAckByte

theorem onlyAcks_step (hinv : Inv s) (h : OnlyAcks s) {m : Move}
    (hstep : s.step true m = some s') : OnlyAcks s' := by
  obtain ⟨done, rest, part, hinv⟩ := hinv
  cases m with
  | perform =>
    have htodos := hinv.todo
    rcases step_perform hstep with ⟨b, todo, htodo, rfl⟩ | ⟨todo, queue, -, -, rfl⟩
    · obtain ⟨rfl, -⟩ : b = protocolAckByte ∧ todo = [.xQueueSend] := by
        simpa [htodo, acceptCalls] using htodos
      intro b hb
      rw [← List.append_assoc, List.mem_append, List.mem_singleton] at hb
      exact hb.elim (h b) id
    · exact h
  | arriveDown =>
    obtain ⟨b, downlink, hdownlink, rfl⟩ := step_arriveDown hstep
    intro c hc
    apply h c
    rw [hdownlink]
    -- the byte goes into the register, or it is lost
    cases hrdr : s.rdr with
    | none => simpa [hrdr] using hc
    | some r =>
      rw [hrdr] at hc
      simp only [Option.getD_some, Option.toList_some, List.singleton_append, List.mem_cons] at hc ⊢
      exact hc.imp_right .inr
  | poll =>
    obtain ⟨timer, -, hpoll⟩ := step_poll hstep
    -- the register is emptied, or the call gives up
    rcases hpoll with ⟨-, -, rfl⟩ | ⟨-, -, rfl⟩ | ⟨-, rfl⟩
    · exact fun b hb => h b (List.mem_append_right _ hb)
    · exact fun b hb => h b (List.mem_append_right _ hb)
    · exact h
  | call payload =>
    rw [(step_call hstep).2]
    exact h
  | startWait =>
    rw [(step_startWait hstep).2]
    exact h
  | read count =>
    rw [(step_read hstep).2.2.2]
    exact h
  | transmit =>
    obtain ⟨b, bytes, -, rfl⟩ := step_transmit hstep
    exact h
  | arriveUp =>
    obtain ⟨b, uplink, -, rfl⟩ := step_arriveUp hstep
    exact h
  | process =>
    obtain ⟨b, data, context, todo, -, -, -, rfl⟩ := step_process hstep
    exact h
  | receive =>
    obtain ⟨data, queue, -, -, rfl⟩ := step_receive hstep
    exact h
  | publish =>
    obtain ⟨data, -, rfl⟩ := step_publish hstep
    exact h

theorem onlyAcks_of_reachable (h : (system true).Reachable s) : OnlyAcks s := by
  suffices hboth : Inv s ∧ OnlyAcks s from hboth.2
  apply h.invariant (I := fun s => Inv s ∧ OnlyAcks s)
  · rintro s ⟨payloadBuf, rfl⟩
    exact ⟨inv_start payloadBuf, by simp [OnlyAcks, Node.start]⟩
  · rintro s m s' ⟨hinv, hacks⟩ hstep
    exact ⟨inv_step hinv hstep, onlyAcks_step hinv hacks hstep⟩

/-- So all unread responses are ACKs that can still be read. -/
theorem unread_eq (h : OnlyAcks s) : s.unread = s.handshake.acksOutstanding := by
  have hdown : s.downlink.count protocolAckByte = s.downlink.length :=
    List.count_eq_length.mpr fun b hb => (h b (List.mem_append_right _ hb)).symm
  cases hrdr : s.rdr with
  | none => simp [Node.unread, Handshake.acksOutstanding, Node.handshake, hrdr, hdown]
  | some r =>
    obtain rfl : r = protocolAckByte := h r (by simp [hrdr])
    simp [Node.unread, Handshake.acksOutstanding, Node.handshake, hrdr, hdown, Nat.add_comm]

/-! ## Bounds -/

/-- Every call has returned, with `true` or with `false`, or is the active one. -/
theorem calls_length (h : (system true).Reachable s) :
    s.calls.length = s.results.count true + s.openCalls := by
  have hcalls : s.calls.length = s.results.length + if s.handshake.active then 1 else 0 :=
    (handshakeInv_of_reachable h).calls
  have hcount := List.count_not_add_count s.results true
  have hactive : (if s.handshake.active then 1 else 0) = if s.sender = .idle then 0 else 1 := by
    by_cases hidle : s.sender = .idle <;> simp [Node.handshake, hidle]
  rw [Bool.not_true] at hcount
  unfold Node.openCalls Node.failures
  omega

/-- The frames of `n` payloads. -/
theorem length_flatMap_wireFrame (payloads : List TelemetryPayload) :
    (payloads.flatMap wireFrame).length = UartFrame.size * payloads.length := by
  induction payloads with
  | nil => rfl
  | cons payload payloads ih =>
    rw [List.flatMap_cons, List.length_append, length_wireFrame, ih, List.length_cons,
      Nat.mul_succ, Nat.add_comm]

/-- In every reachable state, whatever the interleaving: the bytes on their way are those of at most
one frame for each failed call and one for the active call; so many responses are unread at most;
and at most 12 payloads have been acknowledged but not published. -/
theorem backlog_le (h : (system true).Reachable s) :
    s.inFlight ≤ UartFrame.size * s.openCalls ∧ s.unread ≤ s.openCalls ∧
      s.acked.length ≤ s.published.length + (queueLength + 2) := by
  obtain ⟨done, rest, part, hinv⟩ := inv_of_reachable h
  have hcalls := calls_length h
  have hacks : s.results.count true + s.handshake.acksOutstanding ≤ s.acked.length :=
    (handshakeInv_of_reachable h).acks
  have hsplit : s.calls.length = done.length + rest.length := by
    rw [hinv.calls, List.length_append]
  have hdone : done.length = s.acked.length + s.unacked.length := by
    rw [← hinv.acked, List.length_append]
  refine ⟨?_, ?_, ?_⟩
  · -- the bytes are those of the frames that have not been completed
    have hstream := congrArg List.length hinv.stream
    rw [length_flatMap_wireFrame] at hstream
    simp only [List.length_append] at hstream
    have hrest : rest.length ≤ s.openCalls := by omega
    have hmul := Nat.mul_le_mul_left UartFrame.size hrest
    unfold Node.inFlight
    omega
  · rw [unread_eq (onlyAcks_of_reachable h)]
    have hbegins := acked_prefix h
    have hle := hbegins.length_le
    omega
  · have hlength := congrArg List.length (acked_eq hinv)
    have hqueue := s.queue.length_le
    have hheld : s.publisher.held.length ≤ 1 := by
      cases s.publisher <;> simp [Publisher.held]
    have hreceiver : s.heldByReceiver.length ≤ 1 := by
      unfold Node.heldByReceiver
      split <;> simp
    simp only [List.length_append] at hlength
    omega

/-- With a frame half on its way. -/
theorem backlog_le_half_frame :
    ∃ s, (system true).Reachable s ∧ s.openCalls = 1 ∧ s.inFlight = UartFrame.size ∧
      s.inFlight ≤ UartFrame.size * s.openCalls := by
  have hstart : (system true).Reachable (.start (.replicate _ 0#8)) := .init ⟨_, rfl⟩
  obtain ⟨s, hs, h⟩ := hstart.exists_of_exec
    (.call (dataPacket 330#16 1000#16 2000#16) :: .replicate 9 .transmit ++ .replicate 5 .arriveUp)
    (fun s => s.openCalls = 1 ∧ s.inFlight = UartFrame.size) (by decide +kernel)
  obtain ⟨hopen, hflight⟩ := of_decide_eq_true h
  exact ⟨s, hs, hopen, hflight, (backlog_le hs).1⟩

/-! ## The receive buffer of the driver -/

/-- The size of the receive buffer that `uart_receiver_init` asks for. -/
def rxBufferSize : ℕ := bufSize * 2

/-- The moves of the node when the receive buffer has a size: a byte that finds it full is lost. -/
def Node.stepDropping (s : Node) : Move → Option Node
  | .arriveUp =>
    match s.uplink with
    | b :: uplink =>
      some { s with
        uplink := uplink
        rxRing := if s.rxRing.length < rxBufferSize then s.rxRing ++ [b] else s.rxRing }
    | [] => none
  | m => s.step true m

/-- All interleavings with that buffer. -/
def dropping : TransitionSystem Node Move where
  init s := ∃ payloadBuf, s = .start payloadBuf
  step := Node.stepDropping

/-- At most so many calls have failed that their frames and another one fit into the buffer. -/
def FewFailures (s : Node) (_ : Move) : Prop :=
  UartFrame.size * (s.failures + 1) ≤ rxBufferSize

instance : DecidableRel FewFailures := fun _ _ => inferInstanceAs (Decidable (_ ≤ _))

/-- A byte that arrives finds room. -/
theorem stepDropping_eq (h : (system true).Reachable s) {m : Move} (hfew : FewFailures s m) :
    s.stepDropping m = s.step true m := by
  cases m with
  | arriveUp =>
    cases huplink : s.uplink with
    | nil => simp only [Node.stepDropping, Node.step, huplink]
    | cons b uplink =>
      have hflight := (backlog_le h).1
      have hopen : s.openCalls ≤ s.failures + 1 := by
        unfold Node.openCalls
        split <;> omega
      have hmul := Nat.mul_le_mul_left UartFrame.size hopen
      have hfits : UartFrame.size * (s.failures + 1) ≤ rxBufferSize := hfew
      have hroom : s.rxRing.length < rxBufferSize := by
        simp only [Node.inFlight, huplink, List.length_cons] at hflight
        omega
      simp only [Node.stepDropping, Node.step, huplink, if_pos hroom]
  | _ => rfl

/-- In a run in which, before each move, at most 119 calls have failed, no byte is dropped: every
state reached is one of the node whose buffer has no bound. So what was published is a prefix of
what was passed to the calls, and all of it once everything is drained. -/
theorem nothing_dropped (h : dropping.ReachableUnder FewFailures s) :
    (system true).Reachable s ∧ s.published <+: s.calls ∧
      (s.Drained → s.published = s.calls) := by
  have hreachable : (system true).Reachable s := by
    induction h with
    | init hinit => exact .init hinit
    | @step s s' m _ hfew hstep ih => exact ih.next ((stepDropping_eq ih hfew).symm.trans hstep)
  exact ⟨hreachable, published_begins hreachable⟩

/-- One packet goes all the way, without a failure. -/
theorem nothing_dropped_one_packet :
    ∃ s, dropping.ReachableUnder FewFailures s ∧ s.Drained ∧
      s.calls = [dataPacket 330#16 1000#16 2000#16] ∧ s.published = s.calls := by
  have hstart : (dropping.restrict FewFailures).Reachable (.start (.replicate _ 0#8)) :=
    .init ⟨_, rfl⟩
  obtain ⟨s, hs, h⟩ := hstart.exists_of_exec
    (beginCall (dataPacket 330#16 1000#16 2000#16) ++ answerFrame ++ [.poll, .receive, .publish])
    (fun s => s.Drained ∧ s.calls = [dataPacket 330#16 1000#16 2000#16]) (by decide +kernel)
  obtain ⟨hdrained, hcalls⟩ := of_decide_eq_true h
  exact ⟨s, .of_restrict hs, hdrained, hcalls,
    (nothing_dropped (.of_restrict hs)).2.2 hdrained⟩

end TelemetryNode.Pipeline
