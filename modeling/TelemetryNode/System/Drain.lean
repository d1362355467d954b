import TelemetryNode.Library.Composition
import TelemetryNode.System.Conservation

/-!
# Everything is published in the end

When the STM32 makes no more calls, the node comes to rest: whatever the order of the moves, only so
many of them do anything, and as long as something is left to be done, some party can do it. At rest
everything that was passed to the calls has been published. So there is no deadlock between the
receiver task, which does not read on while the queue is full, and the publisher task.

## Main definitions

* `Pipeline.works`: the moves that do something, calls apart.
* `Pipeline.workLeft`: a bound on their number.

## Main results

* `Pipeline.drains`: every run without calls ends, but for reads that return nothing, with
  everything published.
-/

namespace TelemetryNode.Pipeline

open UartHandshake UartReceiver MqttPublisher

/-! ## The moves that do something -/

/-- The STM32 makes a call. -/
def Move.isCall : Move → Bool
  | .call _ => true
  | _ => false

/-- No call, and no read that returns nothing. -/
def works (s : Node) (m : Move) : Bool :=
  match m with
  | .call _ => false
  | .read count => 0 < count ∧ s.rxRing ≠ []
  | _ => true

/-- No move can do anything, until there is another call. -/
def Node.AtRest (s : Node) : Prop := ∀ m, works s m = true → s.step true m = none

variable {s s' t : Node} {m : Move}

/-- Apart from the calls, only a read that returns nothing does nothing. -/
theorem read_of_not_works (hcall : m.isCall = false) (hidle : works s m = false)
    (hstep : s.step true m = some s') :
    (∃ count, m = .read count ∧ (count = 0 ∨ s.rxRing = [])) ∧ s' = s := by
  cases m with
  | call payload => exact absurd hcall.symm Bool.false_ne_true
  | read count =>
    obtain ⟨-, hdata, -, rfl⟩ := step_read hstep
    have hnothing : count = 0 ∨ s.rxRing = [] := by
      have hnot := of_decide_eq_false hidle
      by_cases hcount : count = 0
      · exact .inl hcount
      · exact .inr (by_contra fun hring => hnot ⟨Nat.pos_of_ne_zero hcount, hring⟩)
    refine ⟨⟨count, rfl, hnothing⟩, ?_⟩
    have htake : s.rxRing.take count = s.data ∧ s.rxRing.drop count = s.rxRing := by
      rw [hdata]
      rcases hnothing with rfl | hring
      · exact ⟨List.take_zero, List.drop_zero⟩
      · rw [hring]
        exact ⟨List.take_nil, List.drop_nil⟩
    rw [htake.1, htake.2]
  | _ => exact absurd hidle.symm Bool.false_ne_true

/-! ## They come to an end -/

/-- What the STM32 has still to do in its call. -/
def senderLeft : Sender → ℕ
  | .idle => 0
  | .sending rest => 9 * rest.length + (ackTimeoutLoops + 2)
  | .waiting timer => ackTimeoutLoops - timer + 1

/-- What the calls of the receiver task lead to: a response is to be sent and to arrive, and a
payload to be queued, received and published. -/
def callsLeft : List Call → ℕ
  | [] => 0
  | .sendResponse _ :: todo => 2 + callsLeft todo
  | .xQueueSend :: todo => 3 + callsLeft todo

def publisherLeft : Publisher → ℕ
  | .waiting => 0
  | .holding _ => 1

/-- A bound on the moves left. -/
def workLeft (s : Node) : ℕ :=
  -- a byte that is processed may complete a frame, whose ACK and payload take 5 moves; so it counts
  -- for 6, and for one more before each place that it has to pass until then
  senderLeft s.sender + 8 * s.uplink.length + 7 * s.rxRing.length + 6 * s.data.length +
    callsLeft s.todo + s.downlink.length + 2 * s.queue.items.length +
    publisherLeft s.publisher

/-- Every move that does something leaves less to do. -/
theorem workLeft_step (h : (system true).Reachable s) (hworks : works s m = true)
    (hstep : s.step true m = some s') : workLeft s' < workLeft s := by
  cases m with
  | call payload => exact absurd hworks Bool.false_ne_true
  | transmit =>
    obtain ⟨b, rest, hsender, rfl⟩ := step_transmit hstep
    simp only [workLeft, hsender, senderLeft, List.length_append, List.length_cons, List.length_nil]
    omega
  | startWait =>
    obtain ⟨hsender, rfl⟩ := step_startWait hstep
    simp only [workLeft, hsender, senderLeft, List.length_nil]
    omega
  | poll =>
    obtain ⟨timer, hsender, hpoll⟩ := step_poll hstep
    rcases hpoll with ⟨-, -, rfl⟩ | ⟨htimer, -, rfl⟩ | ⟨-, rfl⟩ <;>
      simp only [workLeft, hsender, senderLeft] <;> omega
  | arriveUp =>
    obtain ⟨b, uplink, huplink, rfl⟩ := step_arriveUp hstep
    simp only [workLeft, huplink, List.length_append, List.length_cons, List.length_nil]
    omega
  | arriveDown =>
    obtain ⟨b, downlink, hdownlink, rfl⟩ := step_arriveDown hstep
    simp only [workLeft, hdownlink, List.length_cons]
    omega
  | read count =>
    obtain ⟨-, hdata, -, rfl⟩ := step_read hstep
    obtain ⟨hcount, hring⟩ := of_decide_eq_true hworks
    have hpos := List.length_pos_iff.mpr hring
    simp only [workLeft, hdata, List.length_take, List.length_drop, List.length_nil]
    omega
  | process =>
    obtain ⟨b, data, context, todo, htodo, hdata, -, rfl⟩ := step_process hstep
    -- a completed frame leads to two calls
    obtain ⟨done, rest, part, hinv⟩ := inv_of_reachable (h.next (l := .process) hstep)
    have hcalls : callsLeft todo ≤ 5 := by
      have htodos := hinv.todo
      change todo = [] ∨ todo = acceptCalls ∨ todo = [.xQueueSend] at htodos
      rcases htodos with rfl | rfl | rfl <;> decide
    simp only [workLeft, htodo, hdata, List.length_cons, callsLeft]
    omega
  | perform =>
    rcases step_perform hstep with ⟨b, todo, htodo, rfl⟩ | ⟨todo, queue, htodo, hsend, rfl⟩
    · simp only [workLeft, htodo, callsLeft, List.length_append, List.length_cons, List.length_nil]
      omega
    · simp only [workLeft, htodo, callsLeft, s.queue.items_of_send hsend, List.length_append,
        List.length_cons, List.length_nil]
      omega
  | receive =>
    obtain ⟨data, queue, hwaiting, hreceive, rfl⟩ := step_receive hstep
    simp only [workLeft, hwaiting, publisherLeft, s.queue.items_of_receive hreceive,
      List.length_cons]
    omega
  | publish =>
    obtain ⟨data, hholding, rfl⟩ := step_publish hstep
    simp only [workLeft, hholding, publisherLeft]
    omega

/-! ## At rest -/

/-- As long as something is left, some party can go on. -/
theorem drained_of_atRest (h : (system true).Reachable s) (hstuck : s.AtRest) :
    s.Drained ∧ s.downlink = [] := by
  obtain ⟨done, rest, part, hinv⟩ := inv_of_reachable h
  have hsender : s.sender = .idle := by
    rcases hsender : s.sender with _ | (_ | ⟨b, rest⟩) | timer
    · rfl
    · have hnone := hstuck .startWait rfl
      simp [Node.step, hsender] at hnone
    · have hnone := hstuck .transmit rfl
      simp [Node.step, hsender] at hnone
    · have hnone := hstuck .poll rfl
      simp only [Node.step, hsender] at hnone
      split at hnone <;> cases hnone
  have huplink : s.uplink = [] := by
    by_contra hne
    obtain ⟨b, uplink, huplink⟩ := List.exists_cons_of_ne_nil hne
    have hnone := hstuck .arriveUp rfl
    simp [Node.step, huplink] at hnone
  have hdownlink : s.downlink = [] := by
    by_contra hne
    obtain ⟨b, downlink, hdownlink⟩ := List.exists_cons_of_ne_nil hne
    have hnone := hstuck .arriveDown rfl
    simp [Node.step, hdownlink] at hnone
  have hpublisher : s.publisher = .waiting := by
    cases hpublisher : s.publisher with
    | waiting => rfl
    | holding data =>
      have hnone := hstuck .publish rfl
      simp [Node.step, hpublisher] at hnone
  have hqueue : s.queue.items = [] := by
    have hnone := hstuck .receive rfl
    cases hreceive : s.queue.receive with
    | none => exact (s.queue.receive_eq_none_iff).mp hreceive
    | some taken => simp [Node.step, hpublisher, hreceive] at hnone
  -- the queue has room, so that the receiver is not blocked
  have htodo : s.todo = [] := by
    have hnone := hstuck .perform rfl
    rcases hinv.todo with htodo | htodo | htodo
    · exact htodo
    · simp [Node.step, Node.perform, htodo, acceptCalls] at hnone
    · cases hsend : s.queue.send s.payloadBuf with
      | none =>
        have hfull := (s.queue.send_eq_none_iff _).mp hsend
        simp [hqueue, queueLength] at hfull
      | some queue => simp [Node.step, Node.perform, htodo, hsend] at hnone
  have hdata : s.data = [] := by
    by_contra hne
    obtain ⟨b, data, hdata⟩ := List.exists_cons_of_ne_nil hne
    obtain ⟨context, calls, hbyte, -⟩ := processByte_spec true hinv.context b
    have hnone := hstuck .process rfl
    simp [Node.step, Node.process, htodo, hdata, hbyte] at hnone
  have hring : s.rxRing = [] := by
    by_contra hne
    have hnone := hstuck (.read 1) (decide_eq_true ⟨Nat.one_pos, hne⟩)
    simp [Node.step, htodo, hdata, bufSize] at hnone
  exact ⟨⟨hsender, huplink, hring, hdata, htodo, hqueue, hpublisher⟩, hdownlink⟩

/-- With nothing left, no move can do anything. -/
theorem atRest_of_drained (hdrained : s.Drained) (hdownlink : s.downlink = []) : s.AtRest := by
  obtain ⟨hsender, huplink, hring, hdata, htodo, hqueue, hpublisher⟩ := hdrained
  intro m hworks
  cases m with
  | call payload => exact absurd hworks Bool.false_ne_true
  | read count => exact absurd hring (of_decide_eq_true hworks).2
  | receive =>
    have hreceive := (s.queue.receive_eq_none_iff).mpr hqueue
    simp [Node.step, hpublisher, hreceive]
  | transmit | startWait | poll => simp [Node.step, hsender]
  | arriveUp => simp [Node.step, huplink]
  | arriveDown => simp [Node.step, hdownlink]
  | process => simp [Node.step, Node.process, htodo, hdata]
  | perform => simp [Node.step, Node.perform, htodo]
  | publish => simp [Node.step, hpublisher]

/-- Only a call adds to the calls. -/
theorem calls_of_step (hcall : m.isCall = false) (hstep : s.step true m = some s') :
    s'.calls = s.calls := by
  cases m with
  | call payload => exact absurd hcall.symm Bool.false_ne_true
  | transmit =>
    obtain ⟨b, rest, -, rfl⟩ := step_transmit hstep
    rfl
  | startWait => rw [(step_startWait hstep).2]
  | poll =>
    obtain ⟨timer, -, hpoll⟩ := step_poll hstep
    rcases hpoll with ⟨-, -, rfl⟩ | ⟨-, -, rfl⟩ | ⟨-, rfl⟩ <;> rfl
  | arriveUp =>
    obtain ⟨b, uplink, -, rfl⟩ := step_arriveUp hstep
    rfl
  | arriveDown =>
    obtain ⟨b, downlink, -, rfl⟩ := step_arriveDown hstep
    rfl
  | read count => rw [(step_read hstep).2.2.2]
  | process =>
    obtain ⟨b, data, context, todo, -, -, -, rfl⟩ := step_process hstep
    rfl
  | perform => rcases step_perform hstep with ⟨b, todo, -, rfl⟩ | ⟨todo, queue, -, -, rfl⟩ <;> rfl
  | receive =>
    obtain ⟨data, queue, -, -, rfl⟩ := step_receive hstep
    rfl
  | publish =>
    obtain ⟨data, -, rfl⟩ := step_publish hstep
    rfl

theorem calls_of_exec {ms : List Move} (hcalls : ∀ m ∈ ms, m.isCall = false)
    (hexec : (system true).exec s ms = some t) : t.calls = s.calls := by
  induction ms generalizing s with
  | nil =>
    cases hexec
    rfl
  | cons m ms ih =>
    obtain ⟨s₁, hstep, hrest⟩ := Option.bind_eq_some_iff.mp hexec
    have hsame := ih (fun m hm => hcalls m (List.mem_cons_of_mem _ hm)) hrest
    exact hsame.trans (calls_of_step (hcalls m List.mem_cons_self) hstep)

/-- In every run without calls, from any reachable state: the moves that do something use up
`workLeft`, so there are at most so many of them; every other move is a read that returns nothing,
and leaves the state as it is. When no move can do anything any more, nothing is left anywhere, and
whatever was passed to a call has been published, in this order. -/
theorem drains (h : (system true).Reachable s) {ms : List Move}
    (hcalls : ∀ m ∈ ms, m.isCall = false) (hexec : (system true).exec s ms = some t) :
    (system true).countMoves works s ms + workLeft t ≤ workLeft s ∧
      (∀ before m after s₁ s₂, ms = before ++ m :: after →
        (system true).exec s before = some s₁ → s₁.step true m = some s₂ → works s₁ m = false →
          (∃ count, m = .read count ∧ (count = 0 ∨ s₁.rxRing = [])) ∧ s₂ = s₁) ∧
      (t.AtRest → t.Drained ∧ t.downlink = [] ∧ t.published = s.calls) := by
  refine ⟨?_, ?_, fun hrest => ?_⟩
  · apply TransitionSystem.countMoves_add_rank_le (I := (system true).Reachable)
      (q := fun m => m.isCall = false) ?_ h hcalls hexec
    intro s m s' hs hcall hstep
    refine ⟨hs.next hstep, ?_⟩
    cases hworks : works s m with
    | true => exact workLeft_step hs hworks hstep
    | false =>
      obtain ⟨-, rfl⟩ := read_of_not_works hcall hworks hstep
      exact Nat.le_refl _
  · rintro before m after s₁ s₂ rfl - hstep hidle
    exact read_of_not_works (hcalls m (by simp)) hidle hstep
  · have ht : (system true).Reachable t := h.exec hexec
    obtain ⟨hdrained, hdownlink⟩ := drained_of_atRest ht hrest
    refine ⟨hdrained, hdownlink, ?_⟩
    rw [(published_begins ht).2 hdrained, calls_of_exec hcalls hexec]

/-- What follows a call, with a read that returns nothing. -/
def answerCall (payload : TelemetryPayload) : List Move :=
  .read 0 :: (beginCall payload).tail ++ answerFrame ++ [.poll, .receive, .publish]

/-- A packet, from its call on until everything is at rest. -/
theorem drains_one_packet :
    ∃ s t ms, (system true).Reachable s ∧ (system true).exec s ms = some t ∧
      (system true).countMoves works s ms + workLeft t ≤ workLeft s ∧
      t.Drained ∧ t.published = s.calls ∧ s.calls = [dataPacket 330#16 1000#16 2000#16] := by
  have hstart : (system true).Reachable (.start (.replicate _ 0#8)) := .init ⟨_, rfl⟩
  obtain ⟨s, hs, h⟩ := hstart.exists_of_exec [.call (dataPacket 330#16 1000#16 2000#16)]
    (fun s => s.calls = [dataPacket 330#16 1000#16 2000#16] ∧
      ((system true).exec s (answerCall (dataPacket 330#16 1000#16 2000#16))).any
        fun t => t.Drained ∧ t.downlink = []) (by decide +kernel)
  obtain ⟨hcall, hrun⟩ := of_decide_eq_true h
  obtain ⟨t, hexec, ht⟩ := (Option.any_eq_true _ _).mp hrun
  obtain ⟨hdrained, hdownlink⟩ := of_decide_eq_true ht
  have hall : ((answerCall (dataPacket 330#16 1000#16 2000#16)).all fun m => !m.isCall) = true := by
    decide +kernel
  have hcalls : ∀ m ∈ answerCall (dataPacket 330#16 1000#16 2000#16), m.isCall = false := by
    intro m hm
    simpa using List.all_eq_true.mp hall m hm
  obtain ⟨hcount, -, hrest⟩ := drains hs hcalls hexec
  obtain ⟨-, -, hpublished⟩ := hrest (atRest_of_drained hdrained hdownlink)
  exact ⟨s, t, _, hs, hexec, hcount, hdrained, hpublished, hcall⟩

end TelemetryNode.Pipeline
