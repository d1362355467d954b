import TelemetryNode.Esp32.JsonRoundTrip
import TelemetryNode.Library.Composition
import TelemetryNode.Stm32.Packets
import TelemetryNode.System.Conservation

/-!
# From the conversions to the broker

The superloop of the STM32 with its interrupt and its sampling hardware, and the node with the link
and the ESP32, side by side. Where the loop calls `uart_send_telemetry_and_wait_ack`, the call of
the node begins, with the packet that the loop has filled in; the loop goes on when the last poll of
the call returns, with its result. Everything else happens in any order.

## Main definitions

* `EndToEnd.system`: all interleavings of the composed system.

## Main results

* `EndToEnd.linked_of_reachable`: the calls are the packets of the loop, in order.
* `EndToEnd.published_conversions`: every message that reaches the MQTT client reads back as a
  packet of the loop, whose fields are the means of 16 different conversions of their channel.
-/

namespace TelemetryNode.EndToEnd

open DmaAdc MainLoop Sampling UartHandshake Pipeline

/-- The STM32, with the record of its conversions, and the node that its calls go to. -/
abbrev Whole : Type := Recorder × Node

/-- What the active call returns with its next poll, if that is its last one. -/
def pollReturns (link : Node) : Option Bool :=
  match link.sender with
  | .waiting timer =>
    match (pollForByte protocolAckByte ackTimeoutLoops timer link.rdr).1 with
    | .returned result => some result
    | .again _ => none
  | _ => none

/-- The moves that are made together. -/
def sync (stm32 : Recorder) (link : Node) : Option MainLoop.Move → Option Pipeline.Move → Bool
  | some .cpu, some (.call payload) =>
    stm32.core.pc = .sendTelemetry ∧ payload = stm32.core.dataPacket
  | some .cpu, none => stm32.core.pc ≠ .sendTelemetry
  | some (.endWait ackReceived), some .poll => pollReturns link = some ackReceived
  | some .interrupt, none => true
  | some (.transfer _), none => true
  | some .transferError, none => true
  | none, some .poll => pollReturns link = none
  | none, some (.call _) => false
  | none, some _ => true
  | _, _ => false

/-- All interleavings. `mqttClient` is the test `mqtt_client != NULL`. -/
def system (mqttClient : Bool) :
    TransitionSystem Whole (Option MainLoop.Move × Option Pipeline.Move) :=
  .parallel Sampling.system (Pipeline.system mqttClient) sync

variable {mqttClient : Bool} {s s' : Whole} {l : Option MainLoop.Move × Option Pipeline.Move}

/-- The STM32 in the composed system runs as it does alone. -/
theorem reachable_stm32 (h : (system mqttClient).Reachable s) : Sampling.system.Reachable s.1 :=
  TransitionSystem.parallel_fst.reachable h

/-- The node in the composed system runs as it does alone. -/
theorem reachable_link (h : (system mqttClient).Reachable s) :
    (Pipeline.system mqttClient).Reachable s.2 :=
  TransitionSystem.parallel_snd.reachable h

/-! ## What can happen in the composed system -/

/-- A move of the node that does not concern the loop. -/
def aside : Pipeline.Move → Bool
  | .call _ | .poll => false
  | _ => true

/-- A move of the interrupt or of the sampling hardware. -/
def hardware : MainLoop.Move → Bool
  | .interrupt | .transfer _ | .transferError => true
  | _ => false

/-- The steps of the composed system. -/
inductive Step (mqttClient : Bool) (s : Whole) :
    Option MainLoop.Move × Option Pipeline.Move → Whole → Prop
  /-- The loop calls `uart_send_telemetry_and_wait_ack`. -/
  | call (stm32 : Recorder) (link : Node) : s.1.core.pc = .sendTelemetry →
      s.1.step .cpu = some stm32 →
      s.2.step mqttClient (.call s.1.core.dataPacket) = some link →
      Step mqttClient s (some .cpu, some (.call s.1.core.dataPacket)) (stm32, link)
  /-- Another statement of the loop. -/
  | statement (stm32 : Recorder) : s.1.core.pc ≠ .sendTelemetry → s.1.step .cpu = some stm32 →
      Step mqttClient s (some .cpu, none) (stm32, s.2)
  /-- The call returns. -/
  | returns (ackReceived : Bool) (stm32 : Recorder) (link : Node) :
      pollReturns s.2 = some ackReceived → s.1.step (.endWait ackReceived) = some stm32 →
      s.2.step mqttClient .poll = some link →
      Step mqttClient s (some (.endWait ackReceived), some .poll) (stm32, link)
  /-- A poll that is not the last one. -/
  | polls (link : Node) : pollReturns s.2 = none → s.2.step mqttClient .poll = some link →
      Step mqttClient s (none, some .poll) (s.1, link)
  | hardware (m : MainLoop.Move) (stm32 : Recorder) : hardware m = true →
      s.1.step m = some stm32 → Step mqttClient s (some m, none) (stm32, s.2)
  | aside (m : Pipeline.Move) (link : Node) : aside m = true →
      s.2.step mqttClient m = some link → Step mqttClient s (none, some m) (s.1, link)

theorem step_cases (h : (system mqttClient).step s l = some s') : Step mqttClient s l s' := by
  obtain ⟨hsync, hstm32, hlink⟩ := TransitionSystem.step_parallel_iff.mp h
  obtain ⟨stm32, link⟩ := s'
  obtain ⟨m, n⟩ := l
  simp only [TransitionSystem.stepIf] at hstm32 hlink
  -- the two components move together in a call and at its return, and nowhere else
  match m, n with
  | none, none => exact absurd hsync Bool.false_ne_true
  | none, some n =>
    obtain rfl : s.1 = stm32 := Option.some.inj hstm32
    cases n with
    | call payload => exact absurd hsync Bool.false_ne_true
    | poll => exact .polls link (of_decide_eq_true hsync) hlink
    | _ => exact .aside _ link rfl hlink
  | some m, none =>
    obtain rfl : s.2 = link := Option.some.inj hlink
    cases m with
    | cpu => exact .statement stm32 (of_decide_eq_true hsync) hstm32
    | endWait ackReceived => exact absurd hsync Bool.false_ne_true
    | _ => exact .hardware _ stm32 rfl hstm32
  | some m, some n =>
    cases m <;> cases n
    case cpu.call payload =>
      obtain ⟨hpc, rfl⟩ := of_decide_eq_true hsync
      exact .call stm32 link hpc hstm32 hlink
    case endWait.poll ackReceived =>
      exact .returns ackReceived stm32 link (of_decide_eq_true hsync) hstm32 hlink
    all_goals exact absurd hsync Bool.false_ne_true

/-! ## The calls are the packets -/

/-- What a move of the node that does not concern the loop does to a call: the calls that wait for
the link go on, and the others know nothing of it. -/
theorem frame_of_aside {s s' : Node} {m : Pipeline.Move} (hm : aside m = true)
    (h : s.step mqttClient m = some s') :
    s'.calls = s.calls ∧
      ((m ≠ .transmit ∧ m ≠ .startWait ∧ s'.sender = s.sender) ∨
        (∃ b rest, m = .transmit ∧ s.sender = .sending (b :: rest) ∧ s'.sender = .sending rest) ∨
        (m = .startWait ∧ s.sender = .sending [] ∧ s'.sender = .waiting 0)) := by
  cases m with
  | call payload => exact absurd hm Bool.false_ne_true
  | poll => exact absurd hm Bool.false_ne_true
  | transmit =>
    obtain ⟨b, rest, hsender, rfl⟩ := step_transmit h
    exact ⟨rfl, .inr (.inl ⟨b, rest, rfl, hsender, rfl⟩)⟩
  | startWait =>
    obtain ⟨hsender, rfl⟩ := step_startWait h
    exact ⟨rfl, .inr (.inr ⟨rfl, hsender, rfl⟩)⟩
  | arriveUp =>
    obtain ⟨b, uplink, -, rfl⟩ := step_arriveUp h
    exact ⟨rfl, .inl ⟨by simp, by simp, rfl⟩⟩
  | arriveDown =>
    obtain ⟨b, downlink, -, rfl⟩ := step_arriveDown h
    exact ⟨rfl, .inl ⟨by simp, by simp, rfl⟩⟩
  | read count =>
    obtain ⟨-, -, -, rfl⟩ := step_read h
    exact ⟨rfl, .inl ⟨by simp, by simp, rfl⟩⟩
  | process =>
    obtain ⟨b, data, context, todo, -, -, -, rfl⟩ := step_process h
    exact ⟨rfl, .inl ⟨by simp, by simp, rfl⟩⟩
  | perform =>
    rcases step_perform h with ⟨b, todo, -, rfl⟩ | ⟨todo, queue, -, -, rfl⟩ <;>
      exact ⟨rfl, .inl ⟨by simp, by simp, rfl⟩⟩
  | receive =>
    obtain ⟨data, queue, -, -, rfl⟩ := step_receive h
    exact ⟨rfl, .inl ⟨by simp, by simp, rfl⟩⟩
  | publish =>
    simp only [Node.step] at h
    split at h
    · split at h <;> cases h <;> exact ⟨rfl, .inl ⟨by simp, by simp, rfl⟩⟩
    · cases h

/-- A poll returns, or the call goes on. -/
theorem step_poll_of {s s' : Node} (h : s.step mqttClient .poll = some s') :
    ∃ timer, s.sender = .waiting timer ∧ s'.calls = s.calls ∧
      ((∃ result, pollReturns s = some result ∧ s'.sender = .idle) ∨
        (pollReturns s = none ∧ timer < ackTimeoutLoops ∧ s'.sender = .waiting (timer + 1))) := by
  simp only [Node.step] at h
  split at h
  · rename_i timer hsender
    refine ⟨timer, hsender, ?_⟩
    rcases pollForByte_cases protocolAckByte ackTimeoutLoops timer s.rdr with
      ⟨-, -, heq⟩ | ⟨htimer, -, heq⟩ | ⟨-, heq⟩ <;> rw [heq] at h <;> cases h
    · exact ⟨rfl, .inl ⟨true, by simp [pollReturns, hsender, heq], rfl⟩⟩
    · exact ⟨rfl, .inr ⟨by simp [pollReturns, hsender, heq], htimer, rfl⟩⟩
    · exact ⟨rfl, .inl ⟨false, by simp [pollReturns, hsender, heq], rfl⟩⟩
  · cases h

/-- The calls of the node are the packets that the loop has transmitted, and a call is active
exactly while the loop waits for it. It never has more to write than a frame. -/
structure Linked (s : Whole) : Prop where
  calls : s.2.calls = s.1.core.transmitted.map Prod.snd
  active : s.1.core.pc = .waitAck ↔ s.2.sender ≠ .idle
  unsent : s.2.sender.unsent.length ≤ UartFrame.size

theorem afterAverage_ne_waitAck : ∀ channel, afterAverage channel ≠ .waitAck := by decide

/-- A statement of the loop does not wait, unless it transmits. -/
theorem waitAck_of_cpu {c c' : Core} (h : c.cpu = some c') (hpc : c.pc ≠ .sendTelemetry) :
    c.pc ≠ .waitAck ∧ c'.pc ≠ .waitAck := by
  cases hpc' : c.pc <;> simp only [Core.cpu, hpc', Option.some.injEq, reduceCtorEq] at h
  case testDataReady | waitForInterrupt =>
    subst h
    exact ⟨by simp, by dsimp only; split <;> simp⟩
  case averageChannel channel i sum =>
    refine ⟨by simp, ?_⟩
    split at h <;> cases h
    · simp
    · exact afterAverage_ne_waitAck channel
  case sendTelemetry => exact absurd hpc' hpc
  all_goals
    subst h
    exact ⟨by simp, by simp⟩

/-- Neither the interrupt nor the hardware ends a wait. -/
theorem waitAck_of_hardware {c c' : Core} {m : MainLoop.Move} (hm : hardware m = true)
    (h : c.step m = some c') : c'.pc = .waitAck ↔ c.pc = .waitAck := by
  cases m with
  | interrupt =>
    simp only [Core.step, Core.interrupt] at h
    split at h <;> cases h
    dsimp only
    split <;> simp_all
  | transfer value | transferError =>
    cases h
    exact .rfl
  | cpu | endWait ackReceived => exact absurd hm Bool.false_ne_true

theorem linked_step (h : Linked s) (hstep : (system mqttClient).step s l = some s') :
    Linked s' := by
  cases step_cases hstep with
  | call stm32 link hpc hstm32 hlink =>
    obtain ⟨core, hcore, rfl⟩ := Option.map_eq_some_iff.mp hstm32
    obtain ⟨-, rfl⟩ := step_call hlink
    simp only [Core.step, Core.cpu, hpc, Option.some.injEq] at hcore
    subst hcore
    -- the packet that the loop transmits is the argument of the call
    refine ⟨?_, ?_, ?_⟩ <;> simp only [record_core]
    · rw [List.map_append, h.calls]
      rfl
    · simp
    · exact le_of_eq (length_wireFrame _)
  | statement stm32 hpc hstm32 =>
    obtain ⟨core, hcore, rfl⟩ := Option.map_eq_some_iff.mp hstm32
    obtain ⟨hbefore, hafter⟩ := waitAck_of_cpu hcore hpc
    have hsent : core.transmitted = s.1.core.transmitted :=
      (transmitted_cpu hcore).resolve_right fun hsend => hpc hsend.1
    refine ⟨?_, ?_, h.unsent⟩ <;> simp only [record_core]
    · rw [hsent]
      exact h.calls
    · rw [← h.active]
      exact iff_of_false hafter hbefore
  | returns ackReceived stm32 link hreturns hstm32 hlink =>
    obtain ⟨core, hcore, rfl⟩ := Option.map_eq_some_iff.mp hstm32
    obtain ⟨timer, -, hcalls, hpoll⟩ := step_poll_of hlink
    obtain ⟨-, -, hsent, -⟩ := frame_of_environment hcore (by simp)
    -- the loop waits no longer, and the sender is idle again
    obtain ⟨-, -, hidle⟩ | ⟨hnone, -⟩ := hpoll
    · refine ⟨?_, ?_, ?_⟩ <;> simp only [record_core]
      · rw [hsent, hcalls]
        exact h.calls
      · simp only [Core.step, Core.endWait] at hcore
        split at hcore <;> cases hcore
        cases ackReceived <;> simp [hidle]
      · rw [hidle]
        exact Nat.zero_le _
    · exact absurd (hnone.symm.trans hreturns) (by simp)
  | polls link hnone hlink =>
    obtain ⟨timer, hsender, hcalls, hpoll⟩ := step_poll_of hlink
    -- a poll that does not return leaves the call in its wait
    obtain ⟨result, hreturns, -⟩ | ⟨-, -, hsender'⟩ := hpoll
    · exact absurd (hnone.symm.trans hreturns) (by simp)
    · refine ⟨hcalls.trans h.calls, h.active.trans ?_, ?_⟩
      · simp [hsender, hsender']
      · rw [hsender']
        exact Nat.zero_le _
  | hardware m stm32 hm hstm32 =>
    obtain ⟨core, hcore, rfl⟩ := Option.map_eq_some_iff.mp hstm32
    obtain ⟨-, -, hsent, -⟩ := frame_of_environment hcore (by rintro rfl; cases hm)
    refine ⟨?_, ?_, h.unsent⟩ <;> simp only [record_core]
    · rw [hsent]
      exact h.calls
    · rw [← h.active]
      exact waitAck_of_hardware hm hcore
  | aside m link hm hlink =>
    obtain ⟨hcalls, hsender⟩ := frame_of_aside hm hlink
    have hunsent := h.unsent
    -- the sender stays as it is, a byte of the frame goes out, or the wait starts
    refine ⟨hcalls.trans h.calls, h.active.trans (not_congr ?_), ?_⟩ <;>
      rcases hsender with ⟨-, -, hsame⟩ | ⟨b, rest, -, hbefore, hafter⟩ | ⟨-, hbefore, hafter⟩
    · rw [hsame]
    · simp [hbefore, hafter]
    · simp [hbefore, hafter]
    · rwa [hsame]
    · rw [hbefore] at hunsent
      rw [hafter]
      exact Nat.le_of_succ_le hunsent
    · rw [hafter]
      exact Nat.zero_le _

theorem linked_of_reachable (h : (system mqttClient).Reachable s) : Linked s := by
  apply h.invariant (I := Linked)
  · rintro ⟨stm32, link⟩ ⟨⟨packet, rfl⟩, payloadBuf, rfl⟩
    exact ⟨rfl, iff_of_false (by simp [Recorder.start, Core.start]) fun h => h rfl, Nat.zero_le _⟩
  · intro s l s' hinv hstep
    exact linked_step hinv hstep

/-! ## What reaches the broker -/

/-- What was published is a prefix of the packets of the loop, and all of them once everything is
drained. -/
theorem published_prefix (h : (system true).Reachable s) :
    s.2.published <+: s.1.payloads.map Prod.snd ∧
      (s.2.Drained → s.2.published = s.1.payloads.map Prod.snd) := by
  rw [payloads_eq (reachable_stm32 h), ← (linked_of_reachable h).calls]
  exact published_begins (reachable_link h)

/-- A packet has 16 samples of each channel. -/
theorem length_filter_channel {conversions : List (BitVec 16)} {samples : List Sample}
    (h : SamplesOk conversions samples (adcChannels * adcBufferDepth)) (channel : Fin adcChannels) :
    (samples.filter fun x => x.channel = channel).length = adcBufferDepth := by
  have hchannels : samples.map (fun x => x.channel.val) =
      (List.range (adcChannels * adcBufferDepth)).map (· / adcBufferDepth) := by
    apply List.ext_getElem (by simp [h.length_eq])
    intro j hj hj'
    rw [List.length_map] at hj
    rw [List.getElem_map, List.getElem_map, List.getElem_range]
    exact (h.isRead j samples[j] (List.getElem?_eq_getElem hj)).channel_eq
  have hcount : ∀ channel : Fin adcChannels,
      ((List.range (adcChannels * adcBufferDepth)).map (· / adcBufferDepth)).countP
        (fun j => j = channel.val) = adcBufferDepth := by decide
  rw [← List.countP_eq_length_filter, ← hcount channel, ← hchannels, List.countP_map]
  apply List.countP_congr
  intro x _
  simp [Fin.ext_iff]

/-- A message tells of a packet: it is published under the topic, reads back as the packet, and the
packet reports the floors of the means of 16 different conversions for each channel. -/
structure Tells (conversions : List (BitVec 16)) (message : MqttPublisher.PublishCall)
    (samples : List Sample) (packet : TelemetryPayload) : Prop where
  topic : message.topic = MqttPublisher.mqttTopic
  reads : MqttPublisher.readBack message.data = some packet
  packet_eq : packet = dataPacket packet.batteryMv packet.tempSensor packet.adcCh1
  mean : ∀ channel, (reading packet channel).toNat = channelTotal samples channel / adcBufferDepth
  length : ∀ channel, (samples.filter fun x => x.channel = channel).length = adcBufferDepth
  converted : ∀ x ∈ samples, ∃ k, x.origin = some k ∧ conversions[k]? = some x.value ∧
    k % adcChannels = x.channel
  /-- No conversion is counted twice. -/
  distinct : (samples.filterMap (·.origin)).Nodup

/-- The message for a packet that the loop transmitted tells of it. -/
theorem tells_of_payload {r : Recorder} (h : Sampling.system.Reachable r) {samples : List Sample}
    {packet : TelemetryPayload} (hmem : (samples, packet) ∈ r.payloads) :
    Tells r.conversions (MqttPublisher.publishCall packet) samples packet := by
  obtain ⟨hsamples, hreading⟩ := (Sampling.inv_of_reachable h).payloads _ hmem
  have hsent : packet ∈ r.core.transmitted.map Prod.snd := by
    rw [← payloads_eq h]
    exact List.mem_map_of_mem hmem
  constructor
  · rfl
  · exact MqttPublisher.readBack_jsonPayload packet
  · obtain ⟨q, hq, rfl⟩ := List.mem_map.mp hsent
    exact transmitted_eq_dataPacket (reachable_core h) q hq
  · exact hreading
  · exact length_filter_channel hsamples
  · intro x hx
    obtain ⟨k, hk, hvalue, hmod, -⟩ := hsamples.mem hx
    exact ⟨k, hk, hvalue, hmod⟩
  · exact hsamples.nodup_origins

/-- In every reachable state of the composed system, message `i` tells of the packet that the loop
transmitted as its `i`-th: it reads back as the averages of 16 different conversions of each
channel. Nothing else is ever published, and nothing is missing once everything is drained. -/
theorem published_conversions (h : (system true).Reachable s) :
    (∀ (i : ℕ) (message : MqttPublisher.PublishCall), s.2.messages[i]? = some message →
      ∃ samples packet, s.1.payloads[i]? = some (samples, packet) ∧
        Tells s.1.conversions message samples packet) ∧
      s.2.messages.length ≤ s.1.payloads.length ∧
      (s.2.Drained → s.2.messages.length = s.1.payloads.length) := by
  obtain ⟨hbegins, hdrained⟩ := published_prefix h
  obtain ⟨done, rest, part, hinv⟩ := inv_of_reachable (reachable_link h)
  have hlength : s.2.messages.length = s.2.published.length := by
    rw [hinv.messages, List.length_map]
  refine ⟨fun i message hmessage => ?_, ?_, fun hdone => ?_⟩
  · rw [hinv.messages, List.getElem?_map] at hmessage
    obtain ⟨packet, hpacket, rfl⟩ := Option.map_eq_some_iff.mp hmessage
    -- the `i`-th published payload is the `i`-th packet of the loop
    obtain ⟨hi, hvalue⟩ := List.getElem?_eq_some_iff.mp hpacket
    have hsent := List.prefix_iff_getElem?.mp hbegins i hi
    rw [hvalue, List.getElem?_map] at hsent
    obtain ⟨⟨samples, packet⟩, hpayload, rfl⟩ := Option.map_eq_some_iff.mp hsent
    exact ⟨samples, packet, hpayload,
      tells_of_payload (reachable_stm32 h) (List.mem_of_getElem? hpayload)⟩
  · have hle := hbegins.length_le
    rw [List.length_map] at hle
    rwa [hlength]
  · rw [hlength, hdrained hdone, List.length_map]

/-- Both controllers at the start, with nothing in their buffers. -/
theorem reachable_start :
    (system true).Reachable
      (.start (dataPacket 0#16 0#16 0#16), .start (.replicate _ 0#8)) :=
  .init ⟨⟨_, rfl⟩, _, rfl⟩

/-- A lap is converted and averaged, and the packet goes all the way to the MQTT client. -/
def onePacket : List (Option MainLoop.Move × Option Pipeline.Move) :=
  batchArrives.map (fun m => (some m, none)) ++ List.replicate 56 (some .cpu, none) ++
    [(some .cpu, some (.call (dataPacket 0x0123#16 0x0123#16 0x0123#16)))] ++
    List.replicate UartFrame.size (none, some .transmit) ++ [(none, some .startWait)] ++
    answerFrame.map (fun m => (none, some m)) ++
    [(some (.endWait true), some .poll), (none, some .receive), (none, some .publish)]

theorem published_conversions_one_packet :
    ∃ s, (system true).Reachable s ∧ ∃ message samples packet,
      s.2.messages[0]? = some message ∧ s.1.payloads[0]? = some (samples, packet) ∧
        Tells s.1.conversions message samples packet := by
  obtain ⟨s, hs, h⟩ := reachable_start.exists_of_exec onePacket (fun s => s.2.messages.length = 1)
    (by decide +kernel)
  have hlength : s.2.messages.length = 1 := by simpa using h
  have hmessage : s.2.messages[0]? = some s.2.messages[0] :=
    List.getElem?_eq_getElem (by rw [hlength]; exact Nat.one_pos)
  obtain ⟨samples, packet, hpayload, htells⟩ := (published_conversions hs).1 0 _ hmessage
  exact ⟨s, hs, _, samples, packet, hmessage, hpayload, htells⟩

end TelemetryNode.EndToEnd
