import TelemetryNode.System.AckAgreement
import TelemetryNode.System.Startup

/-!
# Without the publisher task

`app_main` ignores the results of `xTaskCreate`. If the publisher task could not be created, nothing
takes payloads from the queue. The receiver task sends an ACK before it asks the queue to take the
payload, so it acknowledges one payload more than the queue holds, and is blocked from then on. What
it has acknowledged is never published.

This holds of every run from the reset on, also if the ESP32 has missed bytes while it was booting,
so that the receiver task may answer with a NACK.

## Main definitions

* `Startup.HeldInv`: what has been acknowledged, while nothing takes payloads from the queue.

## Main results

* `Startup.lost_without_publisher`: what becomes of the packets of the STM32.
-/

namespace TelemetryNode.Startup

open AppMain (Esp32)
open UartHandshake UartReceiver
open Pipeline (acceptCalls queueLength beginCall answerFrame)

/-! ## What the receiver task holds -/

/-- A byte leads to no call, to a NACK, or to an ACK and a queued payload. -/
theorem calls_of_processByte {c c' : Context} {b : Byte} {calls : List Call}
    (h : processByte true c b = some (c', calls)) :
    calls = [] ∨ calls = [.sendResponse protocolNackByte] ∨ calls = acceptCalls := by
  cases hstate : c.state <;> simp only [processByte, hstate] at h
  case crcH =>
    obtain ⟨calcCrc, -, h⟩ := Option.bind_eq_some_iff.mp h
    rw [Option.some.injEq, Prod.mk.injEq] at h
    rw [← h.2]
    split
    · exact .inr (.inr rfl)
    · exact .inr (.inl rfl)
  case lenH | payload =>
    split at h <;> cases h
    all_goals exact .inl rfl
  all_goals
    cases h
    exact .inl rfl

/-- What holds while nothing takes payloads from the queue. -/
structure HeldInv (p : Pipeline.Node) : Prop where
  todo : p.todo = [] ∨ p.todo = [.sendResponse protocolNackByte] ∨ p.todo = acceptCalls ∨
    p.todo = [.xQueueSend]
  acked : p.acked = p.queue.items ++ p.heldByReceiver
  publisher : p.publisher = .waiting

variable {e : Esp32} {p p' : Pipeline.Node} {mqttClient : Bool}

theorem heldInv_start (payloadBuf : Vector Byte TelemetryPayload.size) :
    HeldInv (.start payloadBuf) where
  todo := .inl rfl
  acked := rfl
  publisher := rfl

/-- A byte is handled while the receiver holds nothing, and it does not make it hold anything. -/
theorem heldInv_process (h : HeldInv p) (hstep : p.step mqttClient .process = some p') :
    HeldInv p' := by
  obtain ⟨b, data, context, calls, htodo, -, hbyte, rfl⟩ := Pipeline.step_process hstep
  have hacked : p.acked = p.queue.items := by
    simpa [Pipeline.Node.heldByReceiver, htodo] using h.acked
  rcases calls_of_processByte hbyte with rfl | rfl | rfl
  · exact ⟨.inl rfl, by simpa [Pipeline.Node.heldByReceiver] using hacked, h.publisher⟩
  · exact ⟨.inr (.inl rfl), by simpa [Pipeline.Node.heldByReceiver] using hacked, h.publisher⟩
  · refine ⟨.inr (.inr (.inl rfl)), ?_, h.publisher⟩
    simpa [Pipeline.Node.heldByReceiver, acceptCalls] using hacked

/-- With the ACK the receiver holds its payload, and it passes it on to the queue. -/
theorem heldInv_perform (h : HeldInv p) (hstep : p.step mqttClient .perform = some p') :
    HeldInv p' := by
  have hacked := h.acked
  rcases Pipeline.step_perform hstep with ⟨b, todo, htodo, rfl⟩ | ⟨todo, queue, htodo, hsend, rfl⟩
  · rcases h.todo with hnone | hnack | hack | hsend
    · cases hnone.symm.trans htodo
    · cases hnack.symm.trans htodo
      refine ⟨.inl rfl, ?_, h.publisher⟩
      simpa [Pipeline.Node.heldByReceiver, hnack, protocolNackByte, protocolAckByte] using hacked
    -- the ACK goes out before the payload is queued
    · cases hack.symm.trans htodo
      refine ⟨.inr (.inr (.inr rfl)), ?_, h.publisher⟩
      have hempty : p.heldByReceiver = [] := by
        simp [Pipeline.Node.heldByReceiver, hack, acceptCalls]
      rw [hempty, List.append_nil] at hacked
      simp [Pipeline.Node.heldByReceiver, Pipeline.Node.payloadBuf, hacked]
    · cases hsend.symm.trans htodo
  · rcases h.todo with hnone | hnack | hack | hqueue
    · cases hnone.symm.trans htodo
    · cases hnack.symm.trans htodo
    · cases hack.symm.trans htodo
    -- the payload moves from the receiver to the queue, and none is lost
    · cases hqueue.symm.trans htodo
      refine ⟨.inl rfl, ?_, h.publisher⟩
      simpa [Pipeline.Node.heldByReceiver, hqueue, p.queue.items_of_send hsend] using hacked

/-- Without the publisher task every move keeps it. -/
theorem heldInv_step (h : HeldInv p) {m : Pipeline.Move} (hruns : taskRuns e m = true)
    (hidle : e.publisherTask ≠ .running) (hstep : p.step mqttClient m = some p') : HeldInv p' := by
  cases m with
  | process => exact heldInv_process h hstep
  | perform => exact heldInv_perform h hstep
  | receive | publish => exact absurd (of_decide_eq_true hruns) hidle
  | call payload =>
    rw [(Pipeline.step_call hstep).2]
    exact { h with }
  | startWait =>
    rw [(Pipeline.step_startWait hstep).2]
    exact { h with }
  | read count =>
    rw [(Pipeline.step_read hstep).2.2.2]
    exact { h with }
  | transmit =>
    obtain ⟨b, rest, -, rfl⟩ := Pipeline.step_transmit hstep
    exact { h with }
  | arriveUp =>
    obtain ⟨b, uplink, -, rfl⟩ := Pipeline.step_arriveUp hstep
    exact { h with }
  | arriveDown =>
    obtain ⟨b, downlink, -, rfl⟩ := Pipeline.step_arriveDown hstep
    exact { h with }
  | poll =>
    obtain ⟨timer, -, hpoll⟩ := Pipeline.step_poll hstep
    rcases hpoll with ⟨-, -, rfl⟩ | ⟨-, -, rfl⟩ | ⟨-, rfl⟩ <;> exact { h with }

/-! ## What it has acknowledged -/

theorem length_heldByReceiver_le (p : Pipeline.Node) : p.heldByReceiver.length ≤ 1 := by
  unfold Pipeline.Node.heldByReceiver
  split <;> simp

/-- One payload more than the queue holds. -/
theorem HeldInv.length_acked_le (h : HeldInv p) : p.acked.length ≤ queueLength + 1 := by
  have hqueue := p.queue.length_le
  have hheld := length_heldByReceiver_le p
  rw [h.acked, List.length_append]
  omega

/-- With so many acknowledged, the queue is full, and the receiver has a payload for it. -/
theorem HeldInv.stalled (h : HeldInv p) (hfull : p.acked.length = queueLength + 1) : p.Stalled := by
  have hqueue := p.queue.length_le
  have hheld := length_heldByReceiver_le p
  rw [h.acked, List.length_append] at hfull
  have htodo : p.todo = [.xQueueSend] := by
    by_contra hnone
    rw [Pipeline.Node.heldByReceiver, if_neg hnone, List.length_nil] at hfull
    omega
  have hblocked : p.queue.send p.payloadBuf = none := by
    rw [BoundedFifo.send_eq_none_iff]
    omega
  exact ⟨htodo, by simp [Pipeline.Node.perform, htodo, hblocked]⟩

/-! ## From the reset on -/

variable {s s' t : Node}

/-- What holds in every state of every run. -/
structure NoPublisherInv (s : Node) : Prop where
  startup : StartupInv s
  held : s.esp.publisherTask ≠ .running → HeldInv s.pipe
  handshake : s.esp.publisherTask ≠ .running → Pipeline.HandshakeInv s.pipe.handshake

theorem noPublisherInv_step (h : NoPublisherInv s) {m : Move} (hstep : s.step m = some s') :
    NoPublisherInv s' := by
  have hnext := startupInv_step h.startup hstep
  rcases step_cases h.startup.esp hstep with ⟨b, esp, rfl, hesp, rfl⟩ |
    ⟨p, pipe, rfl, hruns, hpipe, rfl⟩ | ⟨-, -, uplink, rfl⟩
  · -- a publisher task that does not run now has not run before
    have hbefore : esp.publisherTask ≠ .running → s.esp.publisherTask ≠ .running :=
      fun hidle hrunning => hidle ((h.startup.esp.tasks_stay hesp).2 hrunning)
    exact ⟨hnext, fun hidle => h.held (hbefore hidle), fun hidle => h.handshake (hbefore hidle)⟩
  · refine ⟨hnext, fun hidle => heldInv_step (h.held hidle) hruns hidle hpipe, fun hidle => ?_⟩
    have hstep := step_congr hruns hidle _ true hpipe
    exact Pipeline.handshakeInv_step (h.handshake hidle) (Pipeline.handshakeStep_of_step hstep)
  · exact ⟨hnext, fun hidle => { h.held hidle with }, fun hidle => h.handshake hidle⟩

theorem noPublisherInv_of_reachable (h : system.Reachable s) : NoPublisherInv s := by
  apply h.invariant (I := NoPublisherInv)
  · rintro s ⟨payloadBuf, rfl⟩
    refine ⟨⟨AppMain.inv_start, rfl, fun _ => rfl, fun _ => rfl⟩,
      fun _ => heldInv_start payloadBuf, fun _ => ⟨rfl, Nat.le_refl 0⟩⟩
  · intro s m s' hinv hstep
    exact noPublisherInv_step hinv hstep

/-- The boot is over, and there is no publisher task. -/
def WithoutPublisher (s : Node) : Prop := s.esp.todo = [] ∧ s.esp.publisherTask = .missing

instance : DecidablePred WithoutPublisher := fun s => by
  unfold WithoutPublisher
  infer_instance

/-- Nothing creates it later. -/
theorem withoutPublisher_step (hinv : StartupInv s) (h : WithoutPublisher s) {m : Move}
    (hstep : s.step m = some s') : WithoutPublisher s' := by
  obtain ⟨hover, hmissing⟩ := h
  rcases step_cases hinv.esp hstep with ⟨b, esp, rfl, hesp, rfl⟩ | ⟨p, pipe, rfl, -, -, rfl⟩ |
    ⟨-, -, uplink, rfl⟩
  · cases b with
    | appMain ret handle =>
      obtain ⟨stmt, todo, _, -, htodo, -, -⟩ := AppMain.step_appMain hesp
      cases hover.symm.trans htodo
    | wifiMqtt m =>
      obtain ⟨client, -, -, -, rfl⟩ := AppMain.step_wifiMqtt hesp
      exact ⟨hover, hmissing⟩
    | publisherStarts =>
      obtain ⟨pvParameters, hcreated, -⟩ := AppMain.step_publisherStarts hesp
      cases hmissing.symm.trans hcreated
  · exact ⟨hover, hmissing⟩
  · exact ⟨hover, hmissing⟩

/-- After a boot in which the publisher task could not be created, in every state of every run:
there is still no publisher task, and nothing has been published. What was acknowledged lies in the
queue, or is held by the receiver. So at most 11 payloads have been acknowledged, and at most so
many calls of the STM32 have returned `true`; and with 11 the receiver task is blocked. -/
theorem lost_without_publisher (h : system.Reachable s) (hwithout : WithoutPublisher s)
    {ms : List Move} (hexec : system.exec s ms = some t) :
    WithoutPublisher t ∧ t.pipe.messages = [] ∧
      t.pipe.acked = t.pipe.queue.items ++ t.pipe.heldByReceiver ∧
      t.pipe.results.count true ≤ t.pipe.acked.length ∧
      t.pipe.acked.length ≤ queueLength + 1 ∧
      (t.pipe.acked.length = queueLength + 1 → t.pipe.Stalled) := by
  have hinv := noPublisherInv_of_reachable (h.exec hexec)
  obtain ⟨-, hstays⟩ : StartupInv t ∧ WithoutPublisher t := by
    refine TransitionSystem.exec_invariant (I := fun s => StartupInv s ∧ WithoutPublisher s) ?_
      ⟨startupInv_of_reachable h, hwithout⟩ hexec
    rintro s m s' ⟨hinv, hwithout⟩ hstep
    exact ⟨startupInv_step hinv hstep, withoutPublisher_step hinv hwithout hstep⟩
  have hidle : t.esp.publisherTask ≠ .running := by
    rw [hstays.2]
    simp
  have hheld := hinv.held hidle
  refine ⟨hstays, hinv.startup.publisher hidle, hheld.acked, ?_, hheld.length_acked_le,
    hheld.stalled⟩
  exact (Nat.le_add_right _ _).trans (hinv.handshake hidle).acks

/-- A boot in which the last call fails. -/
def bootWithoutPublisher : List Move :=
  .replicate 18 (.boot (.appMain .ok (some 1))) ++
    ([.init, .wifiStarted true, .init, .clientCreated (some 1), .init, .init].map
      fun m => .boot (.wifiMqtt m)) ++
    .replicate 2 (.boot (.appMain .ok none)) ++ [.boot (.appMain .other none)]

/-- After such a boot the first call returns `true`, though its payload is lost. -/
theorem lost_without_publisher_one_packet :
    ∃ s, system.Reachable s ∧ s.pipe.results = [true] ∧ s.pipe.messages = [] ∧
      s.pipe.acked = s.pipe.queue.items ++ s.pipe.heldByReceiver := by
  have hstart : system.Reachable ⟨Esp32.start, .start (.replicate _ 0#8), false⟩ := .init ⟨_, rfl⟩
  obtain ⟨s, hs, h⟩ := hstart.exists_of_exec bootWithoutPublisher
    (fun s => WithoutPublisher s ∧ (system.exec s
      ((beginCall (dataPacket 330#16 1000#16 2000#16) ++ answerFrame).map .pipe ++
        [.pipe .poll])).any fun t => t.pipe.results = [true]) (by decide +kernel)
  obtain ⟨hwithout, hrun⟩ := of_decide_eq_true h
  obtain ⟨t, hexec, hresults⟩ := (Option.any_eq_true _ _).mp hrun
  obtain ⟨-, hmessages, hacked, -⟩ := lost_without_publisher hs hwithout hexec
  exact ⟨t, hs.exec hexec, of_decide_eq_true hresults, hmessages, hacked⟩

end TelemetryNode.Startup
