import TelemetryNode.Esp32.AppMain
import TelemetryNode.System.Conservation

/-!
# From the start of the ESP32

The whole node while the ESP32 boots. The STM32 sends as before, the tasks of the ESP32 come into
being one after the other, and each of them uses what the boot has set up: the queue under three
names, the UART driver, and `mqtt_client`. Whatever the calls of the boot return and however it is
interleaved with the tasks and the event loop, no task finds anything missing. If no byte comes in
before the UART driver is there, the node is the one of `Pipeline` from the start.

## Main definitions

* `Startup.system`: the boot and the pipeline, in all interleavings.
* `Startup.NoEarlyByte`: no byte reaches the ESP32 before the UART driver is configured.

## Main results

* `Startup.no_fault`: what the tasks and the event loop rely on is there.
* `Startup.pipeline_reachable`: the runs are runs of the pipeline, with an MQTT client or without.
-/

namespace TelemetryNode.Startup

open AppMain (Esp32 Call appMain)

/-! ## The node -/

/-- `UART_NUM_1` has its driver, its configuration and its pins. -/
def uartReady (e : Esp32) : Bool :=
  .uartDriverInstall (AppMain.bufSize * 2) 0 ∈ e.completed ∧
    .uartParamConfig AppMain.uartConfig ∈ e.completed ∧
    .uartSetPin AppMain.txdPin AppMain.rxdPin ∈ e.completed

/-- `wifi_event_handler` is called for the event. -/
def registered (e : Esp32) : WifiMqttClient.Event → Bool
  | .staGotIp => .registerIpEvent ∈ e.completed
  | .staStart | .staDisconnected | .other => .registerWifiEvent ∈ e.completed

/-- A handle is that of the queue that has been created. -/
def isTelemetryQueue (e : Esp32) (handle : Option WifiMqttClient.Handle) : Bool :=
  handle.isSome ∧ handle = e.telemetryQueue

/-- The task that makes the move exists, if it is one of a task. -/
def taskRuns (e : Esp32) : Pipeline.Move → Bool
  | .read _ | .process | .perform => e.receiverTask
  | .receive | .publish => e.publisherTask = .running
  | .call _ | .transmit | .startWait | .poll | .arriveUp | .arriveDown => true

/-- What the move uses has been set up. -/
def usable (e : Esp32) (s : Pipeline.Node) : Pipeline.Move → Bool
  | .read _ => uartReady e
  | .perform =>
    match s.todo with
    | .sendResponse _ :: _ => uartReady e
    | .xQueueSend :: _ => isTelemetryQueue e e.outQueue
    | [] => true
  | .receive => isTelemetryQueue e e.inQueue
  | .call _ | .transmit | .startWait | .poll | .arriveUp | .arriveDown | .process | .publish => true

/-- Both controllers, with the boot of the ESP32. -/
structure Node where
  esp : Esp32
  pipe : Pipeline.Node
  /-- Record: something that is relied on was missing. -/
  fault : Bool

/-- The moves. -/
inductive Move
  /-- The boot, the event loop, or the start of the publisher task. -/
  | boot (m : AppMain.Move)
  /-- The STM32, the link, or one of the tasks. -/
  | pipe (m : Pipeline.Move)

/-- The state after a move, if it is possible. -/
def Node.step (s : Node) : Move → Option Node
  | .boot (.wifiMqtt (.deliver event)) =>
    (s.esp.step (.wifiMqtt (.deliver event))).map fun esp =>
      if registered s.esp event then { s with esp } else { s with fault := true }
  | .boot m => (s.esp.step m).map fun esp => { s with esp }
  | .pipe .arriveUp =>
    if uartReady s.esp then (s.pipe.step true .arriveUp).map fun pipe => { s with pipe }
    else
      -- nothing listens on the pin
      match s.pipe.uplink with
      | [] => none
      | _ :: uplink => some { s with pipe := { s.pipe with uplink } }
  | .pipe m =>
    if taskRuns s.esp m then
      (s.pipe.step s.esp.client.mqttClient.isSome m).map fun pipe =>
        if usable s.esp s.pipe m then { s with pipe } else { s with fault := true }
    else none

/-- All interleavings from the reset of the ESP32 on. -/
def system : TransitionSystem Node Move where
  init s := ∃ payloadBuf, s = ⟨Esp32.start, .start payloadBuf, false⟩
  step := Node.step

/-- A byte reaches the ESP32. -/
def Move.isByte : Move → Bool
  | .pipe .arriveUp => true
  | _ => false

/-- No byte reaches the ESP32 before the UART driver is configured. -/
def NoEarlyByte (s : Node) (m : Move) : Prop := m.isByte = true → uartReady s.esp = true

instance : DecidableRel NoEarlyByte := fun s m =>
  inferInstanceAs (Decidable (m.isByte = true → uartReady s.esp = true))

/-! ## What the tasks find -/

variable {s s' : Node} {e : Esp32}

theorem uartReady_of_receiver (h : AppMain.Inv e) (hexists : e.receiverTask = true) :
    uartReady e = true := by
  obtain ⟨-, -, -, hcompleted, -⟩ := h.ready (.inl hexists)
  simp only [uartReady, decide_eq_true_eq]
  exact ⟨hcompleted _ (by decide), hcompleted _ (by decide), hcompleted _ (by decide)⟩

theorem usable_of_taskRuns (h : AppMain.Inv e) {p : Pipeline.Node} {m : Pipeline.Move}
    (hruns : taskRuns e m = true) : usable e p m = true := by
  cases m with
  | read count => exact uartReady_of_receiver h hruns
  | perform =>
    obtain ⟨hqueue, hout, -, -, -⟩ := h.ready (.inl hruns)
    simp only [usable]
    split
    · exact uartReady_of_receiver h hruns
    · exact decide_eq_true ⟨hout ▸ hqueue, hout⟩
    · rfl
  | receive =>
    have hrunning : e.publisherTask = .running := of_decide_eq_true hruns
    obtain ⟨hqueue, -, hin, -, -⟩ := h.ready (.inr (by rw [hrunning]; simp))
    exact decide_eq_true ⟨hin hrunning ▸ hqueue, hin hrunning⟩
  | _ => rfl

theorem registered_of_step (h : AppMain.Inv e) {m : WifiMqttClient.Move} {e' : Esp32}
    (hstep : e.step (.wifiMqtt m) = some e') (event : WifiMqttClient.Event) :
    registered e event = true := by
  obtain ⟨client, hrunning, hbegun, -, -⟩ := AppMain.step_wifiMqtt hstep
  obtain ⟨hwifi, hip⟩ := (h.boot hrunning).registered hbegun
  cases event with
  | staGotIp => exact decide_eq_true hip
  | _ => exact decide_eq_true hwifi

/-- A move is one of the boot, or one of the pipeline, or a byte is lost. -/
theorem step_cases (hinv : AppMain.Inv s.esp) {m : Move} (h : s.step m = some s') :
    (∃ b esp, m = .boot b ∧ s.esp.step b = some esp ∧ s' = { s with esp }) ∨
      (∃ p pipe, m = .pipe p ∧ taskRuns s.esp p = true ∧
        s.pipe.step s.esp.client.mqttClient.isSome p = some pipe ∧ s' = { s with pipe }) ∨
      (m.isByte = true ∧ uartReady s.esp = false ∧
        ∃ uplink, s' = { s with pipe := { s.pipe with uplink } }) := by
  unfold Node.step at h
  split at h
  · rename_i event
    obtain ⟨esp, hesp, rfl⟩ := Option.map_eq_some_iff.mp h
    exact .inl ⟨_, esp, rfl, hesp, if_pos (registered_of_step hinv hesp event)⟩
  · obtain ⟨esp, hesp, rfl⟩ := Option.map_eq_some_iff.mp h
    exact .inl ⟨_, esp, rfl, hesp, rfl⟩
  -- a byte arrives: at the driver if it is installed, else nowhere
  · split at h
    · obtain ⟨pipe, hpipe, rfl⟩ := Option.map_eq_some_iff.mp h
      exact .inr (.inl ⟨_, pipe, rfl, rfl, hpipe, rfl⟩)
    · rename_i hready
      split at h
      · cases h
      · rename_i b uplink _
        cases h
        exact .inr (.inr ⟨rfl, (Bool.not_eq_true _).mp hready, uplink, rfl⟩)
  · rename_i m _
    obtain ⟨hruns, h⟩ := Option.ite_none_right_eq_some.mp h
    obtain ⟨pipe, hpipe, rfl⟩ := Option.map_eq_some_iff.mp h
    exact .inr (.inl ⟨m, pipe, rfl, hruns, hpipe, if_pos (usable_of_taskRuns hinv hruns)⟩)

/-! ## No task is too early -/

/-- Only the receiver task sends an ACK, and only the publisher task publishes. -/
theorem records_frame {mqttClient : Bool} {p p' : Pipeline.Node} {m : Pipeline.Move}
    (hruns : taskRuns e m = true) (h : p.step mqttClient m = some p') :
    (e.receiverTask = false → p'.acked = p.acked) ∧
      (e.publisherTask ≠ .running → p'.messages = p.messages) := by
  cases m with
  | call payload =>
    obtain ⟨-, rfl⟩ := Pipeline.step_call h
    exact ⟨fun _ => rfl, fun _ => rfl⟩
  | transmit =>
    obtain ⟨_, _, -, rfl⟩ := Pipeline.step_transmit h
    exact ⟨fun _ => rfl, fun _ => rfl⟩
  | startWait =>
    obtain ⟨-, rfl⟩ := Pipeline.step_startWait h
    exact ⟨fun _ => rfl, fun _ => rfl⟩
  | poll =>
    obtain ⟨_, -, ⟨-, -, rfl⟩ | ⟨-, -, rfl⟩ | ⟨-, rfl⟩⟩ := Pipeline.step_poll h <;>
      exact ⟨fun _ => rfl, fun _ => rfl⟩
  | arriveUp =>
    obtain ⟨_, _, -, rfl⟩ := Pipeline.step_arriveUp h
    exact ⟨fun _ => rfl, fun _ => rfl⟩
  | arriveDown =>
    obtain ⟨_, _, -, rfl⟩ := Pipeline.step_arriveDown h
    exact ⟨fun _ => rfl, fun _ => rfl⟩
  | read count =>
    obtain ⟨-, -, -, rfl⟩ := Pipeline.step_read h
    exact ⟨fun _ => rfl, fun _ => rfl⟩
  | process =>
    obtain ⟨_, _, _, _, -, -, -, rfl⟩ := Pipeline.step_process h
    exact ⟨fun _ => rfl, fun _ => rfl⟩
  | perform =>
    -- the receiver task performs its calls, so it exists
    refine ⟨fun hmissing => absurd (hmissing.symm.trans hruns) Bool.false_ne_true, fun _ => ?_⟩
    obtain ⟨_, _, -, rfl⟩ | ⟨_, _, -, -, rfl⟩ := Pipeline.step_perform h <;> rfl
  | receive =>
    obtain ⟨_, _, -, -, rfl⟩ := Pipeline.step_receive h
    exact ⟨fun _ => rfl, fun _ => rfl⟩
  | publish =>
    -- the publisher task publishes, so it runs
    refine ⟨fun _ => ?_, fun hidle => absurd (of_decide_eq_true hruns) hidle⟩
    simp only [Pipeline.Node.step] at h
    split at h
    · split at h <;> cases h <;> rfl
    · cases h

/-- What holds in every state of every run. -/
structure StartupInv (s : Node) : Prop where
  esp : AppMain.Inv s.esp
  fault : s.fault = false
  receiver : s.esp.receiverTask = false → s.pipe.acked = []
  publisher : s.esp.publisherTask ≠ .running → s.pipe.messages = []

theorem startupInv_step (h : StartupInv s) {m : Move} (hstep : s.step m = some s') :
    StartupInv s' := by
  rcases step_cases h.esp hstep with ⟨b, esp, rfl, hesp, rfl⟩ | ⟨p, pipe, rfl, hruns, hpipe, rfl⟩ |
    ⟨-, -, uplink, rfl⟩
  · obtain ⟨hreceiver, hpublisher⟩ := h.esp.tasks_stay hesp
    refine ⟨AppMain.inv_step h.esp hesp, h.fault, fun hmissing => h.receiver ?_,
      fun hidle => h.publisher fun hrunning => hidle (hpublisher hrunning)⟩
    rw [← Bool.not_eq_true]
    exact fun hexists => Bool.false_ne_true (hmissing.symm.trans (hreceiver hexists))
  · refine ⟨h.esp, h.fault, fun hmissing => ?_, fun hidle => ?_⟩
    · exact ((records_frame hruns hpipe).1 hmissing).trans (h.receiver hmissing)
    · exact ((records_frame hruns hpipe).2 hidle).trans (h.publisher hidle)
  · exact ⟨h.esp, h.fault, h.receiver, h.publisher⟩

theorem startupInv_of_reachable (h : system.Reachable s) : StartupInv s := by
  apply h.invariant (I := StartupInv)
  · rintro s ⟨payloadBuf, rfl⟩
    exact ⟨AppMain.inv_start, rfl, fun _ => rfl, fun _ => rfl⟩
  · intro s m s' hinv hstep
    exact startupInv_step hinv hstep

/-- In every state of every run, whatever the calls of the boot return: nothing was missing so far.
The receiver task finds its driver and its queue, and the publisher task its queue and what
`esp_mqtt_client_init` has returned. If the boot has ended early, there are no tasks, nothing was
acknowledged, and nothing was published. -/
theorem no_fault (h : system.Reachable s) :
    s.fault = false ∧
      (s.esp.receiverTask = true →
        uartReady s.esp = true ∧ isTelemetryQueue s.esp s.esp.outQueue = true) ∧
      (s.esp.publisherTask = .running →
        isTelemetryQueue s.esp s.esp.inQueue = true ∧ s.esp.client.initPc = .returned) ∧
      (s.esp.outcome ≠ .running → s.esp.receiverTask = false ∧ s.esp.publisherTask = .missing ∧
        s.pipe.acked = [] ∧ s.pipe.messages = []) := by
  have hinv := startupInv_of_reachable h
  refine ⟨hinv.fault, fun hexists => ?_, fun hrunning => ?_, fun hended => ?_⟩
  · obtain ⟨hqueue, hout, -, -, -⟩ := hinv.esp.ready (.inl hexists)
    exact ⟨uartReady_of_receiver hinv.esp hexists, decide_eq_true ⟨hout ▸ hqueue, hout⟩⟩
  · obtain ⟨hqueue, -, hin, -, hreturned⟩ := hinv.esp.ready (.inr (by rw [hrunning]; simp))
    exact ⟨decide_eq_true ⟨hin hrunning ▸ hqueue, hin hrunning⟩, hreturned⟩
  · obtain ⟨hreceiver, hpublisher⟩ := hinv.esp.ended hended
    exact ⟨hreceiver, hpublisher, hinv.receiver hreceiver,
      hinv.publisher (by rw [hpublisher]; simp)⟩

/-- A boot in which every call succeeds. -/
def bootMoves : List Move :=
  .replicate 18 (.boot (.appMain .ok (some 1))) ++
    ([.init, .wifiStarted true, .init, .clientCreated (some 1), .init, .init].map
      fun m => .boot (.wifiMqtt m)) ++
    .replicate 3 (.boot (.appMain .ok none)) ++ [.boot .publisherStarts]

/-- After such a boot. -/
theorem no_fault_booted :
    ∃ s, system.Reachable s ∧ s.esp.publisherTask = .running ∧
      isTelemetryQueue s.esp s.esp.inQueue = true := by
  have hstart : system.Reachable ⟨Esp32.start, .start (.replicate _ 0#8), false⟩ := .init ⟨_, rfl⟩
  obtain ⟨s, hs, h⟩ := hstart.exists_of_exec bootMoves
    (fun s => s.esp.publisherTask = .running) (by decide +kernel)
  have hrunning := of_decide_eq_true h
  exact ⟨s, hs, hrunning, ((no_fault hs).2.2.1 hrunning).1⟩

/-! ## The pipeline from the start -/

/-- Only the publisher task tests `mqtt_client`. -/
theorem step_congr {p p' : Pipeline.Node} {m : Pipeline.Move} (hruns : taskRuns e m = true)
    (hidle : e.publisherTask ≠ .running) (a b : Bool) (h : p.step a m = some p') :
    p.step b m = some p' := by
  cases m with
  | publish => exact absurd (of_decide_eq_true hruns) hidle
  | _ => exact h

/-- The pipeline is in a state that it reaches with the client that there is, and before the
publisher task runs, in one that it reaches with and without a client. -/
structure PipelineInv (s : Node) : Prop where
  startup : StartupInv s
  reachable : ∀ mqttClient,
    (s.esp.publisherTask = .running → mqttClient = s.esp.client.mqttClient.isSome) →
      (Pipeline.system mqttClient).Reachable s.pipe

theorem pipelineInv_step (h : PipelineInv s) {m : Move} (hearly : NoEarlyByte s m)
    (hstep : s.step m = some s') : PipelineInv s' := by
  refine ⟨startupInv_step h.startup hstep, fun mqttClient hclient => ?_⟩
  rcases step_cases h.startup.esp hstep with ⟨b, esp, rfl, hesp, rfl⟩ |
    ⟨p, pipe, rfl, hruns, hpipe, rfl⟩ | ⟨hbyte, hready, -⟩
  · apply h.reachable mqttClient
    intro hrunning
    have hsame := h.startup.esp.mqttClient_stays (.inr (by rw [hrunning]; simp)) hesp
    rw [← hsame]
    exact hclient ((h.startup.esp.tasks_stay hesp).2 hrunning)
  · refine (h.reachable mqttClient hclient).next (l := p) ?_
    by_cases hrunning : s.esp.publisherTask = .running
    · rw [hclient hrunning]
      exact hpipe
    · exact step_congr hruns hrunning _ _ hpipe
  · exact absurd (hready.symm.trans (hearly hbyte)) Bool.false_ne_true

/-- Without an early byte every run is one of the pipeline, with an MQTT client exactly if there is
one now. So whatever holds in every run of the pipeline holds from the reset of the ESP32 on. -/
theorem pipeline_reachable (h : system.ReachableUnder NoEarlyByte s) :
    (Pipeline.system s.esp.client.mqttClient.isSome).Reachable s.pipe := by
  have hinv : PipelineInv s := by
    apply h.invariant (I := PipelineInv)
    · rintro s ⟨payloadBuf, rfl⟩
      refine ⟨⟨AppMain.inv_start, rfl, fun _ => rfl, fun _ => rfl⟩, fun _ _ => ?_⟩
      exact .init ⟨payloadBuf, rfl⟩
    · intro s m s' hinv hearly hstep
      exact pipelineInv_step hinv hearly hstep
  exact hinv.reachable _ fun _ => rfl

/-- One packet goes all the way after the boot. -/
theorem pipeline_reachable_one_packet :
    ∃ s, system.ReachableUnder NoEarlyByte s ∧
      s.pipe.published = [dataPacket 330#16 1000#16 2000#16] ∧
      (Pipeline.system true).Reachable s.pipe := by
  have hstart : (system.restrict NoEarlyByte).Reachable
      ⟨Esp32.start, .start (.replicate _ 0#8), false⟩ := .init ⟨_, rfl⟩
  obtain ⟨s, hs, h⟩ := hstart.exists_of_exec
    (bootMoves ++ (Pipeline.beginCall (dataPacket 330#16 1000#16 2000#16)).map .pipe ++
      Pipeline.answerFrame.map .pipe ++ [.pipe .poll, .pipe .receive, .pipe .publish])
    (fun s => s.pipe.published = [dataPacket 330#16 1000#16 2000#16] ∧
      s.esp.client.mqttClient.isSome = true) (by decide +kernel)
  obtain ⟨hpublished, hclient⟩ := of_decide_eq_true h
  have hreachable := pipeline_reachable (.of_restrict hs)
  rw [hclient] at hreachable
  exact ⟨s, .of_restrict hs, hpublished, hreachable⟩

end TelemetryNode.Startup
