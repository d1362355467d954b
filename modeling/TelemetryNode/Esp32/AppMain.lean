import Mathlib.Data.List.Infix
import TelemetryNode.Esp32.WifiMqttClient
import TelemetryNode.Library.Composition

/-!
# The boot of the ESP32

`app_main` of `main/main.cpp`, with `uart_receiver_init` and `wifi_mqtt_init`. They set up the
queue, the UART driver, Wi-Fi and the MQTT client, and then two tasks are created that rely on all
of this. Each call may fail: `ESP_ERROR_CHECK` restarts the ESP32 then, and without a queue
`app_main` returns. Only the results of `xTaskCreate` are ignored.

## Main definitions

* `AppMain.appMain`: the statements, in their order.
* `AppMain.Esp32`: what they have set up.
* `AppMain.Esp32.step`: the boot, the event loop and the start of the publisher task.

## Main results

* `AppMain.Inv.ready`: the tasks exist only after all of it has been set up.
* `AppMain.projectsTo_wifiMqttClient`: the runs of `WifiMqttClient` are part of it.
* `AppMain.started_by_each_address`: a start that was missed is made up for.
-/

namespace TelemetryNode.AppMain

open WifiMqttClient (Handle)

/-! ## The statements -/

/-- `esp_err_t`, as far as the boot tells its values apart. -/
inductive EspErr
  | ok
  | nvsNoFreePages
  | nvsNewVersionFound
  | other
  deriving DecidableEq, Repr

/-- `BUF_SIZE` of `uart_receiver.cpp`. -/
def bufSize : ℕ := 1024

/-- `uart_config_t`, with the fields that `uart_receiver_init` assigns, except for `source_clk`,
which is the default clock. -/
structure UartConfig where
  baudRate : ℕ
  dataBits : ℕ
  parity : Bool
  stopBits : ℕ
  flowCtrl : Bool
  deriving DecidableEq, Repr

/-- 115200 baud, 8 data bits, no parity, one stop bit, no flow control. -/
def uartConfig : UartConfig where
  baudRate := 115200
  dataBits := 8
  parity := false
  stopBits := 1
  flowCtrl := false

/-- `TXD_PIN`. -/
def txdPin : ℕ := 17

/-- `RXD_PIN`. -/
def rxdPin : ℕ := 16

/-- The calls within `ESP_ERROR_CHECK`, but for those of the NVS. -/
inductive Call
  | uartDriverInstall (rxBufferSize txBufferSize : ℕ)
  | uartParamConfig (config : UartConfig)
  | uartSetPin (txd rxd : ℕ)
  | espNetifInit
  | espEventLoopCreateDefault
  | espWifiInit
  /-- `wifi_event_handler` is registered for all Wi-Fi events. -/
  | registerWifiEvent
  /-- `wifi_event_handler` is registered for `IP_EVENT_STA_GOT_IP`. -/
  | registerIpEvent
  /-- With `WIFI_MODE_STA`. -/
  | espWifiSetMode
  | espWifiSetConfig
  deriving DecidableEq, Repr

/-- The statements of the boot. -/
inductive Statement
  /-- `telemetry_queue = xQueueCreate(10, sizeof(telemetry_payload_t))`. -/
  | xQueueCreate
  /-- `if (telemetry_queue == NULL) return`. -/
  | testQueue
  /-- `out_queue = data_queue`. -/
  | storeQueue
  /-- `ESP_ERROR_CHECK` of a call. -/
  | check (call : Call)
  /-- `ret = nvs_flash_init()`. -/
  | nvsFlashInit
  /-- `ESP_ERROR_CHECK(nvs_flash_erase())`, if `ret` asks for it. -/
  | nvsFlashErase
  /-- `ret = nvs_flash_init()`, in the same case. -/
  | nvsFlashInitAgain
  /-- `ESP_ERROR_CHECK(ret)`. -/
  | nvsCheck
  /-- `esp_netif_create_default_wifi_sta()`. -/
  | createDefaultWifiSta
  /-- From `esp_wifi_start` on. -/
  | wifiMqttClient
  /-- `xTaskCreate(uart_receiver_task, ...)`. -/
  | createReceiverTask
  /-- `xTaskCreate(mqtt_publisher_task, ..., telemetry_queue, ...)`. -/
  | createPublisherTask
  deriving DecidableEq, Repr

/-- `uart_receiver_init(telemetry_queue)`. -/
def uartReceiverInit : List Statement := [
  .storeQueue, .check (.uartDriverInstall (bufSize * 2) 0), .check (.uartParamConfig uartConfig),
  .check (.uartSetPin txdPin rxdPin)]

/-- `wifi_mqtt_init()`. -/
def wifiMqttInit : List Statement := [
  .nvsFlashInit, .nvsFlashErase, .nvsFlashInitAgain, .nvsCheck,
  .check .espNetifInit, .check .espEventLoopCreateDefault, .createDefaultWifiSta,
  .check .espWifiInit, .check .registerWifiEvent, .check .registerIpEvent,
  .check .espWifiSetMode, .check .espWifiSetConfig, .wifiMqttClient]

/-- `app_main()` up to its loop. -/
def appMain : List Statement :=
  [.xQueueCreate, .testQueue] ++ uartReceiverInit ++ wifiMqttInit ++
    [.createReceiverTask, .createPublisherTask]

/-! ## The boot -/

/-- How the boot stands. -/
inductive Outcome
  | running
  /-- `app_main` has returned. -/
  | returned
  /-- `ESP_ERROR_CHECK` has failed. -/
  | restarting
  deriving DecidableEq, Repr

/-- The publisher task. -/
inductive PublisherTask
  | missing
  /-- It has been created with `pvParameters`, and has not run yet. -/
  | created (pvParameters : Option Handle)
  | running
  deriving DecidableEq, Repr

/-- What the boot has set up. -/
structure Esp32 where
  todo : List Statement
  outcome : Outcome
  telemetryQueue : Option Handle
  /-- `out_queue` of `uart_receiver.cpp`. -/
  outQueue : Option Handle
  /-- `in_queue` of `wifi_mqtt_client.cpp`. -/
  inQueue : Option Handle
  /-- `ret` of `wifi_mqtt_init`. -/
  ret : EspErr
  /-- The checked calls that have succeeded. -/
  completed : List Call
  /-- `wifi_mqtt_init` from `esp_wifi_start` on, and the event loop with `wifi_event_handler`. -/
  client : WifiMqttClient.Node
  /-- `uart_receiver_task` exists. -/
  receiverTask : Bool
  publisherTask : PublisherTask

/-- `app_main` is called. -/
def Esp32.start : Esp32 where
  todo := appMain
  outcome := .running
  telemetryQueue := none
  outQueue := none
  inQueue := none
  ret := .ok
  completed := []
  client := .start
  receiverTask := false
  publisherTask := .missing

/-- `ESP_ERROR_CHECK` fails. -/
def Esp32.restart (e : Esp32) : Esp32 := { e with outcome := .restarting }

/-- `ret == ESP_ERR_NVS_NO_FREE_PAGES || ret == ESP_ERR_NVS_NEW_VERSION_FOUND`. -/
def EspErr.asksForErase (ret : EspErr) : Bool := ret = .nvsNoFreePages ∨ ret = .nvsNewVersionFound

/-- A statement, with what its call returns, if it makes one. It is not over while
`wifi_mqtt_init` is within its part in `WifiMqttClient`. -/
def Esp32.execute (e : Esp32) (ret : EspErr) (handle : Option Handle) : Statement → Option Esp32
  | .xQueueCreate => some { e with telemetryQueue := handle }
  | .testQueue => some (if e.telemetryQueue.isSome then e else { e with outcome := .returned })
  | .storeQueue => some { e with outQueue := e.telemetryQueue }
  | .check call =>
    some (if ret = .ok then { e with completed := call :: e.completed } else e.restart)
  | .nvsFlashInit => some { e with ret }
  | .nvsFlashErase => some (if e.ret.asksForErase ∧ ret ≠ .ok then e.restart else e)
  | .nvsFlashInitAgain => some (if e.ret.asksForErase then { e with ret } else e)
  | .nvsCheck => some (if e.ret = .ok then e else e.restart)
  | .createDefaultWifiSta => some e
  | .wifiMqttClient => if e.client.initPc = .returned then some e else none
  | .createReceiverTask => some { e with receiverTask := ret = .ok }
  | .createPublisherTask =>
    some { e with publisherTask := if ret = .ok then .created e.telemetryQueue else .missing }

/-- The moves. -/
inductive Move
  /-- `app_main` executes its next statement. -/
  | appMain (ret : EspErr) (handle : Option Handle)
  /-- `wifi_mqtt_init` from `esp_wifi_start` on, and the event loop. -/
  | wifiMqtt (m : WifiMqttClient.Move)
  /-- `mqtt_publisher_task` stores `pvParameters` in `in_queue`. -/
  | publisherStarts
  deriving DecidableEq, Repr

/-- The state after a move, if it is possible. -/
def Esp32.step (e : Esp32) : Move → Option Esp32
  | .appMain ret handle =>
    match e.outcome, e.todo with
    | .running, stmt :: todo => (e.execute ret handle stmt).map fun e => { e with todo }
    | _, _ => none
  | .wifiMqtt m =>
    -- `esp_wifi_start` is the statement after `esp_wifi_set_config`
    if e.outcome = .running ∧ .check .espWifiSetConfig ∉ e.todo then
      (e.client.step m).map fun client => { e with
        client
        outcome := if client.initPc = .aborted then .restarting else e.outcome }
    else none
  | .publisherStarts =>
    match e.publisherTask with
    | .created pvParameters => some { e with inQueue := pvParameters, publisherTask := .running }
    | _ => none

/-- All runs of the boot. -/
def system : TransitionSystem Esp32 Move where
  init e := e = Esp32.start
  step := Esp32.step

/-! ## What a move does -/

variable {e e' : Esp32} {stmt : Statement} {todo : List Statement}

theorem step_appMain {ret : EspErr} {handle : Option Handle}
    (h : e.step (.appMain ret handle) = some e') :
    ∃ stmt todo e₁, e.outcome = .running ∧ e.todo = stmt :: todo ∧
      e.execute ret handle stmt = some e₁ ∧ e' = { e₁ with todo } := by
  simp only [Esp32.step] at h
  split at h
  · obtain ⟨e₁, hexecute, rfl⟩ := Option.map_eq_some_iff.mp h
    exact ⟨_, _, e₁, ‹_›, ‹_›, hexecute, rfl⟩
  · cases h

theorem step_wifiMqtt {m : WifiMqttClient.Move} (h : e.step (.wifiMqtt m) = some e') :
    ∃ client, e.outcome = .running ∧ .check .espWifiSetConfig ∉ e.todo ∧
      e.client.step m = some client ∧
      e' = { e with
        client
        outcome := if client.initPc = .aborted then .restarting else e.outcome } := by
  obtain ⟨⟨hrunning, hbegun⟩, h⟩ := Option.ite_none_right_eq_some.mp h
  obtain ⟨client, hclient, rfl⟩ := Option.map_eq_some_iff.mp h
  exact ⟨client, hrunning, hbegun, hclient, rfl⟩

theorem step_publisherStarts (h : e.step .publisherStarts = some e') :
    ∃ pvParameters, e.publisherTask = .created pvParameters ∧
      e' = { e with inQueue := pvParameters, publisherTask := .running } := by
  simp only [Esp32.step] at h
  split at h
  · exact ⟨_, ‹_›, (Option.some_inj.mp h).symm⟩
  · cases h

/-! ## What has been set up -/

/-- What holds while the boot goes on or is over. -/
structure BootInv (e : Esp32) : Prop where
  suffix : e.todo <:+ appMain
  completed : ∀ call, .check call ∈ appMain → .check call ∉ e.todo → call ∈ e.completed
  queue : .testQueue ∉ e.todo → e.telemetryQueue.isSome = true
  outQueue : .storeQueue ∉ e.todo → e.outQueue = e.telemetryQueue
  client : .wifiMqttClient ∉ e.todo → e.client.initPc = .returned
  receiver : e.receiverTask = true → .createReceiverTask ∉ e.todo
  publisher : e.publisherTask ≠ .missing → .createPublisherTask ∉ e.todo
  pvParameters : ∀ pvParameters, e.publisherTask = .created pvParameters →
    pvParameters = e.telemetryQueue
  inQueue : e.publisherTask = .running → e.inQueue = e.telemetryQueue

/-- Of two statements of the boot, the later one is still to be executed if the earlier one is. -/
theorem mem_todo_of_later {todo later : List Statement} (h : todo <:+ appMain)
    (hlater : later <:+ appMain) {a b : Statement} (ha : a ∈ todo) (hnot : a ∉ later)
    (hb : b ∈ later) : b ∈ todo := by
  rcases List.suffix_or_suffix_of_suffix h hlater with hle | hle
  · exact absurd (hle.subset ha) hnot
  · exact hle.subset hb

theorem nodup_appMain : appMain.Nodup := by decide

/-- A statement is executed that does not touch `telemetry_queue`. -/
theorem BootInv.advance (h : BootInv e) (htodo : e.todo = stmt :: todo)
    (hqueue : e'.telemetryQueue = e.telemetryQueue)
    (hclient : e'.client = e.client) (hinQueue : e'.inQueue = e.inQueue)
    (hcompleted : ∀ call, call ∈ e.completed ∨ stmt = .check call → call ∈ e'.completed)
    (htested : stmt = .testQueue → e.telemetryQueue.isSome = true)
    (hstored : e'.outQueue = if stmt = .storeQueue then e.telemetryQueue else e.outQueue)
    (hreturned : stmt = .wifiMqttClient → e.client.initPc = .returned)
    (hreceiver : e'.receiverTask = e.receiverTask ∨ stmt = .createReceiverTask)
    (hpublisher : e'.publisherTask = e.publisherTask ∨ stmt = .createPublisherTask ∧
      (e'.publisherTask = .missing ∨ e'.publisherTask = .created e.telemetryQueue)) :
    BootInv { e' with todo } := by
  have hsuffix : stmt :: todo <:+ appMain := htodo ▸ h.suffix
  have hnodup : (stmt :: todo).Nodup := hsuffix.sublist.nodup nodup_appMain
  -- a statement that is not to come and is not this one was executed before it
  have hearlier : ∀ f, f ≠ stmt → f ∉ todo → f ∉ e.todo := by
    intro f hne hnot
    rw [htodo]
    exact List.not_mem_cons_of_ne_of_not_mem hne hnot
  have hfrom : ∀ f, f ∉ e.todo → f ∉ todo := by
    intro f hnot hmem
    rw [htodo] at hnot
    exact hnot (List.mem_cons_of_mem _ hmem)
  constructor
  case suffix => exact (List.suffix_cons _ _).trans hsuffix
  case completed =>
    intro call hcall hnot
    by_cases heq : stmt = .check call
    · exact hcompleted call (.inr heq)
    · exact hcompleted call (.inl (h.completed call hcall (hearlier _ (Ne.symm heq) hnot)))
  case queue =>
    intro hnot
    show e'.telemetryQueue.isSome = true
    rw [hqueue]
    by_cases heq : stmt = .testQueue
    · exact htested heq
    · exact h.queue (hearlier _ (Ne.symm heq) hnot)
  case outQueue =>
    intro hnot
    show e'.outQueue = e'.telemetryQueue
    rw [hqueue, hstored]
    split
    · rfl
    · rename_i heq
      exact h.outQueue (hearlier _ (Ne.symm heq) hnot)
  case client =>
    intro hnot
    show e'.client.initPc = .returned
    rw [hclient]
    by_cases heq : stmt = .wifiMqttClient
    · exact hreturned heq
    · exact h.client (hearlier _ (Ne.symm heq) hnot)
  case receiver =>
    intro hexists
    rcases hreceiver with hsame | rfl
    -- a task that existed before was created by an earlier statement
    · exact hfrom _ (h.receiver (hsame.symm.trans hexists))
    · exact (List.nodup_cons.mp hnodup).1
  case publisher =>
    intro hexists
    rcases hpublisher with hsame | ⟨rfl, -⟩
    · exact hfrom _ (h.publisher fun hmissing => hexists (hsame.trans hmissing))
    · exact (List.nodup_cons.mp hnodup).1
  case pvParameters =>
    intro pvParameters hcreated
    show pvParameters = e'.telemetryQueue
    rw [hqueue]
    change e'.publisherTask = .created pvParameters at hcreated
    rcases hpublisher with hsame | ⟨-, hnew | hnew⟩
    · exact h.pvParameters _ (hsame.symm.trans hcreated)
    · cases hnew.symm.trans hcreated
    · cases hnew.symm.trans hcreated
      rfl
  case inQueue =>
    intro hrunning
    show e'.inQueue = e'.telemetryQueue
    rw [hqueue, hinQueue]
    change e'.publisherTask = .running at hrunning
    rcases hpublisher with hsame | ⟨-, hnew | hnew⟩
    · exact h.inQueue (hsame.symm.trans hrunning)
    · cases hnew.symm.trans hrunning
    · cases hnew.symm.trans hrunning

/-- The queue is created before everything else. -/
theorem BootInv.createQueue (h : BootInv e) (htodo : e.todo = .xQueueCreate :: todo)
    (handle : Option Handle) : BootInv { e with telemetryQueue := handle, todo } := by
  have hsuffix : .xQueueCreate :: todo <:+ appMain := htodo ▸ h.suffix
  -- everything but the creation of the queue is still to come
  have hlater : ∀ f ∈ appMain.tail, f ∈ todo := by
    intro f hf
    have hmem := mem_todo_of_later hsuffix (List.tail_suffix appMain) List.mem_cons_self
      (by decide) hf
    refine (List.mem_cons.mp hmem).resolve_left ?_
    rintro rfl
    exact absurd hf (by decide)
  have hnone : e.publisherTask = .missing := by
    by_contra hexists
    refine h.publisher hexists ?_
    rw [htodo]
    exact List.mem_cons_of_mem _ (hlater _ (by decide))
  constructor
  case suffix => exact (List.suffix_cons _ _).trans hsuffix
  case completed =>
    intro call hcall hnot
    apply h.completed call hcall
    rw [htodo]
    exact List.not_mem_cons_of_ne_of_not_mem (by simp) hnot
  case queue => exact fun hnot => absurd (hlater _ (by decide)) hnot
  case outQueue => exact fun hnot => absurd (hlater _ (by decide)) hnot
  case client => exact fun hnot => absurd (hlater _ (by decide)) hnot
  case receiver =>
    intro hexists
    refine absurd ?_ (h.receiver hexists)
    rw [htodo]
    exact List.mem_cons_of_mem _ (hlater _ (by decide))
  case publisher => exact fun hexists => absurd hnone hexists
  case pvParameters => exact fun _ hcreated => by cases hnone.symm.trans hcreated
  case inQueue => exact fun hrunning => by cases hnone.symm.trans hrunning

/-- The statements on the NVS change `ret`, if they do not end the boot. -/
theorem ret_of_execute {ret : EspErr} {handle : Option Handle}
    (hstmt : stmt ∈ [.nvsFlashInit, .nvsFlashErase, .nvsFlashInitAgain, .nvsCheck])
    (hexecute : e.execute ret handle stmt = some e') (hrunning : e'.outcome = .running) :
    ∃ ret, e' = { e with ret } := by
  simp only [List.mem_cons, List.not_mem_nil, or_false] at hstmt
  rcases hstmt with rfl | rfl | rfl | rfl
  · cases hexecute
    exact ⟨ret, rfl⟩
  · rw [Esp32.execute, Option.some.injEq] at hexecute
    split at hexecute <;> subst hexecute
    · cases hrunning
    · exact ⟨e.ret, rfl⟩
  · rw [Esp32.execute, Option.some.injEq] at hexecute
    split at hexecute <;> subst hexecute
    · exact ⟨ret, rfl⟩
    · exact ⟨e.ret, rfl⟩
  · rw [Esp32.execute, Option.some.injEq] at hexecute
    split at hexecute <;> subst hexecute
    · exact ⟨e.ret, rfl⟩
    · cases hrunning

/-- A statement keeps the invariant, unless it ends the boot. -/
theorem bootInv_execute (h : BootInv e) (htodo : e.todo = stmt :: todo) {ret : EspErr}
    {handle : Option Handle} (hexecute : e.execute ret handle stmt = some e')
    (hrunning : e'.outcome = .running) : BootInv { e' with todo } := by
  have hnvs := fun hstmt => ret_of_execute hstmt hexecute hrunning
  cases stmt with
  | xQueueCreate =>
    cases hexecute
    exact h.createQueue htodo handle
  | testQueue =>
    rw [Esp32.execute, Option.some.injEq] at hexecute
    split at hexecute <;> subst hexecute
    · rename_i hsome
      exact h.advance htodo rfl rfl rfl (by simp) (fun _ => hsome) rfl (by simp) (.inl rfl)
        (.inl rfl)
    -- without a queue the boot ends
    · cases hrunning
  | check call =>
    rw [Esp32.execute, Option.some.injEq] at hexecute
    split at hexecute <;> subst hexecute
    · refine h.advance htodo rfl rfl rfl ?_ (by simp) rfl (by simp) (.inl rfl) (.inl rfl)
      rintro call' (hbefore | heq)
      · exact List.mem_cons_of_mem _ hbefore
      · cases heq
        exact List.mem_cons_self
    · cases hrunning
  | wifiMqttClient =>
    -- `app_main` goes on when `wifi_mqtt_init` has returned
    obtain ⟨hreturned, hsame⟩ := Option.ite_none_right_eq_some.mp hexecute
    cases hsame
    exact h.advance htodo rfl rfl rfl (by simp) (by simp) rfl (fun _ => hreturned) (.inl rfl)
      (.inl rfl)
  | createReceiverTask =>
    cases hexecute
    exact h.advance htodo rfl rfl rfl (by simp) (by simp) rfl (by simp) (.inr rfl) (.inl rfl)
  | createPublisherTask =>
    cases hexecute
    refine h.advance htodo rfl rfl rfl (by simp) (by simp) rfl (by simp) (.inl rfl)
      (.inr ⟨rfl, ?_⟩)
    -- the task is created with the handle of this moment, or not at all
    by_cases hok : ret = .ok
    · exact .inr (if_pos hok)
    · exact .inl (if_neg hok)
  | storeQueue | createDefaultWifiSta =>
    cases hexecute
    exact h.advance htodo rfl rfl rfl (by simp) (by simp) rfl (by simp) (.inl rfl) (.inl rfl)
  | nvsFlashInit | nvsFlashErase | nvsFlashInitAgain | nvsCheck =>
    obtain ⟨ret', rfl⟩ := hnvs (by decide)
    exact h.advance htodo rfl rfl rfl (by simp) (by simp) rfl (by simp) (.inl rfl) (.inl rfl)

/-! ## What the tasks rely on -/

/-- No task exists before the last two statements. -/
theorem BootInv.tasks_missing (h : BootInv e) (hmem : stmt ∈ e.todo)
    (hearly : stmt ∉ [.createReceiverTask, .createPublisherTask]) :
    e.receiverTask = false ∧ e.publisherTask = .missing := by
  have hlater : ∀ f ∈ [Statement.createReceiverTask, .createPublisherTask], f ∈ e.todo := by
    intro f hf
    exact mem_todo_of_later h.suffix (by decide) hmem hearly hf
  constructor
  · rw [← Bool.not_eq_true]
    exact fun hexists => h.receiver hexists (hlater _ (by decide))
  · by_contra hexists
    exact h.publisher hexists (hlater _ (by decide))

/-- Each task is created by its own statement, and `WifiMqttClient` moves by itself. -/
theorem frame_of_execute {ret : EspErr} {handle : Option Handle}
    (hexecute : e.execute ret handle stmt = some e') :
    (stmt ≠ .createReceiverTask → e'.receiverTask = e.receiverTask) ∧
      (stmt ≠ .createPublisherTask → e'.publisherTask = e.publisherTask) ∧
      e'.client = e.client := by
  cases stmt with
  | testQueue | check | nvsFlashErase | nvsFlashInitAgain | nvsCheck =>
    rw [Esp32.execute, Option.some.injEq] at hexecute
    split at hexecute <;> subst hexecute <;> exact ⟨fun _ => rfl, fun _ => rfl, rfl⟩
  | wifiMqttClient =>
    obtain ⟨-, hsame⟩ := Option.ite_none_right_eq_some.mp hexecute
    cases hsame
    exact ⟨fun _ => rfl, fun _ => rfl, rfl⟩
  | createReceiverTask =>
    cases hexecute
    exact ⟨fun hne => absurd rfl hne, fun _ => rfl, rfl⟩
  | createPublisherTask =>
    cases hexecute
    exact ⟨fun _ => rfl, fun hne => absurd rfl hne, rfl⟩
  | xQueueCreate | storeQueue | nvsFlashInit | createDefaultWifiSta =>
    cases hexecute
    exact ⟨fun _ => rfl, fun _ => rfl, rfl⟩

/-- Once `wifi_mqtt_init` has returned, `mqtt_client` does not change. -/
theorem client_step_of_returned {s s' : WifiMqttClient.Node} {m : WifiMqttClient.Move}
    (hreturned : s.initPc = .returned) (h : s.step m = some s') :
    s'.initPc = .returned ∧ s'.mqttClient = s.mqttClient := by
  cases m with
  | init => simp [WifiMqttClient.Node.step, WifiMqttClient.Node.init, hreturned] at h
  | wifiStarted ok => simp [WifiMqttClient.Node.step, hreturned] at h
  | clientCreated handle => simp [WifiMqttClient.Node.step, hreturned] at h
  | deliver event =>
    obtain ⟨-, hsome⟩ := Option.ite_none_right_eq_some.mp h
    cases hsome
    exact ⟨hreturned, rfl⟩
  | handler =>
    obtain ⟨-, h⟩ := Option.ite_none_right_eq_some.mp h
    rcases hpc : s.handlerPc with _ | _ | _ | _ <;>
      simp only [WifiMqttClient.Node.handler, hpc, Option.some.injEq, reduceCtorEq] at h
    · subst h
      exact ⟨hreturned, rfl⟩
    · split at h <;> cases h <;> exact ⟨hreturned, rfl⟩
    · subst h
      exact ⟨hreturned, rfl⟩

/-- What holds in every state of every run. -/
structure Inv (e : Esp32) : Prop where
  boot : e.outcome = .running → BootInv e
  /-- Once the boot has ended too early, there is no task. -/
  ended : e.outcome ≠ .running → e.receiverTask = false ∧ e.publisherTask = .missing

theorem inv_start : Inv Esp32.start where
  boot _ := by
    constructor
    case suffix => exact List.suffix_rfl
    case completed => exact fun call hcall hnot => absurd hcall hnot
    case queue => exact fun hnot => absurd (by decide) hnot
    case outQueue => exact fun _ => rfl
    case client => exact fun hnot => absurd (by decide) hnot
    case receiver => exact fun hexists => absurd hexists Bool.false_ne_true
    case publisher => exact fun hexists => absurd rfl hexists
    case pvParameters => exact fun _ hcreated => by cases hcreated
    case inQueue => exact fun _ => rfl
  ended hended := absurd rfl hended

theorem inv_step (h : Inv e) {m : Move} (hstep : e.step m = some e') : Inv e' := by
  cases m with
  | appMain ret handle =>
    obtain ⟨stmt, todo, e₁, hbefore, htodo, hexecute, rfl⟩ := step_appMain hstep
    have hboot := h.boot hbefore
    obtain ⟨hreceiver, hpublisher, -⟩ := frame_of_execute hexecute
    refine ⟨fun hrunning => bootInv_execute hboot htodo hexecute hrunning, fun hended => ?_⟩
    -- the last two statements do not end the boot
    have hearly : stmt ∉ [.createReceiverTask, .createPublisherTask] := by
      intro hmem
      simp only [List.mem_cons, List.not_mem_nil, or_false] at hmem
      rcases hmem with rfl | rfl <;> cases hexecute <;> exact hended hbefore
    have hmissing := hboot.tasks_missing (htodo ▸ List.mem_cons_self) hearly
    rw [List.mem_pair, not_or] at hearly
    exact ⟨(hreceiver hearly.1).trans hmissing.1, (hpublisher hearly.2).trans hmissing.2⟩
  | wifiMqtt m =>
    obtain ⟨client, hbefore, -, hclient, rfl⟩ := step_wifiMqtt hstep
    have hboot := h.boot hbefore
    constructor
    case boot =>
      intro _
      refine { hboot with client := fun hnot => ?_ }
      exact (client_step_of_returned (hboot.client hnot) hclient).1
    case ended =>
      intro hended
      -- `esp_wifi_start` has failed, so `wifi_mqtt_init` has not returned
      have hmem : .wifiMqttClient ∈ e.todo := by
        by_contra hnot
        have hreturned := (client_step_of_returned (hboot.client hnot) hclient).1
        refine hended ?_
        show (if client.initPc = .aborted then _ else _) = _
        rw [hreturned, if_neg (by decide), hbefore]
      exact hboot.tasks_missing hmem (by decide)
  | publisherStarts =>
    obtain ⟨pvParameters, hcreated, rfl⟩ := step_publisherStarts hstep
    constructor
    case boot =>
      intro hrunning
      have hboot := h.boot hrunning
      have hexists : e.publisherTask ≠ .missing := by
        rw [hcreated]
        simp
      exact { hboot with
        publisher := fun _ => hboot.publisher hexists
        pvParameters := fun _ hagain => by cases hagain
        inQueue := fun _ => hboot.pvParameters _ hcreated }
    case ended =>
      intro hended
      cases hcreated.symm.trans (h.ended hended).2

theorem inv_of_reachable (h : system.Reachable e) : Inv e := by
  apply h.invariant (I := Inv)
  · rintro e rfl
    exact inv_start
  · intro e m e' hinv hstep
    exact inv_step hinv hstep

/-- The initialisation is over when a task exists. -/
theorem Inv.executed (h : Inv e) (hexists : e.receiverTask = true ∨ e.publisherTask ≠ .missing)
    (hearly : stmt ∉ [.createReceiverTask, .createPublisherTask]) : stmt ∉ e.todo := by
  intro hmem
  have hmissing : e.receiverTask = false ∧ e.publisherTask = .missing := by
    by_cases hrunning : e.outcome = .running
    · exact (h.boot hrunning).tasks_missing hmem hearly
    · exact h.ended hrunning
  rcases hexists with hreceiver | hpublisher
  · exact Bool.false_ne_true (hmissing.1.symm.trans hreceiver)
  · exact hpublisher hmissing.2

/-- Only an ESP32 that is not restarting has tasks. -/
theorem Inv.boot_of_task (h : Inv e)
    (hexists : e.receiverTask = true ∨ e.publisherTask ≠ .missing) : BootInv e := by
  apply h.boot
  by_contra hended
  obtain ⟨hreceiver, hpublisher⟩ := h.ended hended
  rcases hexists with hexists | hexists
  · exact Bool.false_ne_true (hreceiver.symm.trans hexists)
  · exact hexists hpublisher

/-- What a task finds: the queue in every place that it is stored in, every checked call completed,
and `wifi_mqtt_init` over. -/
theorem Inv.ready (h : Inv e) (hexists : e.receiverTask = true ∨ e.publisherTask ≠ .missing) :
    e.telemetryQueue.isSome = true ∧ e.outQueue = e.telemetryQueue ∧
      (e.publisherTask = .running → e.inQueue = e.telemetryQueue) ∧
      (∀ call, .check call ∈ appMain → call ∈ e.completed) ∧ e.client.initPc = .returned := by
  have hboot := h.boot_of_task hexists
  refine ⟨hboot.queue ?_, hboot.outQueue ?_, hboot.inQueue, fun call hcall => ?_, hboot.client ?_⟩
  · exact h.executed hexists (by decide)
  · exact h.executed hexists (by decide)
  · exact hboot.completed call hcall (h.executed hexists (by simp))
  · exact h.executed hexists (by decide)

/-- `wifi_event_handler` is registered before any event can be posted. -/
theorem BootInv.registered (h : BootInv e) (hbegun : .check .espWifiSetConfig ∉ e.todo) :
    .registerWifiEvent ∈ e.completed ∧ .registerIpEvent ∈ e.completed := by
  have hlater : [.check .espWifiSetMode, .check .espWifiSetConfig, .wifiMqttClient,
      .createReceiverTask, .createPublisherTask] <:+ appMain := by decide
  constructor
  · refine h.completed _ (by decide) fun hmem => hbegun ?_
    exact mem_todo_of_later h.suffix hlater hmem (by decide) (by decide)
  · refine h.completed _ (by decide) fun hmem => hbegun ?_
    exact mem_todo_of_later h.suffix hlater hmem (by decide) (by decide)

/-- A task that exists goes on to exist, and the publisher task to run. -/
theorem Inv.tasks_stay (h : Inv e) {m : Move} (hstep : e.step m = some e') :
    (e.receiverTask = true → e'.receiverTask = true) ∧
      (e.publisherTask = .running → e'.publisherTask = .running) := by
  cases m with
  | appMain ret handle =>
    obtain ⟨stmt, todo, e₁, hbefore, htodo, hexecute, rfl⟩ := step_appMain hstep
    have hboot := h.boot hbefore
    obtain ⟨hreceiver, hpublisher, -⟩ := frame_of_execute hexecute
    -- the statement that creates a task is executed once
    have hhead : stmt ∈ e.todo := htodo ▸ List.mem_cons_self
    constructor
    · intro hexists
      refine (hreceiver ?_).trans hexists
      rintro rfl
      exact hboot.receiver hexists hhead
    · intro hexists
      refine (hpublisher ?_).trans hexists
      rintro rfl
      exact hboot.publisher (by rw [hexists]; simp) hhead
  | wifiMqtt m =>
    obtain ⟨client, -, -, -, rfl⟩ := step_wifiMqtt hstep
    exact ⟨id, id⟩
  | publisherStarts =>
    obtain ⟨pvParameters, -, rfl⟩ := step_publisherStarts hstep
    exact ⟨id, fun _ => rfl⟩

/-- When a task exists, `mqtt_client` does not change any more. -/
theorem Inv.mqttClient_stays (h : Inv e)
    (hexists : e.receiverTask = true ∨ e.publisherTask ≠ .missing) {m : Move}
    (hstep : e.step m = some e') : e'.client.mqttClient = e.client.mqttClient := by
  obtain ⟨-, -, -, -, hreturned⟩ := h.ready hexists
  cases m with
  | appMain ret handle =>
    obtain ⟨stmt, todo, e₁, -, -, hexecute, rfl⟩ := step_appMain hstep
    exact congrArg _ (frame_of_execute hexecute).2.2
  | wifiMqtt m =>
    obtain ⟨client, -, -, hclient, rfl⟩ := step_wifiMqtt hstep
    exact (client_step_of_returned hreturned hclient).2
  | publisherStarts =>
    obtain ⟨pvParameters, -, rfl⟩ := step_publisherStarts hstep
    rfl

/-- Within the boot, `WifiMqttClient` runs as it does by itself. -/
theorem projectsTo_wifiMqttClient : system.ProjectsTo WifiMqttClient.system Esp32.client where
  init e h := by
    cases h
    rfl
  step e m e' _ hstep := by
    cases m with
    | appMain ret handle =>
      obtain ⟨stmt, todo, e₁, -, -, hexecute, rfl⟩ := step_appMain hstep
      exact .inl (frame_of_execute hexecute).2.2
    | wifiMqtt m =>
      obtain ⟨client, -, -, hclient, rfl⟩ := step_wifiMqtt hstep
      exact .inr ⟨m, hclient⟩
    | publisherStarts =>
      obtain ⟨pvParameters, -, rfl⟩ := step_publisherStarts hstep
      exact .inl rfl

/-! ## After a missed start -/

/-- Once there is a client, each address starts it, and nothing else does. -/
theorem started_of_step {s s' : WifiMqttClient.Node} {m : WifiMqttClient.Move} {handle : Handle}
    (hinv : WifiMqttClient.StartInv s) (hclient : s.mqttClient = some handle)
    (h : s.step m = some s') :
    s'.mqttClient = some handle ∧ ∃ n, s'.gotIpHandled = s.gotIpHandled + n ∧
      s'.started = s.started ++ .replicate n (some handle) := by
  have hassigned : s.initPc.assigned = true := by
    rw [← Bool.not_eq_false]
    intro hun
    cases (hinv.unassigned hun).1.symm.trans hclient
  have hsame : s.started = s.started ++ .replicate 0 (some handle) := (List.append_nil _).symm
  cases m with
  | init =>
    cases hpc : s.initPc <;>
      simp only [WifiMqttClient.Node.step, WifiMqttClient.Node.init, hpc, Option.some.injEq,
        reduceCtorEq] at h <;>
      subst h
    case assignClient =>
      -- it has been assigned before
      rw [hpc] at hassigned
      exact absurd hassigned Bool.false_ne_true
    all_goals exact ⟨hclient, 0, rfl, hsame⟩
  | wifiStarted ok =>
    obtain ⟨-, hsome⟩ := Option.ite_none_right_eq_some.mp h
    cases hsome
    exact ⟨hclient, 0, rfl, hsame⟩
  | clientCreated handle' =>
    obtain ⟨-, hsome⟩ := Option.ite_none_right_eq_some.mp h
    cases hsome
    exact ⟨hclient, 0, rfl, hsame⟩
  | deliver event =>
    obtain ⟨-, hsome⟩ := Option.ite_none_right_eq_some.mp h
    cases hsome
    exact ⟨hclient, 0, rfl, hsame⟩
  | handler =>
    obtain ⟨-, h⟩ := Option.ite_none_right_eq_some.mp h
    rcases hpc : s.handlerPc with _ | _ | _ | _ <;>
      simp only [WifiMqttClient.Node.handler, hpc, hclient, Option.isSome_some, if_true,
        Option.some.injEq, reduceCtorEq] at h
    all_goals subst h
    · exact ⟨rfl, 0, rfl, hsame⟩
    -- the test finds the client
    · exact ⟨rfl, 0, rfl, hsame⟩
    · exact ⟨rfl, 1, rfl, rfl⟩

/-- Whatever was missed before: from the assignment of `mqtt_client` on, each address that is
handled starts the client, and nothing else does. So the next address makes up for a start that was
missed. This holds in every run from any state after the assignment, at any point of the boot. -/
theorem started_by_each_address (h : system.Reachable e) {handle : Handle}
    (hclient : e.client.mqttClient = some handle) {ms : List Move}
    (hexec : system.exec e ms = some e') :
    e'.client.mqttClient = some handle ∧
      ∃ n, e'.client.gotIpHandled = e.client.gotIpHandled + n ∧
        e'.client.started = e.client.started ++ .replicate n (some handle) := by
  induction ms generalizing e with
  | nil =>
    cases hexec
    exact ⟨hclient, 0, rfl, (List.append_nil _).symm⟩
  | cons m ms ih =>
    obtain ⟨e₁, hstep, hrest⟩ := Option.bind_eq_some_iff.mp hexec
    have hinv := WifiMqttClient.startInv_of_reachable (projectsTo_wifiMqttClient.reachable h)
    have hnext := h.next hstep
    rcases projectsTo_wifiMqttClient.step _ _ _ h hstep with hsame | ⟨k, hk⟩
    · rw [← hsame] at hclient ⊢
      exact ih hnext hclient hrest
    · obtain ⟨hclient₁, n, hhandled, hstarted⟩ := started_of_step hinv hclient hk
      obtain ⟨hclient', n', hhandled', hstarted'⟩ := ih hnext hclient₁ hrest
      refine ⟨hclient', n + n', ?_, ?_⟩
      · rw [hhandled', hhandled, Nat.add_assoc]
      · rw [hstarted', hstarted, List.append_assoc, List.replicate_append_replicate]

/-- An address is handled before the client is created, and another one after the boot. -/
theorem started_by_each_address_second :
    ∃ e, system.Reachable e ∧ e.client.gotIpHandled = 2 ∧ e.client.started = [some 1] := by
  have hstart : system.Reachable Esp32.start := .init rfl
  obtain ⟨e, he, h⟩ := hstart.exists_of_exec
    (.replicate 18 (.appMain .ok (some 1)) ++
      ([.init, .wifiStarted true, .deliver .staGotIp, .handler, .init, .clientCreated (some 1),
        .init, .init].map .wifiMqtt))
    (fun e => e.client.mqttClient = some 1 ∧ e.client.gotIpHandled = 1 ∧ e.client.started = [] ∧
      (system.exec e ([.deliver .staGotIp, .handler, .handler].map .wifiMqtt)).any
        fun e => e.client.gotIpHandled = 2) (by decide +kernel)
  obtain ⟨hclient, hhandled, hnone, hrun⟩ := of_decide_eq_true h
  obtain ⟨e', hexec, hhandled'⟩ := (Option.any_eq_true _ _).mp hrun
  obtain ⟨-, n, hn, hstarted⟩ := started_by_each_address he hclient hexec
  have htwo := of_decide_eq_true hhandled'
  obtain rfl : n = 1 := by omega
  exact ⟨e', he.exec hexec, htwo, by rw [hstarted, hnone]; rfl⟩

end TelemetryNode.AppMain
