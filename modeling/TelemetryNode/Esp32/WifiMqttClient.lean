import Mathlib.Data.Nat.Notation
import TelemetryNode.Library.TransitionSystem

/-!
# Starting the MQTT client

`wifi_mqtt_init` of `components/wifi_mqtt_client/wifi_mqtt_client.cpp`, from `esp_wifi_start` on,
and `wifi_event_handler`, which the event loop calls in its own task. The MQTT client is created
after Wi-Fi has been started, and the handler starts it when an IP address is obtained, if it exists
by then. An address that is obtained earlier does not start it, and nothing else does.

## Main definitions

* `WifiMqttClient.Node`: the two tasks and `mqtt_client`, with a record of what has been called.
* `WifiMqttClient.system`: all interleavings.
* `WifiMqttClient.StartNotMissed`: the client is started once an address has been handled.

## Main results

* `WifiMqttClient.started_iff`: in every state, whether the client has been started.
* `WifiMqttClient.mqtt_start_not_missed`: no start is missed if `mqtt_client` is never tested before
  it is assigned.
-/

namespace TelemetryNode.WifiMqttClient

/-- `esp_mqtt_client_handle_t`, other than `NULL`. -/
abbrev Handle := ℕ

/-- The events `wifi_event_handler` is registered for. -/
inductive Event
  /-- `WIFI_EVENT_STA_START`. -/
  | staStart
  /-- `WIFI_EVENT_STA_DISCONNECTED`. -/
  | staDisconnected
  /-- `IP_EVENT_STA_GOT_IP`. -/
  | staGotIp
  /-- Any other Wi-Fi event. -/
  | other
  deriving DecidableEq, Repr

/-- The statements of `wifi_mqtt_init`. -/
inductive InitPc
  /-- `esp_wifi_start()` is to be called. -/
  | wifiStart
  /-- Within `ESP_ERROR_CHECK(esp_wifi_start())`. -/
  | wifiStarting
  /-- `broker_uri` and `mqtt_cfg`. -/
  | mqttConfig
  /-- Within `esp_mqtt_client_init(&mqtt_cfg)`. -/
  | mqttClientInit
  /-- `mqtt_client = ...`, with what was returned. -/
  | assignClient (handle : Option Handle)
  /-- `esp_mqtt_client_register_event(mqtt_client, ...)`. -/
  | registerEvent
  | returned
  /-- `ESP_ERROR_CHECK` has failed. -/
  | aborted
  deriving DecidableEq, Repr

/-- The statements of `wifi_event_handler`. -/
inductive HandlerPc
  /-- `esp_wifi_connect()`. -/
  | connect
  /-- `if (mqtt_client)`. -/
  | testClient
  /-- `esp_mqtt_client_start(mqtt_client)`. -/
  | startClient
  deriving DecidableEq, Repr

/-- Both tasks, and a record of what they have done. -/
structure Node where
  initPc : InitPc
  /-- The event loop calls one handler at a time. -/
  handlerPc : Option HandlerPc
  mqttClient : Option Handle
  /-- Record: calls of `esp_wifi_connect`. -/
  connects : ℕ
  /-- Record: the clients `mqtt_event_handler` was registered with. -/
  registered : List (Option Handle)
  /-- Record: the clients `esp_mqtt_client_start` was called on. -/
  started : List (Option Handle)
  /-- Record: how many times an IP address has been handled. -/
  gotIpHandled : ℕ
  /-- Record: how many of these tested `mqtt_client` before it was assigned. -/
  earlyTests : ℕ
  deriving DecidableEq, Repr

/-- `esp_wifi_start` is about to be called. -/
def Node.start : Node where
  initPc := .wifiStart
  handlerPc := none
  mqttClient := none
  connects := 0
  registered := []
  started := []
  gotIpHandled := 0
  earlyTests := 0

/-- `mqtt_client` has been assigned. -/
def InitPc.assigned : InitPc → Bool
  | .registerEvent | .returned => true
  | _ => false

/-- Wi-Fi has been started, so events can be delivered. -/
def InitPc.delivers : InitPc → Bool
  | .wifiStart | .aborted => false
  | _ => true

/-- The statement with which the handler begins, if it does anything for an event. -/
def Event.branch : Event → Option HandlerPc
  | .staStart | .staDisconnected => some .connect
  | .staGotIp => some .testClient
  | .other => none

/-- The moves of the system. -/
inductive Move
  /-- `wifi_mqtt_init` executes its next statement, or enters its next call. -/
  | init
  /-- `esp_wifi_start` returns. -/
  | wifiStarted (ok : Bool)
  /-- `esp_mqtt_client_init` returns. -/
  | clientCreated (handle : Option Handle)
  /-- The event loop calls `wifi_event_handler`. -/
  | deliver (event : Event)
  /-- `wifi_event_handler` executes its next statement. -/
  | handler
  deriving DecidableEq, Repr

/-- The next statement of `wifi_mqtt_init`. -/
def Node.init (s : Node) : Option Node :=
  match s.initPc with
  | .wifiStart => some { s with initPc := .wifiStarting }
  | .mqttConfig => some { s with initPc := .mqttClientInit }
  | .assignClient handle => some { s with mqttClient := handle, initPc := .registerEvent }
  | .registerEvent =>
    some { s with registered := s.registered ++ [s.mqttClient], initPc := .returned }
  | .wifiStarting | .mqttClientInit | .returned | .aborted => none

/-- The next statement of `wifi_event_handler`. -/
def Node.handler (s : Node) : Option Node :=
  match s.handlerPc with
  | none => none
  | some .connect => some { s with connects := s.connects + 1, handlerPc := none }
  | some .testClient =>
    if s.mqttClient.isSome then some { s with handlerPc := some .startClient }
    else some { s with
      handlerPc := none
      gotIpHandled := s.gotIpHandled + 1
      earlyTests := if s.initPc.assigned then s.earlyTests else s.earlyTests + 1 }
  | some .startClient => some { s with
      started := s.started ++ [s.mqttClient]
      handlerPc := none
      gotIpHandled := s.gotIpHandled + 1 }

/-- The state after a move, if it is possible. -/
def Node.step (s : Node) : Move → Option Node
  | .init => s.init
  | .wifiStarted ok =>
    if s.initPc = .wifiStarting then
      some { s with initPc := if ok then .mqttConfig else .aborted }
    else none
  | .clientCreated handle =>
    if s.initPc = .mqttClientInit then some { s with initPc := .assignClient handle } else none
  | .deliver event =>
    if s.initPc.delivers ∧ s.handlerPc = none then some { s with handlerPc := event.branch }
    else none
  | .handler => if s.initPc.delivers then s.handler else none

/-- All interleavings. -/
def system : TransitionSystem Node Move where
  init s := s = Node.start
  step := Node.step

/-- When `wifi_mqtt_init` has returned with a client, and an IP address has been handled, the client
has been started. -/
def StartNotMissed (s : Node) : Prop :=
  ∀ handle, s.initPc = .returned → s.mqttClient = some handle → 0 < s.gotIpHandled →
    some handle ∈ s.started

/-- The handler does not test `mqtt_client` before it is assigned. -/
def NoEarlyTest (s : Node) (m : Move) : Prop :=
  m = .handler → s.handlerPc = some .testClient → s.initPc.assigned = true

instance : DecidableRel NoEarlyTest := fun s m => by
  unfold NoEarlyTest
  infer_instance

/-! ## What has been started -/

/-- What holds in every state of every run. -/
structure StartInv (s : Node) : Prop where
  /-- Before the assignment all tests were early, and nothing was started. -/
  unassigned : s.initPc.assigned = false →
    s.mqttClient = none ∧ s.started = [] ∧ s.earlyTests = s.gotIpHandled
  /-- The handler starts a client that exists. -/
  starting : s.handlerPc = some .startClient → s.mqttClient ≠ none
  early_le : s.earlyTests ≤ s.gotIpHandled
  /-- The client has been started by each address whose test was not early. -/
  started : ∀ handle, s.mqttClient = some handle →
    (some handle ∈ s.started ↔ s.earlyTests < s.gotIpHandled)

variable {s s' : Node} {m : Move}

theorem startInv_init (hinv : StartInv s) (h : s.init = some s') : StartInv s' := by
  have hunassigned := hinv.unassigned
  cases hpc : s.initPc <;> simp only [Node.init, hpc, Option.some.injEq, reduceCtorEq] at h <;>
    subst h <;> rw [hpc] at hunassigned
  case assignClient handle =>
    obtain ⟨hnone, hstarted, hearly⟩ := hunassigned rfl
    refine ⟨fun hun => absurd hun.symm Bool.false_ne_true, ?_, hinv.early_le, ?_⟩
    · intro hstart
      exact absurd hnone (hinv.starting hstart)
    · intro handle _
      simp [hstarted, hearly]
  case registerEvent =>
    exact ⟨fun hun => absurd hun.symm Bool.false_ne_true, hinv.starting, hinv.early_le,
      hinv.started⟩
  all_goals exact ⟨fun _ => hunassigned rfl, hinv.starting, hinv.early_le, hinv.started⟩

theorem startInv_handler (hinv : StartInv s) (h : s.handler = some s') : StartInv s' := by
  have hle := hinv.early_le
  rcases hpc : s.handlerPc with _ | _ | _ | _ <;>
    simp only [Node.handler, hpc, Option.some.injEq, reduceCtorEq] at h
  · subst h
    exact ⟨hinv.unassigned, fun hstart => by simp at hstart, hle, hinv.started⟩
  -- the test
  · by_cases hclient : s.mqttClient.isSome
    · rw [if_pos hclient, Option.some.injEq] at h
      subst h
      refine ⟨hinv.unassigned, ?_, hle, hinv.started⟩
      intro _ hnone
      change s.mqttClient = none at hnone
      rw [hnone] at hclient
      exact absurd hclient Bool.false_ne_true
    · rw [if_neg hclient, Option.some.injEq] at h
      subst h
      rw [Option.not_isSome_iff_eq_none] at hclient
      refine ⟨?_, fun hstart => by simp at hstart, ?_, ?_⟩
      · intro hun
        obtain ⟨hnone, hstarted, hearly⟩ := hinv.unassigned hun
        change s.initPc.assigned = false at hun
        refine ⟨hnone, hstarted, ?_⟩
        simp [hun, hearly]
      · change (if s.initPc.assigned then s.earlyTests else s.earlyTests + 1) ≤ s.gotIpHandled + 1
        split <;> omega
      · intro handle hsome
        exact absurd (hclient.symm.trans hsome) (Option.some_ne_none _).symm
  -- the start
  · subst h
    have hsome := hinv.starting hpc
    refine ⟨?_, fun hstart => by simp at hstart, by simp; omega, ?_⟩
    · intro hun
      exact absurd (hinv.unassigned hun).1 hsome
    · intro handle hclient
      change s.mqttClient = some handle at hclient
      simp only [hclient, List.mem_append, List.mem_singleton, or_true, true_iff]
      omega

theorem startInv_step (hinv : StartInv s) (h : s.step m = some s') : StartInv s' := by
  have hunassigned := hinv.unassigned
  cases m with
  | init => exact startInv_init hinv h
  | wifiStarted ok =>
    obtain ⟨hpc, rfl⟩ := by simpa only [Node.step, Option.ite_none_right_eq_some,
      Option.some.injEq] using h
    rw [hpc] at hunassigned
    exact ⟨fun _ => hunassigned rfl, hinv.starting, hinv.early_le, hinv.started⟩
  | clientCreated handle =>
    obtain ⟨hpc, rfl⟩ := by simpa only [Node.step, Option.ite_none_right_eq_some,
      Option.some.injEq] using h
    rw [hpc] at hunassigned
    exact ⟨fun _ => hunassigned rfl, hinv.starting, hinv.early_le, hinv.started⟩
  | deliver event =>
    obtain ⟨-, rfl⟩ := by simpa only [Node.step, Option.ite_none_right_eq_some,
      Option.some.injEq] using h
    refine ⟨hunassigned, ?_, hinv.early_le, hinv.started⟩
    -- no event begins with the start
    intro hstart
    cases event <;> simp [Event.branch] at hstart
  | handler =>
    obtain ⟨-, h⟩ := by simpa only [Node.step, Option.ite_none_right_eq_some] using h
    exact startInv_handler hinv h

theorem startInv_of_reachable (h : system.Reachable s) : StartInv s := by
  apply h.invariant (I := StartInv)
  · rintro s rfl
    refine ⟨fun _ => ⟨rfl, rfl, rfl⟩, ?_, Nat.le_refl 0, ?_⟩
    · intro hstart
      simp [Node.start] at hstart
    · intro handle hclient
      simp [Node.start] at hclient
  · intro s m s' hinv hstep
    exact startInv_step hinv hstep

/-- The client has been started exactly if some address was not handled too early. So a start is
missed where all of them were. -/
theorem started_iff (h : system.Reachable s) {handle : Handle}
    (hclient : s.mqttClient = some handle) :
    some handle ∈ s.started ↔ s.earlyTests < s.gotIpHandled :=
  (startInv_of_reachable h).started handle hclient

/-- Without early tests there are none. -/
theorem earlyTests_step (hm : NoEarlyTest s m) (h : s.step m = some s') :
    s'.earlyTests = s.earlyTests := by
  cases m with
  | init =>
    cases hpc : s.initPc <;>
      simp only [Node.step, Node.init, hpc, Option.some.injEq, reduceCtorEq] at h <;>
      subst h <;> rfl
  | wifiStarted ok =>
    obtain ⟨-, rfl⟩ := by simpa only [Node.step, Option.ite_none_right_eq_some,
      Option.some.injEq] using h
    rfl
  | clientCreated handle =>
    obtain ⟨-, rfl⟩ := by simpa only [Node.step, Option.ite_none_right_eq_some,
      Option.some.injEq] using h
    rfl
  | deliver event =>
    obtain ⟨-, rfl⟩ := by simpa only [Node.step, Option.ite_none_right_eq_some,
      Option.some.injEq] using h
    rfl
  | handler =>
    obtain ⟨-, h⟩ := by simpa only [Node.step, Option.ite_none_right_eq_some] using h
    rcases hpc : s.handlerPc with _ | _ | _ | _ <;>
      simp only [Node.handler, hpc, Option.some.injEq, reduceCtorEq] at h
    · subst h
      rfl
    · split at h <;> cases h
      · rfl
      · exact if_pos (hm rfl hpc)
    · subst h
      rfl

/-- In a run in which the handler never tests `mqtt_client` before it is assigned, no start is
missed. -/
theorem mqtt_start_not_missed (h : system.ReachableUnder NoEarlyTest s) : StartNotMissed s := by
  have hnone : s.earlyTests = 0 := by
    apply h.invariant (I := fun s => s.earlyTests = 0)
    · rintro s rfl
      rfl
    · intro s m s' hs hm hstep
      rw [earlyTests_step hm hstep, hs]
  intro handle _ hclient hhandled
  rw [started_iff h.reachable hclient, hnone]
  exact hhandled

/-- The initialisation after `esp_wifi_start` has returned. -/
def finishInit : List Move := [.wifiStarted true, .init, .clientCreated (some 1), .init, .init]

/-- An address is obtained after the initialisation. -/
theorem mqtt_start_not_missed_late_address :
    ∃ s, system.ReachableUnder NoEarlyTest s ∧ s.initPc = .returned ∧ s.mqttClient = some 1 ∧
      s.gotIpHandled = 1 ∧ some 1 ∈ s.started := by
  have hstart : (system.restrict NoEarlyTest).Reachable Node.start := .init rfl
  obtain ⟨s, hs, h⟩ := hstart.exists_of_exec
    ([.init, .deliver .staStart, .handler] ++ finishInit ++
      [.deliver .staGotIp, .handler, .handler])
    (fun s => s.initPc = .returned ∧ s.mqttClient = some 1 ∧ s.gotIpHandled = 1) (by decide +kernel)
  obtain ⟨hpc, hclient, hhandled⟩ : s.initPc = .returned ∧ s.mqttClient = some 1 ∧
      s.gotIpHandled = 1 := by simpa using h
  refine ⟨s, .of_restrict hs, hpc, hclient, hhandled, ?_⟩
  exact mqtt_start_not_missed (.of_restrict hs) 1 hpc hclient (by omega)

/-- An address is obtained before the client is created. The handler finds no client, and the
initialisation returns with a client that has never been started. -/
theorem mqtt_start_missed :
    ∃ s, system.Reachable s ∧ s.initPc = .returned ∧ s.mqttClient = some 1 ∧ s.gotIpHandled = 1 ∧
      s.started = [] ∧ ¬ StartNotMissed s := by
  have hstart : system.Reachable Node.start := .init rfl
  obtain ⟨s, hs, h⟩ := hstart.exists_of_exec
    ([.init, .deliver .staStart, .handler, .deliver .staGotIp, .handler] ++ finishInit)
    (fun s => s.initPc = .returned ∧ s.mqttClient = some 1 ∧ s.gotIpHandled = 1 ∧ s.started = [])
    (by decide +kernel)
  obtain ⟨hpc, hclient, hhandled, hnone⟩ : s.initPc = .returned ∧ s.mqttClient = some 1 ∧
      s.gotIpHandled = 1 ∧ s.started = [] := by simpa using h
  refine ⟨s, hs, hpc, hclient, hhandled, hnone, ?_⟩
  intro hnotMissed
  have hmem := hnotMissed 1 hpc hclient (by omega)
  rw [hnone] at hmem
  exact List.not_mem_nil hmem

end TelemetryNode.WifiMqttClient
