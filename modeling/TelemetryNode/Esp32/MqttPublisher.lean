import Mathlib.Data.Nat.Notation
import TelemetryNode.Common.ProtocolSpec

/-!
# The publisher task of the ESP32

The task `mqtt_publisher_task` of `components/wifi_mqtt_client/wifi_mqtt_client.cpp`: it takes a
payload from the queue, formats it as JSON, and hands the text to the MQTT client.

## Main definitions

* `MqttPublisher.jsonPayload`: what `snprintf` leaves in `json_payload`.
* `MqttPublisher.publishCall`: the call of `esp_mqtt_client_publish` for a payload.
* `MqttPublisher.Publisher`: where the task is in its loop.
-/

namespace TelemetryNode.MqttPublisher

/-- `%lu` and `%u`. -/
def decimal {w : ℕ} (x : BitVec w) : List Char := Nat.toDigits 10 x.toNat

/-- The text that the format string asks for. -/
def jsonText (data : TelemetryPayload) : List Char :=
  "\x7b\"ts\":".toList ++ decimal data.timestampMs ++
    ",\"batt_mv\":".toList ++ decimal data.batteryMv ++
    ",\"temp\":".toList ++ decimal data.tempSensor ++
    ",\"adc\":".toList ++ decimal data.adcCh1 ++
    ",\"status\":".toList ++ decimal data.statusFlags ++ "\x7d".toList

/-- `sizeof(json_payload)`. -/
def jsonPayloadSize : ℕ := 128

/-- The string that `snprintf` leaves in a buffer of `size` characters: there is room for one less,
before the terminating NUL. -/
def snprintf (size : ℕ) (text : List Char) : List Char := text.take (size - 1)

/-- The string in `json_payload`. -/
def jsonPayload (data : TelemetryPayload) : List Char := snprintf jsonPayloadSize (jsonText data)

/-- `MQTT_TOPIC`. -/
def mqttTopic : List Char := "telemetry/node_1".toList

/-- The arguments of `esp_mqtt_client_publish`, apart from the client. -/
structure PublishCall where
  topic : List Char
  data : List Char
  len : ℕ
  qos : ℕ
  retain : ℕ
  deriving DecidableEq, Repr

/-- The call for a payload. -/
def publishCall (data : TelemetryPayload) : PublishCall where
  topic := mqttTopic
  data := jsonPayload data
  len := 0
  qos := 1
  retain := 0

/-- Where the task is in its loop. -/
inductive Publisher
  /-- In `xQueueReceive`. -/
  | waiting
  /-- After it, with the payload in `data`. -/
  | holding (data : TelemetryPayload)
  deriving DecidableEq, Repr

/-- The payload that was taken from the queue and is not published yet. -/
def Publisher.held : Publisher → List TelemetryPayload
  | .waiting => []
  | .holding data => [data]

@[simp]
theorem Publisher.held_waiting : Publisher.waiting.held = [] := rfl

@[simp]
theorem Publisher.held_holding (data : TelemetryPayload) :
    (Publisher.holding data).held = [data] := rfl

end TelemetryNode.MqttPublisher
