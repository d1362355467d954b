import TelemetryNode.Esp32.WifiMqttClient
import TelemetryNode.Library.Composition

/-!
# How the station keeps its connection

`wifi_event_handler` together with the station mode driver that it reacts to. The code of the driver
is not at hand, so it is a parameter, with what its documentation promises as hypotheses: when the
station has started, when an attempt to connect has failed and when the access point is lost, it
posts an event. The event loop delivers what is posted in this order, and the handler answers each
of these events with one `esp_wifi_connect`. So it never asks while an attempt or a connection is
under way, and it asks again after each. It ignores what `esp_wifi_connect` returns: no event
follows a call that fails, and so it never asks again after one.

## Main definitions

* `WifiStation.Driver`: the driver, and `WifiStation.Driver.Documented`: what is relied on.
* `WifiStation.system`: the driver, the event loop with the handler, and `wifi_mqtt_init`.
* `WifiStation.requestsPending`: the requests that are on their way to the driver.

## Main results

* `WifiStation.one_request_each_end`: exactly one request is on its way while the driver is idle,
  unless a call has failed, and none otherwise.
* `WifiStation.reconnect_bounded`: the event loop gets to the request in a bounded number of steps,
  unless a call has failed, and then it never does.
-/

namespace TelemetryNode.WifiStation

open WifiMqttClient

/-! ## The driver -/

/-- The handler answers the event with a request. -/
def asks (event : Event) : Bool := event.branch = some .connect

/-- A station mode driver with states `δ`. What depends on the access point, the air and the driver
itself is a choice from `κ`. -/
structure Driver (δ κ : Type*) where
  /-- Before `esp_wifi_start`. -/
  start : δ → Prop
  /-- Station mode has started, and no attempt to connect and no connection is under way. -/
  idle : δ → Bool
  /-- What the driver does by itself, with the events that it posts. -/
  own : δ → κ → Option (δ × List Event)
  /-- `esp_wifi_connect()`, and whether it returns `ESP_OK`. -/
  connect : δ → κ → Option (δ × Bool)

/-- What the documentation of the driver promises, as far as the results below rely on it. -/
structure Driver.Documented {δ κ : Type*} (D : Driver δ κ) : Prop where
  start : ∀ d, D.start d → D.idle d = false
  /-- Only `esp_wifi_connect` ends the idleness. -/
  stays : ∀ d k d' events, D.own d k = some (d', events) → D.idle d = true → D.idle d' = true
  /-- When it becomes idle, since station mode has started, an attempt has failed or the access
  point is lost, it posts one `STA_START` or `STA_DISCONNECTED`, and at no other time. -/
  posts : ∀ d k d' events, D.own d k = some (d', events) →
    events.countP asks = if D.idle d = false ∧ D.idle d' = true then 1 else 0
  /-- A call that succeeds begins an attempt, and one that fails does not. -/
  connect : ∀ d k d' ok, D.connect d k = some (d', ok) → D.idle d = true → D.idle d' = !ok
  /-- The call returns. -/
  returns : ∀ d, ∃ k, (D.connect d k).isSome = true

/-- The driver and the queue of the event loop. -/
structure Station (δ : Type*) where
  driver : δ
  /-- The events that the event loop has not delivered yet, the oldest first. -/
  posted : List Event
  /-- Record: how many of the events posted so far ask for a connection. -/
  asked : ℕ
  /-- Record: the calls of `esp_wifi_connect` that failed. -/
  failed : ℕ
  deriving DecidableEq

/-- The moves of the driver and the queue. -/
inductive StationMove (κ : Type*)
  /-- The driver does something by itself. -/
  | own (k : κ)
  /-- `esp_wifi_connect` is called. -/
  | connect (k : κ)
  /-- The event loop takes the oldest event. -/
  | deliver
  deriving DecidableEq

variable {δ κ : Type*} {D : Driver δ κ}

/-- The driver and the queue after a move, if it is possible. -/
def Station.step (D : Driver δ κ) (st : Station δ) : StationMove κ → Option (Station δ)
  | .own k =>
    (D.own st.driver k).map fun (driver, events) => { st with
      driver
      posted := st.posted ++ events
      asked := st.asked + events.countP asks }
  | .connect k =>
    (D.connect st.driver k).map fun (driver, ok) => { st with
      driver
      failed := if ok then st.failed else st.failed + 1 }
  | .deliver =>
    match st.posted with
    | [] => none
    | _ :: posted => some { st with posted }

/-- All runs of the driver. -/
def station (D : Driver δ κ) : TransitionSystem (Station δ) (StationMove κ) where
  init st := D.start st.driver ∧ st.posted = [] ∧ st.asked = 0 ∧ st.failed = 0
  step := Station.step D

/-- Which moves are made together: the event loop delivers what the driver has posted, and the
handler asks the driver for a connection. The driver does nothing before `esp_wifi_start`. -/
def sync (s : Node) (st : Station δ) : Option Move → Option (StationMove κ) → Bool
  | some (.deliver event), some .deliver => st.posted.head? = some event
  | some .handler, some (.connect _) => s.handlerPc = some .connect
  | some .handler, none => s.handlerPc ≠ some .connect
  | some .init, none | some (.wifiStarted _), none | some (.clientCreated _), none => true
  | none, some (.own _) => s.initPc.delivers
  | _, _ => false

/-- All interleavings of `wifi_mqtt_init`, of the event loop with the handler, and of the driver. -/
def system (D : Driver δ κ) :
    TransitionSystem (Node × Station δ) (Option Move × Option (StationMove κ)) :=
  WifiMqttClient.system.parallel (station D) sync

/-- The moves of the event loop and its handler. -/
def ofEventLoop : Move → Bool
  | .deliver _ | .handler => true
  | .init | .wifiStarted _ | .clientCreated _ => false

/-- The steps of the event loop. -/
def eventLoop (l : Option Move × Option (StationMove κ)) : Bool := l.1.any ofEventLoop

/-! ## What a step does -/

/-- The statements left to the handler. -/
def handlerLeft : Option HandlerPc → ℕ
  | none => 0
  | some .connect => 1
  | some .testClient => 2
  | some .startClient => 1

/-- What a step does to both. -/
inductive Effect (D : Driver δ κ) :
    Node × Station δ → Option Move × Option (StationMove κ) → Node × Station δ → Prop
  | init {s s' : Node} {st : Station δ} {l : Option Move × Option (StationMove κ)}
      (hl : eventLoop l = false) (hpc : s'.handlerPc = s.handlerPc)
      (hconnects : s'.connects = s.connects) : Effect D (s, st) l (s', st)
  | deliver {s : Node} {st : Station δ} {event : Event} {posted : List Event}
      (hposted : st.posted = event :: posted) (hpc : s.handlerPc = none) :
      Effect D (s, st) (some (.deliver event), some .deliver)
        ({ s with handlerPc := event.branch }, { st with posted })
  | connect {s s' : Node} {st : Station δ} {k : κ} {driver : δ} {ok : Bool}
      (hpc : s.handlerPc = some .connect) (hpc' : s'.handlerPc = none)
      (hconnects : s'.connects = s.connects + 1)
      (hdriver : D.connect st.driver k = some (driver, ok)) :
      Effect D (s, st) (some .handler, some (.connect k))
        (s', { st with driver, failed := if ok then st.failed else st.failed + 1 })
  | handle {s s' : Node} {st : Station δ} (hpc : s.handlerPc ≠ some .connect)
      (hpc' : s'.handlerPc ≠ some .connect) (hconnects : s'.connects = s.connects)
      (hleft : handlerLeft s'.handlerPc < handlerLeft s.handlerPc) :
      Effect D (s, st) (some .handler, none) (s', st)
  | own {s : Node} {st : Station δ} {k : κ} {driver : δ} {events : List Event}
      (hdriver : D.own st.driver k = some (driver, events)) :
      Effect D (s, st) (none, some (.own k)) (s, { st with
        driver
        posted := st.posted ++ events
        asked := st.asked + events.countP asks })

variable {s s' : Node} {st st' : Station δ} {m : Option (StationMove κ)}

theorem effect_of_handler (hsync : sync s st (some .handler) m = true)
    (hnode : WifiMqttClient.system.step s .handler = some s')
    (hstation : (station D).stepIf st m = some st') :
    Effect D (s, st) (some .handler, m) (s', st') := by
  obtain ⟨-, hnode⟩ := Option.ite_none_right_eq_some.mp hnode
  rcases m with _ | m
  -- the handler is not at its request
  · cases hstation
    have hpc : s.handlerPc ≠ some .connect := of_decide_eq_true hsync
    rcases hat : s.handlerPc with _ | _ | _ | _ <;> rw [hat] at hpc <;>
      simp only [Node.handler, hat, Option.some.injEq, reduceCtorEq] at hnode
    · exact absurd rfl hpc
    · rw [← hat] at hpc
      split at hnode <;> cases hnode
      · exact .handle hpc (by simp) rfl (by simp [hat, handlerLeft])
      · exact .handle hpc (by simp) rfl (by simp [hat, handlerLeft])
    · rw [← hat] at hpc
      subst hnode
      exact .handle hpc (by simp) rfl (by simp [hat, handlerLeft])
  · cases m with
    | connect k =>
      have hpc : s.handlerPc = some .connect := of_decide_eq_true hsync
      simp only [Node.handler, hpc, Option.some.injEq] at hnode
      subst hnode
      obtain ⟨⟨driver, ok⟩, hdriver, rfl⟩ := Option.map_eq_some_iff.mp hstation
      exact .connect hpc rfl rfl hdriver
    | _ => exact absurd hsync Bool.false_ne_true

theorem effect_of_deliver {event : Event} (hsync : sync s st (some (.deliver event)) m = true)
    (hnode : WifiMqttClient.system.step s (.deliver event) = some s')
    (hstation : (station D).stepIf st m = some st') :
    Effect D (s, st) (some (.deliver event), m) (s', st') := by
  obtain ⟨⟨-, hpc⟩, hsome⟩ := Option.ite_none_right_eq_some.mp hnode
  cases hsome
  rcases m with _ | m
  · exact absurd hsync Bool.false_ne_true
  cases m with
  | deliver =>
    have hhead : st.posted.head? = some event := of_decide_eq_true hsync
    obtain ⟨posted, hposted⟩ := List.head?_eq_some_iff.mp hhead
    simp only [TransitionSystem.stepIf, station, Station.step, hposted, Option.some.injEq]
      at hstation
    subst hstation
    exact .deliver hposted hpc
  | _ => exact absurd hsync Bool.false_ne_true

/-- `wifi_mqtt_init` leaves the handler alone. -/
theorem init_frame {m : Move} (hm : ofEventLoop m = false)
    (h : WifiMqttClient.system.step s m = some s') :
    s'.handlerPc = s.handlerPc ∧ s'.connects = s.connects := by
  change s.step m = some s' at h
  cases m with
  | init =>
    cases hpc : s.initPc <;>
      simp only [Node.step, Node.init, hpc, Option.some.injEq, reduceCtorEq] at h <;>
      subst h <;> exact ⟨rfl, rfl⟩
  | wifiStarted ok =>
    obtain ⟨-, hsome⟩ := Option.ite_none_right_eq_some.mp h
    cases hsome
    exact ⟨rfl, rfl⟩
  | clientCreated handle =>
    obtain ⟨-, hsome⟩ := Option.ite_none_right_eq_some.mp h
    cases hsome
    exact ⟨rfl, rfl⟩
  | deliver event => exact absurd hm.symm Bool.false_ne_true
  | handler => exact absurd hm.symm Bool.false_ne_true

theorem effect_of_step {s s' : Node × Station δ} {l : Option Move × Option (StationMove κ)}
    (h : (system D).step s l = some s') : Effect D s l s' := by
  obtain ⟨s, st⟩ := s
  obtain ⟨s', st'⟩ := s'
  obtain ⟨l, m⟩ := l
  obtain ⟨hsync, hnode, hstation⟩ := TransitionSystem.step_parallel_iff.mp h
  rcases l with _ | l
  · cases hnode
    cases m with
    | none => exact absurd hsync Bool.false_ne_true
    | some m =>
      cases m with
      | own k =>
        obtain ⟨⟨driver, events⟩, hdriver, rfl⟩ := Option.map_eq_some_iff.mp hstation
        exact .own hdriver
      | connect | deliver => exact absurd hsync Bool.false_ne_true
  · cases l with
    | deliver event => exact effect_of_deliver hsync hnode hstation
    | handler => exact effect_of_handler hsync hnode hstation
    | init | wifiStarted | clientCreated =>
      -- the driver stands still
      cases m with
      | none =>
        cases hstation
        obtain ⟨hpc, hconnects⟩ := init_frame (by rfl) hnode
        exact .init rfl hpc hconnects
      | some m => exact absurd hsync Bool.false_ne_true

/-! ## One request for each end -/

/-- The requests that are on their way: events that the handler will answer with one, and one that
it is about to make. -/
def requestsPending (s : Node × Station δ) : ℕ :=
  (if s.1.handlerPc = some .connect then 1 else 0) + s.2.posted.countP asks

/-- What holds in every state of every run. -/
structure StationInv (D : Driver δ κ) (s : Node × Station δ) : Prop where
  /-- While the driver is idle, a request is on its way, or one has failed. -/
  pending : requestsPending s + s.2.failed = if D.idle s.2.driver = true then 1 else 0
  connects : s.1.connects + requestsPending s = s.2.asked

/-- Only an idle driver is asked. -/
theorem StationInv.idle_of_pending {s : Node × Station δ} (hinv : StationInv D s)
    (h : requestsPending s ≠ 0) : D.idle s.2.driver = true := by
  by_contra hnot
  have hpending := hinv.pending
  rw [if_neg hnot] at hpending
  omega

/-- A handler that is about to ask has a request on its way. -/
theorem requestsPending_ne_zero (h : s.handlerPc = some .connect) :
    requestsPending (s, st) ≠ 0 := by
  simp only [requestsPending, if_pos h]
  omega

theorem stationInv_step (hD : D.Documented) {s s' : Node × Station δ}
    {l : Option Move × Option (StationMove κ)} (hinv : StationInv D s)
    (h : (system D).step s l = some s') : StationInv D s' := by
  have hpending := hinv.pending
  have hconnects := hinv.connects
  cases effect_of_step h with
  | init hl hpc hsame =>
    refine ⟨?_, ?_⟩
    · simpa only [requestsPending, hpc] using hpending
    · simpa only [requestsPending, hpc, hsame] using hconnects
  | @deliver s st event posted hposted hpc =>
    -- an event that asks for a connection becomes a handler that is about to do so
    have hsame : requestsPending ({ s with handlerPc := event.branch }, { st with posted }) =
        requestsPending (s, st) := by
      simp only [requestsPending, hpc, hposted, List.countP_cons, asks, decide_eq_true_eq,
        reduceCtorEq, if_false]
      omega
    exact ⟨by rw [hsame]; exact hpending, by rw [hsame]; exact hconnects⟩
  | @connect s s' st k driver ok hpc hpc' hmore hdriver =>
    -- since the request is on its way, the driver is idle
    have hidle : D.idle st.driver = true := hinv.idle_of_pending (requestsPending_ne_zero hpc)
    have hafter := hD.connect _ _ _ _ hdriver hidle
    rw [if_pos hidle] at hpending
    simp only [requestsPending, hpc, if_true] at hpending hconnects
    refine ⟨?_, ?_⟩ <;> simp only [requestsPending, hpc', reduceCtorEq, if_false]
    · cases ok <;> simp only [hafter, Bool.not_true, Bool.not_false, Bool.false_eq_true, if_true,
        if_false] <;> omega
    · rw [hmore]
      omega
  | handle hpc hpc' hsame hleft =>
    refine ⟨?_, ?_⟩
    · simpa only [requestsPending, if_neg hpc, if_neg hpc'] using hpending
    · simpa only [requestsPending, if_neg hpc, if_neg hpc', hsame] using hconnects
  | @own s st k driver events hdriver =>
    have hposts := hD.posts _ _ _ _ hdriver
    have hstays := hD.stays _ _ _ _ hdriver
    simp only [requestsPending] at hpending hconnects
    refine ⟨?_, ?_⟩ <;> simp only [requestsPending, List.countP_append]
    · rw [hposts]
      cases hbefore : D.idle st.driver with
      | true =>
        rw [hbefore] at hpending hstays
        simp only [hstays rfl, Bool.true_eq_false, false_and, if_false, if_true] at hpending ⊢
        omega
      | false =>
        rw [hbefore] at hpending
        simp only [Bool.false_eq_true, if_false] at hpending
        cases D.idle driver <;>
          simp only [Bool.false_eq_true, and_false, and_self, if_true, if_false] <;> omega
    · omega

theorem stationInv_of_reachable (hD : D.Documented) {s : Node × Station δ}
    (h : (system D).Reachable s) : StationInv D s := by
  apply h.invariant (I := StationInv D)
  · rintro ⟨s, ⟨driver, posted, asked, failed⟩⟩ ⟨rfl, hstart, rfl, rfl, rfl⟩
    refine ⟨?_, rfl⟩
    rw [hD.start driver hstart]
    rfl
  · intro s l s' hinv hstep
    exact stationInv_step hD hinv hstep

/-- With a driver that behaves as documented, in every state of every run: the handler only asks for
a connection while no attempt and no connection is under way. While the driver is idle, exactly one
request is on its way, unless a call of `esp_wifi_connect` has failed, and otherwise none; so at
most one call fails. Each request that has been made or is on its way answers a `STA_START` or
`STA_DISCONNECTED` of its own. -/
theorem one_request_each_end (hD : D.Documented) {s : Node × Station δ}
    (h : (system D).Reachable s) :
    (s.1.handlerPc = some .connect → D.idle s.2.driver = true) ∧
      (requestsPending s + s.2.failed = if D.idle s.2.driver = true then 1 else 0) ∧
      s.1.connects + requestsPending s = s.2.asked := by
  have hinv := stationInv_of_reachable hD h
  exact ⟨fun hpc => hinv.idle_of_pending (requestsPending_ne_zero hpc), hinv.pending,
    hinv.connects⟩

/-- The phases of a simple driver. -/
inductive Phase
  | off
  | idle
  /-- An attempt to connect is under way. -/
  | connecting
  | connected
  deriving DecidableEq, Repr

/-- What can happen to it. -/
inductive Choice
  /-- Station mode starts, or the attempt succeeds, or an address is obtained. -/
  | succeed
  /-- The attempt or the call fails, or the access point is lost. -/
  | fail
  deriving DecidableEq, Repr

/-- A driver that posts an event for each change. -/
def simpleDriver : Driver Phase Choice where
  start phase := phase = .off
  idle phase := phase = .idle
  own
    | .off, .succeed => some (.idle, [.staStart])
    | .connecting, .succeed => some (.connected, [.other])
    | .connected, .succeed => some (.connected, [.staGotIp])
    | .connecting, .fail | .connected, .fail => some (.idle, [.staDisconnected])
    | .off, .fail | .idle, _ => none
  connect
    | .idle, .succeed => some (.connecting, true)
    | phase, _ => some (phase, false)

theorem documented_simpleDriver : simpleDriver.Documented where
  start phase h := by
    rw [h]
    rfl
  stays phase k phase' events h := by
    cases phase <;> cases k <;> cases h <;> decide
  posts phase k phase' events h := by
    cases phase <;> cases k <;> cases h <;> decide
  connect phase k phase' ok h hidle := by
    cases phase <;> cases k <;> cases h <;> first | rfl | cases hidle
  returns phase := ⟨.fail, by cases phase <;> rfl⟩

theorem reachable_simpleDriver :
    (system simpleDriver).Reachable (Node.start, ⟨.off, [], 0, 0⟩) :=
  .init ⟨rfl, rfl, rfl, rfl, rfl⟩

/-- The station starts, connects and loses the access point again. -/
def connectAndLose : List (Option Move × Option (StationMove Choice)) := [
  (some .init, none), (none, some (.own .succeed)), (some (.deliver .staStart), some .deliver),
  (some .handler, some (.connect .succeed)), (none, some (.own .succeed)),
  (none, some (.own .fail))]

/-- The second request is on its way. -/
theorem one_request_each_end_lost :
    ∃ s, (system simpleDriver).Reachable s ∧ (s.1.connects = 1 ∧ s.2.failed = 0) ∧
      requestsPending s = 1 ∧ s.2.asked = 2 := by
  obtain ⟨s, hs, h⟩ := reachable_simpleDriver.exists_of_exec connectAndLose
    (fun s => s.1.connects = 1 ∧ s.2.failed = 0 ∧ simpleDriver.idle s.2.driver) (by decide)
  obtain ⟨hconnects, hfailed, hidle⟩ := of_decide_eq_true h
  obtain ⟨-, hpending, hasked⟩ := one_request_each_end documented_simpleDriver hs
  rw [if_pos hidle] at hpending
  exact ⟨s, hs, ⟨hconnects, hfailed⟩, by omega, by omega⟩

/-! ## The way to the request -/

/-- The steps of the event loop until the handler asks, when the event is posted that leads to
it. -/
def untilAsked : List Event → ℕ
  | [] => 0
  | event :: posted =>
    if asks event then 2 else 1 + handlerLeft event.branch + untilAsked posted

/-- The steps of the event loop until the request. -/
def untilRequest (s : Node × Station δ) : ℕ :=
  if s.1.handlerPc = some .connect then 1
  else handlerLeft s.1.handlerPc + untilAsked s.2.posted

theorem handlerLeft_le (pc : Option HandlerPc) : handlerLeft pc ≤ 2 := by
  rcases pc with _ | _ | _ | _ <;> simp [handlerLeft]

theorem untilAsked_le (posted : List Event) : untilAsked posted ≤ 3 * posted.length := by
  induction posted with
  | nil => exact Nat.zero_le _
  | cons event posted ih =>
    have hbranch := handlerLeft_le event.branch
    rw [untilAsked, List.length_cons]
    split <;> omega

theorem untilRequest_le (s : Node × Station δ) : untilRequest s ≤ 3 * s.2.posted.length + 2 := by
  have hpc := handlerLeft_le s.1.handlerPc
  have hposted := untilAsked_le s.2.posted
  rw [untilRequest]
  split <;> omega

/-- What is posted later is delivered later. -/
theorem untilAsked_append {posted : List Event} (h : posted.countP asks ≠ 0) (later : List Event) :
    untilAsked (posted ++ later) = untilAsked posted := by
  induction posted with
  | nil => exact absurd rfl h
  | cons event posted ih =>
    rw [List.cons_append, untilAsked, untilAsked]
    split
    · rfl
    · rename_i hasks
      rw [List.countP_cons_of_neg hasks] at h
      rw [ih h]

/-- A step of the event loop is a step on the way to the request, and no other step is one back. -/
theorem untilRequest_step {s s' : Node × Station δ} {l : Option Move × Option (StationMove κ)}
    (hpending : requestsPending s ≠ 0) (h : (system D).step s l = some s') :
    s.1.connects < s'.1.connects ∨ requestsPending s' ≠ 0 ∧
      s'.1.connects = s.1.connects ∧ untilRequest s' + (eventLoop l).toNat ≤ untilRequest s := by
  cases effect_of_step h with
  | @init s s' st l hl hpc hconnects =>
    right
    -- neither the posted events nor the handler change
    rw [hl, Bool.toNat_false, Nat.add_zero]
    refine ⟨?_, hconnects, Nat.le_of_eq (by simp only [untilRequest, hpc])⟩
    simpa only [requestsPending, hpc] using hpending
  | @deliver s st event posted hposted hpc =>
    right
    refine ⟨?_, rfl, ?_⟩
    · simp only [requestsPending, hpc, hposted, List.countP_cons, asks, decide_eq_true_eq,
        reduceCtorEq, if_false] at hpending ⊢
      omega
    · simp only [eventLoop, Option.any_some, ofEventLoop, Bool.toNat_true, untilRequest, hpc,
        reduceCtorEq, if_false, handlerLeft, hposted, untilAsked, asks, decide_eq_true_eq]
      split <;> omega
  | connect hpc hpc' hmore hdriver =>
    left
    rw [hmore]
    exact Nat.lt_succ_self _
  | handle hpc hpc' hsame hleft =>
    right
    rw [untilRequest, untilRequest, if_neg hpc, if_neg hpc']
    simp only [requestsPending, if_neg hpc, if_neg hpc'] at hpending ⊢
    refine ⟨hpending, hsame, ?_⟩
    simp only [eventLoop, Option.any_some, ofEventLoop, Bool.toNat_true]
    omega
  | @own s st k driver events hdriver =>
    right
    -- the driver posts behind what is already there
    simp only [requestsPending] at hpending
    refine ⟨?_, rfl, ?_⟩
    · simp only [requestsPending, List.countP_append]
      omega
    · simp only [untilRequest, eventLoop, Option.any_none, Bool.toNat_false, Nat.add_zero]
      split
      · exact Nat.le_refl _
      · rename_i hpc
        rw [if_neg hpc, Nat.zero_add] at hpending
        exact Nat.le_of_eq (congrArg _ (untilAsked_append hpending _))

/-- No statement of the handler blocks. -/
theorem exists_handler {pc : HandlerPc} (hpc : s.handlerPc = some pc) :
    ∃ s', s.handler = some s' := by
  rw [Node.handler, hpc]
  cases pc with
  | connect => exact ⟨_, rfl⟩
  | testClient =>
    by_cases hclient : s.mqttClient.isSome
    · exact ⟨_, if_pos hclient⟩
    · exact ⟨_, if_neg hclient⟩
  | startClient => exact ⟨_, rfl⟩

/-- The event loop can go on while a request is on its way. -/
theorem exists_eventLoop_step (hD : D.Documented) (hpending : requestsPending (s, st) ≠ 0)
    (hdelivers : s.initPc.delivers = true) :
    ∃ l s', eventLoop l = true ∧ (system D).step (s, st) l = some s' := by
  cases hpc : s.handlerPc with
  | none =>
    -- the request is still an event
    obtain ⟨event, posted, hposted⟩ : ∃ event posted, st.posted = event :: posted := by
      apply List.exists_cons_of_ne_nil
      intro hnil
      simp [requestsPending, hpc, hnil] at hpending
    refine ⟨(some (.deliver event), some .deliver),
      ({ s with handlerPc := event.branch }, { st with posted }), rfl,
      TransitionSystem.step_parallel_iff.mpr ⟨?_, if_pos ⟨hdelivers, hpc⟩, ?_⟩⟩
    · exact decide_eq_true (by rw [hposted]; rfl)
    · simp only [TransitionSystem.stepIf, station, Station.step, hposted]
  | some pc =>
    obtain ⟨s', hs'⟩ := exists_handler hpc
    have hnode : s.step .handler = some s' := (if_pos hdelivers).trans hs'
    by_cases hconnect : pc = .connect
    · subst hconnect
      obtain ⟨k, hk⟩ := hD.returns st.driver
      obtain ⟨⟨driver, ok⟩, hdriver⟩ := Option.isSome_iff_exists.mp hk
      obtain ⟨st', hst'⟩ : ∃ st', st.step D (.connect k) = some st' :=
        ⟨_, Option.map_eq_some_iff.mpr ⟨_, hdriver, rfl⟩⟩
      exact ⟨(some .handler, some (.connect k)), (s', st'), rfl,
        TransitionSystem.step_parallel_iff.mpr ⟨decide_eq_true hpc, hnode, hst'⟩⟩
    · have hnot : s.handlerPc ≠ some .connect := by simpa [hpc] using hconnect
      exact ⟨(some .handler, none), (s', st), rfl,
        TransitionSystem.step_parallel_iff.mpr ⟨decide_eq_true hnot, hnode, rfl⟩⟩

/-! ## After a call that failed -/

/-- Failures are not forgotten, and without a request on its way the handler does not ask. -/
theorem connects_step {s s' : Node × Station δ} {l : Option Move × Option (StationMove κ)}
    (hnone : requestsPending s = 0) (h : (system D).step s l = some s') :
    s'.1.connects = s.1.connects ∧ s'.2.failed = s.2.failed := by
  cases effect_of_step h with
  | init hl hpc hconnects => exact ⟨hconnects, rfl⟩
  | deliver hposted hpc => exact ⟨rfl, rfl⟩
  | connect hpc => exact absurd hnone (requestsPending_ne_zero hpc)
  | handle hpc hpc' hconnects => exact ⟨hconnects, rfl⟩
  | own hdriver => exact ⟨rfl, rfl⟩

/-- After a call of `esp_wifi_connect` that failed, the handler never makes another one, and the
driver stays idle. -/
theorem gives_up (hD : D.Documented) {s s' : Node × Station δ} (h : (system D).Reachable s)
    (hfailed : s.2.failed ≠ 0) {ls : List (Option Move × Option (StationMove κ))}
    (hexec : (system D).exec s ls = some s') :
    s'.1.connects = s.1.connects ∧ D.idle s'.2.driver = true := by
  -- the failed call is the one request that an idle driver gets
  have hidle : ∀ t, (system D).Reachable t → t.2.failed ≠ 0 →
      D.idle t.2.driver = true ∧ requestsPending t = 0 := by
    intro t ht htfailed
    have hpending := (stationInv_of_reachable hD ht).pending
    by_cases hit : D.idle t.2.driver = true
    · rw [if_pos hit] at hpending
      exact ⟨hit, by omega⟩
    · rw [if_neg hit] at hpending
      omega
  have hinv : (system D).Reachable s' ∧ s'.2.failed ≠ 0 ∧ s'.1.connects = s.1.connects := by
    refine TransitionSystem.exec_invariant
      (I := fun t => (system D).Reachable t ∧ t.2.failed ≠ 0 ∧ t.1.connects = s.1.connects)
      ?_ ⟨h, hfailed, rfl⟩ hexec
    rintro t l t' ⟨ht, htfailed, hsame⟩ hstep
    obtain ⟨hconnects, hkept⟩ := connects_step (hidle t ht htfailed).2 hstep
    exact ⟨ht.next hstep, by rwa [hkept], hconnects.trans hsame⟩
  exact ⟨hinv.2.2, (hidle s' hinv.1 hinv.2.1).1⟩

/-- While the driver is idle and no call of `esp_wifi_connect` has failed, whatever the driver and
`wifi_mqtt_init` do, the event loop has a next step as long as `wifi_mqtt_init` has not aborted, and
a run in which `esp_wifi_connect` is not called has only so many of its steps: for each posted event
the delivery and two statements, and two for the event that is handled now. Once a call has failed,
there is never another one. -/
theorem reconnect_bounded (hD : D.Documented) {s : Node × Station δ}
    (h : (system D).Reachable s) (hidle : D.idle s.2.driver = true) :
    (s.2.failed = 0 →
      (s.1.initPc.delivers = true →
        ∃ l s', eventLoop l = true ∧ (system D).step s l = some s') ∧
      ∀ ls s', (system D).exec s ls = some s' → s'.1.connects = s.1.connects →
        ls.countP eventLoop ≤ 3 * s.2.posted.length + 2) ∧
    (s.2.failed ≠ 0 → ∀ ls s', (system D).exec s ls = some s' →
      s'.1.connects = s.1.connects ∧ D.idle s'.2.driver = true) := by
  refine ⟨fun hnever => ?_, fun hfailed ls s' hexec => gives_up hD h hfailed hexec⟩
  have hpending := (stationInv_of_reachable hD h).pending
  rw [if_pos hidle, hnever, Nat.add_zero] at hpending
  have hsome : requestsPending s ≠ 0 := by omega
  refine ⟨fun hdelivers => exists_eventLoop_step hD hsome hdelivers, fun ls s' hexec hsame => ?_⟩
  refine Nat.le_trans (TransitionSystem.countP_le_rank
    (fun t => requestsPending t ≠ 0 ∧ t.1.connects = s.1.connects)
    (fun t => s.1.connects < t.1.connects) untilRequest eventLoop ?_ ⟨hsome, rfl⟩ hexec ?_)
    (untilRequest_le s)
  · rintro t l t' ⟨ht, hconnects⟩ hstep
    rcases untilRequest_step ht hstep with hmore | ⟨hstill, hkept, hrank⟩
    · exact .inl (by omega)
    · exact .inr ⟨⟨hstill, hkept.trans hconnects⟩, hrank⟩
  · rintro ms ns t rfl ht hmore
    rw [TransitionSystem.exec_append, ht, Option.bind_some] at hexec
    -- calls that were made stay made in the rest of the run
    have hle := TransitionSystem.exec_invariant
      (I := fun u : Node × Station δ => t.1.connects ≤ u.1.connects) ?_ (Nat.le_refl _) hexec
    · omega
    · intro u l u' hu hstep
      by_cases hnone : requestsPending u = 0
      · rw [(connects_step hnone hstep).1]
        exact hu
      · rcases untilRequest_step hnone hstep with hmore | ⟨-, hkept, -⟩ <;> omega

/-- After the loss of the access point the event of the connection and the loss are delivered, and
then the handler asks; if that call fails, nothing follows the next address. -/
theorem reconnect_bounded_lost :
    (∃ s, (system simpleDriver).Reachable s ∧ s.2.posted = [.other, .staDisconnected] ∧
      List.countP eventLoop [(some (.deliver .other), some (.deliver : StationMove Choice)),
        (some (.deliver .staDisconnected), some .deliver)] ≤ 8) ∧
    ∃ s, (system simpleDriver).Reachable s ∧ s.2.failed = 1 ∧
      ∀ ls s', (system simpleDriver).exec s ls = some s' → s'.1.connects = 2 := by
  constructor
  · obtain ⟨s, hs, h⟩ := reachable_simpleDriver.exists_of_exec connectAndLose
      (fun s => s.2.posted = [.other, .staDisconnected] ∧ s.2.failed = 0 ∧
        simpleDriver.idle s.2.driver ∧
        ((system simpleDriver).exec s [(some (.deliver .other), some .deliver),
          (some (.deliver .staDisconnected), some .deliver)]).any fun s' =>
            s'.1.connects = s.1.connects) (by decide)
    obtain ⟨hposted, hfailed, hidle, hany⟩ := of_decide_eq_true h
    obtain ⟨s', hexec, hsame⟩ := (Option.any_eq_true _ _).mp hany
    have hbound := ((reconnect_bounded documented_simpleDriver hs hidle).1 hfailed).2 _ s' hexec
      (of_decide_eq_true hsame)
    rw [hposted] at hbound
    exact ⟨s, hs, hposted, hbound⟩
  · obtain ⟨s, hs, h⟩ := reachable_simpleDriver.exists_of_exec
      (connectAndLose ++ [(some (.deliver .other), some .deliver),
        (some (.deliver .staDisconnected), some .deliver), (some .handler, some (.connect .fail))])
      (fun s => s.2.failed = 1 ∧ s.1.connects = 2 ∧ simpleDriver.idle s.2.driver) (by decide)
    obtain ⟨hfailed, hconnects, hidle⟩ := of_decide_eq_true h
    refine ⟨s, hs, hfailed, fun ls s' hexec => ?_⟩
    rw [← hconnects]
    exact ((reconnect_bounded documented_simpleDriver hs hidle).2 (by omega) ls s' hexec).1

end TelemetryNode.WifiStation
