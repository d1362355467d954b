import TelemetryNode.Library.Composition
import TelemetryNode.System.Conservation

/-!
# The transmitter below the link

`uart_send_buffer` hands its bytes to `USART2`, which has room for one byte in `TDR` and for one in
its shift register. The function polls `TXE` before it writes a byte, and `TC` before it returns.
Here the node of `Pipeline` has this transmitter in place of its move `transmit`: each poll and each
write is a step of its own, and the transmitter takes its steps whenever it can.

## Main definitions

* `WireLevel.Transmitter`: the registers, and what the hardware does with them.
* `WireLevel.system`: all interleavings of the node with the transmitter.
* `WireLevel.WireNode.node`: the node of `Pipeline` that a state stands for.

## Main results

* `WireLevel.projectsTo`: the node with the transmitter refines the node without.
* `WireLevel.transmitter_safe`: no byte is overwritten in `TDR`, and the wire is idle while a call
  waits for its answer.
* `WireLevel.send_bounded`: the polls of a call end after at most 34 steps of the transmitter.
-/

namespace TelemetryNode.WireLevel

open UartHandshake Pipeline

/-- The transmitter of `USART2`. -/
structure Transmitter where
  /-- The byte in `TDR`, while `TXE` is clear. -/
  tdr : Option Byte
  /-- The byte that is being shifted out. -/
  shift : Option Byte
  /-- `TC`. -/
  tc : Bool

namespace Transmitter

/-- After reset the transmitter is empty, and `TC` is set. -/
def start : Transmitter := ⟨none, none, true⟩

/-- `TXE`. -/
def txe (t : Transmitter) : Bool := t.tdr.isNone

/-- A write to `TDR`. It clears `TC`, and a byte that is still in `TDR` is lost. -/
def writeTdr (t : Transmitter) (b : Byte) : Transmitter := { t with tdr := some b, tc := false }

/-- The byte in `TDR` moves on, once the shift register is empty. -/
def load (t : Transmitter) : Option Transmitter :=
  match t.tdr, t.shift with
  | some b, none => some { t with tdr := none, shift := some b }
  | _, _ => none

/-- The byte in the shift register has been sent. Unless another one waits, `TC` is set. -/
def finish (t : Transmitter) : Option (Byte × Transmitter) :=
  t.shift.map fun b => (b, { t with shift := none, tc := t.tdr.isNone })

/-- The bytes in the transmitter, the oldest first. -/
def bytes (t : Transmitter) : List Byte := t.shift.toList ++ t.tdr.toList

end Transmitter

/-- The node with the transmitter. The bytes on `link.uplink` have left it. -/
structure WireNode where
  link : Node
  usart : Transmitter
  /-- The poll of `TXE` for the next byte has found it set. -/
  ready : Bool

/-- The moves. -/
inductive Move
  /-- A pass of the loop on `TXE` of `uart_send_buffer`. -/
  | pollTxe
  /-- `USART2->TDR = data[i]`. -/
  | writeTdr
  /-- A pass of the loop on `TC`. -/
  | pollTc
  /-- The transmitter moves a byte to its shift register. -/
  | load
  /-- The transmitter has sent a byte. -/
  | finish
  /-- A move of the rest of the node. -/
  | link (m : Pipeline.Move)

/-- The state after a move, if it is possible. -/
def WireNode.step (mqttClient : Bool) (s : WireNode) : Move → Option WireNode
  | .pollTxe =>
    match s.link.sender with
    | .sending (_ :: _) => if s.ready then none else some { s with ready := s.usart.txe }
    | _ => none
  | .writeTdr =>
    match s.link.sender with
    | .sending (b :: rest) =>
      if s.ready then
        some {
          link := { s.link with sender := .sending rest }
          usart := s.usart.writeTdr b
          ready := false }
      else none
    | _ => none
  | .pollTc =>
    match s.link.sender with
    | .sending [] =>
      some (if s.usart.tc then { s with link := { s.link with sender := .waiting 0 } } else s)
    | _ => none
  | .load => s.usart.load.map fun usart => { s with usart }
  | .finish => s.usart.finish.map fun (b, usart) =>
    { s with link := { s.link with uplink := s.link.uplink ++ [b] }, usart }
  | .link .transmit | .link .startWait => none
  | .link m => (s.link.step mqttClient m).map fun link => { s with link }

/-- All interleavings. -/
def system (mqttClient : Bool) : TransitionSystem WireNode Move where
  init s := ∃ payloadBuf, s = ⟨.start payloadBuf, .start, false⟩
  step := WireNode.step mqttClient

/-- The node without a transmitter: what is in it is on the link. -/
def WireNode.node (s : WireNode) : Node :=
  { s.link with uplink := s.link.uplink ++ s.usart.bytes }

variable {mqttClient : Bool} {s s' : WireNode}

/-! ## What can happen -/

/-- The steps of the node with the transmitter. -/
inductive Step (mqttClient : Bool) (s : WireNode) : Move → WireNode → Prop
  | pollTxe (b : Byte) (rest : List Byte) : s.link.sender = .sending (b :: rest) →
      s.ready = false → Step mqttClient s .pollTxe { s with ready := s.usart.txe }
  | writeTdr (b : Byte) (rest : List Byte) : s.link.sender = .sending (b :: rest) →
      s.ready = true → Step mqttClient s .writeTdr
        ⟨{ s.link with sender := .sending rest }, s.usart.writeTdr b, false⟩
  | busy : s.link.sender = .sending [] → s.usart.tc = false → Step mqttClient s .pollTc s
  | sent : s.link.sender = .sending [] → s.usart.tc = true → Step mqttClient s .pollTc
        { s with link := { s.link with sender := .waiting 0 } }
  | load (b : Byte) : s.usart.tdr = some b → s.usart.shift = none → Step mqttClient s .load
        { s with usart := ⟨none, some b, s.usart.tc⟩ }
  | finish (b : Byte) : s.usart.shift = some b → Step mqttClient s .finish
        { s with
          link := { s.link with uplink := s.link.uplink ++ [b] }
          usart := ⟨s.usart.tdr, none, s.usart.tdr.isNone⟩ }
  | link (m : Pipeline.Move) (n : Node) : m ≠ .transmit → m ≠ .startWait →
      s.link.step mqttClient m = some n → Step mqttClient s (.link m) { s with link := n }

theorem step_cases {m : Move} (h : s.step mqttClient m = some s') : Step mqttClient s m s' := by
  cases m with
  | pollTxe =>
    simp only [WireNode.step] at h
    split at h
    · rename_i b rest hsender
      split at h <;> cases h
      exact .pollTxe b rest hsender (Bool.eq_false_iff.mpr ‹_›)
    · cases h
  | writeTdr =>
    simp only [WireNode.step] at h
    split at h
    · rename_i b rest hsender
      split at h <;> cases h
      exact .writeTdr b rest hsender ‹_›
    · cases h
  | pollTc =>
    simp only [WireNode.step] at h
    split at h
    · rename_i hsender
      cases htc : s.usart.tc <;> rw [htc] at h <;> cases h
      · exact .busy hsender htc
      · exact .sent hsender htc
    · cases h
  | load =>
    obtain ⟨usart, hload, rfl⟩ := Option.map_eq_some_iff.mp h
    unfold Transmitter.load at hload
    split at hload <;> cases hload
    exact .load _ ‹_› ‹_›
  | finish =>
    obtain ⟨⟨b, usart⟩, hfinish, rfl⟩ := Option.map_eq_some_iff.mp h
    obtain ⟨b', hshift, heq⟩ := Option.map_eq_some_iff.mp hfinish
    cases heq
    exact .finish b hshift
  | link m =>
    -- these two are made by `writeTdr` and `pollTc` here
    cases m with
    | transmit | startWait => cases h
    | _ =>
      obtain ⟨n, hn, rfl⟩ := Option.map_eq_some_iff.mp h
      exact .link _ n (by simp) (by simp) hn

/-! ## The registers -/

/-- The steps that the transmitter still has to make for a call, if the loops of the call do not end
before. -/
def WireNode.work (s : WireNode) : ℕ :=
  2 * s.link.sender.unsent.length + 2 * s.usart.tdr.toList.length + s.usart.shift.toList.length

/-- `TC` tells that the transmitter is empty; a byte is to be written only when `TDR` is empty, and
outside `uart_send_buffer` everything has been sent. -/
structure TransmitterInv (s : WireNode) : Prop where
  tc : s.usart.tc = (s.usart.tdr.isNone && s.usart.shift.isNone)
  ready : s.ready = true → s.usart.tdr = none
  idle : (∀ rest, s.link.sender ≠ .sending rest) → s.usart.bytes = []
  work_le : s.work ≤ 2 * UartFrame.size

/-- What the rest of the node does to a call: it begins one, polls for its answer, or leaves it
alone. -/
theorem sender_of_link {n n' : Node} {m : Pipeline.Move} (htransmit : m ≠ .transmit)
    (hstart : m ≠ .startWait) (h : n.step mqttClient m = some n') :
    n'.sender = n.sender ∨
      (n.sender = .idle ∧ ∃ payload, n'.sender = .sending (wireFrame payload)) ∨
      ((∀ rest, n.sender ≠ .sending rest) ∧ ∀ rest, n'.sender ≠ .sending rest) := by
  cases m with
  | transmit => exact absurd rfl htransmit
  | startWait => exact absurd rfl hstart
  | call payload =>
    obtain ⟨hidle, rfl⟩ := step_call h
    exact .inr (.inl ⟨hidle, payload, rfl⟩)
  | poll =>
    obtain ⟨timer, hsender, hpoll⟩ := step_poll h
    -- the wait goes on or the call returns: both are outside `uart_send_buffer`
    refine .inr (.inr ⟨by simp [hsender], ?_⟩)
    rcases hpoll with ⟨-, -, rfl⟩ | ⟨-, -, rfl⟩ | ⟨-, rfl⟩ <;> simp
  | arriveUp =>
    obtain ⟨b, uplink, -, rfl⟩ := step_arriveUp h
    exact .inl rfl
  | arriveDown =>
    obtain ⟨b, downlink, -, rfl⟩ := step_arriveDown h
    exact .inl rfl
  | read count =>
    obtain ⟨-, -, -, rfl⟩ := step_read h
    exact .inl rfl
  | process =>
    obtain ⟨b, data, context, todo, -, -, -, rfl⟩ := step_process h
    exact .inl rfl
  | perform =>
    rcases step_perform h with ⟨b, todo, -, rfl⟩ | ⟨todo, queue, -, -, rfl⟩ <;> exact .inl rfl
  | receive =>
    obtain ⟨data, queue, -, -, rfl⟩ := step_receive h
    exact .inl rfl
  | publish =>
    simp only [Node.step] at h
    split at h
    · split at h <;> cases h <;> exact .inl rfl
    · cases h

/-- A sender that is not in `uart_send_buffer` has nothing to send. -/
theorem unsent_of_not_sending {sender : Sender} (h : ∀ rest, sender ≠ .sending rest) :
    sender.unsent = [] := by
  cases sender with
  | sending rest => exact absurd rfl (h rest)
  | _ => rfl

/-- The rest of the node leaves the transmitter alone, and begins a call only when it is empty. -/
theorem transmitterInv_link (h : TransmitterInv s) {n : Node} {m : Pipeline.Move}
    (htransmit : m ≠ .transmit) (hstart : m ≠ .startWait)
    (hn : s.link.step mqttClient m = some n) : TransmitterInv { s with link := n } := by
  obtain ⟨htc, hready, hidle, hwork⟩ := h
  rcases sender_of_link htransmit hstart hn with hsame | ⟨hfree, payload, hcall⟩ | ⟨hold, hnew⟩
  · refine ⟨htc, hready, fun hnot => hidle ?_, ?_⟩
    · rwa [← hsame]
    · simpa only [WireNode.work, hsame] using hwork
  -- the call begins with an empty transmitter, so its work is that of the frame alone
  · have hempty := hidle (by simp [hfree])
    refine ⟨htc, hready, fun hnot => absurd hcall (hnot _), ?_⟩
    obtain ⟨hshift, htdr⟩ := List.append_eq_nil_iff.mp hempty
    simp [WireNode.work, hcall, hshift, htdr, Sender.unsent]
  · refine ⟨htc, hready, fun _ => hidle hold, ?_⟩
    simpa only [WireNode.work, unsent_of_not_sending hold, unsent_of_not_sending hnew] using hwork

theorem transmitterInv_step {m : Move} (h : TransmitterInv s)
    (hstep : s.step mqttClient m = some s') : TransmitterInv s' := by
  have hinv := h
  obtain ⟨htc, hready, hidle, hwork⟩ := h
  cases step_cases hstep with
  | pollTxe b rest hsender hnot =>
    exact ⟨htc, fun htxe => Option.isNone_iff_eq_none.mp htxe, hidle, hwork⟩
  | writeTdr b rest hsender hset =>
    refine ⟨?_, by simp, by simp, ?_⟩
    · simp [Transmitter.writeTdr]
    -- `TDR` is empty, so the byte costs there what it did in the buffer
    · have htdr := hready hset
      simp [WireNode.work, hsender, htdr, Sender.unsent, Transmitter.writeTdr] at hwork ⊢
      omega
  | busy hsender hclear => exact hinv
  | sent hsender hset =>
    -- `TC` is set only when both registers are empty, so the wait starts with everything sent
    rw [htc, Bool.and_eq_true, Option.isNone_iff_eq_none, Option.isNone_iff_eq_none] at hset
    refine ⟨htc, hready, fun _ => ?_, ?_⟩
    · simp [Transmitter.bytes, hset.1, hset.2]
    · simp [WireNode.work, hset.1, hset.2, Sender.unsent]
  | load b htdr hshift =>
    refine ⟨?_, fun _ => rfl, fun hnot => ?_, ?_⟩
    · simp [htc, htdr]
    · have hempty := hidle hnot
      simp [Transmitter.bytes, htdr] at hempty
    · simp [WireNode.work, htdr, hshift] at hwork ⊢
      omega
  | finish b hshift =>
    refine ⟨by simp, hready, fun hnot => ?_, ?_⟩
    · have hempty := hidle hnot
      simp [Transmitter.bytes, hshift] at hempty
    · simp [WireNode.work, hshift] at hwork ⊢
      omega
  | link m n htransmit hstart hn => exact transmitterInv_link hinv htransmit hstart hn

theorem transmitterInv_of_reachable (h : (system mqttClient).Reachable s) : TransmitterInv s := by
  apply h.invariant (I := TransmitterInv)
  · rintro s ⟨payloadBuf, rfl⟩
    exact ⟨rfl, by simp, fun _ => rfl, Nat.zero_le _⟩
  · intro s m s' hinv hstep
    exact transmitterInv_step hinv hstep

/-! ## Refinement -/

/-- The rest of the node does not notice bytes that are added to the end of the link. -/
theorem step_uplink_append {n n' : Node} {m : Pipeline.Move} (htransmit : m ≠ .transmit)
    (h : n.step mqttClient m = some n') (bytes : List Byte) :
    ({ n with uplink := n.uplink ++ bytes } : Node).step mqttClient m =
      some { n' with uplink := n'.uplink ++ bytes } := by
  cases m with
  | transmit => exact absurd rfl htransmit
  | call payload =>
    obtain ⟨hidle, rfl⟩ := step_call h
    simp [Node.step, hidle, transmitted_eq]
  | startWait =>
    obtain ⟨hsender, rfl⟩ := step_startWait h
    simp [Node.step, hsender]
  | poll =>
    simp only [Node.step] at h ⊢
    split at h
    · split at h <;> cases h <;> rfl
    · cases h
  -- the bytes are taken from the front of the link
  | arriveUp =>
    obtain ⟨b, uplink, huplink, rfl⟩ := step_arriveUp h
    simp [Node.step, huplink]
  | arriveDown =>
    obtain ⟨b, downlink, hdownlink, rfl⟩ := step_arriveDown h
    simp [Node.step, hdownlink]
  | read count =>
    obtain ⟨htodo, hdata, hcount, rfl⟩ := step_read h
    simp [Node.step, htodo, hdata, hcount]
  | process =>
    obtain ⟨b, data, context, todo, htodo, hdata, hbyte, rfl⟩ := step_process h
    simp [Node.step, Node.process, htodo, hdata, hbyte]
  | perform =>
    rcases step_perform h with ⟨b, todo, htodo, rfl⟩ | ⟨todo, queue, htodo, hsend, rfl⟩
    · simp [Node.step, Node.perform, htodo, Node.payloadBuf]
    · simp only [Node.payloadBuf] at hsend
      simp [Node.step, Node.perform, htodo, hsend, Node.payloadBuf]
  | receive =>
    obtain ⟨data, queue, hwaiting, hreceive, rfl⟩ := step_receive h
    simp [Node.step, hwaiting, hreceive]
  | publish =>
    simp only [Node.step] at h ⊢
    split at h
    · cases mqttClient <;> cases h <;> rfl
    · cases h

/-- The node with the transmitter refines the node without: a write to `TDR` is the move `transmit`,
the poll that finds `TC` set is the move `startWait`, and the other polls and the steps of the
transmitter are not seen. -/
theorem projectsTo (mqttClient : Bool) :
    (system mqttClient).ProjectsTo (Pipeline.system mqttClient) WireNode.node where
  init := by
    rintro s ⟨payloadBuf, rfl⟩
    exact ⟨payloadBuf, rfl⟩
  step s m s' hs hstep := by
    have hinv := transmitterInv_of_reachable hs
    cases step_cases hstep with
    | pollTxe b rest hsender hnot => exact .inl rfl
    | writeTdr b rest hsender hset =>
      refine .inr ⟨.transmit, ?_⟩
      have htdr := hinv.ready hset
      simp [Pipeline.system, Node.step, WireNode.node, hsender, Transmitter.bytes,
        Transmitter.writeTdr, htdr]
    | busy hsender hclear => exact .inl rfl
    | sent hsender hset =>
      refine .inr ⟨.startWait, ?_⟩
      simp [Pipeline.system, Node.step, WireNode.node, hsender]
    | load b htdr hshift =>
      left
      simp [WireNode.node, Transmitter.bytes, htdr, hshift]
    | finish b hshift =>
      left
      simp [WireNode.node, Transmitter.bytes, hshift]
    | link m n htransmit hstart hn =>
      exact .inr ⟨m, step_uplink_append htransmit hn s.usart.bytes⟩

/-- In every reachable state of the node with the transmitter: it stands for a reachable state of
the node without, so that what was published is a prefix of what was passed to the calls, and all of
it once everything is drained; a write to `TDR` finds it empty, so that no byte is lost there; and
while a call waits for its answer, or none is active, the wire is idle. -/
theorem transmitter_safe (h : (system true).Reachable s) :
    (Pipeline.system true).Reachable s.node ∧
      (s.link.published <+: s.link.calls ∧
        (s.link.Drained → s.link.published = s.link.calls)) ∧
      (∀ s', s.step true .writeTdr = some s' → s.usart.tdr = none) ∧
      ((∀ rest, s.link.sender ≠ .sending rest) →
        s.usart.tdr = none ∧ s.usart.shift = none ∧ s.usart.tc = true) := by
  have hnode := (projectsTo true).reachable h
  have hinv := transmitterInv_of_reachable h
  obtain ⟨hbegins, hdrained⟩ := published_begins hnode
  have hempty : (∀ rest, s.link.sender ≠ .sending rest) →
      s.usart.tdr = none ∧ s.usart.shift = none := by
    intro hnot
    obtain ⟨hshift, htdr⟩ := List.append_eq_nil_iff.mp (hinv.idle hnot)
    exact ⟨Option.toList_eq_nil_iff.mp htdr, Option.toList_eq_nil_iff.mp hshift⟩
  refine ⟨hnode, ⟨hbegins, fun hdone => hdrained ?_⟩, fun s' hstep => ?_, fun hnot => ?_⟩
  · obtain ⟨hsender, huplink, hrest⟩ := hdone
    obtain ⟨htdr, hshift⟩ := hempty (by simp [hsender])
    refine ⟨hsender, ?_, hrest⟩
    simp [WireNode.node, huplink, Transmitter.bytes, htdr, hshift]
  · cases step_cases hstep with
    | writeTdr b rest hsender hset => exact hinv.ready hset
  · obtain ⟨htdr, hshift⟩ := hempty hnot
    refine ⟨htdr, hshift, ?_⟩
    rw [hinv.tc, htdr, hshift]
    rfl

theorem reachable_start : (system true).Reachable ⟨.start (.replicate _ 0#8), .start, false⟩ :=
  .init ⟨_, rfl⟩

/-- The second byte of a frame is written while the first one is shifted out. -/
theorem transmitter_safe_second_byte :
    ∃ s, (system true).Reachable s ∧ s.usart.shift.isSome = true ∧
      ∃ s', s.step true .writeTdr = some s' ∧ s.usart.tdr = none := by
  obtain ⟨s, hs, h⟩ := reachable_start.exists_of_exec
    [.link (.call (dataPacket 330#16 1000#16 2000#16)), .pollTxe, .writeTdr, .load, .pollTxe]
    (fun s => s.usart.shift.isSome ∧ (s.step true .writeTdr).isSome) (by decide +kernel)
  obtain ⟨hshift, hnext⟩ := of_decide_eq_true h
  obtain ⟨s', hstep⟩ := Option.isSome_iff_exists.mp hnext
  exact ⟨s, hs, hshift, s', hstep, (transmitter_safe hs).2.2.1 s' hstep⟩

/-! ## The loops on `TXE` and `TC` end -/

/-- The steps that the transmitter makes. -/
def hardware : Move → Bool
  | .load | .finish => true
  | _ => false

/-- The STM32 is in `uart_send_buffer`. -/
def WireNode.Sending (s : WireNode) : Prop := ∃ rest, s.link.sender = .sending rest

instance : DecidablePred WireNode.Sending := fun s =>
  match h : s.link.sender with
  | .sending rest => .isTrue ⟨rest, h⟩
  | .idle | .waiting _ => .isFalse fun ⟨_, hrest⟩ => by cases h.symm.trans hrest

/-- In `uart_send_buffer` a step of the transmitter is paid from the work left, and no other step
adds to it. -/
theorem work_step (h : TransmitterInv s) (hsending : s.Sending) {m : Move}
    (hstep : s.step mqttClient m = some s') :
    ¬ s'.Sending ∨ s'.work + (hardware m).toNat ≤ s.work := by
  cases step_cases hstep with
  | pollTxe b rest hsender hnot => exact .inr le_rfl
  | writeTdr b rest hsender hset =>
    have htdr := h.ready hset
    right
    simp [WireNode.work, hardware, hsender, htdr, Sender.unsent, Transmitter.writeTdr]
    omega
  | busy hsender hclear => exact .inr le_rfl
  | sent hsender hset =>
    left
    rintro ⟨rest, hrest⟩
    cases hrest
  | load b htdr hshift =>
    right
    simp [WireNode.work, hardware, htdr, hshift]
  | finish b hshift =>
    right
    simp [WireNode.work, hardware, hshift]
  | link m n htransmit hstart hn =>
    obtain ⟨rest, hsender⟩ := hsending
    rcases sender_of_link htransmit hstart hn with hsame | ⟨hidle, -⟩ | ⟨hold, -⟩
    · right
      simp [WireNode.work, hardware, hsame]
    · rw [hsender] at hidle
      cases hidle
    · exact absurd hsender (hold rest)

/-- When the transmitter has nothing left to do, a poll ends its loop. -/
theorem poll_ends (h : TransmitterInv s) (hload : s.usart.load = none)
    (hfinish : s.usart.finish = none) {m : Move} (hpoll : m = .pollTxe ∨ m = .pollTc)
    (hstep : s.step mqttClient m = some s') : s'.ready = true ∨ ¬ s'.Sending := by
  have hshift : s.usart.shift = none := Option.map_eq_none_iff.mp hfinish
  have htdr : s.usart.tdr = none := by
    unfold Transmitter.load at hload
    split at hload
    · cases hload
    · rename_i hnot
      cases htdr : s.usart.tdr with
      | none => rfl
      | some b => exact absurd hshift (hnot b htdr)
  have htc : s.usart.tc = true := by simp [h.tc, htdr, hshift]
  rcases hpoll with rfl | rfl
  · cases step_cases hstep with
    | pollTxe b rest hsender hnot =>
      left
      simp [Transmitter.txe, htdr]
  · cases step_cases hstep with
    | busy hsender hclear => exact absurd (hclear.symm.trans htc) Bool.false_ne_true
    | sent hsender hset =>
      right
      rintro ⟨rest, hrest⟩
      cases hrest

/-- `uart_send_buffer` returns: from every reachable state in it, a run in which it has not returned
yet has at most 34 steps of the transmitter, and when the transmitter cannot make a step, the next
poll of `TXE` or `TC` ends its loop. -/
theorem send_bounded (h : (system mqttClient).Reachable s) (hsending : s.Sending) :
    (s.usart.load = none → s.usart.finish = none →
      ∀ m s', m = .pollTxe ∨ m = .pollTc → s.step mqttClient m = some s' →
        s'.ready = true ∨ ¬ s'.Sending) ∧
      ∀ ls s', (system mqttClient).exec s ls = some s' →
        (∀ ms ns t, ls = ms ++ ns → (system mqttClient).exec s ms = some t → t.Sending) →
        ls.countP hardware ≤ 2 * UartFrame.size := by
  have hinv := transmitterInv_of_reachable h
  refine ⟨fun hload hfinish m s' hpoll hstep => poll_ends hinv hload hfinish hpoll hstep, ?_⟩
  intro ls s' hexec hkept
  refine (TransitionSystem.countP_le_rank (fun t => TransmitterInv t ∧ t.Sending)
    (fun t => ¬ t.Sending) WireNode.work hardware ?_ ⟨hinv, hsending⟩ hexec ?_).trans hinv.work_le
  · rintro t m t' ⟨ht, htsending⟩ hstep
    by_cases hleft : t'.Sending
    · right
      rcases work_step ht htsending hstep with hnot | hwork
      · exact absurd hleft hnot
      · exact ⟨⟨transmitterInv_step ht hstep, hleft⟩, hwork⟩
    · exact .inl hleft
  · exact fun ms ns t hsplit ht hnot => hnot (hkept ms ns t hsplit ht)

/-- A frame byte by byte: each is written when the one before has been shifted out. -/
def byteByByte : List Move :=
  (List.replicate UartFrame.size [.pollTxe, .writeTdr, .load, .finish]).flatten

/-- The first poll of a call finds `TXE` set, and a whole frame takes all the steps of the
transmitter that it can have. -/
theorem send_bounded_whole_frame :
    ∃ s s', (system true).Reachable s ∧ s.Sending ∧
      (s.step true .pollTxe = some s' ∧ (s'.ready = true ∨ ¬ s'.Sending)) ∧
      ((system true).exec s byteByByte).isSome = true ∧
      byteByByte.countP hardware = 2 * UartFrame.size ∧
      byteByByte.countP hardware ≤ 2 * UartFrame.size := by
  obtain ⟨s, hs, h⟩ := reachable_start.exists_of_exec
    [.link (.call (dataPacket 330#16 1000#16 2000#16))]
    (fun s => s.Sending ∧ s.usart.load.isNone ∧ s.usart.finish.isNone ∧
      (s.step true .pollTxe).isSome ∧ ((system true).exec s byteByByte).isSome ∧
      (system true).along (fun t => t.Sending) s byteByByte) (by decide +kernel)
  obtain ⟨hsending, hload, hfinish, hnext, hrun, hkept⟩ := of_decide_eq_true h
  obtain ⟨s', hstep⟩ := Option.isSome_iff_exists.mp hnext
  obtain ⟨t, hexec⟩ := Option.isSome_iff_exists.mp hrun
  obtain ⟨hends, hbound⟩ := send_bounded hs hsending
  refine ⟨s, s', hs, hsending, ⟨hstep, ?_⟩, hrun, by decide, ?_⟩
  · exact hends (Option.isNone_iff_eq_none.mp hload) (Option.isNone_iff_eq_none.mp hfinish) _ s'
      (.inl rfl) hstep
  · refine hbound byteByByte t hexec fun ms ns u hsplit hu => ?_
    have hstill := TransitionSystem.of_along hkept hsplit hu
    exact of_decide_eq_true hstill

end TelemetryNode.WireLevel
