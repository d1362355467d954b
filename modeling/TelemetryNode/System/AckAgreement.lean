import TelemetryNode.System.Conservation

/-!
# What an ACK tells the STM32

The ACK is a bare byte. The STM32 does not drop a byte that is still in its receive register when it
starts a call, and it takes any ACK it reads while it waits for the answer to its frame. So a call
that returns `true` has seen some ACK, though not necessarily its own.

The argument is made on an abstract handshake that knows only calls, results and responses, which
the node refines.

## Main definitions

* `Pipeline.Handshake` and `Pipeline.HandshakeStep`: the abstract handshake.

## Main results

* `Pipeline.handshakeStep_of_step`: the node refines the abstract handshake.
* `Pipeline.ack_agreement`: no more calls return `true` than frames were acknowledged; and a call
  that starts with no earlier answer outstanding returns `true` only for its own frame.
-/

namespace TelemetryNode.Pipeline

open UartHandshake UartReceiver

/-- The handshake without frames: what was called, returned and acknowledged, and the responses that
have not been read. -/
structure Handshake where
  calls : List TelemetryPayload
  results : List Bool
  acked : List TelemetryPayload
  /-- A call is active. -/
  active : Bool
  rdr : Option Byte
  downlink : List Byte

/-- The steps of the handshake. -/
inductive HandshakeStep : Handshake → Handshake → Prop
  /-- Something happens that does not concern the handshake. -/
  | stutter (v : Handshake) : HandshakeStep v v
  | call (v : Handshake) (payload : TelemetryPayload) : v.active = false →
      HandshakeStep v { v with active := true, calls := v.calls ++ [payload] }
  /-- The active call reads an ACK. -/
  | succeed (v : Handshake) : v.active = true → v.rdr = some protocolAckByte →
      HandshakeStep v { v with active := false, rdr := none, results := v.results ++ [true] }
  /-- The active call reads something else, or nothing. -/
  | skip (v : Handshake) : v.rdr ≠ some protocolAckByte → HandshakeStep v { v with rdr := none }
  | timeOut (v : Handshake) : v.active = true →
      HandshakeStep v { v with active := false, results := v.results ++ [false] }
  /-- A response arrives. It is lost if the last one has not been read. -/
  | arrive (v : Handshake) (b : Byte) (downlink : List Byte) : v.downlink = b :: downlink →
      HandshakeStep v { v with downlink := downlink, rdr := some (v.rdr.getD b) }
  | acknowledge (v : Handshake) (payload : TelemetryPayload) :
      HandshakeStep v { v with
        downlink := v.downlink ++ [protocolAckByte]
        acked := v.acked ++ [payload] }
  | reject (v : Handshake) (b : Byte) : b ≠ protocolAckByte →
      HandshakeStep v { v with downlink := v.downlink ++ [b] }

/-- The handshake that a state of the node stands for. -/
def Node.handshake (s : Node) : Handshake where
  calls := s.calls
  results := s.results
  acked := s.acked
  active := s.sender ≠ .idle
  rdr := s.rdr
  downlink := s.downlink

/-! ## The node refines the handshake -/

variable {s s' : Node} {v v' : Handshake}

/-- Every move of the node is a step of the handshake. -/
theorem handshakeStep_of_step {m : Move} (hstep : s.step true m = some s') :
    HandshakeStep s.handshake s'.handshake := by
  cases m with
  | call payload =>
    obtain ⟨hidle, rfl⟩ := step_call hstep
    simpa [Node.handshake] using
      HandshakeStep.call s.handshake payload (by simp [Node.handshake, hidle])
  | poll =>
    obtain ⟨timer, hsender, hpoll⟩ := step_poll hstep
    have hactive : s.handshake.active = true := by simp [Node.handshake, hsender]
    rcases hpoll with ⟨-, hrdr, rfl⟩ | ⟨-, hrdr, rfl⟩ | ⟨-, rfl⟩
    · simpa [Node.handshake] using HandshakeStep.succeed s.handshake hactive hrdr
    -- a byte other than the ACK is dropped, a NACK included
    · simpa [Node.handshake, hsender] using HandshakeStep.skip s.handshake hrdr
    · simpa [Node.handshake] using HandshakeStep.timeOut s.handshake hactive
  | perform =>
    rcases step_perform hstep with ⟨b, todo, -, rfl⟩ | ⟨todo, queue, -, -, rfl⟩
    · by_cases hb : b = protocolAckByte
      · simpa [Node.handshake, hb] using HandshakeStep.acknowledge s.handshake s.payloadBuf
      · simpa [Node.handshake, hb] using HandshakeStep.reject s.handshake b hb
    -- the queue is no concern of the handshake
    · exact .stutter _
  | arriveDown =>
    obtain ⟨b, downlink, hdownlink, rfl⟩ := step_arriveDown hstep
    exact .arrive s.handshake b downlink hdownlink
  | transmit =>
    obtain ⟨b, rest, hsender, rfl⟩ := step_transmit hstep
    simpa [Node.handshake, hsender] using HandshakeStep.stutter s.handshake
  | startWait =>
    obtain ⟨hsender, rfl⟩ := step_startWait hstep
    simpa [Node.handshake, hsender] using HandshakeStep.stutter s.handshake
  | arriveUp =>
    obtain ⟨b, uplink, -, rfl⟩ := step_arriveUp hstep
    exact .stutter _
  | read count =>
    obtain ⟨-, -, -, rfl⟩ := step_read hstep
    exact .stutter _
  | process =>
    obtain ⟨b, data, context, todo, -, -, -, rfl⟩ := step_process hstep
    exact .stutter _
  | receive =>
    obtain ⟨data, queue, -, -, rfl⟩ := step_receive hstep
    exact .stutter _
  | publish =>
    obtain ⟨data, -, rfl⟩ := step_publish hstep
    exact .stutter _

/-! ## No more successes than ACKs -/

/-- How many ACKs have been sent that the STM32 can still read. -/
def Handshake.acksOutstanding (v : Handshake) : ℕ :=
  (if v.rdr = some protocolAckByte then 1 else 0) + v.downlink.count protocolAckByte

/-- The calls are accounted for, and so are the ACKs. -/
structure HandshakeInv (v : Handshake) : Prop where
  calls : v.calls.length = v.results.length + if v.active then 1 else 0
  acks : v.results.count true + v.acksOutstanding ≤ v.acked.length

theorem handshakeInv_step (h : HandshakeInv v) (hstep : HandshakeStep v v') : HandshakeInv v' := by
  obtain ⟨hcalls, hacks⟩ := h
  unfold Handshake.acksOutstanding at hacks
  cases hstep with
  | stutter => exact ⟨hcalls, hacks⟩
  | call payload hidle => exact ⟨by simpa [hidle] using hcalls, hacks⟩
  | succeed hactive hrdr =>
    -- the ACK that was read becomes a success
    refine ⟨by simpa [hactive] using hcalls, ?_⟩
    simp only [hrdr, if_true] at hacks
    simp only [Handshake.acksOutstanding, List.count_append, List.count_singleton_self,
      reduceCtorEq, if_false]
    omega
  | skip hrdr =>
    refine ⟨hcalls, ?_⟩
    simpa [Handshake.acksOutstanding, hrdr] using hacks
  | timeOut hactive =>
    exact ⟨by simpa [hactive] using hcalls, by simpa [Handshake.acksOutstanding] using hacks⟩
  | arrive b downlink hdownlink =>
    refine ⟨hcalls, ?_⟩
    rw [hdownlink, List.count_cons] at hacks
    cases hrdr : v.rdr with
    | none =>
      -- an ACK moves from the link to the register
      simp only [hrdr, reduceCtorEq, if_false] at hacks
      simp only [Handshake.acksOutstanding, Option.getD_none, Option.some.injEq]
      by_cases hb : b = protocolAckByte <;> simp [hb] at hacks ⊢ <;> omega
    | some r =>
      -- the byte is lost
      simp only [hrdr] at hacks
      simp only [Handshake.acksOutstanding, Option.getD_some]
      omega
  | acknowledge payload =>
    refine ⟨hcalls, ?_⟩
    simp only [Handshake.acksOutstanding, List.count_append, List.count_singleton_self,
      List.length_append, List.length_singleton]
    omega
  | reject b hb =>
    refine ⟨hcalls, ?_⟩
    have hnone : [b].count protocolAckByte = 0 := by simp [hb]
    simpa [Handshake.acksOutstanding, List.count_append, hnone] using hacks

theorem handshakeInv_of_reachable (h : (system true).Reachable s) : HandshakeInv s.handshake := by
  refine h.invariant (I := fun s => HandshakeInv s.handshake) ?_ fun s m s' hinv hstep =>
    handshakeInv_step hinv (handshakeStep_of_step (m := m) hstep)
  rintro s ⟨payloadBuf, rfl⟩
  exact ⟨rfl, le_refl _⟩

/-- What is acknowledged is a prefix of what was passed to the calls. -/
theorem acked_prefix (h : (system true).Reachable s) : s.acked <+: s.calls := by
  obtain ⟨done, rest, part, hinv⟩ := inv_of_reachable h
  rw [hinv.calls, ← hinv.acked, List.append_assoc]
  exact List.prefix_append _ _

/-! ## One call -/

/-- No answer to an earlier call is outstanding: every earlier frame has been acknowledged, and no
ACK is on its way or unread. -/
def Handshake.Quiet (v : Handshake) : Prop :=
  v.acked.length = v.calls.length ∧ v.rdr ≠ some protocolAckByte ∧ protocolAckByte ∉ v.downlink

/-- The invariant of the run after a call with number `n`: until its frame is acknowledged, there is
no ACK to be read. -/
def OwnAck (n : ℕ) (payload : TelemetryPayload) (v : Handshake) : Prop :=
  v.calls[n]? = some payload ∧
    (n < v.acked.length ∨ (v.acked.length = n ∧ v.rdr ≠ some protocolAckByte ∧
      protocolAckByte ∉ v.downlink ∧ v.results[n]? ≠ some true))

theorem ownAck_step {n : ℕ} {payload : TelemetryPayload} (h : OwnAck n payload v)
    (hstep : HandshakeStep v v') : OwnAck n payload v' := by
  obtain ⟨hcall, hack⟩ := h
  cases hstep with
  | stutter => exact ⟨hcall, hack⟩
  | call p hidle =>
    refine ⟨?_, hack⟩
    rw [List.getElem?_append_left (List.getElem?_eq_some_iff.mp hcall).1]
    exact hcall
  | succeed hactive hrdr =>
    -- there is an ACK to be read only after the own one
    refine ⟨hcall, .inl ?_⟩
    rcases hack with hacked | ⟨-, hnone, -⟩
    · exact hacked
    · exact absurd hrdr hnone
  | skip hrdr =>
    refine ⟨hcall, hack.imp_right ?_⟩
    rintro ⟨hlen, -, hdown, hres⟩
    exact ⟨hlen, by simp, hdown, hres⟩
  | timeOut hactive =>
    refine ⟨hcall, hack.imp_right ?_⟩
    rintro ⟨hlen, hrdr, hdown, hres⟩
    refine ⟨hlen, hrdr, hdown, fun htrue => hres ?_⟩
    -- the result that is added is not `true`
    rw [List.getElem?_append] at htrue
    split at htrue
    · exact htrue
    · rw [List.getElem?_singleton] at htrue
      split at htrue <;> simp at htrue
  | arrive b downlink hdownlink =>
    refine ⟨hcall, hack.imp_right ?_⟩
    rintro ⟨hlen, hrdr, hdown, hres⟩
    rw [hdownlink, List.mem_cons, not_or] at hdown
    refine ⟨hlen, ?_, hdown.2, hres⟩
    cases hr : v.rdr with
    | none => simpa using Ne.symm hdown.1
    | some r => simpa [hr] using hrdr
  | acknowledge p =>
    refine ⟨hcall, .inl ?_⟩
    rw [List.length_append, List.length_singleton]
    rcases hack with hacked | ⟨hlen, -⟩ <;> omega
  | reject b hb =>
    refine ⟨hcall, hack.imp_right ?_⟩
    rintro ⟨hlen, hrdr, hdown, hres⟩
    exact ⟨hlen, hrdr, by simp [hdown, Ne.symm hb], hres⟩

/-- A call that starts in a quiet state establishes `OwnAck`. -/
theorem ownAck_call {payload : TelemetryPayload} (hinv : HandshakeInv s.handshake)
    (hquiet : s.handshake.Quiet) (hcall : s.step true (.call payload) = some s') :
    OwnAck s.calls.length payload s'.handshake := by
  obtain ⟨hlen, hrdr, hdown⟩ := hquiet
  have hle : s.results.length ≤ s.calls.length := hinv.calls ▸ Nat.le_add_right _ _
  obtain ⟨-, rfl⟩ := step_call hcall
  refine ⟨List.getElem?_concat_length, .inr ⟨hlen, hrdr, hdown, ?_⟩⟩
  -- the call has no result yet
  simp [Node.handshake, List.getElem?_eq_none hle]

/-- As long as every call has returned `true`, the node is quiet between the calls. -/
theorem quiet_of_succeeded (h : HandshakeInv v) (hidle : v.active = false)
    (hsent : v.acked <+: v.calls) (hall : ∀ result ∈ v.results, result = true) : v.Quiet := by
  obtain ⟨hcalls, hacks⟩ := h
  have hcount : v.results.count true = v.results.length :=
    List.count_eq_length.mpr fun result hresult => (hall result hresult).symm
  have hle := hsent.length_le
  simp only [hidle, Bool.false_eq_true, if_false, Nat.add_zero] at hcalls
  have hnone : v.acksOutstanding = 0 := by omega
  obtain ⟨hrdr, hdown⟩ := Nat.add_eq_zero_iff.mp hnone
  refine ⟨by omega, ?_, List.count_eq_zero.mp hdown⟩
  intro hack
  simp [hack] at hrdr

/-- In every reachable state, at most as many calls have returned `true` as frames have been
acknowledged, and these are the frames of the first calls, in order. A call that starts in a quiet
state returns `true` only if its own frame is acknowledged, whatever happens meanwhile and
afterwards; and the state between two calls is quiet as long as all calls have returned `true`. -/
theorem ack_agreement (h : (system true).Reachable s) :
    (s.results.count true ≤ s.acked.length ∧ s.acked <+: s.calls) ∧
      (s.sender = .idle → (∀ result ∈ s.results, result = true) → s.handshake.Quiet) ∧
      ∀ payload s₁, s.handshake.Quiet → s.step true (.call payload) = some s₁ →
        ∀ ms s₂, (system true).exec s₁ ms = some s₂ →
          s₂.results[s.calls.length]? = some true → s₂.acked[s.calls.length]? = some payload := by
  have hinv := handshakeInv_of_reachable h
  have hsent := acked_prefix h
  refine ⟨⟨le_trans (Nat.le_add_right _ _) hinv.acks, hsent⟩, fun hidle hall => ?_, ?_⟩
  · exact quiet_of_succeeded hinv (by simp [Node.handshake, hidle]) hsent hall
  · intro payload s₁ hquiet hcall ms s₂ hexec htrue
    have hreachable : (system true).Reachable s₁ := h.next (l := .call payload) hcall
    obtain ⟨hnth, hacked | ⟨-, -, -, hno⟩⟩ : OwnAck s.calls.length payload s₂.handshake :=
      TransitionSystem.exec_invariant (I := fun s => OwnAck _ payload s.handshake)
        (fun s m s' hI hstep => ownAck_step hI (handshakeStep_of_step (m := m) hstep))
        (ownAck_call hinv hquiet hcall) hexec
    · -- what is acknowledged is a prefix of the calls, of which `payload` is the one in question
      obtain ⟨later, hcalls⟩ := acked_prefix (hreachable.exec hexec)
      have hget : s₂.calls[s.calls.length]? = some payload := hnth
      have hlt : s.calls.length < s₂.acked.length := hacked
      rw [← hcalls, List.getElem?_append_left hlt] at hget
      exact hget
    · exact absurd htrue hno

/-- After a call that returned `true`, the next one is answered by its own ACK. -/
theorem ack_agreement_second_packet :
    ∃ s, (system true).Reachable s ∧ s.results[1]? = some true ∧
      s.acked[1]? = some (dataPacket 331#16 1001#16 2001#16) := by
  have hstart : (system true).Reachable (.start (.replicate _ 0#8)) := .init ⟨_, rfl⟩
  obtain ⟨s, hs, h⟩ := hstart.exists_of_exec
    (beginCall (dataPacket 330#16 1000#16 2000#16) ++ answerFrame ++ [.poll])
    (fun s => s.sender = .idle ∧ s.results = [true] ∧ s.calls.length = 1 ∧
      ((system true).exec s (beginCall (dataPacket 331#16 1001#16 2001#16) ++ answerFrame ++
        [.poll])).any fun s => s.results[1]? = some true) (by decide +kernel)
  rw [decide_eq_true_iff] at h
  obtain ⟨hidle, hresults, hlen, hnext⟩ := h
  obtain ⟨s₂, hexec, htrue⟩ := (Option.any_eq_true _ _).mp hnext
  obtain ⟨s₁, hcall, hrest⟩ := Option.bind_eq_some_iff.mp hexec
  have hquiet : s.handshake.Quiet := (ack_agreement hs).2.1 hidle (by simp [hresults])
  rw [decide_eq_true_iff, ← hlen] at htrue
  have hacked := (ack_agreement hs).2.2 _ s₁ hquiet hcall _ s₂ hrest htrue
  rw [hlen] at htrue hacked
  exact ⟨s₂, hs.exec hexec, htrue, hacked⟩

/-! ## A late ACK -/

/-- Polling without a response counts the timer up. -/
theorem exec_poll {n timer : ℕ} (hsender : s.sender = .waiting timer) (hrdr : s.rdr = none)
    (hle : timer + n ≤ ackTimeoutLoops) :
    (system true).exec s (List.replicate n .poll) =
      some { s with sender := .waiting (timer + n) } := by
  induction n generalizing s timer with
  | zero => simp [TransitionSystem.exec, ← hsender]
  | succ n ih =>
    have hpoll : (system true).step s .poll = some { s with sender := .waiting (timer + 1) } := by
      have hlt : timer < ackTimeoutLoops := by omega
      simp [system, Node.step, hsender, hrdr, pollForByte, hlt]
    have hrest := ih (s := { s with sender := .waiting (timer + 1) }) rfl hrdr (by omega)
    rw [List.replicate_succ, TransitionSystem.exec, hpoll, Option.bind_some, hrest]
    simp only [Nat.add_assoc, Nat.add_comm 1 n]

/-- The wait for a response that does not come ends with `false`. -/
theorem exec_timeOut (hsender : s.sender = .waiting 0) (hrdr : s.rdr = none) :
    (system true).exec s (List.replicate (ackTimeoutLoops + 1) .poll) =
      some { s with sender := .idle, results := s.results ++ [false] } := by
  rw [List.replicate_succ', TransitionSystem.exec_append,
    exec_poll hsender hrdr (Nat.zero_add _).le, Option.bind_some]
  simp [TransitionSystem.exec, system, Node.step, pollForByte, hrdr]

/-- The first call times out. Its ACK comes late, and the second call, of whose frame the receiver
has not got a byte, takes it for its own. -/
theorem late_ack_taken_for_own :
    ∃ s, (system true).Reachable s ∧ s.results[1]? = some true ∧
      s.calls[1]? = some (dataPacket 331#16 1001#16 2001#16) ∧ s.acked[1]? = none ∧
      s.uplink = wireFrame (dataPacket 331#16 1001#16 2001#16) := by
  have hstart : (system true).Reachable (.start (.replicate _ 0#8)) := .init ⟨_, rfl⟩
  obtain ⟨s, hs, h⟩ := hstart.exists_of_exec (beginCall (dataPacket 330#16 1000#16 2000#16))
    (fun s => s.sender = .waiting 0 ∧ s.rdr = none ∧
      ((system true).exec { s with sender := .idle, results := s.results ++ [false] }
        (answerFrame ++ beginCall (dataPacket 331#16 1001#16 2001#16) ++ [.poll])).any fun s =>
          s.results[1]? = some true ∧ s.calls[1]? = some (dataPacket 331#16 1001#16 2001#16) ∧
          s.acked[1]? = none ∧ s.uplink = wireFrame (dataPacket 331#16 1001#16 2001#16))
    (by decide +kernel)
  rw [decide_eq_true_iff] at h
  obtain ⟨hsender, hrdr, hrest⟩ := h
  obtain ⟨s', hs', h'⟩ := (hs.exec (exec_timeOut hsender hrdr)).exists_of_exec _ _ hrest
  exact ⟨s', hs', by simpa using h'⟩

end TelemetryNode.Pipeline
