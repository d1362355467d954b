import Mathlib.Data.Set.List
import TelemetryNode.Stm32.DataReady
import TelemetryNode.Stm32.ScanConsistency

/-!
# What the loop transmits, and how often

Whatever the interrupt and the hardware do between the statements of the loop, every packet that
goes out has the same timestamp and the same status flags, and no reading exceeds the largest
conversion. Each packet answers an interrupt of its own: there are never more packets than complete
laps of the sample buffer.

## Main results

* `MainLoop.transmitted_readings`: with 12-bit conversions the transmitted packets are
  `Readings.packet`.
* `MainLoop.batchInv_of_reachable`: the interrupts that the packets answer increase strictly.
* `Sampling.one_packet_each_lap`: a packet takes a lap of 48 conversions of its own, and none of
  its samples is older than that lap.
-/

namespace TelemetryNode.MainLoop

open DmaAdc Sampling

variable {s s' : Core} {m : Move} {limit : ℕ}

/-! ## What the moves of the others leave alone -/

/-- What does not change with a move that is not a statement of the loop. -/
theorem frame_of_environment (h : s.step m = some s') (hm : m ≠ .cpu) :
    s'.dataPacket = s.dataPacket ∧ s'.batch = s.batch ∧ s'.transmitted = s.transmitted ∧
      (s'.pc = s.pc ∨ s'.pc = .clearWakeupFlags ∨ s'.pc = .setCommError ∨
        s'.pc = .clearSleepDeep) := by
  cases m with
  | cpu => exact absurd rfl hm
  | endWait ackReceived =>
    simp only [Core.step, Core.endWait] at h
    split at h <;> cases h
    refine ⟨rfl, rfl, rfl, .inr ?_⟩
    cases ackReceived
    · exact .inr (.inl rfl)
    · exact .inl rfl
  | interrupt =>
    simp only [Core.step, Core.interrupt] at h
    split at h <;> cases h
    refine ⟨rfl, rfl, rfl, ?_⟩
    change (if s.pc = .halted then Pc.clearSleepDeep else s.pc) = s.pc ∨ _
    split
    · exact .inr (.inr (.inr rfl))
    · exact .inl rfl
  | transfer value | transferError =>
    cases h
    exact ⟨rfl, rfl, rfl, .inl rfl⟩

/-! ## The fields of a packet -/

/-- The conversions stored are at most `limit`. -/
def ConversionsLe (limit : ℕ) (_ : Core) : Move → Prop
  | .transfer value => value.toNat ≤ limit
  | _ => True

instance : DecidableRel (ConversionsLe limit) := fun _ m => by
  cases m <;> unfold ConversionsLe <;> infer_instance

/-- The readings of a packet are at most `limit`. -/
def ReadingsLe (limit : ℕ) (packet : TelemetryPayload) : Prop :=
  ∀ channel, (reading packet channel).toNat ≤ limit

/-- What has been assigned to the packet when a statement is reached. -/
def Assigned (limit : ℕ) (packet : TelemetryPayload) : Pc → Prop
  | .averageChannel channel i sum =>
    packet.timestampMs = 0#32 ∧ i ≤ adcBufferDepth ∧ sum.toNat ≤ i * limit ∧
      ∀ other < channel, (reading packet other).toNat ≤ limit
  | .setStatusFlags => packet.timestampMs = 0#32 ∧ ReadingsLe limit packet
  | .clearDataReady | .wakeEsp32 | .sendTelemetry =>
    packet.timestampMs = 0#32 ∧ packet.statusFlags = 0x01#8 ∧ ReadingsLe limit packet
  | _ => True

/-- The conversions, what is made of them, and the packets that were transmitted. -/
structure FieldsInv (limit : ℕ) (s : Core) : Prop where
  buffer : ∀ (slot : ℕ) (h : slot < adcChannels * adcBufferDepth),
    s.driver.adcBuffer[slot].toNat ≤ limit
  assigned : Assigned limit s.dataPacket s.pc
  transmitted : ∀ q ∈ s.transmitted,
    q.2.timestampMs = 0#32 ∧ q.2.statusFlags = 0x01#8 ∧ ReadingsLe limit q.2

/-- A pass of the loop of a channel adds at most `limit`. -/
theorem toNat_accumulate_le (hlimit : limit ≤ 0xFFFF) {d : Driver}
    (hbuffer : ∀ (slot : ℕ) (h : slot < adcChannels * adcBufferDepth),
      d.adcBuffer[slot].toNat ≤ limit)
    {channel : Fin adcChannels} {i : ℕ} (hi : i < adcBufferDepth) {sum : BitVec 32}
    (hsum : sum.toNat ≤ i * limit) :
    (accumulate d channel ⟨i, hi⟩ sum).toNat ≤ (i + 1) * limit := by
  have hslot := CircularBuffer.stride_lt channel.isLt hi
  have hvalue := hbuffer (i * adcChannels + channel) hslot
  have hadd := (toNat_add_sample (hsum.trans (Nat.mul_le_mul_left i hlimit)) hi
    d.adcBuffer[i * adcChannels + channel]).1
  calc (accumulate d channel ⟨i, hi⟩ sum).toNat
      = sum.toNat + d.adcBuffer[i * adcChannels + channel].toNat := hadd
    _ ≤ i * limit + limit := Nat.add_le_add hsum hvalue
    _ = (i + 1) * limit := (Nat.succ_mul i limit).symm

/-- The average of 16 conversions is at most `limit`. -/
theorem toNat_average_le (hlimit : limit ≤ 0xFFFF) {sum : BitVec 32}
    (hsum : sum.toNat ≤ adcBufferDepth * limit) : (average sum).toNat ≤ limit := by
  rw [toNat_average (hsum.trans (Nat.mul_le_mul_left _ hlimit))]
  exact Nat.div_le_of_le_mul hsum

/-- The end of the loop of a channel. -/
theorem assigned_afterAverage (hlimit : limit ≤ 0xFFFF) {packet : TelemetryPayload}
    {channel : Fin adcChannels} {i : ℕ} {sum : BitVec 32}
    (h : Assigned limit packet (.averageChannel channel i sum)) (hi : ¬ i < adcBufferDepth) :
    Assigned limit (setReading packet channel (average sum)) (afterAverage channel) := by
  obtain ⟨htimestamp, hle, hsum, hothers⟩ := h
  obtain rfl : i = adcBufferDepth := le_antisymm hle (Nat.le_of_not_lt hi)
  have htimestamp' : (setReading packet channel (average sum)).timestampMs = 0#32 := by
    match channel with
    | 0 | 1 | 2 => exact htimestamp
  -- the fields up to this channel are bounded
  have hreading : ∀ other ≤ channel,
      (reading (setReading packet channel (average sum)) other).toNat ≤ limit := by
    intro other hother
    rw [reading_setReading]
    by_cases heq : other = channel
    · rw [if_pos heq]
      exact toNat_average_le hlimit hsum
    · rw [if_neg heq]
      exact hothers other (lt_of_le_of_ne hother heq)
  have hnext : ∀ next : Fin adcChannels, next.val = channel + 1 →
      Assigned limit (setReading packet channel (average sum)) (.averageChannel next 0 0#32) := by
    intro next hval
    refine ⟨htimestamp', Nat.zero_le _, Nat.zero_le _, fun other hother => hreading other ?_⟩
    rw [Fin.lt_def, hval] at hother
    exact Nat.le_of_lt_succ hother
  have hcases : ∀ channel : Fin adcChannels, channel = 0 ∨ channel = 1 ∨ channel = 2 := by decide
  rcases hcases channel with rfl | rfl | rfl
  · exact hnext 1 rfl
  · exact hnext 2 rfl
  · exact ⟨htimestamp', fun other => hreading other (Fin.le_last other)⟩

/-- What a statement of the loop assigns. -/
theorem assigned_cpu (hlimit : limit ≤ 0xFFFF) (hinv : FieldsInv limit s) (h : s.cpu = some s') :
    Assigned limit s'.dataPacket s'.pc := by
  have hassigned := hinv.assigned
  cases hpc : s.pc <;> rw [hpc] at hassigned <;>
    simp only [Core.cpu, hpc, Option.some.injEq, reduceCtorEq] at h
  case testDataReady | waitForInterrupt =>
    subst h
    dsimp only
    split <;> trivial
  case setTimestamp =>
    subst h
    exact ⟨rfl, Nat.zero_le _, Nat.zero_le _, fun other hother => absurd hother (Nat.not_lt_zero _)⟩
  case averageChannel channel i sum =>
    by_cases hi : i < adcBufferDepth
    · rw [dif_pos hi] at h
      cases h
      obtain ⟨htimestamp, -, hsum, hothers⟩ := hassigned
      exact ⟨htimestamp, hi, toNat_accumulate_le hlimit hinv.buffer hi hsum, hothers⟩
    -- the sum is complete, and the mean is assigned
    · rw [dif_neg hi] at h
      cases h
      exact assigned_afterAverage hlimit hassigned hi
  case setStatusFlags =>
    subst h
    exact ⟨hassigned.1, rfl, hassigned.2⟩
  -- between the last assignment and the transmission the packet stays as it is
  case clearDataReady | wakeEsp32 =>
    subst h
    exact hassigned
  all_goals
    subst h
    trivial

/-- What a statement of the loop transmits. -/
theorem transmitted_cpu (h : s.cpu = some s') :
    s'.transmitted = s.transmitted ∨
      s.pc = .sendTelemetry ∧ s'.transmitted = s.transmitted ++ [(s.batch, s.dataPacket)] := by
  cases hpc : s.pc <;> simp only [Core.cpu, hpc, Option.some.injEq, reduceCtorEq] at h
  case averageChannel channel i sum =>
    split at h <;> cases h <;> exact .inl rfl
  case sendTelemetry =>
    subst h
    exact .inr ⟨rfl, rfl⟩
  all_goals
    subst h
    exact .inl rfl

/-- The buffer holds conversions, or what it held. -/
theorem buffer_step
    (hbuffer : ∀ (slot : ℕ) (h : slot < adcChannels * adcBufferDepth),
      s.driver.adcBuffer[slot].toNat ≤ limit)
    (hm : ConversionsLe limit s m) (h : s.step m = some s') (slot : ℕ)
    (hslot : slot < adcChannels * adcBufferDepth) : s'.driver.adcBuffer[slot].toNat ≤ limit := by
  cases m with
  | cpu =>
    have hsame : s'.driver.adcBuffer = s.driver.adcBuffer := by
      rw [driver_of_cpu h]
      split <;> rfl
    simpa only [hsame] using hbuffer slot hslot
  | transfer value =>
    cases h
    -- the DMA writes one slot, before it counts
    have hset : (s.driver.transfer value).adcBuffer =
        s.driver.adcBuffer.set s.driver.filled value := by
      unfold Driver.transfer
      split <;> rfl
    simp only [hset, Vector.getElem_set]
    split
    · exact hm
    · exact hbuffer slot hslot
  | interrupt =>
    simp only [Core.step, Core.interrupt] at h
    split at h <;> cases h
    have hsame : s.driver.irqHandler.adcBuffer = s.driver.adcBuffer :=
      congrArg CircularBuffer.slots (irqHandler_eq s.driver).1
    simpa only [hsame] using hbuffer slot hslot
  | endWait ackReceived =>
    simp only [Core.step, Core.endWait] at h
    split at h <;> cases h
    exact hbuffer slot hslot
  | transferError =>
    cases h
    exact hbuffer slot hslot

theorem fieldsInv_step (hlimit : limit ≤ 0xFFFF) (hinv : FieldsInv limit s)
    (hm : ConversionsLe limit s m) (h : s.step m = some s') : FieldsInv limit s' := by
  by_cases hcpu : m = .cpu
  · subst hcpu
    refine ⟨buffer_step hinv.buffer hm h, assigned_cpu hlimit hinv h, ?_⟩
    intro q hq
    rcases transmitted_cpu h with hsame | ⟨hpc, hsent⟩
    · exact hinv.transmitted q (hsame ▸ hq)
    · rw [hsent] at hq
      rcases List.mem_append.mp hq with hold | hnew
      · exact hinv.transmitted q hold
      · have hassigned := hinv.assigned
        rw [hpc] at hassigned
        rw [List.mem_singleton.mp hnew]
        exact hassigned
  · obtain ⟨hpacket, -, hsent, hpc⟩ := frame_of_environment h hcpu
    refine ⟨buffer_step hinv.buffer hm h, ?_, ?_⟩
    · rw [hpacket]
      rcases hpc with hpc | hpc | hpc | hpc <;> rw [hpc]
      · exact hinv.assigned
      all_goals trivial
    · rw [hsent]
      exact hinv.transmitted

theorem fieldsInv_of_reachable (hlimit : limit ≤ 0xFFFF)
    (h : system.ReachableUnder (ConversionsLe limit) s) : FieldsInv limit s := by
  apply h.invariant (I := FieldsInv limit)
  · rintro s ⟨packet, rfl⟩
    refine ⟨fun slot hslot => ?_, trivial, fun q hq => absurd hq List.not_mem_nil⟩
    have hzero : (Core.start packet).driver.adcBuffer[slot] = 0#16 := Vector.getElem_replicate _
    rw [hzero]
    exact Nat.zero_le _
  · intro s m s' hinv hm hstep
    exact fieldsInv_step hlimit hinv hm hstep

/-- A packet with the timestamp and the status flags of the loop. -/
theorem eq_dataPacket {packet : TelemetryPayload} (htimestamp : packet.timestampMs = 0#32)
    (hstatus : packet.statusFlags = 0x01#8) :
    packet = dataPacket packet.batteryMv packet.tempSensor packet.adcCh1 := by
  obtain ⟨timestampMs, batteryMv, tempSensor, adcCh1, statusFlags⟩ := packet
  simp only at htimestamp hstatus
  rw [htimestamp, hstatus]
  rfl

/-- A conversion has 16 bits. -/
theorem fieldsInv_any (h : system.Reachable s) : FieldsInv 0xFFFF s := by
  apply fieldsInv_of_reachable le_rfl
  apply h.invariant (I := fun s => system.ReachableUnder (ConversionsLe 0xFFFF) s)
  · exact fun s hs => .init hs
  · intro s m s' hs hstep
    refine .step hs ?_ hstep
    cases m with
    | transfer value => exact Nat.le_of_lt_succ value.isLt
    | _ => trivial

/-- Every packet that is transmitted has the timestamp and the status flags of the loop, whatever
the conversions are. -/
theorem transmitted_eq_dataPacket (h : system.Reachable s) :
    ∀ q ∈ s.transmitted, q.2 = dataPacket q.2.batteryMv q.2.tempSensor q.2.adcCh1 := by
  intro q hq
  obtain ⟨htimestamp, hstatus, -⟩ := (fieldsInv_any h).transmitted q hq
  exact eq_dataPacket htimestamp hstatus

/-- The loops of the averaging make at most 16 passes. -/
theorem passes_le (h : system.Reachable s) {channel : Fin adcChannels} {i : ℕ} {sum : BitVec 32}
    (hpc : s.pc = .averageChannel channel i sum) : i ≤ adcBufferDepth := by
  have hassigned := (fieldsInv_any h).assigned
  rw [hpc] at hassigned
  exact hassigned.2.1

/-- In every run whose conversions have 12 bits, the packets that are transmitted are those of some
readings: the timestamp is 0, the status is 0x01 (the error bit of a call that failed never leaves
the controller), and no average exceeds 4095. -/
theorem transmitted_readings (h : system.ReachableUnder (ConversionsLe 4095) s) :
    ∃ readings : List Readings, s.transmitted.map Prod.snd = readings.map Readings.packet := by
  have hfields := (fieldsInv_of_reachable (by decide) h).transmitted
  have hrange : s.transmitted.map Prod.snd ∈ Set.range (List.map Readings.packet) := by
    rw [Set.range_list_map]
    intro packet hpacket
    obtain ⟨q, hq, rfl⟩ := List.mem_map.mp hpacket
    obtain ⟨htimestamp, hstatus, hle⟩ := hfields q hq
    exact ⟨⟨q.2.batteryMv, q.2.tempSensor, q.2.adcCh1, hle 0, hle 1, hle 2⟩,
      (eq_dataPacket htimestamp hstatus).symm⟩
  obtain ⟨readings, hreadings⟩ := hrange
  exact ⟨readings, hreadings.symm⟩

/-- A packet of full-scale conversions. -/
theorem transmitted_readings_full_scale :
    ∃ s, system.ReachableUnder (ConversionsLe 4095) s ∧ s.transmitted.length = 1 ∧
      ∃ readings : List Readings, s.transmitted.map Prod.snd = readings.map Readings.packet := by
  have hstart : (system.restrict (ConversionsLe 4095)).Reachable
      (.start (dataPacket 0#16 0#16 0#16)) := .init ⟨_, rfl⟩
  obtain ⟨s, hs, hlength⟩ := hstart.exists_of_exec
    (List.replicate 48 (.transfer 0x0FFF#16) ++ [.interrupt] ++ transmits)
    (fun s => s.transmitted.length = 1) (by decide +kernel)
  have hs := TransitionSystem.ReachableUnder.of_restrict hs
  exact ⟨s, hs, by simpa using hlength, transmitted_readings hs⟩

/-! ## The interrupts that packets answer -/

/-- The interrupts that the packets transmitted so far answer. -/
def Core.answered (s : Core) : List ℕ := s.transmitted.filterMap Prod.fst

/-- From the test that finds the flag set to the clear. -/
def Pc.untilClear : Pc → Bool
  | .setTimestamp | .averageChannel _ _ _ | .setStatusFlags | .clearDataReady => true
  | _ => false

/-- From the clear to the transmission. -/
def Pc.untilSent : Pc → Bool
  | .wakeEsp32 | .sendTelemetry => true
  | _ => false

theorem untilSent_afterAverage : ∀ channel, (afterAverage channel).untilSent = false := by decide

/-- The packet at hand answers an interrupt after those of the packets before it. -/
def AnswersLater (s : Core) : Prop :=
  ∃ b, s.batch = some b ∧ 1 ≤ b ∧ b ≤ s.serviced ∧ ∀ b' ∈ s.answered, b' < b

/-- The interrupts that were serviced, announced and answered. -/
structure BatchInv (s : Core) : Prop where
  answers : ∀ q ∈ s.transmitted, q.1.isSome
  increasing : s.answered.Pairwise (· < ·)
  le_serviced : ∀ b ∈ s.answered, 1 ≤ b ∧ b ≤ s.serviced
  /-- A set flag announces an interrupt after those that were answered. -/
  announced : s.driver.dataReadyFlag ≠ 0#8 → 1 ≤ s.serviced ∧ ∀ b ∈ s.answered, b < s.serviced
  flagged : s.pc.untilClear → s.driver.dataReadyFlag ≠ 0#8
  atHand : s.pc.averaging ∨ s.pc.untilSent → AnswersLater s
  /-- A flag that is set again after the clear announces an interrupt after that of the packet at
  hand. -/
  cleared : s.pc.untilSent → s.driver.dataReadyFlag ≠ 0#8 → s.batch ≠ some s.serviced

/-- A statement that neither begins to average, nor clears the flag, nor transmits. -/
theorem BatchInv.of_same (h : BatchInv s)
    (hflag : s'.driver.dataReadyFlag = s.driver.dataReadyFlag)
    (hserviced : s'.serviced = s.serviced) (hbatch : s'.batch = s.batch)
    (hsent : s'.transmitted = s.transmitted)
    (hflagged : s'.pc.untilClear → s.driver.dataReadyFlag ≠ 0#8)
    (haveraging : s'.pc.averaging → s.pc.averaging)
    (huntilSent : s'.pc.untilSent → s.pc.untilSent) :
    BatchInv s' := by
  have hanswered : s'.answered = s.answered := congrArg (List.filterMap Prod.fst) hsent
  -- the fields in their order: only the last three speak of the program counter
  constructor
  · rw [hsent]
    exact h.answers
  · rw [hanswered]
    exact h.increasing
  · rw [hanswered, hserviced]
    exact h.le_serviced
  · rw [hanswered, hserviced, hflag]
    exact h.announced
  · rw [hflag]
    exact hflagged
  · intro hpc
    unfold AnswersLater
    rw [hanswered, hserviced, hbatch]
    exact h.atHand (hpc.imp haveraging huntilSent)
  · intro hpc
    rw [hbatch, hserviced, hflag]
    exact h.cleared (huntilSent hpc)

/-- The first read of an averaging. -/
theorem batchInv_first (h : BatchInv s) {sum sum' : BitVec 32}
    (hpc : s.pc = .averageChannel 0 0 sum) :
    BatchInv { s with pc := .averageChannel 0 1 sum', batch := some s.serviced } := by
  have hflag : s.driver.dataReadyFlag ≠ 0#8 := h.flagged (by rw [hpc]; rfl)
  obtain ⟨hpos, hlater⟩ := h.announced hflag
  exact { h with
    flagged := fun _ => hflag
    atHand := fun _ => ⟨s.serviced, rfl, hpos, le_rfl, hlater⟩
    cleared := fun hsent => absurd hsent Bool.false_ne_true }

/-- The flag is cleared. -/
theorem batchInv_clear (h : BatchInv s) (hpc : s.pc = .clearDataReady) :
    BatchInv { s with driver := s.driver.clearDataReady, pc := .wakeEsp32 } :=
  { h with
    announced := fun hset => absurd s.driver.clearDataReady_dataReadyFlag hset
    flagged := fun hclear => absurd hclear Bool.false_ne_true
    atHand := fun _ => h.atHand (.inl (by rw [hpc]; rfl))
    cleared := fun _ hset => absurd s.driver.clearDataReady_dataReadyFlag hset }

/-- The packet is transmitted. -/
theorem batchInv_send (h : BatchInv s) (hpc : s.pc = .sendTelemetry) :
    BatchInv { s with
      transmitted := s.transmitted ++ [(s.batch, s.dataPacket)]
      batch := none
      pc := .waitAck } := by
  obtain ⟨b, hbatch, hpos, hle, hlater⟩ := h.atHand (.inr (by rw [hpc]; rfl))
  have hanswered : (s.transmitted ++ [(s.batch, s.dataPacket)]).filterMap Prod.fst =
      s.answered ++ [b] := by
    rw [List.filterMap_append, hbatch]
    rfl
  have hpc' : Pc.untilSent .waitAck = false ∧ Pc.untilClear .waitAck = false ∧
      Pc.averaging .waitAck = false := ⟨rfl, rfl, rfl⟩
  constructor
  · intro q hq
    rcases List.mem_append.mp hq with hold | hnew
    · exact h.answers q hold
    · rw [List.mem_singleton.mp hnew, hbatch]
      rfl
  · rw [Core.answered, hanswered, List.pairwise_append]
    refine ⟨h.increasing, List.pairwise_singleton _ _, ?_⟩
    intro b' hb' c hc
    rw [List.mem_singleton.mp hc]
    exact hlater b' hb'
  · intro b' hb'
    rw [Core.answered, hanswered] at hb'
    rcases List.mem_append.mp hb' with hold | hnew
    · exact h.le_serviced b' hold
    · rw [List.mem_singleton.mp hnew]
      exact ⟨hpos, hle⟩
  · intro hset
    refine ⟨(h.announced hset).1, fun b' hb' => ?_⟩
    rw [Core.answered, hanswered] at hb'
    rcases List.mem_append.mp hb' with hold | hnew
    · exact (h.announced hset).2 b' hold
    -- the flag was set after the clear, by an interrupt after the one that is answered
    · rw [List.mem_singleton.mp hnew]
      have hne := h.cleared (by rw [hpc]; rfl) hset
      rw [hbatch] at hne
      exact lt_of_le_of_ne hle fun heq => hne (congrArg some heq)
  · intro hclear
    exact absurd (hpc'.2.1.symm.trans hclear) Bool.false_ne_true
  · rintro (havg | hsent)
    · exact absurd (hpc'.2.2.symm.trans havg) Bool.false_ne_true
    · exact absurd (hpc'.1.symm.trans hsent) Bool.false_ne_true
  · intro hsent
    exact absurd (hpc'.1.symm.trans hsent) Bool.false_ne_true

theorem batchInv_cpu (h : BatchInv s) (hstep : s.cpu = some s') : BatchInv s' := by
  cases hpc : s.pc <;> simp only [Core.cpu, hpc, Option.some.injEq, reduceCtorEq] at hstep
  case testDataReady =>
    subst hstep
    by_cases hready : s.driver.isDataReady ≠ 0
    · simp only [if_pos hready]
      exact h.of_same rfl rfl rfl rfl (fun _ => hready) (by rintro ⟨⟩) (by rintro ⟨⟩)
    · simp only [if_neg hready]
      exact h.of_same rfl rfl rfl rfl (by rintro ⟨⟩) (by rintro ⟨⟩) (by rintro ⟨⟩)
  case averageChannel channel i sum =>
    have hflag : s.driver.dataReadyFlag ≠ 0#8 := h.flagged (by rw [hpc]; rfl)
    split at hstep <;> cases hstep
    -- the first read is the one that picks the interrupt to answer
    · by_cases hfirst : channel = 0 ∧ i = 0
      · obtain ⟨rfl, rfl⟩ := hfirst
        exact batchInv_first h hpc
      · simp only [if_neg hfirst]
        refine h.of_same rfl rfl rfl rfl (fun _ => hflag) (fun _ => ?_) (by rintro ⟨⟩)
        rw [hpc]
        simp only [Pc.averaging, decide_eq_true_eq]
        exact not_and_or.mp fun h0 => hfirst ⟨Fin.ext h0.1, h0.2⟩
    -- the loop over a channel is left with all its samples, so not at the first read
    · rename_i hdone
      refine h.of_same rfl rfl rfl rfl (fun _ => hflag) (fun _ => ?_) ?_
      · rw [hpc]
        simp only [Pc.averaging, decide_eq_true_eq]
        exact .inr fun h0 => hdone (by rw [h0]; decide)
      · intro hsent
        exact absurd ((untilSent_afterAverage channel).symm.trans hsent) Bool.false_ne_true
  case clearDataReady =>
    subst hstep
    exact batchInv_clear h hpc
  case sendTelemetry =>
    subst hstep
    exact batchInv_send h hpc
  case waitForInterrupt =>
    subst hstep
    split <;>
      exact h.of_same rfl rfl rfl rfl (by rintro ⟨⟩) (by rintro ⟨⟩) (by rintro ⟨⟩)
  case setTimestamp =>
    subst hstep
    exact h.of_same rfl rfl rfl rfl (fun _ => h.flagged (by rw [hpc]; rfl))
      (by rintro ⟨⟩) (by rintro ⟨⟩)
  case setStatusFlags =>
    subst hstep
    exact h.of_same rfl rfl rfl rfl (fun _ => h.flagged (by rw [hpc]; rfl))
      (fun _ => by rw [hpc]; rfl) (by rintro ⟨⟩)
  case wakeEsp32 =>
    subst hstep
    exact h.of_same rfl rfl rfl rfl (by rintro ⟨⟩) (by rintro ⟨⟩) (fun _ => by rw [hpc]; rfl)
  all_goals
    subst hstep
    exact h.of_same rfl rfl rfl rfl (by rintro ⟨⟩) (by rintro ⟨⟩) (by rintro ⟨⟩)

/-- An interrupt is serviced: it is one after all that were answered. -/
theorem batchInv_interrupt (h : BatchInv s) (hpending : s.driver.irqPending) :
    BatchInv { s with
      driver := s.driver.irqHandler
      serviced := s.serviced + 1
      pc := if s.pc = .halted then .clearSleepDeep else s.pc } := by
  have hset : s.driver.irqHandler.dataReadyFlag = 1#8 := s.driver.irqHandler_dataReadyFlag hpending
  have hpc : ∀ p : Pc → Bool, p .clearSleepDeep = false →
      p (if s.pc = .halted then .clearSleepDeep else s.pc) = true → p s.pc = true := by
    intro p hp htrue
    split at htrue
    · exact absurd (hp.symm.trans htrue) Bool.false_ne_true
    · exact htrue
  constructor
  · exact h.answers
  · exact h.increasing
  · exact fun b hb => ⟨(h.le_serviced b hb).1, Nat.le_succ_of_le (h.le_serviced b hb).2⟩
  · exact fun _ => ⟨Nat.succ_pos _, fun b hb => Nat.lt_succ_of_le (h.le_serviced b hb).2⟩
  · intro _ hzero
    exact absurd (hset.symm.trans hzero) (by decide)
  · intro hany
    obtain ⟨b, hbatch, hpos, hle, hlater⟩ := h.atHand
      (hany.imp (hpc Pc.averaging rfl) (hpc Pc.untilSent rfl))
    exact ⟨b, hbatch, hpos, Nat.le_succ_of_le hle, hlater⟩
  · intro hsent _ heq
    -- the packet at hand answers an interrupt that was serviced before
    obtain ⟨b, hbatch, -, hle, -⟩ := h.atHand (.inr (hpc Pc.untilSent rfl hsent))
    have heq' : b = s.serviced + 1 := Option.some.inj (hbatch.symm.trans heq)
    exact absurd (heq' ▸ hle) (Nat.not_succ_le_self _)

theorem batchInv_step (h : BatchInv s) (hstep : s.step m = some s') : BatchInv s' := by
  cases m with
  | cpu => exact batchInv_cpu h hstep
  | endWait ackReceived =>
    simp only [Core.step, Core.endWait] at hstep
    split at hstep <;> cases hstep
    cases ackReceived <;>
      exact h.of_same rfl rfl rfl rfl (by rintro ⟨⟩) (by rintro ⟨⟩) (by rintro ⟨⟩)
  | interrupt =>
    simp only [Core.step, Core.interrupt] at hstep
    split at hstep <;> cases hstep
    exact batchInv_interrupt h ‹_›
  | transfer value =>
    cases hstep
    exact h.of_same (s.driver.transfer_dataReadyFlag value) rfl rfl rfl h.flagged id id
  | transferError =>
    cases hstep
    exact h.of_same rfl rfl rfl rfl h.flagged id id

theorem batchInv_of_reachable (h : system.Reachable s) : BatchInv s := by
  apply h.invariant (I := BatchInv)
  · rintro s ⟨packet, rfl⟩
    constructor
    · exact fun q hq => absurd hq List.not_mem_nil
    · exact .nil
    · exact fun b hb => absurd hb List.not_mem_nil
    · exact fun hset => absurd rfl hset
    · rintro ⟨⟩
    · exact fun hany => absurd hany (by simp [Core.start, Pc.averaging, Pc.untilSent])
    · rintro ⟨⟩
  · intro s m s' hinv hstep
    exact batchInv_step hinv hstep

end TelemetryNode.MainLoop

namespace TelemetryNode.Sampling

open DmaAdc MainLoop

/-! ## Laps -/

variable {s s' : Recorder} {m : Move}

/-- The lap of each transmitted packet was complete when its samples were read. -/
def ReadAfter (q : List Sample × TelemetryPayload) (t : Option ℕ × TelemetryPayload) : Prop :=
  ∃ b, t.1 = some b ∧ ∀ x ∈ q.1, adcChannels * adcBufferDepth * b ≤ x.count

/-- Each interrupt that is serviced or pending announces a lap of its own, and the samples at hand
were read after the interrupt that their packet answers. -/
structure LapInv (s : Recorder) : Prop where
  laps : adcChannels * adcBufferDepth *
    (s.core.serviced + s.core.driver.transferComplete.toNat) ≤ s.conversions.length
  samples : ∀ b, s.core.batch = some b → b ≤ s.core.serviced ∧
    ∀ x ∈ s.samples, adcChannels * adcBufferDepth * b ≤ x.count
  payloads : List.Forall₂ ReadAfter s.payloads s.core.transmitted

theorem LapInv.serviced_le (h : LapInv s) :
    adcChannels * adcBufferDepth * s.core.serviced ≤ s.conversions.length :=
  (Nat.mul_le_mul_left _ (Nat.le_add_right _ _)).trans h.laps

/-- A conversion completes a lap, or only adds to it. -/
theorem lapInv_transfer (h : LapInv s) (hbuffer : BufferInv s) (value : BitVec 16) :
    adcChannels * adcBufferDepth *
        (s.core.serviced + (s.core.driver.transfer value).transferComplete.toNat) ≤
      s.conversions.length + 1 := by
  have hlaps := h.laps
  have hcursor : s.core.driver.filled.val =
      s.conversions.length % (adcChannels * adcBufferDepth) := hbuffer.buffer.cursor_eq
  have hserviced := h.serviced_le
  simp only [adcChannels, adcBufferDepth] at hlaps hcursor hserviced ⊢
  unfold Driver.transfer
  split
  · exact Nat.le_succ_of_le hlaps
  -- the last slot was written, so the conversions so far are one short of a number of laps
  · rename_i hlast
    simp only [adcChannels, adcBufferDepth] at hlast
    simp only [Bool.toNat_true]
    omega

/-- The samples at hand when one more is read. -/
theorem LapInv.read (h : LapInv s) (hinv : Inv s) {channel : Fin adcChannels} {i : ℕ}
    {sum : BitVec 32} (hpc : s.core.pc = .averageChannel channel i sum) (hi : i < adcBufferDepth)
    {b : ℕ}
    (hb : (if channel = 0 ∧ i = 0 then some s.core.serviced else s.core.batch) = some b) :
    b ≤ s.core.serviced ∧ ∀ x ∈ s.samples ++ [s.sample channel ⟨i, hi⟩],
      adcChannels * adcBufferDepth * b ≤ x.count := by
  have hnow : ∀ b' ≤ s.core.serviced,
      adcChannels * adcBufferDepth * b' ≤ (s.sample channel ⟨i, hi⟩).count :=
    fun b' hb' => (Nat.mul_le_mul_left _ hb').trans h.serviced_le
  have hloop := hinv.loop
  rw [hpc] at hloop
  split at hb
  -- the first read: there are no samples yet
  · rename_i hfirst
    obtain ⟨rfl, rfl⟩ := hfirst
    obtain rfl := Option.some.inj hb
    have hnone : s.samples = [] := List.eq_nil_of_length_eq_zero hloop.samplesOk.length_eq
    refine ⟨le_rfl, fun x hx => ?_⟩
    rw [hnone, List.nil_append, List.mem_singleton] at hx
    rw [hx]
    exact hnow _ le_rfl
  · obtain ⟨hle, hsamples⟩ := h.samples b hb
    refine ⟨hle, fun x hx => ?_⟩
    rcases List.mem_append.mp hx with hold | hnew
    · exact hsamples x hold
    · rw [List.mem_singleton.mp hnew]
      exact hnow b hle

/-- The packet at hand is transmitted. -/
theorem LapInv.send (h : LapInv s) (hbatch : BatchInv s.core) (hpc : s.core.pc = .sendTelemetry) :
    List.Forall₂ ReadAfter (s.payloads ++ [(s.samples, s.core.dataPacket)])
      (s.core.transmitted ++ [(s.core.batch, s.core.dataPacket)]) := by
  obtain ⟨b, hb, -⟩ := hbatch.atHand (.inr (by rw [hpc]; rfl))
  exact List.rel_append h.payloads (.cons ⟨b, hb, (h.samples b hb).2⟩ .nil)

theorem lapInv_cpu {core : Core} (h : LapInv s) (hinv : Inv s) (hbatch : BatchInv s.core)
    (hcore : s.core.cpu = some core) : LapInv (s.recordCpu core) := by
  -- no statement stores a conversion or completes a lap
  have hlaps : adcChannels * adcBufferDepth *
      (core.serviced + core.driver.transferComplete.toNat) ≤ s.conversions.length := by
    have hsame : core.driver.transferComplete = s.core.driver.transferComplete := by
      rw [driver_of_cpu hcore]
      split <;> rfl
    rw [hsame, (record_of_cpu hcore).1]
    exact h.laps
  have hsamples := h.samples
  have hpayloads := h.payloads
  cases hpc : s.core.pc <;>
    simp only [Core.cpu, hpc, Option.some.injEq, reduceCtorEq] at hcore <;>
    simp only [Recorder.recordCpu, hpc]
  case setTimestamp =>
    subst hcore
    -- the samples of the last packet are forgotten
    exact ⟨hlaps, fun b hb => ⟨(hsamples b hb).1, fun x hx => absurd hx List.not_mem_nil⟩,
      hpayloads⟩
  case averageChannel channel i sum =>
    by_cases hi : i < adcBufferDepth
    · rw [dif_pos hi] at hcore ⊢
      cases hcore
      exact ⟨hlaps, fun b hb => h.read hinv hpc hi hb, hpayloads⟩
    · rw [dif_neg hi] at hcore ⊢
      cases hcore
      exact ⟨hlaps, hsamples, hpayloads⟩
  case sendTelemetry =>
    subst hcore
    exact ⟨hlaps, fun b hb => absurd hb (by simp), h.send hbatch hpc⟩
  all_goals
    subst hcore
    exact ⟨hlaps, hsamples, hpayloads⟩

theorem lapInv_step (h : LapInv s) (hinv : Inv s) (hbatch : BatchInv s.core)
    (hstep : s.step m = some s') : LapInv s' := by
  obtain ⟨core, hcore, rfl⟩ := Option.map_eq_some_iff.mp hstep
  cases m with
  | cpu => exact lapInv_cpu h hinv hbatch hcore
  | endWait ackReceived =>
    simp only [Core.step, Core.endWait] at hcore
    split at hcore <;> cases hcore
    exact ⟨h.laps, h.samples, h.payloads⟩
  | interrupt =>
    simp only [Core.step, Core.interrupt] at hcore
    split at hcore <;> cases hcore
    rename_i hpending
    refine ⟨?_, fun b hb => ⟨Nat.le_succ_of_le (h.samples b hb).1, (h.samples b hb).2⟩, h.payloads⟩
    -- what was pending is serviced now
    have hlaps := h.laps
    have hcomplete : s.core.driver.transferComplete = true := hpending
    rw [hcomplete] at hlaps
    change adcChannels * adcBufferDepth *
      (s.core.serviced + 1 + s.core.driver.irqHandler.transferComplete.toNat) ≤ _
    rw [(irqHandler_eq s.core.driver).2.1]
    exact hlaps
  | transfer value =>
    cases hcore
    refine ⟨?_, h.samples, h.payloads⟩
    change _ ≤ (s.conversions ++ [value]).length
    rw [List.length_append]
    exact lapInv_transfer h hinv.buffer value
  | transferError =>
    cases hcore
    exact ⟨h.laps, h.samples, h.payloads⟩

theorem lapInv_of_reachable (h : system.Reachable s) : LapInv s := by
  have hall : LapInv s ∧ system.Reachable s := by
    apply h.invariant (I := fun s => LapInv s ∧ system.Reachable s)
    · rintro s ⟨packet, rfl⟩
      exact ⟨⟨Nat.le_refl _, fun b hb => absurd hb (by simp [Recorder.start, Core.start]), .nil⟩,
        .init ⟨packet, rfl⟩⟩
    · rintro s m s' ⟨hlap, hs⟩ hstep
      have hcore := batchInv_of_reachable (reachable_core hs)
      exact ⟨lapInv_step hlap (inv_of_reachable hs) hcore hstep, hs.next hstep⟩
  exact hall.1

/-- Strictly increasing positive numbers are at least as many as there are of them. -/
theorem length_le_of_increasing {l : List ℕ} {bound : ℕ} (hl : l.Pairwise (· < ·))
    (hpos : ∀ b ∈ l, 1 ≤ b ∧ b ≤ bound) : l.length ≤ bound := by
  have hsub : l ⊆ List.range' 1 bound := by
    intro b hb
    rw [List.mem_range'_1]
    have := hpos b hb
    omega
  have hnodup : l.Nodup := hl.imp fun hlt => Nat.ne_of_lt hlt
  simpa using (List.subperm_of_subset hnodup hsub).length_le

/-- The samples of a packet are not older than the lap that it answers. -/
def NotOlder (lap : ℕ) (q : List Sample × TelemetryPayload) : Prop :=
  ∀ x ∈ q.1, 48 * lap ≤ x.count ∧ ∃ k, x.origin = some k ∧ 48 * (lap - 1) ≤ k

theorem forall₂_notOlder {payloads : List (List Sample × TelemetryPayload)}
    {transmitted : List (Option ℕ × TelemetryPayload)}
    (h : List.Forall₂ ReadAfter payloads transmitted)
    (hlatest : ∀ q ∈ payloads, ∀ x ∈ q.1, ∃ k, x.origin = some k ∧ x.count ≤ k + 48) :
    List.Forall₂ NotOlder (transmitted.filterMap Prod.fst) payloads := by
  induction h with
  | nil => exact .nil
  | @cons q t payloads transmitted hq _ ih =>
    obtain ⟨b, hb, hcount⟩ := hq
    rw [List.filterMap_cons_some hb]
    refine .cons (fun x hx => ⟨hcount x hx, ?_⟩)
      (ih fun q hq => hlatest q (List.mem_cons_of_mem _ hq))
    obtain ⟨k, hk, hle⟩ := hlatest q List.mem_cons_self x hx
    refine ⟨k, hk, ?_⟩
    have hlap : 48 * b ≤ x.count := hcount x hx
    omega

/-- The packets transmitted so far answer interrupts whose numbers increase strictly: each complete
lap of the buffer leads to at most one packet, so a packet takes at least 48 conversions. The
samples of a packet were read after the lap that it answers was complete, and none of them is older
than that lap. -/
theorem one_packet_each_lap (h : system.Reachable s) :
    ∃ laps : List ℕ, laps.Pairwise (· < ·) ∧
      (∀ lap ∈ laps, 1 ≤ lap ∧ 48 * lap ≤ s.conversions.length) ∧
      List.Forall₂ NotOlder laps s.payloads ∧ 48 * s.payloads.length ≤ s.conversions.length := by
  have hbatch := batchInv_of_reachable (reachable_core h)
  have hlap := lapInv_of_reachable h
  have hserviced : 48 * s.core.serviced ≤ s.conversions.length := hlap.serviced_le
  have hrel : List.Forall₂ NotOlder s.core.answered s.payloads := by
    apply forall₂_notOlder hlap.payloads
    intro q hq x hx
    obtain ⟨k, hk, -, -, -, hle⟩ := ((inv_of_reachable h).payloads q hq).samplesOk.mem hx
    exact ⟨k, hk, hle⟩
  refine ⟨s.core.answered, hbatch.increasing, fun lap hlap => ?_, hrel, ?_⟩
  · have := hbatch.le_serviced lap hlap
    omega
  · have hlength := length_le_of_increasing hbatch.increasing hbatch.le_serviced
    rw [hrel.length_eq] at hlength
    omega

/-- Two laps, and a packet for each. -/
theorem one_packet_each_lap_two_laps :
    ∃ s, system.Reachable s ∧ s.payloads.length = 2 ∧ 48 * s.payloads.length ≤
      s.conversions.length := by
  have hstart : system.Reachable (.start (dataPacket 0#16 0#16 0#16)) := .init ⟨_, rfl⟩
  obtain ⟨s, hs, hlength⟩ := hstart.exists_of_exec
    (batchArrives ++ transmits ++ batchArrives ++ [.endWait true] ++ List.replicate 4 .cpu ++
      batchArrives ++ [.cpu] ++ transmits)
    (fun s => s.payloads.length = 2) (by decide +kernel)
  obtain ⟨laps, -, -, -, hle⟩ := one_packet_each_lap hs
  exact ⟨s, hs, by simpa using hlength, hle⟩

end TelemetryNode.Sampling
