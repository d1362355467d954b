import TelemetryNode.Stm32.Averaging
import TelemetryNode.Stm32.DataReady

/-!
# Where the samples of a packet come from

The superloop, with a record of every conversion, of the conversion each slot of the sample buffer
holds, and of the samples read for each packet. Conversions are stored between any two reads. The
record follows the loop and never changes what it does.

## Main definitions

* `Sampling.Sample`: a sample read by `dma_adc_get_averaged_channel`, and where it came from.
* `Sampling.Recorder`: the core with the record.
* `Sampling.SamplesOk`: what holds of the samples read for a packet so far.

## Main results

* `Sampling.reachable_core`: the recorded runs are the runs of the loop.
* `Sampling.inv_of_reachable`: each sample was the latest conversion of its slot when it was read,
  and the fields of a packet are the means of its samples.
-/

namespace TelemetryNode.Sampling

open DmaAdc MainLoop

/-- A sample that is added to the sum of a channel. -/
structure Sample where
  channel : Fin adcChannels
  /-- How many conversions are stored when it is read. -/
  count : ℕ
  /-- Which of them it is. -/
  origin : Option ℕ
  value : BitVec 16
  deriving DecidableEq

/-- The core with a record of its samples. -/
structure Recorder where
  core : Core
  /-- The conversions stored so far. -/
  conversions : List (BitVec 16)
  /-- The conversion that each slot holds. -/
  origins : Vector (Option ℕ) (adcChannels * adcBufferDepth)
  /-- The samples read for the packet at hand. -/
  samples : List Sample
  /-- The packets transmitted so far, each with its samples. -/
  payloads : List (List Sample × TelemetryPayload)
  deriving DecidableEq

/-- Nothing has been converted. -/
def Recorder.start (packet : TelemetryPayload) : Recorder where
  core := .start packet
  conversions := []
  origins := .replicate _ none
  samples := []
  payloads := []

/-- The sample that pass `i` of the loop for `channel` reads. -/
def Recorder.sample (s : Recorder) (channel : Fin adcChannels) (i : Fin adcBufferDepth) : Sample :=
  have hslot : i * adcChannels + channel < adcChannels * adcBufferDepth :=
    CircularBuffer.stride_lt channel.isLt i.isLt
  { channel
    count := s.conversions.length
    origin := s.origins[i * adcChannels + channel]
    value := s.core.driver.adcBuffer[i * adcChannels + channel] }

/-- The record of a statement of the loop, which led to `core`. -/
def Recorder.recordCpu (s : Recorder) (core : Core) : Recorder :=
  match s.core.pc with
  | .setTimestamp => { s with core, samples := [] }
  | .averageChannel channel i _ =>
    if h : i < adcBufferDepth then
      { s with core, samples := s.samples ++ [s.sample channel ⟨i, h⟩] }
    else { s with core }
  | .sendTelemetry =>
    { s with core, payloads := s.payloads ++ [(s.samples, s.core.dataPacket)] }
  | _ => { s with core }

/-- The record of a move, which led to `core`. -/
def Recorder.record (s : Recorder) (core : Core) : Move → Recorder
  | .cpu => s.recordCpu core
  | .transfer value =>
    { s with
      core
      conversions := s.conversions ++ [value]
      origins := s.origins.set s.core.driver.filled (some s.conversions.length) }
  | _ => { s with core }

/-- A move of the system, recorded. -/
def Recorder.step (s : Recorder) (m : Move) : Option Recorder :=
  (s.core.step m).map fun core => s.record core m

/-- All interleavings, recorded. -/
def system : TransitionSystem Recorder Move where
  init s := ∃ packet, s = Recorder.start packet
  step := Recorder.step

/-! ## The record does not interfere -/

theorem record_core (s : Recorder) (core : Core) (m : Move) : (s.record core m).core = core := by
  cases m with
  | cpu =>
    simp only [Recorder.record, Recorder.recordCpu]
    split
    · rfl
    · split <;> rfl
    · rfl
    · rfl
  | _ => rfl

/-- The loop runs as it does without the record. -/
theorem reachable_core {s : Recorder} (h : system.Reachable s) :
    MainLoop.system.Reachable s.core := by
  apply h.invariant (I := fun s => MainLoop.system.Reachable s.core)
  · rintro s ⟨packet, rfl⟩
    exact .init ⟨packet, rfl⟩
  · intro s m s' hs hstep
    obtain ⟨core, hcore, rfl⟩ := Option.map_eq_some_iff.mp hstep
    rw [record_core]
    exact hs.next hcore

/-- Every run of the loop is recorded. -/
theorem exists_recorder {c : Core} (h : MainLoop.system.Reachable c) :
    ∃ s, system.Reachable s ∧ s.core = c := by
  apply h.invariant (I := fun c => ∃ s, system.Reachable s ∧ s.core = c)
  · rintro c ⟨packet, rfl⟩
    exact ⟨.start packet, .init ⟨packet, rfl⟩, rfl⟩
  · rintro c m c' ⟨s, hs, rfl⟩ hstep
    exact ⟨s.record c' m, hs.next (Option.map_eq_some_iff.mpr ⟨c', hstep, rfl⟩), record_core _ _ _⟩

/-! ## The buffer -/

/-- What each slot holds, and that nothing is announced before the buffer has been filled once. -/
structure BufferInv (s : Recorder) : Prop where
  buffer : s.core.driver.ring.Holds s.conversions
  origins : (⟨s.origins, s.core.driver.filled⟩ : CircularBuffer _ _).Holds
    ((List.range s.conversions.length).map some)
  complete : s.core.driver.transferComplete = true →
    adcChannels * adcBufferDepth ≤ s.conversions.length
  ready : s.core.driver.dataReadyFlag ≠ 0#8 → adcChannels * adcBufferDepth ≤ s.conversions.length

/-- The latest conversion stored in a slot. -/
abbrev latestOf (count slot : ℕ) : ℕ :=
  CircularBuffer.latest (adcChannels * adcBufferDepth) count slot

/-- A full buffer holds in each slot the latest conversion of that slot. -/
theorem BufferInv.slot_eq {s : Recorder} (h : BufferInv s)
    (hfull : adcChannels * adcBufferDepth ≤ s.conversions.length) {slot : ℕ}
    (hslot : slot < adcChannels * adcBufferDepth) :
    s.origins[slot] = some (latestOf s.conversions.length slot) ∧
      s.conversions[latestOf s.conversions.length slot]? = some s.core.driver.adcBuffer[slot] := by
  have hlt : slot < s.conversions.length := hslot.trans_le hfull
  refine ⟨?_, h.buffer.slot_eq slot hslot hlt⟩
  have horigin := h.origins.slot_eq slot hslot
    (by rw [List.length_map, List.length_range]; exact hlt)
  rw [List.length_map, List.length_range, List.getElem?_map,
    List.getElem?_range (CircularBuffer.latest_lt hlt)] at horigin
  exact (Option.some.inj horigin).symm

theorem bufferInv_transfer {s : Recorder} (h : BufferInv s) (value : BitVec 16) {core : Core}
    (hdriver : core.driver = s.core.driver.transfer value) :
    BufferInv (s.record core (.transfer value)) where
  buffer := by
    change core.driver.ring.Holds (s.conversions ++ [value])
    rw [hdriver, ring_transfer]
    exact h.buffer.write value
  origins := by
    have hcursor : (s.core.driver.transfer value).filled =
        (s.core.driver.ring.write value).cursor :=
      congrArg CircularBuffer.cursor (ring_transfer s.core.driver value)
    have hwrite := h.origins.write (some s.conversions.length)
    change (⟨s.origins.set s.core.driver.filled (some s.conversions.length), core.driver.filled⟩ :
      CircularBuffer _ _).Holds ((List.range (s.conversions ++ [value]).length).map some)
    rw [List.length_append, List.length_singleton, List.range_succ, List.map_append, hdriver,
      hcursor]
    exact hwrite
  complete hcomplete := by
    change adcChannels * adcBufferDepth ≤ (s.conversions ++ [value]).length
    change core.driver.transferComplete = true at hcomplete
    rw [List.length_append]
    rw [hdriver, Driver.transfer] at hcomplete
    split at hcomplete
    · exact Nat.le_add_right_of_le (h.complete hcomplete)
    -- the last slot of a lap was written, so there were conversions for all of them
    · rename_i hlast
      have hcursor : s.core.driver.filled.val =
          s.conversions.length % (adcChannels * adcBufferDepth) :=
        h.buffer.cursor_eq
      have hle := Nat.mod_le s.conversions.length (adcChannels * adcBufferDepth)
      rw [List.length_singleton]
      omega
  ready hready := by
    change adcChannels * adcBufferDepth ≤ (s.conversions ++ [value]).length
    change core.driver.dataReadyFlag ≠ 0#8 at hready
    rw [hdriver, Driver.transfer_dataReadyFlag] at hready
    rw [List.length_append]
    exact Nat.le_add_right_of_le (h.ready hready)

/-- Everything but a conversion leaves the buffer alone, and announces no more than the hardware
has. -/
theorem BufferInv.of_same {s s' : Recorder} (h : BufferInv s)
    (hconv : s'.conversions = s.conversions) (horigins : s'.origins = s.origins)
    (hring : s'.core.driver.ring = s.core.driver.ring)
    (hcomplete : s'.core.driver.transferComplete = true → s.core.driver.transferComplete = true)
    (hready : s'.core.driver.dataReadyFlag ≠ 0#8 →
      s.core.driver.dataReadyFlag ≠ 0#8 ∨ s.core.driver.transferComplete = true) :
    BufferInv s' where
  buffer := by
    rw [hconv, hring]
    exact h.buffer
  origins := by
    have hcursor : s'.core.driver.filled = s.core.driver.filled :=
      congrArg CircularBuffer.cursor hring
    rw [hconv, horigins, hcursor]
    exact h.origins
  complete hc := by
    rw [hconv]
    exact h.complete (hcomplete hc)
  ready hr := by
    rw [hconv]
    exact (hready hr).elim h.ready h.complete

theorem recordCpu_conversions (s : Recorder) (core : Core) :
    (s.recordCpu core).conversions = s.conversions ∧ (s.recordCpu core).origins = s.origins := by
  unfold Recorder.recordCpu
  split
  · exact ⟨rfl, rfl⟩
  · split <;> exact ⟨rfl, rfl⟩
  · exact ⟨rfl, rfl⟩
  · exact ⟨rfl, rfl⟩

theorem irqHandler_eq (d : Driver) :
    d.irqHandler.ring = d.ring ∧ d.irqHandler.transferComplete = false ∧
      (d.irqHandler.dataReadyFlag ≠ 0#8 → d.dataReadyFlag ≠ 0#8 ∨ d.transferComplete = true) := by
  obtain ⟨buffer, flag, filled, _ | _, _ | _⟩ := d <;> simp [Driver.irqHandler, Driver.ring]

theorem bufferInv_step {s s' : Recorder} {m : Move} (h : BufferInv s) (hstep : s.step m = some s') :
    BufferInv s' := by
  obtain ⟨core, hcore, rfl⟩ := Option.map_eq_some_iff.mp hstep
  cases m with
  | transfer value =>
    cases hcore
    exact bufferInv_transfer h value rfl
  | cpu =>
    obtain ⟨hconv, horigins⟩ := recordCpu_conversions s core
    have hdriver := driver_of_cpu hcore
    -- the loop changes the driver only by clearing the flag
    refine h.of_same hconv horigins ?_ ?_ ?_ <;> rw [record_core, hdriver] <;> split
    · rfl
    · rfl
    · exact id
    · exact id
    · intro hset
      exact absurd s.core.driver.clearDataReady_dataReadyFlag hset
    · exact Or.inl
  | endWait ackReceived =>
    simp only [Core.step, Core.endWait] at hcore
    split at hcore <;> cases hcore
    exact h.of_same rfl rfl rfl id Or.inl
  | interrupt =>
    simp only [Core.step, Core.interrupt] at hcore
    split at hcore <;> cases hcore
    obtain ⟨hring, hcomplete, hready⟩ := irqHandler_eq s.core.driver
    refine h.of_same rfl rfl hring ?_ hready
    intro hset
    exact absurd (hcomplete.symm.trans hset) Bool.false_ne_true
  | transferError =>
    cases hcore
    exact h.of_same rfl rfl rfl id Or.inl

/-! ## The samples of a packet -/

/-- The slot that sample `j` of a packet is read from: the channels are summed one after the
other. -/
def slotOf (j : ℕ) : ℕ := j % adcBufferDepth * adcChannels + j / adcBufferDepth

/-- Sample `j` of a packet was the latest conversion of its slot when it was read. -/
structure IsRead (conversions : List (BitVec 16)) (x : Sample) (j : ℕ) : Prop where
  channel_eq : x.channel.val = j / adcBufferDepth
  origin_eq : x.origin = some (latestOf x.count (slotOf j))
  value_eq : conversions[latestOf x.count (slotOf j)]? = some x.value
  full : adcChannels * adcBufferDepth ≤ x.count
  count_le : x.count ≤ conversions.length

/-- The first `m` samples of a packet, in the order in which they were read. -/
structure SamplesOk (conversions : List (BitVec 16)) (samples : List Sample) (m : ℕ) : Prop where
  length_eq : samples.length = m
  isRead : ∀ (j : ℕ) (x : Sample), samples[j]? = some x → IsRead conversions x j
  sorted : samples.Pairwise fun x y => x.count ≤ y.count

/-- The sum of the samples of a channel. -/
def channelTotal (samples : List Sample) (channel : Fin adcChannels) : ℕ :=
  ((samples.filter fun x => x.channel = channel).map fun x => x.value.toNat).sum

/-- The field of a packet that a channel is reported in. -/
def reading (packet : TelemetryPayload) (channel : Fin adcChannels) : BitVec 16 :=
  match channel with
  | 0 => packet.batteryMv
  | 1 => packet.tempSensor
  | 2 => packet.adcCh1

variable {conversions : List (BitVec 16)} {samples : List Sample} {x : Sample} {j m : ℕ}

/-- Further conversions do not change what was read. -/
theorem IsRead.mono (h : IsRead conversions x j) (value : BitVec 16) :
    IsRead (conversions ++ [value]) x j where
  channel_eq := h.channel_eq
  origin_eq := h.origin_eq
  value_eq := by
    have hlt : latestOf x.count (slotOf j) < conversions.length :=
      (List.getElem?_eq_some_iff.mp h.value_eq).1
    rw [List.getElem?_append_left hlt]
    exact h.value_eq
  full := h.full
  count_le := by
    rw [List.length_append]
    exact Nat.le_add_right_of_le h.count_le

theorem SamplesOk.mono (h : SamplesOk conversions samples m) (value : BitVec 16) :
    SamplesOk (conversions ++ [value]) samples m where
  length_eq := h.length_eq
  isRead j x hx := (h.isRead j x hx).mono value
  sorted := h.sorted

theorem samplesOk_nil : SamplesOk conversions [] 0 where
  length_eq := rfl
  isRead j x h := absurd h (by simp)
  sorted := .nil

/-- One more sample, read now. -/
theorem SamplesOk.concat (h : SamplesOk conversions samples m) (hx : IsRead conversions x m)
    (hnow : x.count = conversions.length) : SamplesOk conversions (samples ++ [x]) (m + 1) where
  length_eq := by rw [List.length_append, h.length_eq, List.length_singleton]
  isRead j y hy := by
    rcases Nat.lt_or_ge j samples.length with hlt | hge
    · rw [List.getElem?_append_left hlt] at hy
      exact h.isRead j y hy
    · have hlt := (List.getElem?_eq_some_iff.mp hy).1
      rw [List.length_append, List.length_singleton] at hlt
      obtain rfl : j = samples.length := by omega
      rw [List.getElem?_concat_length] at hy
      rw [h.length_eq, ← Option.some.inj hy]
      exact hx
  sorted := by
    rw [List.pairwise_append]
    refine ⟨h.sorted, List.pairwise_singleton _ _, ?_⟩
    intro y hy z hz
    obtain ⟨j, hj⟩ := List.mem_iff_getElem?.mp hy
    rw [List.mem_singleton.mp hz, hnow]
    exact (h.isRead j y hj).count_le

theorem channelTotal_concat (samples : List Sample) (x : Sample) (channel : Fin adcChannels) :
    channelTotal (samples ++ [x]) channel =
      channelTotal samples channel + if x.channel = channel then x.value.toNat else 0 := by
  rw [channelTotal, List.filter_append, List.map_append, List.sum_append, ← channelTotal]
  by_cases h : x.channel = channel <;> simp [h]

/-- A channel that has not been begun has no samples. -/
theorem SamplesOk.channelTotal_eq_zero (h : SamplesOk conversions samples m)
    {channel : Fin adcChannels} (hm : m ≤ adcBufferDepth * channel) :
    channelTotal samples channel = 0 := by
  have hnone : samples.filter (fun x => x.channel = channel) = [] := by
    rw [List.filter_eq_nil_iff]
    intro x hx
    obtain ⟨j, hj⟩ := List.mem_iff_getElem?.mp hx
    have hlt : j < m := by
      rw [← h.length_eq]
      exact (List.getElem?_eq_some_iff.mp hj).1
    have hdiv : j / adcBufferDepth < channel := Nat.div_lt_of_lt_mul (hlt.trans_le hm)
    simp only [decide_eq_true_eq]
    intro heq
    rw [← heq, (h.isRead j x hj).channel_eq] at hdiv
    exact lt_irrefl _ hdiv
  rw [channelTotal, hnone]
  rfl

theorem reading_setReading (packet : TelemetryPayload) (channel other : Fin adcChannels)
    (value : BitVec 16) :
    reading (setReading packet channel value) other =
      if other = channel then value else reading packet other := by
  match channel, other with
  | 0, 0 | 0, 1 | 0, 2 | 1, 0 | 1, 1 | 1, 2 | 2, 0 | 2, 1 | 2, 2 => rfl

/-- The fields of a packet are the floors of the means of its samples. -/
structure Averaged (conversions : List (BitVec 16)) (samples : List Sample)
    (packet : TelemetryPayload) : Prop where
  samplesOk : SamplesOk conversions samples (adcChannels * adcBufferDepth)
  reading_eq : ∀ channel,
    (reading packet channel).toNat = channelTotal samples channel / adcBufferDepth

/-- What holds in the loop of a channel before pass `i`. -/
structure Averaging (conversions : List (BitVec 16)) (samples : List Sample)
    (packet : TelemetryPayload) (channel : Fin adcChannels) (i : ℕ) (sum : BitVec 32) : Prop where
  passes_le : i ≤ adcBufferDepth
  full : adcChannels * adcBufferDepth ≤ conversions.length
  samplesOk : SamplesOk conversions samples (adcBufferDepth * channel + i)
  sum_eq : sum.toNat = channelTotal samples channel
  sum_le : sum.toNat ≤ i * 0xFFFF
  reading_eq : ∀ other < channel,
    (reading packet other).toNat = channelTotal samples other / adcBufferDepth

/-- What holds at each statement of the loop. -/
def LoopInv (conversions : List (BitVec 16)) (samples : List Sample) (packet : TelemetryPayload) :
    Pc → Prop
  | .setTimestamp => adcChannels * adcBufferDepth ≤ conversions.length
  | .averageChannel channel i sum => Averaging conversions samples packet channel i sum
  | .setStatusFlags | .clearDataReady | .wakeEsp32 | .sendTelemetry =>
    Averaged conversions samples packet
  | _ => True

theorem LoopInv.mono {packet : TelemetryPayload} {pc : Pc}
    (h : LoopInv conversions samples packet pc) (value : BitVec 16) :
    LoopInv (conversions ++ [value]) samples packet pc := by
  have hlen : adcChannels * adcBufferDepth ≤ conversions.length →
      adcChannels * adcBufferDepth ≤ (conversions ++ [value]).length := by
    intro hfull
    rw [List.length_append]
    exact Nat.le_add_right_of_le hfull
  cases pc with
  | setTimestamp => exact hlen h
  | averageChannel channel i sum =>
    exact { h with full := hlen h.full, samplesOk := h.samplesOk.mono value }
  | setStatusFlags | clearDataReady | wakeEsp32 | sendTelemetry =>
    exact { h with samplesOk := h.samplesOk.mono value }
  | _ => trivial

/-! ## One statement of the loop -/

/-- The sample that is read now is the latest conversion of its slot. -/
theorem isRead_sample {s : Recorder} (h : BufferInv s)
    (hfull : adcChannels * adcBufferDepth ≤ s.conversions.length) (channel : Fin adcChannels)
    (i : Fin adcBufferDepth) :
    IsRead s.conversions (s.sample channel i) (adcBufferDepth * channel + i) := by
  have hslot : slotOf (adcBufferDepth * channel + i) = i * adcChannels + channel := by
    rw [slotOf, Nat.mul_add_mod, Nat.mod_eq_of_lt i.isLt, Nat.mul_add_div (by decide),
      Nat.div_eq_of_lt i.isLt, Nat.add_zero]
  obtain ⟨horigin, hvalue⟩ := h.slot_eq hfull (CircularBuffer.stride_lt channel.isLt i.isLt)
  constructor
  · rw [Nat.mul_add_div (by decide), Nat.div_eq_of_lt i.isLt]
    rfl
  · rw [hslot]
    exact horigin
  · rw [hslot]
    exact hvalue
  · exact hfull
  · exact le_refl s.conversions.length

/-- A pass of the loop of a channel. -/
theorem averaging_read {s : Recorder} {channel : Fin adcChannels} {i : ℕ} {sum : BitVec 32}
    (hbuffer : BufferInv s)
    (h : Averaging s.conversions s.samples s.core.dataPacket channel i sum)
    (hi : i < adcBufferDepth) :
    Averaging s.conversions (s.samples ++ [s.sample channel ⟨i, hi⟩]) s.core.dataPacket channel
      (i + 1) (accumulate s.core.driver channel ⟨i, hi⟩ sum) := by
  have hchannel : (s.sample channel ⟨i, hi⟩).channel = channel := rfl
  obtain ⟨hadd, hle⟩ := toNat_add_sample h.sum_le hi (s.sample channel ⟨i, hi⟩).value
  constructor
  · exact hi
  · exact h.full
  · exact h.samplesOk.concat (isRead_sample hbuffer h.full channel ⟨i, hi⟩) rfl
  · rw [channelTotal_concat, if_pos hchannel, ← h.sum_eq]
    exact hadd
  · exact hle
  · intro other hother
    rw [channelTotal_concat, if_neg (hchannel ▸ ne_of_gt hother), Nat.add_zero]
    exact h.reading_eq other hother

/-- The end of the loop of a channel: the mean is assigned, and the next channel or the next
statement follows. -/
theorem averaging_done {packet : TelemetryPayload} {channel : Fin adcChannels} {i : ℕ}
    {sum : BitVec 32} (h : Averaging conversions samples packet channel i sum)
    (hi : ¬ i < adcBufferDepth) :
    LoopInv conversions samples (setReading packet channel (average sum))
      (afterAverage channel) := by
  obtain rfl : i = adcBufferDepth := le_antisymm h.passes_le (Nat.le_of_not_lt hi)
  -- the fields up to this channel are assigned
  have hreading : ∀ other ≤ channel,
      (reading (setReading packet channel (average sum)) other).toNat =
        channelTotal samples other / adcBufferDepth := by
    intro other hother
    rw [reading_setReading]
    by_cases heq : other = channel
    · rw [if_pos heq, toNat_average h.sum_le, h.sum_eq, heq]
    · rw [if_neg heq]
      exact h.reading_eq other (lt_of_le_of_ne hother heq)
  have hsamples : SamplesOk conversions samples (adcBufferDepth * (channel + 1)) := h.samplesOk
  -- the loop of the next channel begins with an empty sum
  have hnext : ∀ next : Fin adcChannels, next.val = channel + 1 →
      Averaging conversions samples (setReading packet channel (average sum)) next 0 0#32 := by
    intro next hval
    rw [← hval] at hsamples
    constructor
    · exact Nat.zero_le _
    · exact h.full
    · exact hsamples
    · exact (hsamples.channelTotal_eq_zero le_rfl).symm
    · exact Nat.zero_le _
    · intro other hother
      apply hreading
      rw [Fin.lt_def, hval] at hother
      exact Nat.le_of_lt_succ hother
  have hcases : ∀ channel : Fin adcChannels, channel = 0 ∨ channel = 1 ∨ channel = 2 := by decide
  rcases hcases channel with rfl | rfl | rfl
  · exact hnext 1 rfl
  · exact hnext 2 rfl
  · exact ⟨hsamples, fun other => hreading other (Fin.le_last other)⟩

/-! ## Runs -/

/-- What holds of a recorded run. -/
structure Inv (s : Recorder) : Prop where
  buffer : BufferInv s
  loop : LoopInv s.conversions s.samples s.core.dataPacket s.core.pc
  payloads : ∀ q ∈ s.payloads, Averaged s.conversions q.1 q.2

theorem inv_cpu {s : Recorder} {core : Core} (h : Inv s) (hcore : s.core.cpu = some core) :
    LoopInv (s.recordCpu core).conversions (s.recordCpu core).samples core.dataPacket core.pc ∧
      ∀ q ∈ (s.recordCpu core).payloads, Averaged (s.recordCpu core).conversions q.1 q.2 := by
  have hloop := h.loop
  have hpayloads := h.payloads
  cases hpc : s.core.pc <;> rw [hpc] at hloop <;>
    simp only [Core.cpu, hpc, Option.some.injEq, reduceCtorEq] at hcore <;>
    simp only [Recorder.recordCpu, hpc]
  case testDataReady =>
    subst hcore
    refine ⟨?_, hpayloads⟩
    -- the averaging begins only when a lap has been announced
    by_cases hready : s.core.driver.isDataReady ≠ 0
    · rw [if_pos hready]
      exact h.buffer.ready hready
    · rw [if_neg hready]
      trivial
  case setTimestamp =>
    subst hcore
    refine ⟨?_, hpayloads⟩
    constructor
    · exact Nat.zero_le _
    · exact hloop
    · exact samplesOk_nil
    · rfl
    · exact Nat.zero_le _
    · intro other hother
      exact absurd hother (Nat.not_lt_zero _)
  case averageChannel channel i sum =>
    by_cases hi : i < adcBufferDepth
    · rw [dif_pos hi] at hcore ⊢
      cases hcore
      exact ⟨averaging_read h.buffer hloop hi, hpayloads⟩
    · rw [dif_neg hi] at hcore ⊢
      cases hcore
      exact ⟨averaging_done hloop hi, hpayloads⟩
  case setStatusFlags =>
    subst hcore
    exact ⟨⟨hloop.samplesOk, hloop.reading_eq⟩, hpayloads⟩
  case clearDataReady | wakeEsp32 =>
    subst hcore
    exact ⟨hloop, hpayloads⟩
  case sendTelemetry =>
    subst hcore
    refine ⟨trivial, ?_⟩
    intro q hq
    rcases List.mem_append.mp hq with hold | hnew
    · exact hpayloads q hold
    · rw [List.mem_singleton.mp hnew]
      exact hloop
  case waitForInterrupt =>
    subst hcore
    refine ⟨?_, hpayloads⟩
    split <;> trivial
  all_goals
    subst hcore
    exact ⟨trivial, hpayloads⟩

theorem inv_step {s s' : Recorder} {m : Move} (h : Inv s) (hstep : s.step m = some s') :
    Inv s' := by
  have hbuffer := bufferInv_step h.buffer hstep
  obtain ⟨core, hcore, rfl⟩ := Option.map_eq_some_iff.mp hstep
  cases m with
  | cpu =>
    obtain ⟨hloop, hpayloads⟩ := inv_cpu h hcore
    refine ⟨hbuffer, ?_, hpayloads⟩
    rw [record_core]
    exact hloop
  | transfer value =>
    cases hcore
    exact ⟨hbuffer, h.loop.mono value, fun q hq =>
      { h.payloads q hq with samplesOk := (h.payloads q hq).samplesOk.mono value }⟩
  | endWait ackReceived =>
    simp only [Core.step, Core.endWait] at hcore
    split at hcore <;> cases hcore
    refine ⟨hbuffer, ?_, h.payloads⟩
    cases ackReceived <;> trivial
  | interrupt =>
    simp only [Core.step, Core.interrupt] at hcore
    split at hcore <;> cases hcore
    refine ⟨hbuffer, ?_, h.payloads⟩
    -- the loop goes on where it was, unless it was halted
    change LoopInv _ _ _ (if s.core.pc = .halted then .clearSleepDeep else s.core.pc)
    split
    · trivial
    · exact h.loop
  | transferError =>
    cases hcore
    exact ⟨hbuffer, h.loop, h.payloads⟩

/-- The invariant holds in every state of every run. -/
theorem inv_of_reachable {s : Recorder} (h : system.Reachable s) : Inv s := by
  apply h.invariant (I := Inv)
  · rintro s ⟨packet, rfl⟩
    refine ⟨⟨?_, ?_, ?_, ?_⟩, trivial, ?_⟩
    · exact CircularBuffer.holds_nil _ (by decide)
    · exact CircularBuffer.holds_nil _ (by decide)
    · intro hset
      exact absurd hset Bool.false_ne_true
    · intro hset
      exact absurd rfl hset
    · intro q hq
      exact absurd hq List.not_mem_nil
  · intro s m s' hinv hstep
    exact inv_step hinv hstep

end TelemetryNode.Sampling
