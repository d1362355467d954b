import Mathlib.Algebra.Group.Action.Defs
import Mathlib.Algebra.Order.BigOperators.Group.Finset
import TelemetryNode.Library.CircularBuffer
import TelemetryNode.Stm32.MainLoop

/-!
# The averages over the circular sample buffer

`dma_adc_get_averaged_channel` on a buffer that is not written meanwhile. The buffer, with its
cursor, is a circular buffer of 48 slots, and the three channels go through it in turn.

## Main definitions

* `DmaAdc.Driver.ring`: the sample buffer as a circular buffer.
* `DmaAdc.dmaAdcGetAveragedChannel`: `dma_adc_get_averaged_channel`.
* `DmaAdc.recentConversions`: the 16 latest conversions of a channel.

## Main results

* `DmaAdc.exec_average`: the statements of the main loop compute it.
* `DmaAdc.averaged_channel`: at any phase of a lap, the average of a channel is the floor of the
  mean of its 16 latest conversions.
-/

namespace TelemetryNode.DmaAdc

/-- The sample buffer as a circular buffer. -/
def Driver.ring (d : Driver) : CircularBuffer (BitVec 16) (adcChannels * adcBufferDepth) :=
  ⟨d.adcBuffer, d.filled⟩

/-- A conversion is one write. -/
theorem ring_transfer (d : Driver) (value : BitVec 16) :
    (d.transfer value).ring = d.ring.write value := by
  have hlt := d.filled.isLt
  unfold Driver.transfer
  split
  · rename_i h
    simp only [Driver.ring, CircularBuffer.write, CircularBuffer.mk.injEq, Fin.mk.injEq, true_and]
    exact (Nat.mod_eq_of_lt h).symm
  · rename_i h
    have hlast : d.filled.val + 1 = adcChannels * adcBufferDepth := by omega
    simp only [Driver.ring, CircularBuffer.write, CircularBuffer.mk.injEq, Fin.mk.injEq, true_and]
    rw [hlast, Nat.mod_self]

/-- The driver after the first `n` conversions of the sequence `x`. -/
def Driver.converted (x : ℕ → BitVec 16) : ℕ → Driver
  | 0 => .start
  | n + 1 => (Driver.converted x n).transfer (x n)

/-- After any number of conversions the buffer holds them. -/
theorem holds_converted (x : ℕ → BitVec 16) (n : ℕ) :
    (Driver.converted x n).ring.Holds ((List.range n).map x) := by
  induction n with
  | zero => exact CircularBuffer.holds_nil _ (by decide)
  | succ n ih =>
    rw [Driver.converted, ring_transfer, List.range_succ, List.map_append]
    exact ih.write (x n)

/-! ## The code -/

/-- The loop of `dma_adc_get_averaged_channel`, for its first `passes` passes. The result is `none`
when a slot outside `adc_buffer` is read. -/
def channelSum (d : Driver) (channelIndex : BitVec 8) (passes : ℕ) : Option (BitVec 32) :=
  (List.range passes).foldlM (fun sum i => do
    let value ← d.adcBuffer[i * adcChannels + channelIndex.toNat]?
    return sum + value.setWidth 32) 0#32

/-- `dma_adc_get_averaged_channel`. -/
def dmaAdcGetAveragedChannel (d : Driver) (channelIndex : BitVec 8) : Option (BitVec 16) :=
  if channelIndex.toNat ≥ adcChannels then some 0#16
  else (channelSum d channelIndex adcBufferDepth).map average

/-! ## The arithmetic of the sum -/

/-- As long as at most 16 samples are summed, the 32-bit sum does not overflow. -/
theorem toNat_add_sample {sum : BitVec 32} {m : ℕ} (h : sum.toNat ≤ m * 0xFFFF)
    (hm : m < adcBufferDepth) (value : BitVec 16) :
    (sum + value.setWidth 32).toNat = sum.toNat + value.toNat ∧
      (sum + value.setWidth 32).toNat ≤ (m + 1) * 0xFFFF := by
  have hvalue := value.isLt
  rw [adcBufferDepth] at hm
  have hadd : (sum + value.setWidth 32).toNat = sum.toNat + value.toNat := by
    rw [BitVec.toNat_add, BitVec.toNat_setWidth]
    omega
  omega

/-- The cast to 16 bits does not change the mean of 16 samples. -/
theorem toNat_average {sum : BitVec 32} (h : sum.toNat ≤ adcBufferDepth * 0xFFFF) :
    (average sum).toNat = sum.toNat / adcBufferDepth := by
  have hquot : (sum / BitVec.ofNat 32 adcBufferDepth).toNat = sum.toNat / adcBufferDepth := by
    rw [BitVec.toNat_udiv]
    rfl
  rw [average, BitVec.toNat_setWidth, hquot]
  apply Nat.mod_eq_of_lt
  rw [adcBufferDepth] at h ⊢
  omega

/-- The loop adds up the samples of its channel. -/
theorem channelSum_eq {d : Driver} {channelIndex : BitVec 8} {sample : ℕ → BitVec 16}
    (hsample : ∀ i < adcBufferDepth,
      d.adcBuffer[i * adcChannels + channelIndex.toNat]? = some (sample i))
    {passes : ℕ} (hpasses : passes ≤ adcBufferDepth) :
    ∃ sum, channelSum d channelIndex passes = some sum ∧
      sum.toNat = ∑ i ∈ Finset.range passes, (sample i).toNat ∧ sum.toNat ≤ passes * 0xFFFF := by
  induction passes with
  | zero => exact ⟨0#32, rfl, by simp, by simp⟩
  | succ m ih =>
    obtain ⟨sum, hsum, hvalue, hle⟩ := ih (by omega)
    obtain ⟨hadd, hle'⟩ := toNat_add_sample hle (by omega) (sample m)
    refine ⟨sum + (sample m).setWidth 32, ?_, ?_, hle'⟩
    · rw [channelSum] at hsum
      rw [channelSum, List.range_succ, List.foldlM_append, hsum]
      simp [hsample m (by omega)]
    · rw [hadd, hvalue, Finset.sum_range_succ]

/-! ## The statements of the main loop -/

/-- A pass of the loop. -/
theorem channelSum_succ {d : Driver} {channel : Fin adcChannels} {i : Fin adcBufferDepth}
    {sum : BitVec 32} (h : channelSum d (BitVec.ofNat 8 channel) i = some sum) :
    channelSum d (BitVec.ofNat 8 channel) (i + 1) = some (accumulate d channel i sum) := by
  have hslot := CircularBuffer.stride_lt channel.isLt i.isLt
  have hindex : (BitVec.ofNat 8 channel).toNat = channel := by
    rw [BitVec.toNat_ofNat]
    exact Nat.mod_eq_of_lt (channel.isLt.trans (by decide))
  rw [channelSum] at h
  rw [channelSum, List.range_succ, List.foldlM_append, h, Option.bind_eq_bind, Option.bind_some]
  simp only [List.foldlM_cons, List.foldlM_nil, hindex, Vector.getElem?_eq_getElem hslot]
  rfl

open MainLoop in
/-- The passes of the loop of a channel, if nothing intervenes. -/
theorem exec_channelSum {s : Core} {channel : Fin adcChannels}
    (hpc : s.pc = .averageChannel channel 0 0#32) {passes : ℕ} (hpasses : passes ≤ adcBufferDepth) :
    ∃ s' sum, system.exec s (.replicate passes .cpu) = some s' ∧
      s'.pc = .averageChannel channel passes sum ∧ s'.driver = s.driver ∧
      s'.dataPacket = s.dataPacket ∧
      channelSum s.driver (BitVec.ofNat 8 channel) passes = some sum := by
  induction passes with
  | zero => exact ⟨s, 0#32, rfl, hpc, rfl, rfl, rfl⟩
  | succ i ih =>
    obtain ⟨s', sum, hexec, hpc', hdriver, hpacket, hsum⟩ := ih (by omega)
    have hi : i < adcBufferDepth := by omega
    obtain ⟨next, hstep, hnext, hsame, hkept⟩ : ∃ next, system.step s' .cpu = some next ∧
        next.pc = .averageChannel channel (i + 1) (accumulate s'.driver channel ⟨i, hi⟩ sum) ∧
        next.driver = s'.driver ∧ next.dataPacket = s'.dataPacket := by
      change ∃ next, s'.cpu = some next ∧ _
      rw [Core.cpu, hpc']
      exact ⟨_, dif_pos hi, rfl, rfl, rfl⟩
    refine ⟨next, accumulate s'.driver channel ⟨i, hi⟩ sum, ?_, hnext, hsame.trans hdriver,
      hkept.trans hpacket, ?_⟩
    · rw [List.replicate_succ', TransitionSystem.exec_append, hexec, Option.bind_some,
        TransitionSystem.exec, hstep]
      rfl
    · rw [hdriver]
      exact channelSum_succ (i := ⟨i, hi⟩) hsum

open MainLoop in
/-- If nothing intervenes, the main loop assigns what `dma_adc_get_averaged_channel` returns. -/
theorem exec_average {s : Core} {channel : Fin adcChannels}
    (hpc : s.pc = .averageChannel channel 0 0#32) :
    ∃ s' result, system.exec s (.replicate (adcBufferDepth + 1) .cpu) = some s' ∧
      dmaAdcGetAveragedChannel s.driver (BitVec.ofNat 8 channel) = some result ∧
      s'.pc = afterAverage channel ∧ s'.dataPacket = setReading s.dataPacket channel result := by
  obtain ⟨s', sum, hexec, hpc', -, hpacket, hsum⟩ := exec_channelSum hpc le_rfl
  obtain ⟨next, hstep, hnext, hassigned⟩ : ∃ next, system.step s' .cpu = some next ∧
      next.pc = afterAverage channel ∧
      next.dataPacket = setReading s'.dataPacket channel (average sum) := by
    change ∃ next, s'.cpu = some next ∧ _
    rw [Core.cpu, hpc']
    exact ⟨_, dif_neg (lt_irrefl _), rfl, rfl⟩
  have hindex : ¬ (BitVec.ofNat 8 channel).toNat ≥ adcChannels := by
    rw [BitVec.toNat_ofNat, Nat.mod_eq_of_lt (channel.isLt.trans (by decide))]
    exact not_le_of_gt channel.isLt
  refine ⟨next, average sum, ?_, ?_, hnext, ?_⟩
  · rw [List.replicate_succ', TransitionSystem.exec_append, hexec, Option.bind_some,
      TransitionSystem.exec, hstep]
    rfl
  · rw [dmaAdcGetAveragedChannel, if_neg hindex, hsum]
    rfl
  · rw [hassigned, hpacket]

/-! ## The mean -/

/-- The 16 latest of the first `n` conversions that are of channel `c`: conversion `k` is of channel
`k % 3`. -/
def recentConversions (n c : ℕ) : Finset ℕ :=
  CircularBuffer.recent (adcChannels * adcBufferDepth) adcChannels n c

variable {n c : ℕ}

/-- Every slot holds the latest conversion that fell on it. -/
theorem adcBuffer_eq (x : ℕ → BitVec 16) {s : ℕ} (hs : s < adcChannels * adcBufferDepth)
    (hn : adcChannels * adcBufferDepth ≤ n) :
    (Driver.converted x n).adcBuffer[s] =
      x (CircularBuffer.latest (adcChannels * adcBufferDepth) n s) := by
  have hlt : s < ((List.range n).map x).length := by
    rw [List.length_map, List.length_range]
    omega
  have hslot := (holds_converted x n).slot_eq s hs hlt
  rw [List.length_map, List.length_range, List.getElem?_map,
    List.getElem?_range (CircularBuffer.latest_lt (by omega))] at hslot
  exact (Option.some.inj hslot).symm

section Mean

variable {s : Finset ℕ} {f : ℕ → ℕ} {m bound : ℕ}

/-- A lower bound of some numbers is one of the floor of their mean. -/
theorem le_mean (hm : 0 < m) (hs : s.card = m) (hf : ∀ k ∈ s, bound ≤ f k) :
    bound ≤ (∑ k ∈ s, f k) / m := by
  have hsum := Finset.card_nsmul_le_sum s f bound hf
  rw [hs, smul_eq_mul, Nat.mul_comm] at hsum
  exact (Nat.le_div_iff_mul_le hm).mpr hsum

/-- An upper bound of some numbers is one of the floor of their mean. -/
theorem mean_le (hs : s.card = m) (hf : ∀ k ∈ s, f k ≤ bound) : (∑ k ∈ s, f k) / m ≤ bound := by
  have hsum := Finset.sum_le_card_nsmul s f bound hf
  rw [hs, smul_eq_mul] at hsum
  exact Nat.div_le_of_le_mul hsum

/-- Some of the numbers are not above the floor of their mean. -/
theorem exists_le_mean (hm : 0 < m) (hs : s.card = m) : ∃ k ∈ s, f k ≤ (∑ k ∈ s, f k) / m := by
  by_contra hnone
  have hall : ∀ k ∈ s, (∑ k ∈ s, f k) / m + 1 ≤ f k := by
    intro k hk
    by_contra hlt
    exact hnone ⟨k, hk, by omega⟩
  have := le_mean hm hs hall
  omega

/-- Some of the numbers are not below the floor of their mean. -/
theorem exists_mean_le (hm : 0 < m) (hs : s.card = m) : ∃ k ∈ s, (∑ k ∈ s, f k) / m ≤ f k := by
  obtain ⟨k, hk, hmax⟩ := s.exists_max_image f (Finset.card_pos.mp (hs.symm ▸ hm))
  exact ⟨k, hk, mean_le hs hmax⟩

end Mean

/-- Averaging over the circular buffer. After any number `n ≥ 48` of conversions of any sequence,
every slot holds a conversion of its channel, one of the latest 48. For each channel the loop stays
within the buffer, its 32-bit sum is the sum of the channel's 16 latest conversions, and the result
is the floor of their mean; the cast loses nothing. So it lies between the least and the greatest of
them, and is at most 4095 for 12-bit conversions. -/
theorem averaged_channel (x : ℕ → BitVec 16) (hn : adcChannels * adcBufferDepth ≤ n)
    {channelIndex : BitVec 8} (hc : channelIndex.toNat < adcChannels) :
    (∀ (s : ℕ) (hs : s < adcChannels * adcBufferDepth), ∃ k < n, n ≤ k + 48 ∧ k % 48 = s ∧
      k % 3 = s % 3 ∧ (Driver.converted x n).adcBuffer[s] = x k) ∧
    (recentConversions n channelIndex.toNat).card = 16 ∧
    ∃ sum result, channelSum (Driver.converted x n) channelIndex adcBufferDepth = some sum ∧
      dmaAdcGetAveragedChannel (Driver.converted x n) channelIndex = some result ∧
      sum.toNat = ∑ k ∈ recentConversions n channelIndex.toNat, (x k).toNat ∧
      result.toNat = (∑ k ∈ recentConversions n channelIndex.toNat, (x k).toNat) / 16 ∧
      (∃ k ∈ recentConversions n channelIndex.toNat, (x k).toNat ≤ result.toNat) ∧
      (∃ k ∈ recentConversions n channelIndex.toNat, result.toNat ≤ (x k).toNat) ∧
      ((∀ k, (x k).toNat ≤ 4095) → result.toNat ≤ 4095) := by
  have hcard : (recentConversions n channelIndex.toNat).card = 16 :=
    CircularBuffer.card_recent hc hn
  have hslots : ∀ (s : ℕ) (hs : s < adcChannels * adcBufferDepth), ∃ k < n, n ≤ k + 48 ∧
      k % 48 = s ∧ k % 3 = s % 3 ∧ (Driver.converted x n).adcBuffer[s] = x k := by
    intro s hs
    have hmod : CircularBuffer.latest (adcChannels * adcBufferDepth) n s % 48 = s :=
      CircularBuffer.latest_mod hs
    refine ⟨CircularBuffer.latest (adcChannels * adcBufferDepth) n s,
      CircularBuffer.latest_lt (by omega), CircularBuffer.le_latest_add hs, hmod, ?_,
      adcBuffer_eq x hs hn⟩
    omega
  -- the loop reads the slots of its channel, which hold the channel's latest conversions
  have hread : ∀ i < adcBufferDepth,
      (Driver.converted x n).adcBuffer[i * adcChannels + channelIndex.toNat]? =
        some (x (CircularBuffer.latest (adcChannels * adcBufferDepth) n
          (i * adcChannels + channelIndex.toNat))) := by
    intro i hi
    rw [Vector.getElem?_eq_getElem (CircularBuffer.stride_lt hc hi), adcBuffer_eq x _ hn]
  obtain ⟨sum, hsum, hvalue, hle⟩ := channelSum_eq hread le_rfl
  rw [CircularBuffer.sum_stride hc hn fun k => (x k).toNat] at hvalue
  have hmean := toNat_average hle
  rw [hvalue] at hmean
  refine ⟨hslots, hcard, sum, average sum, hsum, ?_, hvalue, hmean, ?_, ?_, ?_⟩
  · rw [dmaAdcGetAveragedChannel, if_neg (by omega), hsum]
    rfl
  · rw [hmean]
    exact exists_le_mean (by decide) hcard
  · rw [hmean]
    exact exists_mean_le (by decide) hcard
  · intro htwelve
    rw [hmean]
    exact mean_le hcard fun k _ => htwelve k

/-- Two conversions into the second lap, for the middle channel. -/
theorem averaged_channel_mid_lap :
    ∃ result, dmaAdcGetAveragedChannel (Driver.converted (BitVec.ofNat 16) 50) 1#8 = some result ∧
      result.toNat = (∑ k ∈ recentConversions 50 1, (BitVec.ofNat 16 k).toNat) / 16 := by
  obtain ⟨-, -, -, result, -, hresult, -, hmean, -⟩ :=
    averaged_channel (n := 50) (BitVec.ofNat 16) (by decide)
      (show (1#8).toNat < adcChannels by decide)
  exact ⟨result, hresult, hmean⟩

end TelemetryNode.DmaAdc
