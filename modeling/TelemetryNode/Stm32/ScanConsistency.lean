import Mathlib.Data.List.Perm.Subperm
import TelemetryNode.Stm32.Sampling

/-!
# Which conversions a packet averages

The hardware stores conversions while the 48 samples of a packet are read. Each sample is the latest
conversion of its slot at that moment, so samples can be as far apart as the conversions stored
meanwhile put them. Without any they are the latest 48 conversions, which are 16 complete scans
only between two scans.

## Main definitions

* `Sampling.ConsecutiveScans`: the samples are those of 16 consecutive complete scans.

## Main results

* `Sampling.payloads_eq`: the records are those of the transmitted packets, in order.
* `Sampling.payload_samples`: where the samples of a transmitted packet come from.
* `Sampling.scans_mixed`: a packet that averages scans 31 apart.
-/

namespace TelemetryNode.Sampling

open DmaAdc MainLoop

/-- The samples are the conversions of 16 consecutive complete scans, each of them once. -/
def ConsecutiveScans (samples : List Sample) : Prop :=
  ∃ scan, (samples.filterMap (·.origin)).Perm
    (List.range' (adcChannels * scan) (adcChannels * adcBufferDepth))

variable {conversions : List (BitVec 16)} {samples : List Sample} {x y : Sample} {n : ℕ}

theorem slotOf_lt {j : ℕ} (h : j < adcChannels * adcBufferDepth) :
    slotOf j < adcChannels * adcBufferDepth := by
  simp only [slotOf, adcChannels, adcBufferDepth] at h ⊢
  omega

/-- A slot of a channel is read for each of its samples. -/
theorem slotOf_mod {j : ℕ} (h : j < adcChannels * adcBufferDepth) : slotOf j % 3 = j / 16 := by
  simp only [slotOf, adcChannels, adcBufferDepth] at h ⊢
  omega

/-- No slot is read twice. -/
theorem slotOf_injOn {i j : ℕ} (hi : i < adcChannels * adcBufferDepth)
    (hj : j < adcChannels * adcBufferDepth) (h : slotOf i = slotOf j) : i = j := by
  have hquot : i / 16 = j / 16 := by
    rw [← slotOf_mod hi, h, slotOf_mod hj]
  have hrem : i % 16 = j % 16 := by
    simp only [slotOf, adcChannels, adcBufferDepth] at h
    rw [hquot] at h
    omega
  rw [← Nat.div_add_mod i 16, hquot, hrem, Nat.div_add_mod]

/-- A sample of a packet is a conversion of its channel, one of the latest 48. -/
theorem SamplesOk.mem (h : SamplesOk conversions samples (adcChannels * adcBufferDepth))
    (hx : x ∈ samples) :
    ∃ k, x.origin = some k ∧ conversions[k]? = some x.value ∧ k % 3 = x.channel ∧
      k < x.count ∧ x.count ≤ k + 48 := by
  obtain ⟨j, hj⟩ := List.mem_iff_getElem?.mp hx
  have hlt : j < adcChannels * adcBufferDepth := by
    rw [← h.length_eq]
    exact (List.getElem?_eq_some_iff.mp hj).1
  have hread := h.isRead j x hj
  have hslot := slotOf_lt hlt
  have hmod : latestOf x.count (slotOf j) % 48 = slotOf j := CircularBuffer.latest_mod hslot
  refine ⟨latestOf x.count (slotOf j), hread.origin_eq, hread.value_eq, ?_,
    CircularBuffer.latest_lt (hslot.trans_le hread.full), CircularBuffer.le_latest_add hslot⟩
  have hchannel : x.channel.val = j / 16 := hread.channel_eq
  rw [hchannel, ← slotOf_mod hlt]
  omega

/-- The samples lie between the first and the last read. -/
theorem SamplesOk.count_between (h : SamplesOk conversions samples (adcChannels * adcBufferDepth))
    {first last : Sample} (hfirst : samples[0]? = some first) (hlast : samples[47]? = some last)
    (hx : x ∈ samples) : first.count ≤ x.count ∧ x.count ≤ last.count := by
  obtain ⟨j, hj⟩ := List.mem_iff_getElem?.mp hx
  obtain ⟨hlen, rfl⟩ := List.getElem?_eq_some_iff.mp hj
  obtain ⟨hpos, rfl⟩ := List.getElem?_eq_some_iff.mp hfirst
  obtain ⟨hend, rfl⟩ := List.getElem?_eq_some_iff.mp hlast
  have hsorted := List.pairwise_iff_getElem.mp h.sorted
  have hle : ∀ (i k : ℕ) (hi : i < samples.length) (hk : k < samples.length), i ≤ k →
      samples[i].count ≤ samples[k].count := by
    intro i k hi hk hik
    rcases Nat.lt_or_eq_of_le hik with hlt | rfl
    · exact hsorted i k hi hk hlt
    · exact le_rfl
  have hsize : samples.length = 48 := h.length_eq
  exact ⟨hle 0 j hpos hlen (Nat.zero_le _), hle j 47 hlen hend (by omega)⟩

theorem SamplesOk.origins_eq (h : SamplesOk conversions samples (adcChannels * adcBufferDepth)) :
    samples.filterMap (·.origin) = samples.map fun x => x.origin.getD 0 := by
  rw [← List.filterMap_eq_map]
  apply List.filterMap_congr
  intro x hx
  obtain ⟨k, hk, -⟩ := h.mem hx
  simp [hk]

/-- The samples are different conversions: they are read from different slots. -/
theorem SamplesOk.nodup_origins
    (h : SamplesOk conversions samples (adcChannels * adcBufferDepth)) :
    (samples.filterMap (·.origin)).Nodup := by
  have hsize : samples.length = 48 := h.length_eq
  have hslots : (samples.map fun x => x.origin.getD 0).map (· % 48) =
      (List.range 48).map slotOf := by
    apply List.ext_getElem
    · rw [List.length_map, List.length_map, List.length_map, List.length_range, hsize]
    · intro j hj _
      rw [List.length_map, List.length_map] at hj
      have hread := h.isRead j samples[j] (List.getElem?_eq_getElem hj)
      have hslot : slotOf j < adcChannels * adcBufferDepth := slotOf_lt (hj.trans_eq hsize)
      simp only [List.getElem_map, List.getElem_range, hread.origin_eq, Option.getD_some]
      exact CircularBuffer.latest_mod hslot
  rw [h.origins_eq]
  apply List.Nodup.of_map (· % 48)
  rw [hslots]
  apply List.Nodup.map_on _ List.nodup_range
  intro i hi j hj heq
  exact slotOf_injOn (List.mem_range.mp hi) (List.mem_range.mp hj) heq

/-- If all samples are among 48 consecutive conversions, they are these, each of them once. -/
theorem SamplesOk.perm_of_window (h : SamplesOk conversions samples (adcChannels * adcBufferDepth))
    {base : ℕ} (hwindow : ∀ x ∈ samples, ∀ k, x.origin = some k → base ≤ k ∧ k < base + 48) :
    (samples.filterMap (·.origin)).Perm (List.range' base 48) := by
  have hsize : samples.length = 48 := h.length_eq
  apply (List.subperm_of_subset h.nodup_origins _).perm_of_length_le
  · rw [h.origins_eq, List.length_map, hsize, List.length_range']
  · intro k hk
    obtain ⟨x, hx, hk⟩ := List.mem_filterMap.mp hk
    rw [List.mem_range'_1]
    exact hwindow x hx k hk

/-- The samples are 16 complete scans exactly if they all lie within 16 scans. -/
theorem SamplesOk.consecutiveScans_iff
    (h : SamplesOk conversions samples (adcChannels * adcBufferDepth)) :
    ConsecutiveScans samples ↔
      ∃ scan, ∀ x ∈ samples, ∀ k, x.origin = some k → 3 * scan ≤ k ∧ k < 3 * scan + 48 := by
  constructor
  · rintro ⟨scan, hperm⟩
    refine ⟨scan, ?_⟩
    intro x hx k hk
    have hmem := hperm.mem_iff.mp (List.mem_filterMap.mpr ⟨x, hx, hk⟩)
    exact List.mem_range'_1.mp hmem
  · rintro ⟨scan, hwindow⟩
    exact ⟨scan, h.perm_of_window hwindow⟩

/-- The latest 48 conversions are complete scans exactly between two scans. -/
theorem exists_scan_iff (hn : adcChannels * adcBufferDepth ≤ n) :
    (∃ scan, (List.range' (n - 48) 48).Perm
      (List.range' (adcChannels * scan) (adcChannels * adcBufferDepth))) ↔ 3 ∣ n := by
  constructor
  · rintro ⟨scan, hperm⟩
    have hfirst := (hperm.mem_iff (a := n - 48)).mp (by rw [List.mem_range'_1]; omega)
    have hfirst' := (hperm.mem_iff (a := adcChannels * scan)).mpr (by
      rw [List.mem_range'_1]
      exact ⟨le_rfl, Nat.lt_add_of_pos_right (by decide)⟩)
    rw [List.mem_range'_1] at hfirst hfirst'
    simp only [adcChannels, adcBufferDepth] at hfirst hfirst' hn
    omega
  · rintro ⟨q, rfl⟩
    refine ⟨q - 16, ?_⟩
    have hstart : 3 * q - 48 = adcChannels * (q - 16) := by
      simp only [adcChannels]
      omega
    rw [hstart]
    exact List.Perm.refl _

/-- The record of a packet belongs to a packet that was transmitted, and every one has a record. -/
theorem payloads_eq {s : Recorder} (h : system.Reachable s) :
    s.payloads.map Prod.snd = s.core.transmitted.map Prod.snd := by
  apply h.invariant (I := fun s => s.payloads.map Prod.snd = s.core.transmitted.map Prod.snd)
  · rintro s ⟨packet, rfl⟩
    rfl
  · intro s m s' hs hstep
    obtain ⟨core, hcore, rfl⟩ := Option.map_eq_some_iff.mp hstep
    cases m with
    | cpu =>
      simp only [Recorder.record, Recorder.recordCpu]
      cases hpc : s.core.pc <;>
        simp only [Core.step, Core.cpu, hpc, Option.some.injEq, reduceCtorEq] at hcore
      case averageChannel channel i sum =>
        by_cases hi : i < adcBufferDepth
        · simp only [hi, ↓reduceDIte, Option.some.injEq] at hcore ⊢
          subst hcore
          exact hs
        · simp only [hi, ↓reduceDIte, Option.some.injEq] at hcore ⊢
          subst hcore
          exact hs
      -- the two records grow together, and in no other statement
      case sendTelemetry =>
        subst hcore
        rw [List.map_append, List.map_append, hs]
        rfl
      all_goals
        subst hcore
        exact hs
    | endWait ackReceived =>
      simp only [Core.step, Core.endWait] at hcore
      split at hcore <;> cases hcore
      exact hs
    | interrupt =>
      simp only [Core.step, Core.interrupt] at hcore
      split at hcore <;> cases hcore
      exact hs
    | transfer value | transferError =>
      cases hcore
      exact hs

/-- Where the samples of a transmitted packet come from. There are 48, and each field is the floor
of the mean of those of its channel. Each sample is a conversion of its channel, and the latest one
of its slot when it is read, whatever is stored between the reads. So the samples of a channel are
at most 15 scans apart, and as many more as are stored, at least in part, between the first and the
last read. They are 16 consecutive complete scans exactly if they lie within 16 scans. If nothing is
stored between the reads, they are the latest 48 conversions, and 16 complete scans exactly if the
number of conversions is a multiple of three. -/
theorem payload_samples {s : Recorder} (h : system.Reachable s) {samples : List Sample}
    {packet : TelemetryPayload} (hmem : (samples, packet) ∈ s.payloads) :
    samples.length = 48 ∧
    (∀ channel, (reading packet channel).toNat = channelTotal samples channel / 16) ∧
    (∀ x ∈ samples, ∃ k, x.origin = some k ∧ s.conversions[k]? = some x.value ∧
      k % 3 = x.channel ∧ k < x.count ∧ x.count ≤ k + 48) ∧
    (ConsecutiveScans samples ↔
      ∃ scan, ∀ x ∈ samples, ∀ k, x.origin = some k → 3 * scan ≤ k ∧ k < 3 * scan + 48) ∧
    ∃ first last, samples[0]? = some first ∧ samples[47]? = some last ∧
      (∀ x ∈ samples, first.count ≤ x.count ∧ x.count ≤ last.count) ∧
      (∀ x ∈ samples, ∀ y ∈ samples, x.channel = y.channel → ∀ j k, x.origin = some j →
        y.origin = some k → k / 3 ≤ j / 3 + 15 + (last.count - first.count + 2) / 3) ∧
      (first.count = last.count →
        (samples.filterMap (·.origin)).Perm (List.range' (first.count - 48) 48) ∧
        (ConsecutiveScans samples ↔ 3 ∣ first.count)) := by
  obtain ⟨hsamples, hreading⟩ := (inv_of_reachable h).payloads _ hmem
  have hsize : samples.length = 48 := hsamples.length_eq
  have hfirst : samples[0]? = some samples[0] := List.getElem?_eq_getElem (by omega)
  have hlast : samples[47]? = some samples[47] := List.getElem?_eq_getElem (by omega)
  have hbetween : ∀ x ∈ samples, samples[0].count ≤ x.count ∧ x.count ≤ samples[47].count :=
    fun x hx => hsamples.count_between hfirst hlast hx
  have hmem : ∀ x ∈ samples, ∃ k, x.origin = some k ∧ s.conversions[k]? = some x.value ∧
      k % 3 = x.channel ∧ k < x.count ∧ x.count ≤ k + 48 := fun x hx => hsamples.mem hx
  refine ⟨hsize, hreading, hmem, hsamples.consecutiveScans_iff, samples[0], samples[47], hfirst,
    hlast, hbetween, ?_, ?_⟩
  · intro x hx y hy hchannel j k hj hk
    obtain ⟨j', hj', -, hjmod, -, hjle⟩ := hmem x hx
    obtain ⟨k', hk', -, hkmod, hklt, -⟩ := hmem y hy
    obtain rfl : j' = j := Option.some.inj (hj'.symm.trans hj)
    obtain rfl : k' = k := Option.some.inj (hk'.symm.trans hk)
    have hx₀ := (hbetween x hx).1
    have hy₁ := (hbetween y hy).2
    rw [hchannel, ← hkmod] at hjmod
    omega
  · intro hquiet
    have hfull := (hsamples.isRead 0 _ hfirst).full
    -- all samples are read at the same time
    have hperm : (samples.filterMap (·.origin)).Perm (List.range' (samples[0].count - 48) 48) := by
      apply hsamples.perm_of_window
      intro x hx k hk
      obtain ⟨k', hk', -, -, hlt, hle⟩ := hmem x hx
      obtain rfl : k' = k := Option.some.inj (hk'.symm.trans hk)
      have := hbetween x hx
      omega
    refine ⟨hperm, ?_⟩
    rw [← exists_scan_iff hfull]
    exact exists_congr fun scan =>
      ⟨fun hscan => hperm.symm.trans hscan, fun hscan => hperm.trans hscan⟩

/-- A lap is averaged while nothing is stored: these are 16 complete scans. -/
theorem payload_samples_one_lap :
    ∃ s samples packet, system.Reachable s ∧ (samples, packet) ∈ s.payloads ∧
      ConsecutiveScans samples := by
  have hstart : system.Reachable (.start (dataPacket 0#16 0#16 0#16)) := .init ⟨_, rfl⟩
  obtain ⟨s, hs, h⟩ := hstart.exists_of_exec (batchArrives ++ transmits)
    (fun s => s.payloads.any fun q => q.1[0]?.any (·.count = 48) ∧ q.1[47]?.any (·.count = 48))
    (by decide +kernel)
  obtain ⟨⟨samples, packet⟩, hmem, hcount⟩ := List.any_eq_true.mp h
  obtain ⟨-, -, -, -, first, last, hfirst, hlast, -, -, hquiet⟩ := payload_samples hs hmem
  simp only [hfirst, hlast, Option.any_some, decide_eq_true_eq] at hcount
  refine ⟨s, samples, packet, hs, hmem, ?_⟩
  rw [(hquiet (hcount.1.trans hcount.2.symm)).2, hcount.1]
  decide

/-- A lap is stored after the first sample was read. The average of the battery channel mixes
conversions 0 and 93, which are 31 scans apart. -/
theorem scans_mixed :
    ∃ s samples packet, system.Reachable s ∧ (samples, packet) ∈ s.payloads ∧
      (∃ x ∈ samples, x.channel.val = 0 ∧ x.origin = some 0) ∧
      (∃ x ∈ samples, x.channel.val = 0 ∧ x.origin = some 93) ∧ ¬ ConsecutiveScans samples := by
  have hstart : system.Reachable (.start (dataPacket 0#16 0#16 0#16)) := .init ⟨_, rfl⟩
  obtain ⟨s, hs, h⟩ := hstart.exists_of_exec
    (batchArrives ++ [.cpu, .cpu, .cpu] ++ batchArrives ++ List.replicate 54 .cpu)
    (fun s => s.payloads.any fun q => (q.1.any fun x => x.channel.val = 0 ∧ x.origin = some 0) ∧
      (q.1.any fun x => x.channel.val = 0 ∧ x.origin = some 93)) (by decide +kernel)
  obtain ⟨⟨samples, packet⟩, hmem, hany⟩ := List.any_eq_true.mp h
  simp only [List.any_eq_true, decide_eq_true_eq] at hany
  obtain ⟨⟨x, hx, hx₀⟩, ⟨y, hy, hy₀⟩⟩ := hany
  refine ⟨s, samples, packet, hs, hmem, ⟨x, hx, hx₀⟩, ⟨y, hy, hy₀⟩, ?_⟩
  rintro ⟨scan, hperm⟩
  -- the scans would begin with conversion 0, and end before conversion 93
  have hzero := hperm.mem_iff.mp (List.mem_filterMap.mpr ⟨x, hx, hx₀.2⟩)
  have hlate := hperm.mem_iff.mp (List.mem_filterMap.mpr ⟨y, hy, hy₀.2⟩)
  rw [List.mem_range'_1] at hzero hlate
  simp only [adcChannels, adcBufferDepth] at hzero hlate
  omega

end TelemetryNode.Sampling
