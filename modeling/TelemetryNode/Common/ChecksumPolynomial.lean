import TelemetryNode.Common.ProtocolSpec
import TelemetryNode.Library.CrcPolynomial

/-!
# The checksum as a polynomial remainder

What `calculate_crc16` computes, and what it reads while it does so. The reads are recorded beside
the computation: erasing the record gives `calculateCrc16` back.

## Main definitions

* `calculateCrc16Reads`: the checksum together with the indices of the bytes read.
* `ccittPoly`: the generator `x¹⁶ + x¹² + x⁵ + 1`.

## Main results

* `calculateCrc16Reads_erase`: recording the reads does not change the checksum.
* `checksum_is_remainder`: the code reads the first `length` bytes in order and returns the
  remainder of the message polynomial.
-/

namespace TelemetryNode

open Polynomial

/-- The outer loop of `calculate_crc16`, recording the index of each byte it reads. -/
def crcLoopReads (data : List Byte) (length : BitVec 16) : ℕ → BitVec 16 → BitVec 16 →
    Option (BitVec 16 × List ℕ)
  | 0, _, _ => none
  | fuel + 1, i, crc =>
    if i.toNat < length.toNat then do
      let b ← data[i.toNat]?
      let (result, reads) ← crcLoopReads data length fuel (i + 1#16) (crcByte crc b)
      return (result, i.toNat :: reads)
    else some (crc, [])

/-- `calculate_crc16`, with the indices of the bytes it reads, in order. -/
def calculateCrc16Reads (data : List Byte) (length : BitVec 16) : Option (BitVec 16 × List ℕ) :=
  crcLoopReads data length 0x10000 0#16 0xFFFF#16

theorem crcLoopReads_erase (data : List Byte) (length : BitVec 16) (fuel : ℕ) (i crc : BitVec 16) :
    (crcLoopReads data length fuel i crc).map Prod.fst = crcLoop data length fuel i crc := by
  induction fuel generalizing i crc with
  | zero => rfl
  | succ fuel ih =>
    rw [crcLoopReads, crcLoop]
    by_cases hlt : i.toNat < length.toNat
    · rw [if_pos hlt, if_pos hlt]
      cases hb : data[i.toNat]? with
      | none => rfl
      | some b =>
        simp only [Option.bind_eq_bind, Option.bind_some, ← ih]
        cases crcLoopReads data length fuel (i + 1#16) (crcByte crc b) <;> rfl
    · rw [if_neg hlt, if_neg hlt]
      rfl

/-- Without the record, it is the checksum. -/
theorem calculateCrc16Reads_erase (data : List Byte) (length : BitVec 16) :
    (calculateCrc16Reads data length).map Prod.fst = calculateCrc16 data length :=
  crcLoopReads_erase _ _ _ _ _

/-- Whenever the loop ends, it has read every index from the counter up to `length`, in order. -/
theorem reads_of_crcLoopReads {data : List Byte} {length : BitVec 16} {fuel : ℕ}
    {i crc result : BitVec 16} {reads : List ℕ} (hi : i.toNat ≤ length.toNat)
    (h : crcLoopReads data length fuel i crc = some (result, reads)) :
    reads = List.range' i.toNat (length.toNat - i.toNat) := by
  induction fuel generalizing i crc reads with
  | zero => cases h
  | succ fuel ih =>
    rw [crcLoopReads] at h
    by_cases hlt : i.toNat < length.toNat
    · have hnext := toNat_add_one_of_lt hlt
      rw [if_pos hlt] at h
      simp only [Option.bind_eq_bind, Option.bind_eq_some_iff] at h
      obtain ⟨b, -, ⟨result', reads'⟩, hrest, hr⟩ := h
      cases hr
      rw [ih (by omega) hrest, hnext, show length.toNat - i.toNat =
        (length.toNat - (i.toNat + 1)) + 1 by omega, List.range'_succ]
    · rw [if_neg hlt] at h
      cases h
      rw [show length.toNat - i.toNat = 0 by omega]
      rfl

/-- The generator of CRC-16/CCITT-FALSE. -/
noncomputable def ccittPoly : (ZMod 2)[X] := X ^ 16 + X ^ 12 + X ^ 5 + 1

/-- The constant `0x1021` stands for the generator without its leading term. -/
theorem generator_eq : Crc.generator 0x1021#16 = ccittPoly := by
  have hbits : ∀ i ∈ Finset.range 16, (0x1021#16).getLsbD i = decide (i ∈ [0, 5, 12]) := by decide
  rw [Crc.generator, ccittPoly, Crc.toPoly, Finset.sum_congr rfl fun i hi => by rw [hbits i hi]]
  simp [Finset.sum_range_succ]
  ring

/-- The all-ones register the code starts from. -/
theorem toPoly_ones : Crc.toPoly 0xFFFF#16 = ∑ i ∈ Finset.range 16, X ^ i := by
  have hbits : ∀ i ∈ Finset.range 16, (0xFFFF#16).getLsbD i = true := by decide
  apply Finset.sum_congr rfl
  intro i hi
  rw [hbits i hi, Crc.coefficient_true, C_1, one_mul]

/-- CRC-16/CCITT-FALSE. For every buffer and every 16-bit length within it, `calculate_crc16` ends,
having read exactly the bytes `0` to `length - 1`, once each and in order, and returns the remainder
of `M(x) · x¹⁶ + (x¹⁵ + … + x + 1) · x^(8 · length)` modulo `x¹⁶ + x¹² + x⁵ + 1`, where `M` is what
was read, most significant bit first. -/
theorem checksum_is_remainder {data : List Byte} {length : BitVec 16}
    (h : length.toNat ≤ data.length) :
    ∃ crc, calculateCrc16 data length = some crc ∧
      calculateCrc16Reads data length = some (crc, List.range length.toNat) ∧
      Crc.toPoly crc =
        (Crc.messagePoly (data.take length.toNat) * X ^ 16 +
          (∑ i ∈ Finset.range 16, X ^ i) * X ^ (8 * length.toNat)) %ₘ
          (X ^ 16 + X ^ 12 + X ^ 5 + 1) := by
  have hcrc := calculateCrc16_eq h
  refine ⟨_, hcrc, ?_, ?_⟩
  · rw [← calculateCrc16Reads_erase] at hcrc
    obtain ⟨⟨crc, reads⟩, hreads, rfl⟩ := Option.map_eq_some_iff.mp hcrc
    have hall := reads_of_crcLoopReads (by simp) hreads
    rw [hreads, hall, List.range_eq_range']
    simp
  · have hlen : (data.take length.toNat).length = length.toNat := by
      rw [List.length_take]
      omega
    rw [crc16, Crc.toPoly_run _ (by decide), generator_eq, toPoly_ones, hlen]
    rfl

/-- The longest message the counter allows. -/
theorem checksum_is_remainder_longest :
    ∃ crc, calculateCrc16 (List.replicate 0xFFFF 0xA5#8) 0xFFFF#16 = some crc ∧
      calculateCrc16Reads (List.replicate 0xFFFF 0xA5#8) 0xFFFF#16 =
        some (crc, List.range (0xFFFF#16).toNat) ∧
      Crc.toPoly crc =
        (Crc.messagePoly ((List.replicate 0xFFFF 0xA5#8).take (0xFFFF#16).toNat) * X ^ 16 +
          (∑ i ∈ Finset.range 16, X ^ i) * X ^ (8 * (0xFFFF#16).toNat)) %ₘ
          (X ^ 16 + X ^ 12 + X ^ 5 + 1) :=
  checksum_is_remainder (by rw [List.length_replicate]; decide)

end TelemetryNode
