import Mathlib.Algebra.Polynomial.EraseLead
import Mathlib.Algebra.Polynomial.FieldDivision
import TelemetryNode.Library.CrcPolynomial

/-!
# Which errors a generator detects

A cyclic redundancy check misses exactly the errors whose polynomial is a multiple of the generator.
How many coefficients such a multiple must have follows from two properties of the generator: a
generator that vanishes at 1 has only multiples with an even number of coefficients, and a generator
that divides no `X ^ d + 1` for small `d` has no short multiple with two.

## Main definitions

* `Crc.bitWeight`: the number of bits set in a message.
* `Crc.hammingDistance`: the number of bits in which two messages differ.

## Main results

* `Crc.card_support_messagePoly`: the bits of a message are the coefficients of its polynomial.
* `Crc.four_le_card_support`: the multiples of such a generator have at least four coefficients.
* `Crc.generator_dvd_X_pow_add_one_iff`: how to compute that a generator has the second property.
-/

namespace Crc

open Polynomial

variable {w : ℕ}

/-- The positions of the bits set in a register value. -/
def bitPositions (r : BitVec w) : Finset ℕ := (Finset.range w).filter fun i => r.getLsbD i

/-- The number of bits set in a message. -/
def bitWeight (bs : List (BitVec 8)) : ℕ := (bs.map fun b => (bitPositions b).card).sum

/-- The number of bits in which two messages of one length differ. -/
def hammingDistance (a b : List (BitVec 8)) : ℕ := bitWeight (xorBytes a b)

@[simp]
theorem bitWeight_nil : bitWeight [] = 0 := rfl

theorem bitWeight_cons (b : BitVec 8) (bs : List (BitVec 8)) :
    bitWeight (b :: bs) = (bitPositions b).card + bitWeight bs := rfl

theorem bitWeight_perm {as bs : List (BitVec 8)} (h : as.Perm bs) : bitWeight as = bitWeight bs :=
  (h.map _).sum_eq

theorem support_toPoly (r : BitVec w) : (toPoly r).support = bitPositions r := by
  ext k
  rw [mem_support_iff, coeff_toPoly, bitPositions, Finset.mem_filter, Finset.mem_range]
  cases hk : r.getLsbD k
  · simp
  · simp [BitVec.lt_of_getLsbD hk]

/-- The bits set in a message are the coefficients of its polynomial. -/
theorem card_support_messagePoly (bs : List (BitVec 8)) :
    (messagePoly bs).support.card = bitWeight bs := by
  induction bs with
  | nil => simp
  | cons b bs ih =>
    have hlow := (degree_lt_iff_coeff_zero _ _).mp (degree_messagePoly_lt bs)
    -- the first byte lies above everything else
    have hsplit : (messagePoly (b :: bs)).support =
        (bitPositions b).map (addRightEmbedding (8 * bs.length)) ∪ (messagePoly bs).support := by
      ext k
      rw [Finset.mem_union, Finset.mem_map, mem_support_iff, mem_support_iff, messagePoly_cons,
        coeff_add, coeff_mul_X_pow', ← support_toPoly]
      simp only [mem_support_iff, addRightEmbedding_apply]
      by_cases hk : 8 * bs.length ≤ k
      · rw [if_pos hk, hlow k hk, add_zero, ne_self_iff_false, or_false]
        constructor
        · intro h
          exact ⟨k - 8 * bs.length, h, Nat.sub_add_cancel hk⟩
        · rintro ⟨i, hi, rfl⟩
          rwa [Nat.add_sub_cancel]
      · rw [if_neg hk, zero_add]
        constructor
        · exact Or.inr
        · rintro (⟨i, -, rfl⟩ | h)
          · omega
          · exact h
    have hdisjoint : Disjoint ((bitPositions b).map (addRightEmbedding (8 * bs.length)))
        (messagePoly bs).support := by
      rw [Finset.disjoint_left]
      rintro k hk hk'
      obtain ⟨i, -, rfl⟩ := Finset.mem_map.mp hk
      exact mem_support_iff.mp hk' (hlow _ (Nat.le_add_left _ _))
    rw [hsplit, Finset.card_union_of_disjoint hdisjoint, Finset.card_map, ih, bitWeight_cons]

/-- Two messages that differ in no bit are equal. -/
theorem eq_of_hammingDistance_eq_zero {a b : List (BitVec 8)} (hlen : a.length = b.length)
    (h : hammingDistance a b = 0) : a = b := by
  apply List.ext_getElem hlen
  intro k hka hkb
  have hzero : ∀ n ∈ (xorBytes a b).map fun e => (bitPositions e).card, n = 0 :=
    List.sum_eq_zero_iff.mp h
  have hmem : a[k] ^^^ b[k] ∈ xorBytes a b := by
    rw [List.mem_iff_getElem]
    exact ⟨k, by rw [xorBytes, List.length_zipWith]; omega, List.getElem_zipWith⟩
  have hcard := hzero _ (List.mem_map_of_mem hmem)
  rw [Finset.card_eq_zero, ← support_toPoly, support_eq_empty, ← toPoly_zero] at hcard
  exact BitVec.xor_eq_zero_iff.mp (toPoly_injective hcard)

/-! ## Multiples of a generator -/

/-- In characteristic 2 the value at 1 counts the coefficients. -/
theorem eval_one_eq_card_support (p : (ZMod 2)[X]) : p.eval 1 = (p.support.card : ZMod 2) := by
  have hone : ∀ a : ZMod 2, a ≠ 0 → a = 1 := by decide
  rw [eval_eq_sum, sum_def, Finset.card_eq_sum_ones, Nat.cast_sum]
  apply Finset.sum_congr rfl
  intro k hk
  rw [hone _ (mem_support_iff.mp hk)]
  simp

/-- A multiple of a polynomial that vanishes at 1 has an even number of coefficients. -/
theorem even_card_support {G p : (ZMod 2)[X]} (hroot : G.eval 1 = 0) (hdvd : G ∣ p) :
    Even p.support.card := by
  obtain ⟨q, rfl⟩ := hdvd
  have heval := eval_one_eq_card_support (G * q)
  rw [eval_mul, hroot, zero_mul] at heval
  exact (ZMod.natCast_eq_zero_iff_even).mp heval.symm

/-- A polynomial with two coefficients is a power of `X` times some `X ^ d + 1`. -/
theorem exists_eq_of_card_support_eq_two {p : (ZMod 2)[X]} (h : p.support.card = 2) :
    ∃ k d, 0 < d ∧ ((k + d : ℕ) : WithBot ℕ) ≤ p.degree ∧ p = X ^ k * (X ^ d + 1) := by
  have hone : ∀ a : ZMod 2, a ≠ 0 → a = 1 := by decide
  obtain ⟨k, m, hkm, x, y, hx, hy, rfl⟩ := card_support_eq_two.mp h
  rw [hone x hx, hone y hy, C_1, one_mul, one_mul]
  refine ⟨k, m - k, by omega, ?_, ?_⟩
  · rw [Nat.add_sub_cancel' hkm.le]
    apply le_degree_of_ne_zero
    rw [coeff_add, coeff_X_pow, coeff_X_pow, if_neg (by omega), if_pos rfl]
    decide
  · rw [mul_add, ← pow_add, Nat.add_sub_cancel' hkm.le, mul_one, add_comm]

/-- If a generator has a constant term, vanishes at 1 and divides no `X ^ d + 1` below degree `n`,
then its multiples below degree `n` have an even number of coefficients, four at least. -/
theorem four_le_card_support {G p : (ZMod 2)[X]} {n : ℕ} (hconst : G.coeff 0 ≠ 0)
    (hroot : G.eval 1 = 0) (horder : ∀ d, 0 < d → d < n → ¬ G ∣ X ^ d + 1) (hdvd : G ∣ p)
    (hdeg : p.degree < n) (hp : p ≠ 0) : 4 ≤ p.support.card := by
  have heven := even_card_support hroot hdvd
  have hne : p.support.card ≠ 0 := by
    rw [Ne, Finset.card_eq_zero, support_eq_empty]
    exact hp
  have htwo : p.support.card ≠ 2 := by
    intro h
    obtain ⟨k, d, hd, hle, rfl⟩ := exists_eq_of_card_support_eq_two h
    have hlt : k + d < n := by exact_mod_cast hle.trans_lt hdeg
    -- the generator has no factor `X`, so it divides the other factor
    have hcoprime : IsCoprime G (X ^ k) := by
      apply IsCoprime.pow_right
      apply IsCoprime.symm
      rw [irreducible_X.coprime_iff_not_dvd, X_dvd_iff]
      exact hconst
    exact horder d hd (by omega) (hcoprime.dvd_of_dvd_mul_left hdvd)
  obtain ⟨m, hm⟩ := heven
  omega

/-- The generator divides `X ^ d + 1` exactly when `d` shifts lead from 1 back to 1. -/
theorem generator_dvd_X_pow_add_one_iff (hw : 0 < w) (g : BitVec w) (d : ℕ) :
    generator g ∣ X ^ d + 1 ↔ (shift g)^[d] 1#w = 1#w := by
  have hone : toPoly 1#w = 1 := by
    ext k
    rw [coeff_toPoly, BitVec.getLsbD_one, coeff_one]
    by_cases hk : k = 0 <;> simp [hk, hw]
  have hsub : (X ^ d + 1 : (ZMod 2)[X]) = X ^ d - 1 := (CharTwo.sub_eq_add _ _).symm
  have hiter := mk_toPoly_iterate_shift g d 1#w
  rw [hone, mul_one] at hiter
  rw [hsub, ← AdjoinRoot.mk_eq_mk, ← hiter, ← hone]
  constructor
  · exact eq_of_mk_toPoly_eq g
  · intro h
    rw [h]

end Crc
