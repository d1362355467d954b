import Mathlib.Algebra.CharP.Two
import Mathlib.Algebra.Field.ZMod
import Mathlib.Algebra.Polynomial.Div
import Mathlib.Algebra.Polynomial.Monic
import Mathlib.Data.ZMod.Basic
import Mathlib.RingTheory.AdjoinRoot
import Mathlib.Tactic.LinearCombination
import TelemetryNode.Library.Crc

/-!
# Cyclic redundancy checks as polynomial division

The register of `Crc.shift` read as a polynomial over `𝔽₂`, bit `i` being the coefficient of `Xⁱ`.
One shift is multiplication by `X` modulo the generator with its leading term, so a run over a
message is the division of the message polynomial: every register value is the remainder of what
was shifted in so far.

## Main definitions

* `Crc.toPoly`: a register value as a polynomial.
* `Crc.generator`: the generator with its leading term.
* `Crc.messagePoly`: a message, most significant bit first, as a polynomial.

## Main results

* `Crc.mk_toPoly_shift`: a shift is multiplication by `X` modulo the generator.
* `Crc.toPoly_run`: the register after a message is a remainder modulo the generator.
-/

namespace Crc

open Polynomial

variable {w : ℕ}

/-- A bit as a coefficient. -/
def coefficient (b : Bool) : ZMod 2 := if b then 1 else 0

@[simp]
theorem coefficient_false : coefficient false = 0 := rfl

@[simp]
theorem coefficient_true : coefficient true = 1 := rfl

/-- Exclusive or is addition in characteristic 2. -/
theorem coefficient_xor (a b : Bool) : coefficient (a ^^ b) = coefficient a + coefficient b := by
  cases a <;> cases b <;> rfl

theorem coefficient_injective : Function.Injective coefficient := by
  intro a b h
  cases a <;> cases b
  · rfl
  · exact absurd h (by decide)
  · exact absurd h (by decide)
  · rfl

/-- The polynomial of a register value: bit `i` is the coefficient of `Xⁱ`. -/
noncomputable def toPoly (r : BitVec w) : (ZMod 2)[X] :=
  ∑ i ∈ Finset.range w, C (coefficient (r.getLsbD i)) * X ^ i

@[simp]
theorem coeff_toPoly (r : BitVec w) (k : ℕ) :
    (toPoly r).coeff k = coefficient (r.getLsbD k) := by
  simp only [toPoly, finsetSum_coeff, coeff_C_mul_X_pow, Finset.sum_ite_eq, Finset.mem_range]
  by_cases hk : k < w
  · exact if_pos hk
  · rw [if_neg hk, BitVec.getLsbD_of_ge r k (by omega)]
    rfl

@[simp]
theorem toPoly_zero : toPoly 0#w = 0 := by
  ext k
  simp

theorem toPoly_xor (r s : BitVec w) : toPoly (r ^^^ s) = toPoly r + toPoly s := by
  ext k
  rw [coeff_add, coeff_toPoly, coeff_toPoly, coeff_toPoly, BitVec.getLsbD_xor]
  exact coefficient_xor _ _

theorem toPoly_injective : Function.Injective (toPoly : BitVec w → (ZMod 2)[X]) := by
  intro r s h
  apply BitVec.eq_of_getLsbD_eq
  intro i _
  have hi := congrArg (coeff · i) h
  simp only [coeff_toPoly] at hi
  exact coefficient_injective hi

theorem degree_toPoly_lt (r : BitVec w) : (toPoly r).degree < w := by
  rw [degree_lt_iff_coeff_zero]
  intro k hk
  rw [coeff_toPoly, BitVec.getLsbD_of_ge r k hk]
  rfl

/-- The generator with the leading term that the register leaves out. -/
noncomputable def generator (g : BitVec w) : (ZMod 2)[X] := X ^ w + toPoly g

theorem generator_monic (g : BitVec w) : (generator g).Monic :=
  monic_X_pow_add (degree_toPoly_lt g)

theorem degree_generator (g : BitVec w) : (generator g).degree = w := by
  rw [generator, degree_add_eq_left_of_degree_lt, degree_X_pow]
  rw [degree_X_pow]
  exact degree_toPoly_lt g

variable (g : BitVec w)

/-- Moving up one place multiplies by `X`, without the coefficient that falls out. -/
theorem toPoly_shiftLeft_one (r : BitVec w) :
    toPoly (r <<< 1) = X * toPoly r + C (coefficient r.msb) * X ^ w := by
  rcases Nat.eq_zero_or_pos w with rfl | hw
  · rw [BitVec.eq_nil r]
    simp
  · ext k
    rw [coeff_toPoly, BitVec.getLsbD_shiftLeft, coeff_add, coeff_C_mul_X_pow]
    rcases k with _ | k
    · rw [coeff_X_mul_zero, if_neg (by omega)]
      simp
    · rw [coeff_X_mul, coeff_toPoly]
      rcases Nat.lt_trichotomy (k + 1) w with hlt | heq | hgt
      · rw [if_neg (by omega)]
        simp [hlt]
      -- the top coefficient occurs twice on the right
      · have hmsb : r.msb = r.getLsbD k := by
          rw [BitVec.msb_eq_getLsbD_last, show w - 1 = k by omega]
        rw [if_pos heq, hmsb, CharTwo.add_self_eq_zero]
        simp [heq]
      · rw [if_neg (by omega), BitVec.getLsbD_of_ge r k (by omega)]
        simp [show ¬ k + 1 < w by omega]

/-- A shift multiplies by `X`, and subtracts the generator if a bit falls out. -/
theorem toPoly_shift (r : BitVec w) :
    toPoly (shift g r) = X * toPoly r + C (coefficient r.msb) * generator g := by
  unfold shift
  by_cases hr : r.msb
  · rw [if_pos hr, toPoly_xor, toPoly_shiftLeft_one, generator, hr, coefficient_true, C_1, one_mul,
      one_mul, add_assoc]
  · rw [Bool.not_eq_true] at hr
    rw [hr, if_neg Bool.false_ne_true, toPoly_shiftLeft_one, hr]
    simp

/-- A shift is multiplication by `X` modulo the generator. -/
theorem mk_toPoly_shift (r : BitVec w) :
    AdjoinRoot.mk (generator g) (toPoly (shift g r)) =
      AdjoinRoot.mk (generator g) (X * toPoly r) := by
  rw [toPoly_shift, map_add, map_mul _ (C _), AdjoinRoot.mk_self, mul_zero, add_zero]

theorem mk_toPoly_iterate_shift (n : ℕ) (r : BitVec w) :
    AdjoinRoot.mk (generator g) (toPoly ((shift g)^[n] r)) =
      AdjoinRoot.mk (generator g) (X ^ n * toPoly r) := by
  induction n generalizing r with
  | zero => rw [pow_zero, one_mul, Function.iterate_zero_apply]
  | succ n ih =>
    rw [Function.iterate_succ_apply, ih, map_mul, mk_toPoly_shift, ← map_mul, ← mul_assoc, pow_succ]

/-- A byte mixed into the top of the register. -/
theorem toPoly_top_byte (hw : 8 ≤ w) (b : BitVec 8) :
    toPoly (b.setWidth w <<< (w - 8)) = X ^ (w - 8) * toPoly b := by
  ext k
  rw [coeff_toPoly, coeff_X_pow_mul', BitVec.getLsbD_shiftLeft, BitVec.getLsbD_setWidth]
  by_cases hk : w - 8 ≤ k
  · rw [if_pos hk, coeff_toPoly]
    by_cases hkw : k < w
    · simp [hkw, show ¬ k < w - 8 by omega, show k - (w - 8) < w by omega]
    · rw [BitVec.getLsbD_of_ge b _ (by omega)]
      simp
  · rw [if_neg hk]
    simp [show k < w - 8 by omega]

/-- A message read most significant bit first. -/
noncomputable def messagePoly : List (BitVec 8) → (ZMod 2)[X]
  | [] => 0
  | b :: bs => toPoly b * X ^ (8 * bs.length) + messagePoly bs

@[simp]
theorem messagePoly_nil : messagePoly [] = 0 := rfl

theorem messagePoly_cons (b : BitVec 8) (bs : List (BitVec 8)) :
    messagePoly (b :: bs) = toPoly b * X ^ (8 * bs.length) + messagePoly bs := rfl

/-- The coefficients of a message are those of its bytes, the last byte first. -/
theorem messagePoly_append (as bs : List (BitVec 8)) :
    messagePoly (as ++ bs) = messagePoly as * X ^ (8 * bs.length) + messagePoly bs := by
  induction as with
  | nil => simp
  | cons a as ih =>
    rw [List.cons_append, messagePoly_cons, ih, messagePoly_cons, List.length_append]
    ring

theorem degree_messagePoly_lt (bs : List (BitVec 8)) :
    (messagePoly bs).degree < (8 * bs.length : ℕ) := by
  induction bs with
  | nil => simp
  | cons b bs ih =>
    rw [degree_lt_iff_coeff_zero] at ih ⊢
    intro k hk
    rw [List.length_cons] at hk
    rw [messagePoly_cons, coeff_add, coeff_mul_X_pow', if_pos (by omega), coeff_toPoly,
      BitVec.getLsbD_of_ge b _ (by omega), ih k (by omega)]
    rfl

/-- A byte step multiplies by `X ^ 8` and adds the byte, as the next eight coefficients of the
message. -/
theorem mk_toPoly_feed (hw : 8 ≤ w) (r : BitVec w) (b : BitVec 8) :
    AdjoinRoot.mk (generator g) (toPoly (feed g r b)) =
      AdjoinRoot.mk (generator g) (X ^ 8 * toPoly r + X ^ w * toPoly b) := by
  rw [feed, mk_toPoly_iterate_shift, toPoly_xor, toPoly_top_byte hw, mul_add, ← mul_assoc,
    ← pow_add, Nat.add_sub_cancel' hw]

/-- The register after a message, modulo the generator. -/
theorem mk_toPoly_run (hw : 8 ≤ w) (r : BitVec w) (bs : List (BitVec 8)) :
    AdjoinRoot.mk (generator g) (toPoly (run g r bs)) =
      AdjoinRoot.mk (generator g) (messagePoly bs * X ^ w + toPoly r * X ^ (8 * bs.length)) := by
  induction bs generalizing r with
  | nil => simp
  | cons b bs ih =>
    rw [run_cons, ih, map_add, map_mul _ (toPoly _), mk_toPoly_feed g hw, ← map_mul, ← map_add,
      messagePoly_cons, List.length_cons]
    apply congrArg
    ring

/-- Two register values that agree modulo the generator are equal. -/
theorem eq_of_mk_toPoly_eq {r s : BitVec w}
    (h : AdjoinRoot.mk (generator g) (toPoly r) = AdjoinRoot.mk (generator g) (toPoly s)) :
    r = s := by
  have hdvd : generator g ∣ toPoly r - toPoly s := AdjoinRoot.mk_eq_mk.mp h
  have hdeg : (toPoly r - toPoly s).degree < (generator g).degree := by
    rw [degree_generator]
    exact (degree_sub_le _ _).trans_lt (max_lt (degree_toPoly_lt r) (degree_toPoly_lt s))
  have hzero : toPoly r - toPoly s = 0 := by
    by_contra hne
    exact (generator_monic g).not_dvd_of_degree_lt hne hdeg hdvd
  exact toPoly_injective (sub_eq_zero.mp hzero)

/-- The register after a message is the remainder of the message polynomial and of what the
register held before, moved up by `w` places and by the message's length. -/
theorem toPoly_run (hw : 8 ≤ w) (r : BitVec w) (bs : List (BitVec 8)) :
    toPoly (run g r bs) =
      (messagePoly bs * X ^ w + toPoly r * X ^ (8 * bs.length)) %ₘ generator g := by
  obtain ⟨q, hq⟩ := AdjoinRoot.mk_eq_mk.mp (mk_toPoly_run g hw r bs)
  refine ((div_modByMonic_unique (-q) _ (generator_monic g) ⟨?_, ?_⟩).2).symm
  · linear_combination hq
  · rw [degree_generator]
    exact degree_toPoly_lt _

end Crc
