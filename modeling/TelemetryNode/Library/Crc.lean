import Mathlib.Data.List.Basic
import Mathlib.Data.List.Induction
import Mathlib.Logic.Function.Iterate

/-!
# Cyclic redundancy checks as shift registers

The most-significant-bit-first CRC register of any width `w` with any generator `g` (given
without its leading term): each shift moves the register up one place and folds a bit that falls
out back in. Shifting is linear over exclusive or, so the difference between the registers of two
messages depends on the difference of the messages alone, and it is injective as soon as the
generator has a constant term, so a difference never fades away.

## Main definitions

* `Crc.shift`, `Crc.feed` and `Crc.run`: the register after one shift, one byte, a list of bytes.
* `Crc.xorBytes`: the bytewise exclusive or of two messages.

## Main results

* `Crc.run_xor`: linearity of the register in its initial value and the message.
* `Crc.shift_injective`: a shift loses nothing.
* `Crc.run_zeros_injective`: neither does a run over zero bytes.
-/

namespace Crc

variable {w : ℕ} (g : BitVec w)

/-- One shift of the register, most significant bit first. -/
def shift (r : BitVec w) : BitVec w := if r.msb then (r <<< 1) ^^^ g else r <<< 1

/-- A byte is mixed into the top of the register, and shifted through. -/
def feed (r : BitVec w) (b : BitVec 8) : BitVec w :=
  (shift g)^[8] (r ^^^ (b.setWidth w <<< (w - 8)))

/-- The register after a list of bytes. -/
def run (r : BitVec w) (bs : List (BitVec 8)) : BitVec w := bs.foldl (feed g) r

/-- The bytewise exclusive or of two messages. -/
def xorBytes (a e : List (BitVec 8)) : List (BitVec 8) := List.zipWith (· ^^^ ·) a e

@[simp]
theorem run_nil (r : BitVec w) : run g r [] = r := rfl

@[simp]
theorem run_cons (r : BitVec w) (b : BitVec 8) (bs : List (BitVec 8)) :
    run g r (b :: bs) = run g (feed g r b) bs := rfl

theorem run_append (r : BitVec w) (as bs : List (BitVec 8)) :
    run g r (as ++ bs) = run g (run g r as) bs := List.foldl_append

/-- Exclusive or with a value is undone by doing it again. -/
theorem xor_xor_cancel (a b c : BitVec w) : (a ^^^ c) ^^^ (b ^^^ c) = a ^^^ b := by
  rw [BitVec.xor_assoc, BitVec.xor_comm b c, ← BitVec.xor_assoc c c b, BitVec.xor_self,
    BitVec.zero_xor]

/-- Four values are exclusive-ored in either order of the middle two. -/
theorem xor_xor_xor_comm (a b c d : BitVec w) :
    (a ^^^ b) ^^^ (c ^^^ d) = (a ^^^ c) ^^^ (b ^^^ d) := by
  rw [BitVec.xor_assoc, ← BitVec.xor_assoc b, BitVec.xor_comm b c, BitVec.xor_assoc c,
    ← BitVec.xor_assoc]

/-- The difference of two messages, added to the first, gives the second. -/
theorem xorBytes_xorBytes {a b : List (BitVec 8)} (h : a.length = b.length) :
    xorBytes a (xorBytes a b) = b := by
  apply List.ext_getElem
  · rw [xorBytes, xorBytes, List.length_zipWith, List.length_zipWith, h]
    simp
  · intro k _ _
    simp only [xorBytes, List.getElem_zipWith]
    rw [← BitVec.xor_assoc, BitVec.xor_self, BitVec.zero_xor]

/-- A shift is linear. -/
theorem shift_xor (r s : BitVec w) : shift g (r ^^^ s) = shift g r ^^^ shift g s := by
  unfold shift
  rw [BitVec.msb_xor, BitVec.shiftLeft_xor_distrib]
  -- which of the three shifts fold the generator in; if both of the right-hand side do, it cancels
  cases hr : r.msb <;> cases hs : s.msb
  · simp
  · simp [BitVec.xor_assoc]
  · simp only [Bool.xor_false, ↓reduceIte, Bool.false_eq_true]
    rw [BitVec.xor_assoc, BitVec.xor_comm (s <<< 1) g, ← BitVec.xor_assoc]
  · simp [xor_xor_cancel]

/-- Several shifts are linear. -/
theorem iterate_shift_xor (n : ℕ) (r s : BitVec w) :
    (shift g)^[n] (r ^^^ s) = (shift g)^[n] r ^^^ (shift g)^[n] s := by
  induction n generalizing r s with
  | zero => rfl
  | succ n ih => rw [Function.iterate_succ_apply, shift_xor, ih]; rfl

/-- A byte step is linear. -/
theorem feed_xor (r s : BitVec w) (a e : BitVec 8) :
    feed g (r ^^^ s) (a ^^^ e) = feed g r a ^^^ feed g s e := by
  rw [feed, feed, feed, ← iterate_shift_xor, BitVec.setWidth_xor, BitVec.shiftLeft_xor_distrib,
    xor_xor_xor_comm]

/-- The register is linear in its initial value and the message. -/
theorem run_xor (r s : BitVec w) {a e : List (BitVec 8)} (h : a.length = e.length) :
    run g (r ^^^ s) (xorBytes a e) = run g r a ^^^ run g s e := by
  induction a generalizing r s e with
  | nil =>
    cases e with
    | nil => rfl
    | cons _ _ => simp at h
  | cons x a ih =>
    cases e with
    | nil => simp at h
    | cons y e =>
      rw [xorBytes, List.zipWith_cons_cons, run_cons, run_cons, run_cons, feed_xor]
      exact ih _ _ (by simpa using h)

/-- An all-zero register is left as it is. -/
@[simp]
theorem shift_zero : shift g 0#w = 0#w := by
  unfold shift
  rw [if_neg (by simp)]
  simp

@[simp]
theorem iterate_shift_zero (n : ℕ) : (shift g)^[n] 0#w = 0#w :=
  Function.iterate_fixed (shift_zero g) n

@[simp]
theorem feed_zero : feed g 0#w 0#8 = 0#w := by
  rw [feed]
  simp

/-- Zero bytes leave an all-zero register as it is. -/
@[simp]
theorem run_zeros (n : ℕ) : run g 0#w (List.replicate n 0#8) = 0#w := by
  induction n with
  | zero => rfl
  | succ n ih => rw [List.replicate_succ, run_cons, feed_zero, ih]

/-- As long as no bit falls out, the register only moves up. -/
theorem iterate_shift_of_low (n : ℕ) {r : BitVec w} (h : ∀ i, w ≤ i + n → r.getLsbD i = false) :
    (shift g)^[n] r = r <<< n := by
  induction n generalizing r with
  | zero => simp
  | succ n ih =>
    have hmsb : r.msb = false := by
      rw [BitVec.msb_eq_getLsbD_last]
      exact h _ (by omega)
    rw [Function.iterate_succ_apply, shift, hmsb, if_neg Bool.false_ne_true, ih,
      ← BitVec.shiftLeft_add, Nat.add_comm]
    intro i hi
    rw [BitVec.getLsbD_shiftLeft, h (i - 1) (by omega), Bool.and_false]

variable {g}

/-- If the generator has a constant term, only the all-zero register shifts to zero. -/
theorem eq_zero_of_shift_eq_zero (hg : g.getLsbD 0 = true) {r : BitVec w}
    (h : shift g r = 0#w) : r = 0#w := by
  have hbit : ∀ i, (shift g r).getLsbD i = false := by
    intro i
    rw [h]
    simp
  unfold shift at hbit
  by_cases hr : r.msb
  · -- a bit that falls out would leave the constant term of the generator behind
    have h0 := hbit 0
    rw [if_pos hr, BitVec.getLsbD_xor, hg] at h0
    simp at h0
  · -- no bit falls out: every bit but the top one is the next bit of the shifted register
    rw [if_neg hr] at hbit
    apply BitVec.eq_of_getLsbD_eq
    intro i hi
    rw [BitVec.getLsbD_zero]
    by_cases hlast : i + 1 < w
    · have hnext := hbit (i + 1)
      rw [BitVec.getLsbD_shiftLeft] at hnext
      simpa [hlast] using hnext
    · have hmsb : r.msb = r.getLsbD i := by
        rw [BitVec.msb_eq_getLsbD_last, show w - 1 = i by omega]
      rw [← hmsb]
      simpa using hr

/-- If the generator has a constant term, a shift is injective. -/
theorem shift_injective (hg : g.getLsbD 0 = true) : Function.Injective (shift g) := by
  intro r s h
  -- by linearity it is enough that the difference is zero
  have hzero : shift g (r ^^^ s) = 0#w := by rw [shift_xor, h, BitVec.xor_self]
  have hxor := eq_zero_of_shift_eq_zero hg hzero
  rw [← BitVec.xor_left_inj s, hxor, BitVec.xor_self]

theorem iterate_shift_injective (hg : g.getLsbD 0 = true) (n : ℕ) :
    Function.Injective (shift g)^[n] := (shift_injective hg).iterate n

/-- If the generator has a constant term, a difference in the register survives any number of
zero bytes. -/
theorem run_zeros_injective (hg : g.getLsbD 0 = true) (n : ℕ) :
    Function.Injective fun r => run g r (List.replicate n 0#8) := by
  induction n with
  | zero => exact fun _ _ h => h
  | succ n ih =>
    intro r s h
    -- the registers agree after the first zero byte, which is mixed into both alike
    have hfeed : feed g r 0#8 = feed g s 0#8 := ih h
    exact (BitVec.xor_left_inj _).mp (iterate_shift_injective hg 8 hfeed)

end Crc
