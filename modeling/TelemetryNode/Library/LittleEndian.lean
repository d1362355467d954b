import Mathlib.Data.List.Basic
import Mathlib.Data.List.GetD

/-!
# Little-endian byte order

The bytes of a word in memory on a little-endian machine, least significant byte first, and the
word read back from them.

## Main results

* `LittleEndian.decode_encode`: a word is recovered from enough of its bytes.
* `LittleEndian.encode_decode`: bytes that fit into the word are recovered from it.
-/

namespace LittleEndian

variable {w : ℕ}

/-- The `n` low bytes of a word, least significant byte first. -/
def encode (n : ℕ) (x : BitVec w) : List (BitVec 8) :=
  (List.range n).map fun i => (x >>> (8 * i)).setWidth 8

/-- The word whose bytes, least significant byte first, are given. Bytes beyond the width of the
word are dropped. -/
def decode (w : ℕ) : List (BitVec 8) → BitVec w
  | [] => 0#w
  | b :: bs => b.setWidth w ||| (decode w bs <<< 8)

@[simp]
theorem length_encode (n : ℕ) (x : BitVec w) : (encode n x).length = n := by
  simp [encode]

/-- Bit `i` of a word is bit `i % 8` of its byte `i / 8`. -/
theorem getLsbD_decode (l : List (BitVec 8)) (i : ℕ) :
    (decode w l).getLsbD i = (decide (i < w) && (l.getD (i / 8) 0#8).getLsbD (i % 8)) := by
  induction l generalizing i with
  | nil => simp [decode]
  | cons b bs ih =>
    simp only [decode, BitVec.getLsbD_or, BitVec.getLsbD_setWidth, BitVec.getLsbD_shiftLeft]
    by_cases hi : i < 8
    -- the bit is in the first byte, and the shifted rest has no bit there
    · simp [hi, Nat.div_eq_of_lt hi, Nat.mod_eq_of_lt hi]
    -- the bit is in the rest, eight places lower
    · obtain ⟨k, rfl⟩ : ∃ k, i = k + 8 := ⟨i - 8, by omega⟩
      have hb : b.getLsbD (k + 8) = false := BitVec.getLsbD_of_ge _ _ (by omega)
      rw [Nat.add_sub_cancel, ih k, hb, show (k + 8) / 8 = k / 8 + 1 by omega,
        show (k + 8) % 8 = k % 8 by omega, List.getD_cons_succ]
      by_cases hk : k + 8 < w
      · have : k < w := by omega
        simp [hk, this]
      · simp [hk]

/-- A word is recovered from its bytes, if there are enough of them. -/
theorem decode_encode {n : ℕ} (h : w ≤ 8 * n) (x : BitVec w) : decode w (encode n x) = x := by
  apply BitVec.eq_of_getLsbD_eq
  intro i hi
  have hn : i / 8 < n := by omega
  rw [getLsbD_decode, encode, List.getD_eq_getElem _ _ (by simpa using hn), List.getElem_map,
    List.getElem_range, BitVec.getLsbD_setWidth, BitVec.getLsbD_ushiftRight,
    show 8 * (i / 8) + i % 8 = i by omega]
  simp [hi, Nat.mod_lt]

/-- Bytes that fit into a word are recovered from it. -/
theorem encode_decode {l : List (BitVec 8)} (h : 8 * l.length ≤ w) :
    encode l.length (decode w l) = l := by
  apply List.ext_getElem (length_encode _ _)
  intro k hk hl
  simp only [encode, List.getElem_map, List.getElem_range]
  apply BitVec.eq_of_getLsbD_eq
  intro i hi
  rw [BitVec.getLsbD_setWidth, BitVec.getLsbD_ushiftRight, getLsbD_decode,
    show (8 * k + i) / 8 = k by omega, show (8 * k + i) % 8 = i by omega,
    List.getD_eq_getElem _ _ hl]
  have : 8 * k + i < w := by omega
  simp [this, hi]

/-- Decoding is linear over exclusive or. -/
theorem decode_xor {a e : List (BitVec 8)} (h : a.length = e.length) :
    decode w (List.zipWith (· ^^^ ·) a e) = decode w a ^^^ decode w e := by
  apply BitVec.eq_of_getLsbD_eq
  intro i hi
  rw [BitVec.getLsbD_xor, getLsbD_decode, getLsbD_decode, getLsbD_decode, decide_eq_true hi,
    Bool.true_and, Bool.true_and, Bool.true_and, ← BitVec.getLsbD_xor]
  congr 1
  -- byte `i / 8` is in both lists or in neither
  rcases Nat.lt_or_ge (i / 8) a.length with hlt | hge
  · rw [List.getD_eq_getElem _ _ (by rw [List.length_zipWith]; omega), List.getElem_zipWith,
      List.getD_eq_getElem _ _ hlt, List.getD_eq_getElem _ _ (by omega)]
  · rw [List.getD_eq_default _ _ (by rw [List.length_zipWith]; omega), List.getD_eq_default _ _ hge,
      List.getD_eq_default _ _ (by omega), BitVec.xor_self]

end LittleEndian
