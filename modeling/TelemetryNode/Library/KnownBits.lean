import Mathlib.Data.Nat.Notation

/-!
# Known bits

What is known of the bits of a word: some are clear, some are set, and nothing is known of the
others. This is the abstract domain for programs that clear and set bits in words which something
else changes as well.

## Main definitions

* `KnownBits`: the bits known to be clear and those known to be set.
* `KnownBits.Contains`: the words of which this is true.
* `KnownBits.Knows`: the bits under a mask are known.
* `KnownBits.Drifts`: what changes in a word that something else writes.

## Main results

* `KnownBits.Contains.modify`, `KnownBits.Contains.learn`: what is known after bits are cleared and
  set, and after bits have been seen.
* `KnownBits.contains_release_of_drift`: what is still known when the word drifts.
* `KnownBits.Knows.eq`: known bits have their value.
-/

/-- What is known of a word. -/
structure KnownBits (w : ℕ) where
  /-- The bits that are clear. -/
  zeros : BitVec w
  /-- The bits that are set. -/
  ones : BitVec w

namespace KnownBits

variable {w : ℕ} {k : KnownBits w} {x y mask value rising falling : BitVec w}

/-- The words of which this is true. -/
def Contains (k : KnownBits w) (x : BitVec w) : Prop :=
  ∀ i (hi : i < w), (k.zeros[i] = true → x[i] = false) ∧ (k.ones[i] = true → x[i] = true)

/-- The bits of `x` are bits of `y`. -/
def Within (x y : BitVec w) : Prop := x &&& ~~~y = 0#w

instance : DecidableRel (@Within w) := fun x y => inferInstanceAs (Decidable (x &&& ~~~y = 0#w))

theorem within_iff : Within x y ↔ ∀ i (hi : i < w), x[i] = true → y[i] = true := by
  constructor
  · intro h i hi hx
    have hbit := congrArg (·[i]) h
    simpa [hx] using hbit
  · intro h
    refine BitVec.eq_of_getElem_eq fun i hi => ?_
    have hbit := h i hi
    cases hx : x[i] <;> simp_all

/-- Nothing is known. -/
def unknown : KnownBits w := ⟨0#w, 0#w⟩

theorem contains_unknown (x : BitVec w) : (unknown : KnownBits w).Contains x := by
  intro i hi
  simp [unknown]

/-! ## Clearing and setting bits -/

/-- Some bits are cleared, and then some are set. -/
def modify (k : KnownBits w) (clear set : BitVec w) : KnownBits w :=
  ⟨(k.zeros ||| clear) &&& ~~~set, (k.ones &&& ~~~clear) ||| set⟩

theorem Contains.modify (h : k.Contains x) (clear set : BitVec w) :
    (k.modify clear set).Contains ((x &&& ~~~clear) ||| set) := by
  intro i hi
  obtain ⟨hzero, hone⟩ := h i hi
  cases hset : set[i]
  · cases hclear : clear[i]
    · simpa [KnownBits.modify, hset, hclear] using ⟨hzero, hone⟩
    · simp [KnownBits.modify, hset, hclear]
  · simp [KnownBits.modify, hset]

/-! ## Seeing bits -/

/-- The bits under the mask have been seen. -/
def learn (k : KnownBits w) (mask value : BitVec w) : KnownBits w :=
  ⟨k.zeros ||| (mask &&& ~~~value), k.ones ||| (mask &&& value)⟩

theorem Contains.learn (h : k.Contains x) (hx : x &&& mask = value) :
    (k.learn mask value).Contains x := by
  intro i hi
  obtain ⟨hzero, hone⟩ := h i hi
  subst hx
  cases hbit : x[i] <;> simp_all [KnownBits.learn]

/-- The bits under the mask are known. -/
def Knows (k : KnownBits w) (mask value : BitVec w) : Prop :=
  Within value mask ∧ Within (mask &&& ~~~value) k.zeros ∧ Within value k.ones

instance : Decidable (k.Knows mask value) :=
  inferInstanceAs (Decidable (_ ∧ _ ∧ _))

theorem Knows.eq (hk : k.Knows mask value) (h : k.Contains x) : x &&& mask = value := by
  obtain ⟨hvalue, hclear, hset⟩ := hk
  refine BitVec.eq_of_getElem_eq fun i hi => ?_
  obtain ⟨hzero, hone⟩ := h i hi
  have hvalue := within_iff.mp hvalue i hi
  have hclear := within_iff.mp hclear i hi
  have hset := within_iff.mp hset i hi
  rw [BitVec.getElem_and]
  cases hv : value[i]
  · cases hm : mask[i]
    · exact Bool.and_false _
    · rw [hzero (hclear (by simp [hm, hv])), Bool.false_and]
  · rw [hone (hset hv), hvalue hv, Bool.and_self]

/-! ## Drift -/

/-- Only bits of `rising` become set from `x` to `y`, and only bits of `falling` become clear. -/
def Drifts (rising falling x y : BitVec w) : Prop :=
  Within (y &&& ~~~x) rising ∧ Within (x &&& ~~~y) falling

instance : Decidable (Drifts rising falling x y) :=
  inferInstanceAs (Decidable (_ ∧ _))

/-- What is known in spite of the drift. -/
def release (k : KnownBits w) (rising falling : BitVec w) : KnownBits w :=
  ⟨k.zeros &&& ~~~rising, k.ones &&& ~~~falling⟩

theorem Contains.release (h : k.Contains x) (rising falling : BitVec w) :
    (k.release rising falling).Contains x := by
  intro i hi
  obtain ⟨hzero, hone⟩ := h i hi
  constructor
  · intro hbit
    exact hzero (by simp_all [KnownBits.release])
  · intro hbit
    exact hone (by simp_all [KnownBits.release])

theorem contains_release_of_drift (h : (k.release rising falling).Contains x)
    (hdrift : Drifts rising falling x y) : (k.release rising falling).Contains y := by
  intro i hi
  obtain ⟨hzero, hone⟩ := h i hi
  have hrising := within_iff.mp hdrift.1 i hi
  have hfalling := within_iff.mp hdrift.2 i hi
  constructor
  · intro hbit
    have hx := hzero hbit
    cases hy : y[i]
    · rfl
    · have hmay := hrising (by simp [hx, hy])
      simp [KnownBits.release, hmay] at hbit
  · intro hbit
    have hx := hone hbit
    cases hy : y[i]
    · have hmay := hfalling (by simp [hx, hy])
      simp [KnownBits.release, hmay] at hbit
    · rfl

end KnownBits
