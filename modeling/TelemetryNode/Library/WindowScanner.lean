import Mathlib.Data.List.Basic
import Mathlib.Data.List.Induction
import Mathlib.Data.List.Range
import Mathlib.Data.List.TakeDrop
import TelemetryNode.Library.Transducer

/-!
# Scanning a stream for fixed-size windows

A window scanner collects inputs as long as they can be the beginning of a window of a fixed size.
A complete window is answered and dropped; a collection that can no longer become a window is
dropped as a whole, and the scanner starts afresh with the next input. In particular a dropped
collection is never searched for the beginning of another window.

## Main definitions

* `WindowScanner.mealy`: the scanner as a machine, whose state is the collection so far.
* `WindowScanner.positions`: the stream positions at which a window starts while the collection is
  empty.

## Main results

* `WindowScanner.exists_start`: the collection is the end of the stream, and was empty where it
  starts.
* `WindowScanner.outputs_eq`: what is emitted are the answers to the windows at `positions`.
* `WindowScanner.positions_pairwise`: those windows do not overlap.
* `WindowScanner.exists_collected_nil`: the scanner starts afresh at least once in a window's
  length.
-/

/-- What a window scanner looks for, and what it answers. -/
structure WindowScanner (ι ω : Type*) where
  /-- The length of a window. -/
  size : ℕ
  /-- A window is not empty. -/
  size_pos : 0 < size
  /-- Whether a collection can still become a window (or is one). -/
  viable : List ι → Bool
  /-- Nothing collected can become a window. -/
  viable_nil : viable [] = true
  /-- What a window begins with can become a window. -/
  viable_of_concat : ∀ {l : List ι} {i : ι}, viable (l ++ [i]) = true → viable l = true
  /-- What is emitted for a complete window. -/
  answer : List ι → List ω

namespace WindowScanner

variable {ι ω : Type*} (W : WindowScanner ι ω)

/-- The scanner as a machine. Its state is the collection so far. -/
def mealy : Mealy (List ι) ι ω where
  next acc i :=
    if W.viable (acc ++ [i]) ∧ (acc ++ [i]).length < W.size then acc ++ [i] else []
  out acc i :=
    if W.viable (acc ++ [i]) ∧ (acc ++ [i]).length = W.size then W.answer (acc ++ [i]) else []

/-- The collection after a stream, starting with nothing collected. -/
def collected (s : List ι) : List ι := W.mealy.state [] s

/-- What is emitted over a stream, starting with nothing collected. -/
def emitted (s : List ι) : List ω := W.mealy.outputs [] s

@[simp]
theorem collected_nil : W.collected [] = [] := rfl

@[simp]
theorem emitted_nil : W.emitted [] = [] := rfl

theorem collected_concat (s : List ι) (i : ι) :
    W.collected (s ++ [i]) = W.mealy.next (W.collected s) i := W.mealy.state_concat [] s i

theorem emitted_concat (s : List ι) (i : ι) :
    W.emitted (s ++ [i]) = W.emitted s ++ W.mealy.out (W.collected s) i :=
  W.mealy.outputs_concat [] s i

/-- Whatever was scanned before an empty collection has no influence on what follows. -/
theorem collected_append_of_nil {s : List ι} (hs : W.collected s = []) (t : List ι) :
    W.collected (s ++ t) = W.collected t := by
  rw [collected, Mealy.state_append]
  exact congrArg (W.mealy.state · t) hs

/-- Whatever was scanned before an empty collection has no influence on what is emitted for what
follows. -/
theorem emitted_append_of_nil {s : List ι} (hs : W.collected s = []) (t : List ι) :
    W.emitted (s ++ t) = W.emitted s ++ W.emitted t := by
  rw [emitted, Mealy.outputs_append]
  exact congrArg (W.mealy.outputs [] s ++ W.mealy.outputs · t) hs

/-- A beginning of something viable is viable. -/
theorem viable_of_append {l t : List ι} (h : W.viable (l ++ t)) : W.viable l := by
  induction t using List.reverseRecOn with
  | nil => simpa using h
  | append_singleton t i ih =>
    rw [← List.append_assoc] at h
    exact ih (W.viable_of_concat h)

/-- An incomplete viable beginning is collected as a whole. -/
theorem collected_of_viable {l : List ι} (h : W.viable l) (hl : l.length < W.size) :
    W.collected l = l := by
  induction l using List.reverseRecOn with
  | nil => rfl
  | append_singleton l i ih =>
    have hlen : l.length < W.size := by
      rw [List.length_append, List.length_singleton] at hl
      omega
    rw [collected_concat, ih (W.viable_of_concat h) hlen]
    exact if_pos ⟨h, hl⟩

/-- The collection is viable and incomplete, it is the end of the stream, and the collection was
empty where it starts. -/
theorem exists_start (s : List ι) :
    W.viable (W.collected s) ∧ (W.collected s).length < W.size ∧
      ∃ t, s = t ++ W.collected s ∧ W.collected t = [] := by
  induction s using List.reverseRecOn with
  | nil => exact ⟨W.viable_nil, W.size_pos, [], rfl, rfl⟩
  | append_singleton s i ih =>
    obtain ⟨-, -, t, hs, ht⟩ := ih
    rw [collected_concat]
    by_cases h : W.viable (W.collected s ++ [i]) ∧ (W.collected s ++ [i]).length < W.size
    -- the collection grows, and starts where it started before
    · have hnext : W.mealy.next (W.collected s) i = W.collected s ++ [i] := if_pos h
      rw [hnext]
      refine ⟨h.1, h.2, t, ?_, ht⟩
      rw [← List.append_assoc, ← hs]
    -- the collection is dropped, and the next one starts after this input
    · have hnext : W.mealy.next (W.collected s) i = [] := if_neg h
      rw [hnext]
      refine ⟨W.viable_nil, W.size_pos, s ++ [i], by simp, ?_⟩
      rw [collected_concat, hnext]

theorem length_collected_lt (s : List ι) : (W.collected s).length < W.size :=
  (W.exists_start s).2.1

theorem length_collected_le (s : List ι) : (W.collected s).length ≤ s.length := by
  obtain ⟨t, hs, -⟩ := (W.exists_start s).2.2
  have hlen := congrArg List.length hs
  rw [List.length_append] at hlen
  omega

/-- One input either drops the collection or joins it. -/
theorem collected_concat_eq (s : List ι) (i : ι) :
    W.collected (s ++ [i]) = [] ∨ W.collected (s ++ [i]) = W.collected s ++ [i] := by
  rw [collected_concat]
  by_cases h : W.viable (W.collected s ++ [i]) ∧ (W.collected s ++ [i]).length < W.size
  · right
    exact if_pos h
  · left
    exact if_neg h

/-- As many inputs as a window has, whatever they are, empty the collection at least once. -/
theorem exists_collected_nil (s : List ι) {t : List ι} (ht : W.size ≤ t.length) :
    ∃ k, 0 < k ∧ k ≤ W.size ∧ W.collected (s ++ t.take k) = [] := by
  by_contra hnone
  -- a collection that is never dropped grows with every input, beyond the window size
  have hgrow : ∀ k ≤ W.size,
      (W.collected (s ++ t.take k)).length = (W.collected s).length + k := by
    intro k
    induction k with
    | zero => simp
    | succ k ih =>
      intro hk
      have hlt : k < t.length := by omega
      rw [List.take_succ_eq_append_getElem hlt, ← List.append_assoc]
      rcases W.collected_concat_eq (s ++ t.take k) t[k] with hdrop | hjoin
      · refine absurd ⟨k + 1, Nat.succ_pos k, hk, ?_⟩ hnone
        rw [List.take_succ_eq_append_getElem hlt, ← List.append_assoc]
        exact hdrop
      · rw [hjoin, List.length_append, ih (by omega), List.length_singleton]
        omega
  have hfull := hgrow W.size le_rfl
  have hlt := W.length_collected_lt (s ++ t.take W.size)
  omega

/-- Inputs with which no window begins are skipped. -/
theorem skipped {s : List ι} (h : ∀ i ∈ s, W.viable [i] = false) :
    W.collected s = [] ∧ W.emitted s = [] := by
  induction s using List.reverseRecOn with
  | nil => exact ⟨rfl, rfl⟩
  | append_singleton s i ih =>
    obtain ⟨hcol, hemit⟩ := ih fun k hk => h k (List.mem_append_left _ hk)
    have hi : W.viable [i] = false := h i (List.mem_append_right _ List.mem_cons_self)
    rw [collected_concat, emitted_concat, hcol, hemit]
    constructor
    · exact if_neg fun hv => by simp [hi] at hv
    · exact if_neg fun hv => by simp [hi] at hv

/-! ## The windows that are answered -/

/-- The `size` inputs from position `j` on (fewer at the end of the stream). -/
def window (s : List ι) (j : ℕ) : List ι := (s.drop j).take W.size

/-- A complete window starts at position `j`. -/
def WindowAt (s : List ι) (j : ℕ) : Prop := j + W.size ≤ s.length ∧ W.viable (W.window s j)

instance (s : List ι) (j : ℕ) : Decidable (W.WindowAt s j) := by
  unfold WindowAt
  infer_instance

/-- The positions where a complete window starts while nothing is collected. -/
def positions (s : List ι) : List ℕ :=
  (List.range (s.length + 1 - W.size)).filter fun j =>
    (W.collected (s.take j)).isEmpty && W.viable (W.window s j)

theorem mem_positions {s : List ι} {j : ℕ} :
    j ∈ W.positions s ↔ W.collected (s.take j) = [] ∧ W.WindowAt s j := by
  simp only [positions, List.mem_filter, List.mem_range, Bool.and_eq_true, List.isEmpty_iff,
    WindowAt]
  have hsize := W.size_pos
  constructor
  · rintro ⟨hj, hc, hv⟩
    exact ⟨hc, by omega, hv⟩
  · rintro ⟨hc, hj, hv⟩
    exact ⟨by omega, hc, hv⟩

/-- A complete window has the window size. -/
theorem length_window {s : List ι} {j : ℕ} (h : j + W.size ≤ s.length) :
    (W.window s j).length = W.size := by
  rw [window, List.length_take, List.length_drop]
  omega

/-- A window that ends within a stream is the same window of every longer stream. -/
theorem window_append {s : List ι} {j : ℕ} (h : j + W.size ≤ s.length) (t : List ι) :
    W.window (s ++ t) j = W.window s j := by
  rw [window, window, List.drop_append_of_le_length (by omega),
    List.take_append_of_le_length (by rw [List.length_drop]; omega)]

/-- The window that the last input completes. -/
theorem window_concat {s : List ι} {i : ι} {j : ℕ} (h : j + W.size = s.length + 1) :
    W.window (s ++ [i]) j = s.drop j ++ [i] := by
  have hsize := W.size_pos
  rw [window, List.drop_append_of_le_length (by omega), List.take_of_length_le]
  rw [List.length_append, List.length_drop, List.length_singleton]
  omega

/-- The last input completes a window of `positions` exactly when the collection with it is
complete and viable. -/
theorem last_mem_positions {s : List ι} {i : ι} {j : ℕ} (hj : j + W.size = s.length + 1) :
    (W.collected (s.take j) = [] ∧ W.viable (W.window (s ++ [i]) j)) ↔
      W.viable (W.collected s ++ [i]) ∧ (W.collected s ++ [i]).length = W.size := by
  have hsize := W.size_pos
  rw [W.window_concat hj]
  constructor
  · -- from `j` on, everything but the last input is collected
    rintro ⟨hc, hv⟩
    have hlen : (s.drop j).length < W.size := by
      rw [List.length_drop]
      omega
    have hcol : W.collected s = s.drop j := by
      conv_lhs => rw [← List.take_append_drop j s]
      rw [W.collected_append_of_nil hc, W.collected_of_viable (W.viable_of_append hv) hlen]
    rw [hcol]
    refine ⟨hv, ?_⟩
    rw [List.length_append, List.length_drop, List.length_singleton]
    omega
  · -- the collection started at a position that its length determines
    rintro ⟨hv, hlen⟩
    obtain ⟨t, hs, ht⟩ := (W.exists_start s).2.2
    rw [List.length_append, List.length_singleton] at hlen
    have hslen := congrArg List.length hs
    rw [List.length_append] at hslen
    obtain rfl : j = t.length := by omega
    have htake : s.take t.length = t := by
      rw [hs]
      exact List.take_left' rfl
    have hdrop : s.drop t.length = W.collected s := by
      conv_lhs => rw [hs]
      exact List.drop_left' rfl
    rw [htake, hdrop]
    exact ⟨ht, hv⟩

/-- One more input adds at most one position, that of the window it completes. -/
theorem positions_concat (s : List ι) (i : ι) :
    W.positions (s ++ [i]) = W.positions s ++
      (if W.viable (W.collected s ++ [i]) ∧ (W.collected s ++ [i]).length = W.size then
        [s.length + 1 - W.size] else []) := by
  have hsize := W.size_pos
  by_cases hlen : W.size ≤ s.length + 1
  · obtain ⟨k, hk⟩ : ∃ k, k + W.size = s.length + 1 := ⟨s.length + 1 - W.size, by omega⟩
    -- whether an earlier position counts was settled before the last input
    have hold : (List.range k).filter (fun j =>
        (W.collected ((s ++ [i]).take j)).isEmpty && W.viable (W.window (s ++ [i]) j)) =
        W.positions s := by
      rw [positions, show s.length + 1 - W.size = k by omega]
      apply List.filter_congr
      intro j hj
      have hjk : j < k := List.mem_range.mp hj
      rw [W.window_append (by omega), List.take_append_of_le_length (by omega)]
    have hrange : List.range ((s ++ [i]).length + 1 - W.size) = List.range k ++ [k] := by
      rw [← List.range_succ]
      congr 1
      rw [List.length_append, List.length_singleton]
      omega
    rw [show W.positions (s ++ [i]) = _ from rfl, positions, hrange, List.filter_append, hold,
      show s.length + 1 - W.size = k by omega]
    congr 1
    have hlast := W.last_mem_positions (i := i) hk
    rw [List.filter_cons, List.filter_nil, List.take_append_of_le_length (by omega)]
    refine if_congr ?_ rfl rfl
    rw [Bool.and_eq_true, List.isEmpty_iff]
    exact hlast
  · -- the stream is still shorter than a window
    have hshort : ¬ (W.viable (W.collected s ++ [i]) ∧
        (W.collected s ++ [i]).length = W.size) := by
      rintro ⟨-, h⟩
      have := W.length_collected_le s
      rw [List.length_append, List.length_singleton] at h
      omega
    rw [if_neg hshort, positions, positions, List.length_append, List.length_singleton,
      show s.length + 1 + 1 - W.size = 0 by omega, show s.length + 1 - W.size = 0 by omega]
    rfl

/-- Everything emitted over a stream: the answers to the windows at `positions`, in order. -/
theorem outputs_eq (s : List ι) :
    W.emitted s = (W.positions s).flatMap fun j => W.answer (W.window s j) := by
  induction s using List.reverseRecOn with
  | nil =>
    have hsize := W.size_pos
    rw [positions, List.length_nil, show 0 + 1 - W.size = 0 by omega]
    rfl
  | append_singleton s i ih =>
    -- the windows of `s` lie within `s`, so the last input does not change them
    have hold : (W.positions s).flatMap (fun j => W.answer (W.window (s ++ [i]) j)) =
        (W.positions s).flatMap fun j => W.answer (W.window s j) := by
      apply List.flatMap_congr
      intro j hj
      rw [W.window_append (W.mem_positions.mp hj).2.1]
    rw [emitted_concat, positions_concat, List.flatMap_append, ih, hold]
    congr 1
    by_cases h : W.viable (W.collected s ++ [i]) ∧ (W.collected s ++ [i]).length = W.size
    -- the last input completes the window that starts where the collection does
    · have hlen := h.2
      rw [List.length_append, List.length_singleton] at hlen
      have hle := W.length_collected_le s
      obtain ⟨t, hs, -⟩ := (W.exists_start s).2.2
      have hslen := congrArg List.length hs
      rw [List.length_append] at hslen
      have hout : W.mealy.out (W.collected s) i = W.answer (W.collected s ++ [i]) := if_pos h
      rw [if_pos h, hout, List.flatMap_singleton, W.window_concat (by omega),
        show s.length + 1 - W.size = t.length by omega]
      conv_rhs => rw [hs]
      rw [List.drop_left' rfl]
    · have hout : W.mealy.out (W.collected s) i = [] := if_neg h
      rw [if_neg h, hout]
      rfl

/-- The windows that are answered come in stream order and do not overlap. -/
theorem positions_pairwise (s : List ι) :
    (W.positions s).Pairwise fun i j => i + W.size ≤ j := by
  have hlt : (W.positions s).Pairwise (· < ·) := List.pairwise_lt_range.filter _
  refine hlt.imp_of_mem fun {i j} hi hj hij => ?_
  obtain ⟨hci, hwi⟩ := W.mem_positions.mp hi
  obtain ⟨hcj, -, -⟩ := W.mem_positions.mp hj
  by_contra hov
  -- between `i` and `j` the collection is a non-empty beginning of the window at `i`
  have hsplit : s.take j = s.take i ++ (W.window s i).take (j - i) := by
    rw [window, List.take_take, Nat.min_eq_left (by omega), ← List.take_add,
      Nat.add_sub_cancel' hij.le]
  have hv : W.viable ((W.window s i).take (j - i)) := by
    refine W.viable_of_append (t := (W.window s i).drop (j - i)) ?_
    rw [List.take_append_drop]
    exact hwi.2
  have hlen : ((W.window s i).take (j - i)).length = j - i := by
    rw [List.length_take, W.length_window hwi.1]
    omega
  rw [hsplit, W.collected_append_of_nil hci, W.collected_of_viable hv (by omega)] at hcj
  rw [hcj] at hlen
  simp at hlen
  omega

/-! ## Consequences for one window after some stream -/

/-- A complete window met with nothing collected is answered, and nothing stays collected. -/
theorem window_answered {w : List ι} (hv : W.viable w) (hlen : w.length = W.size) :
    W.collected w = [] ∧ W.emitted w = W.answer w := by
  have hsize := W.size_pos
  have hwin : W.window w 0 = w := by
    rw [window, List.drop_zero, List.take_of_length_le hlen.le]
  have hpos : W.positions w = [0] := by
    rw [positions, hlen, show W.size + 1 - W.size = 1 by omega, List.range_one]
    simp [hwin, hv]
  refine ⟨?_, by rw [outputs_eq, hpos, List.flatMap_singleton, hwin]⟩
  obtain ⟨l, i, rfl⟩ : ∃ l i, w = l ++ [i] := by
    induction w using List.reverseRecOn with
    | nil => simp at hlen; omega
    | append_singleton l i _ => exact ⟨l, i, rfl⟩
  have hl : l.length < W.size := by
    rw [List.length_append, List.length_singleton] at hlen
    omega
  rw [collected_concat, W.collected_of_viable (W.viable_of_concat hv) hl]
  refine if_neg ?_
  rw [hlen]
  omega

/-- The last input of a window makes the scanner answer it exactly when nothing was collected where
the window starts. -/
theorem out_window (s : List ι) {w : List ι} {i : ι} (hv : W.viable (w ++ [i]))
    (hlen : w.length + 1 = W.size) :
    W.mealy.out (W.collected (s ++ w)) i =
      if W.collected s = [] then W.answer (w ++ [i]) else [] := by
  -- the input completes a window of `positions` exactly when that window starts afresh
  have hlast := W.last_mem_positions (s := s ++ w) (i := i) (j := s.length)
    (by rw [List.length_append]; omega)
  have hwin : W.window (s ++ w ++ [i]) s.length = w ++ [i] := by
    rw [W.window_concat (by rw [List.length_append]; omega), List.drop_left' rfl]
  rw [hwin, List.take_left' rfl, and_iff_left hv] at hlast
  by_cases hs : W.collected s = []
  · have hw : W.collected w = w := W.collected_of_viable (W.viable_of_append hv) (by omega)
    rw [if_pos hs, W.collected_append_of_nil hs, hw]
    exact if_pos ⟨hv, by rw [List.length_append, List.length_singleton, hlen]⟩
  · rw [if_neg hs]
    exact if_neg (mt hlast.mpr hs)

/-- Less than a window emits nothing. -/
theorem emitted_of_length_lt {s : List ι} (h : s.length < W.size) : W.emitted s = [] := by
  rw [outputs_eq, positions, show s.length + 1 - W.size = 0 by omega]
  rfl

end WindowScanner
