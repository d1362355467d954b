import Mathlib.Algebra.BigOperators.Group.Finset.Basic
import Mathlib.Algebra.BigOperators.Intervals
import Mathlib.Data.List.Basic
import Mathlib.Order.Interval.Finset.Nat

/-!
# Circular buffers that are overwritten

A buffer of `N` slots that is written in circular order and never stops: write `k` goes to slot
`k % N`, and overwrites what was there. After any number of writes, a slot holds the latest write
that fell on it, so the slots together hold the latest `N` writes, wherever in a lap the cursor is.

## Main definitions

* `CircularBuffer.write`: one write.
* `CircularBuffer.latest`: the latest of the first `n` writes that fell on a slot.
* `CircularBuffer.Holds`: the buffer after the given writes.

## Main results

* `CircularBuffer.Holds.write`: each write keeps what the buffer holds.
* `CircularBuffer.sum_stride`: the slots of one channel among interleaved ones are the latest writes
  of that channel.
-/

/-- A buffer of `N` slots, and the slot that is written next. -/
structure CircularBuffer (α : Type*) (N : ℕ) where
  /-- The slots. -/
  slots : Vector α N
  /-- The slot written next. -/
  cursor : Fin N

namespace CircularBuffer

variable {α : Type*} {N : ℕ}

/-- A value is written, and the cursor moves on, from the last slot to the first one. -/
def write (b : CircularBuffer α N) (v : α) : CircularBuffer α N where
  slots := b.slots.set b.cursor v
  cursor := ⟨(b.cursor + 1) % N, Nat.mod_lt _ (Nat.zero_lt_of_lt b.cursor.isLt)⟩

/-! ## The latest write of a slot -/

/-- The latest among the writes `0` to `n - 1` that fell on slot `s`, if there is one. -/
def latest (N n s : ℕ) : ℕ := s + N * ((n - 1 - s) / N)

theorem latest_mod {n s : ℕ} (hs : s < N) : latest N n s % N = s := by
  rw [latest, Nat.add_mul_mod_self_left, Nat.mod_eq_of_lt hs]

theorem latest_lt {n s : ℕ} (hsn : s < n) : latest N n s < n := by
  have := Nat.mul_div_le (n - 1 - s) N
  rw [latest]
  omega

theorem le_latest_add {n s : ℕ} (hs : s < N) : n ≤ latest N n s + N := by
  have hdiv := Nat.lt_mul_div_succ (n - 1 - s) (Nat.zero_lt_of_lt hs)
  rw [Nat.mul_add, Nat.mul_one] at hdiv
  rw [latest]
  omega

/-- The latest write of a slot is the only one within the last `N` writes. -/
theorem eq_latest {n s k : ℕ} (hmod : k % N = s) (hkn : k < n) (hnk : n ≤ k + N) :
    k = latest N n s := by
  have hk := Nat.div_add_mod k N
  have hquot : (n - 1 - s) / N = k / N := by
    apply Nat.div_eq_of_lt_le
    · rw [Nat.mul_comm]
      omega
    · rw [Nat.mul_comm, Nat.mul_add, Nat.mul_one]
      omega
  rw [latest, hquot]
  omega

/-- A write is the latest one of the slot it falls on. -/
theorem latest_succ_self (hN : 0 < N) (n : ℕ) : latest N (n + 1) (n % N) = n :=
  (eq_latest rfl (Nat.lt_succ_self n) (by omega)).symm

/-- A write does not change the latest one of the other slots. -/
theorem latest_succ_of_ne {n s : ℕ} (hs : s < N) (hsn : s < n) (hne : s ≠ n % N) :
    latest N (n + 1) s = latest N n s := by
  refine (eq_latest (latest_mod hs) (Nat.lt_succ_of_lt (latest_lt hsn)) ?_).symm
  have hle := le_latest_add (n := n) hs
  -- the latest write of the slot is not exactly one lap ago, since that one fell on another slot
  have hlap : n ≠ latest N n s + N := by
    intro h
    apply hne
    rw [h, Nat.add_mod_right, latest_mod hs]
  omega

/-! ## What the buffer holds -/

/-- The buffer after the writes `xs`: each slot that was written holds its latest write. -/
structure Holds (b : CircularBuffer α N) (xs : List α) : Prop where
  /-- The cursor has made one step for each write. -/
  cursor_eq : b.cursor.val = xs.length % N
  /-- A slot holds its latest write. -/
  slot_eq : ∀ (s : ℕ) (hs : s < N), s < xs.length → xs[latest N xs.length s]? = some b.slots[s]

/-- Before the first write nothing is known of the slots. -/
theorem holds_nil (slots : Vector α N) (hN : 0 < N) : Holds ⟨slots, ⟨0, hN⟩⟩ [] where
  cursor_eq := (Nat.zero_mod N).symm
  slot_eq _ _ h := absurd h (Nat.not_lt_zero _)

/-- One more write. -/
theorem Holds.write {b : CircularBuffer α N} {xs : List α} (h : b.Holds xs) (v : α) :
    (b.write v).Holds (xs ++ [v]) where
  cursor_eq := by
    change (b.cursor.val + 1) % N = _
    rw [h.cursor_eq, List.length_append, List.length_singleton, Nat.mod_add_mod]
  slot_eq s hs hsn := by
    have hcur := h.cursor_eq
    rw [List.length_append, List.length_singleton] at hsn ⊢
    simp only [CircularBuffer.write]
    by_cases hslot : s = xs.length % N
    -- the slot is overwritten
    · subst hslot
      rw [latest_succ_self (Nat.zero_lt_of_lt hs), List.getElem?_concat_length]
      simp [← hcur]
    -- the slot is left alone, and was written before
    · have hold : s < xs.length := by
        rcases Nat.lt_or_eq_of_le (Nat.le_of_lt_succ hsn) with hlt | heq
        · exact hlt
        · exact absurd (by rw [← heq, Nat.mod_eq_of_lt hs]) hslot
      rw [latest_succ_of_ne hs hold hslot, List.getElem?_append_left (latest_lt hold),
        h.slot_eq s hs hold, Vector.getElem_set_ne]
      omega

/-! ## Interleaved channels -/

/-- The latest `N` of `n` writes that belong to channel `c`, when the writes go through the channels
in turn. -/
def recent (N channels n c : ℕ) : Finset ℕ :=
  (Finset.Ico (n - N) n).filter fun k => k % channels = c

theorem mem_recent {channels n c k : ℕ} (hn : N ≤ n) :
    k ∈ recent N channels n c ↔ k < n ∧ n ≤ k + N ∧ k % channels = c := by
  rw [recent, Finset.mem_filter, Finset.mem_Ico]
  omega

variable {channels depth n c : ℕ}

/-- The slots of one channel lie within the buffer. -/
theorem stride_lt (hc : c < channels) {i : ℕ} (hi : i < depth) :
    i * channels + c < channels * depth := by
  have hle : (i + 1) * channels ≤ depth * channels := Nat.mul_le_mul_right _ hi
  rw [Nat.add_mul, Nat.one_mul, Nat.mul_comm depth] at hle
  omega

/-- The slots of one channel, in the order of a strided loop, hold the latest writes of the channel,
each of them once. -/
theorem sum_stride {M : Type*} [AddCommMonoid M] (hc : c < channels) (hn : channels * depth ≤ n)
    (f : ℕ → M) :
    ∑ i ∈ Finset.range depth, f (latest (channels * depth) n (i * channels + c)) =
      ∑ k ∈ recent (channels * depth) channels n c, f k := by
  have hchan : 0 < channels := Nat.zero_lt_of_lt hc
  apply Finset.sum_nbij' (fun i => latest (channels * depth) n (i * channels + c))
    (fun k => k % (channels * depth) / channels)
  · intro i hi
    have hs := stride_lt hc (Finset.mem_range.mp hi)
    rw [mem_recent hn]
    refine ⟨latest_lt (hs.trans_le hn), le_latest_add hs, ?_⟩
    rw [← Nat.mod_mul_right_mod _ channels depth, latest_mod hs, Nat.mul_add_mod',
      Nat.mod_eq_of_lt hc]
  · intro k hk
    rw [Finset.mem_range]
    apply Nat.div_lt_of_lt_mul
    apply Nat.mod_lt
    rcases Nat.eq_zero_or_pos (channels * depth) with hzero | hpos
    · rw [mem_recent hn, hzero] at hk
      omega
    · exact hpos
  · intro i hi
    have hs := stride_lt hc (Finset.mem_range.mp hi)
    rw [latest_mod hs, Nat.mul_comm, Nat.mul_add_div hchan, Nat.div_eq_of_lt hc, Nat.add_zero]
  · intro k hk
    obtain ⟨hkn, hnk, hmod⟩ := (mem_recent hn).mp hk
    refine (eq_latest ?_ hkn hnk).symm
    have hchannel : k % (channels * depth) % channels = c := by
      rw [Nat.mod_mul_right_mod, hmod]
    conv_lhs => rw [← Nat.div_add_mod (k % (channels * depth)) channels, hchannel]
    rw [Nat.mul_comm]
  · intro i _
    rfl

/-- A channel has as many recent writes as slots. -/
theorem card_recent (hc : c < channels) (hn : channels * depth ≤ n) :
    (recent (channels * depth) channels n c).card = depth := by
  have hsum := sum_stride hc hn fun _ => 1
  rw [← Finset.card_eq_sum_ones, ← Finset.card_eq_sum_ones, Finset.card_range] at hsum
  exact hsum.symm

end CircularBuffer
