import Mathlib.Data.List.Basic

/-!
# Bounded first-in first-out queues

A queue that copies its items and holds at most `cap` of them. Sending to a full queue and
receiving from an empty one are not possible (`none`); a caller that blocks waits until they are.
-/

/-- A queue of at most `cap` items, oldest first. -/
structure BoundedFifo (α : Type*) (cap : ℕ) where
  /-- The items held, oldest first. -/
  items : List α
  /-- The queue never holds more than its capacity. -/
  length_le : items.length ≤ cap

namespace BoundedFifo

variable {α : Type*} {cap : ℕ}

/-- The queue that holds nothing. -/
def empty : BoundedFifo α cap := ⟨[], Nat.zero_le cap⟩

@[simp]
theorem empty_items : (empty : BoundedFifo α cap).items = [] := rfl

/-- Copy an item to the back, unless the queue is full. -/
def send (q : BoundedFifo α cap) (a : α) : Option (BoundedFifo α cap) :=
  if h : q.items.length < cap then some ⟨q.items ++ [a], by simpa [Nat.succ_le_iff] using h⟩
  else none

/-- Take the item at the front, unless the queue is empty. -/
def receive (q : BoundedFifo α cap) : Option (α × BoundedFifo α cap) :=
  match h : q.items with
  | [] => none
  | a :: rest => some (a, ⟨rest, by have := q.length_le; rw [h, List.length_cons] at this; omega⟩)

/-- A send blocks exactly when the queue holds `cap` items. -/
theorem send_eq_none_iff (q : BoundedFifo α cap) (a : α) :
    q.send a = none ↔ q.items.length = cap := by
  have hle := q.length_le
  unfold send
  split
  -- there is room left
  · simp only [reduceCtorEq, false_iff]
    omega
  -- no room is left, and the queue never holds more than `cap`
  · simp only [true_iff]
    omega

/-- A receive blocks exactly when the queue is empty. -/
theorem receive_eq_none_iff (q : BoundedFifo α cap) : q.receive = none ↔ q.items = [] := by
  unfold receive
  split
  · rename_i hitems
    simp [hitems]
  · rename_i hitems
    simp [hitems]

/-- A send that goes through appends its item. -/
theorem items_of_send {q q' : BoundedFifo α cap} {a : α} (h : q.send a = some q') :
    q'.items = q.items ++ [a] := by
  unfold send at h
  split at h
  · cases h
    rfl
  · cases h

/-- A receive that goes through takes the oldest item. -/
theorem items_of_receive {q q' : BoundedFifo α cap} {a : α} (h : q.receive = some (a, q')) :
    q.items = a :: q'.items := by
  unfold receive at h
  split at h
  · cases h
  · rename_i heq
    cases h
    exact heq

end BoundedFifo
