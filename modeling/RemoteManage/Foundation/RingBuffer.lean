import Mathlib.Algebra.Order.Ring.Int
import Mathlib.Logic.Function.Basic

/-!
# Queues in a ring of slots

A queue of bounded size is kept in an array that is written and read round and round, with one index
for each and a counter of the free slots. The indices alone do not tell a full ring from an empty one;
the counter does. A slot that has been read is emptied, and what the other slots hold is not
restricted, so that a ring can be declared empty by its counter and its indices alone.
-/

namespace RemoteManage.Foundation

/-- The slots of an array, the number of the free ones and the indices to be written and read next. -/
structure SlotRing (α : Type*) where
  slots : ℤ → Option α
  free : ℤ
  write : ℤ
  read : ℤ

namespace SlotRing

variable {α : Type*} {n : ℤ}

/-- The index behind another one in an array of `n` slots. -/
def next (n i : ℤ) : ℤ := if i + 1 = n then 0 else i + 1

/-- A ring of `n` slots of which none is taken. -/
def cleared (n : ℤ) (slots : ℤ → Option α) : SlotRing α := ⟨slots, n, 0, 0⟩

/-- An item is put into the slot to be written next. -/
def push (n : ℤ) (r : SlotRing α) (x : α) : SlotRing α where
  slots := Function.update r.slots r.write (some x)
  free := r.free - 1
  write := next n r.write
  read := r.read

/-- The slot to be read next is emptied. -/
def pop (n : ℤ) (r : SlotRing α) : SlotRing α where
  slots := Function.update r.slots r.read none
  free := r.free + 1
  write := r.write
  read := next n r.read

/-- The ring holds the items of a queue, the oldest in the slot to be read next. -/
structure Holds (n : ℤ) (r : SlotRing α) (items : List α) : Prop where
  room : items.length ≤ n
  free : r.free = n - items.length
  read_nonneg : 0 ≤ r.read
  read_lt : r.read < n
  write : r.write = (r.read + items.length) % n
  item : ∀ k (hk : k < items.length), r.slots ((r.read + k) % n) = some items[k]

/-- The index behind another one is its successor in the residues. -/
theorem next_eq {i : ℤ} (hi : 0 ≤ i) (hlt : i < n) : next n i = (i + 1) % n := by
  unfold next
  split
  case isTrue hwrap => rw [hwrap, Int.emod_self]
  case isFalse hin => rw [Int.emod_eq_of_lt (by omega) (by omega)]

/-- Different items of a queue that fits lie in different slots. -/
theorem slot_inj {start i j : ℤ} (hi : 0 ≤ i) (hin : i < n) (hj : 0 ≤ j) (hjn : j < n)
    (h : (start + i) % n = (start + j) % n) : i = j := by
  rw [Int.add_comm start, Int.add_comm start, Int.emod_add_cancel_right] at h
  rwa [Int.emod_eq_of_lt hi hin, Int.emod_eq_of_lt hj hjn] at h

/-- A cleared ring holds nothing, whatever is left in its slots. -/
theorem holds_cleared (hn : 0 < n) (slots : ℤ → Option α) : (cleared n slots).Holds n [] where
  room := by rw [List.length_nil]; exact hn.le
  free := by rw [List.length_nil]; exact (Int.sub_zero n).symm
  read_nonneg := Int.le_refl 0
  read_lt := hn
  write := by rw [List.length_nil]; rfl
  item := fun _ hk => nomatch hk

namespace Holds

variable {r : SlotRing α} {items : List α}

/-- The index to be written next is one of the array. -/
theorem write_nonneg (h : r.Holds n items) : 0 ≤ r.write := by
  rw [h.write]
  exact Int.emod_nonneg _ (ne_of_gt (Int.lt_of_le_of_lt h.read_nonneg h.read_lt))

/-- The index to be written next is one of the array. -/
theorem write_lt (h : r.Holds n items) : r.write < n := by
  rw [h.write]
  exact Int.emod_lt_of_pos _ (Int.lt_of_le_of_lt h.read_nonneg h.read_lt)

/-- No slot is free exactly when the queue is as long as the array. -/
theorem free_eq_zero_iff (h : r.Holds n items) : r.free = 0 ↔ (items.length : ℤ) = n := by
  rw [h.free]
  omega

/-- All slots are free exactly when the queue is empty. -/
theorem free_lt_iff (h : r.Holds n items) : r.free < n ↔ items ≠ [] := by
  rw [h.free, ← List.length_pos_iff]
  omega

/-- The slot to be read next holds the oldest item. -/
theorem head {x : α} (h : r.Holds n (x :: items)) : r.slots r.read = some x := by
  have hfirst := h.item 0 (Nat.zero_lt_succ _)
  rwa [Nat.cast_zero, Int.add_zero, Int.emod_eq_of_lt h.read_nonneg h.read_lt] at hfirst

/-- An item that is put into a ring with a free slot is the last of the queue. -/
theorem push (h : r.Holds n items) (hroom : items.length < n) (x : α) :
    (r.push n x).Holds n (items ++ [x]) where
  room := by
    rw [List.length_append, List.length_singleton]
    omega
  free := by
    change r.free - 1 = _
    rw [List.length_append, List.length_singleton, h.free]
    omega
  read_nonneg := h.read_nonneg
  read_lt := h.read_lt
  write := by
    change next n r.write = (r.read + _) % n
    rw [next_eq h.write_nonneg h.write_lt, h.write, Int.emod_add_emod, List.length_append,
      List.length_singleton, Nat.cast_add, Nat.cast_one, Int.add_assoc]
  item := by
    intro k hk
    rw [List.length_append, List.length_singleton] at hk
    simp only [SlotRing.push, h.write]
    rcases Nat.lt_or_eq_of_le (Nat.le_of_lt_succ hk) with hold | rfl
    · have hother : (r.read + k) % n ≠ (r.read + items.length) % n := fun heq => by
        have := slot_inj (by omega) (by omega) (by omega) hroom heq
        omega
      rw [Function.update_of_ne hother, h.item k hold, List.getElem_append_left hold]
    · rw [Function.update_self, List.getElem_concat_length rfl]

/-- With the slot to be read next the oldest item leaves the queue. -/
theorem pop {x : α} (h : r.Holds n (x :: items)) : (r.pop n).Holds n items := by
  have hroom := h.room
  have hfree := h.free
  rw [List.length_cons] at hroom hfree
  have hn : 0 < n := Int.lt_of_le_of_lt h.read_nonneg h.read_lt
  have hnext : (r.pop n).read = (r.read + 1) % n := next_eq h.read_nonneg h.read_lt
  constructor
  case room => omega
  case free =>
    change r.free + 1 = _
    omega
  case read_nonneg =>
    rw [hnext]
    exact Int.emod_nonneg _ (ne_of_gt hn)
  case read_lt =>
    rw [hnext]
    exact Int.emod_lt_of_pos _ hn
  case write =>
    rw [hnext, Int.emod_add_emod, Int.add_assoc, Int.add_comm 1]
    exact h.write
  case item =>
    intro k hk
    have hitem := h.item (k + 1) (Nat.succ_lt_succ hk)
    have hplace : ((r.read + 1) % n + k) % n = (r.read + (k + 1 : ℕ)) % n := by
      rw [Int.emod_add_emod, Int.add_assoc, Int.add_comm 1, Nat.cast_succ]
    have hother : (r.read + (k + 1 : ℕ)) % n ≠ r.read := fun heq => by
      have hzero : (r.read + (k + 1 : ℕ)) % n = (r.read + 0) % n := by
        rw [heq, Int.add_zero, Int.emod_eq_of_lt h.read_nonneg h.read_lt]
      have := slot_inj (by omega) (by omega) (Int.le_refl 0) hn hzero
      omega
    rw [hnext, hplace]
    change Function.update r.slots r.read none _ = _
    rw [Function.update_of_ne hother, hitem, List.getElem_cons_succ]

end Holds

end SlotRing

end RemoteManage.Foundation
