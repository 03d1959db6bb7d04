import RemoteManage.Foundation.FixedBuffer
import RemoteManage.Foundation.TracedMemory

/-!
# Memory that lies in a buffer

A function gets a pointer into an array and knows no length. It works on the cells from the pointer on, and
what it leaves is put back into the array. An access behind the end of the array raises its mark.
-/

namespace RemoteManage.Foundation.FixedBuffer

variable {α : Type*} [Inhabited α] {n : ℕ}

/-- The cells from `i` on, of which none has been accessed. -/
def memoryFrom (b : FixedBuffer α n) (i : ℕ) : TracedMemory α := .ofCells fun k => b.read (i + k)

/-- The array after a function has worked on the cells from `i` on. -/
def storeFrom (b : FixedBuffer α n) (i : ℕ) (m : TracedMemory α) : FixedBuffer α n where
  cells := .ofFn fun j => if j < i then b.read j else m.cells (j - i)
  overrun := b.overrun || m.accesses.any fun k => n ≤ i + k

section Store

variable (b : FixedBuffer α n) (i : ℕ) (m : TracedMemory α)

/-- The cells from the pointer on are what the function leaves. -/
theorem storeFrom_read_add {k : ℕ} (hroom : i + k < n) : (b.storeFrom i m).read (i + k) = m.cells k := by
  have hbehind : ¬ i + k < i := Nat.not_lt.mpr (Nat.le_add_right i k)
  rw [storeFrom, read, Vector.toList_ofFn, List.getElem?_ofFn, dif_pos hroom]
  refine (if_neg hbehind).trans ?_
  rw [Nat.add_sub_cancel_left]

/-- The mark stays down when every access was inside the array. -/
theorem storeFrom_overrun_iff :
    (b.storeFrom i m).overrun = false ↔ b.overrun = false ∧ ∀ k ∈ m.accesses, i + k < n := by
  rw [storeFrom]
  simp only [Bool.or_eq_false_iff, List.any_eq_false, decide_eq_true_eq, Nat.not_le]

end Store

end RemoteManage.Foundation.FixedBuffer
