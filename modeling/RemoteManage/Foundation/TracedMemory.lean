import Mathlib.Logic.Function.Basic
import RemoteManage.Foundation.WordBytes

/-!
# Memory that records its accesses

An array that is reached through a pointer has no length of its own. The cells from the pointer on are given
for every index, and the indices that are read or written are recorded, so that a bound on the
accesses is a statement about the record.

A memory of bytes is also a sequence of bits, the least significant one of a byte first. Two neighbouring
bytes as a little-endian word are the sixteen bits from the first of them on.
-/

namespace RemoteManage.Foundation

variable {α : Type*}

/-- The cells from a pointer on, with the indices accessed so far, the latest first. -/
structure TracedMemory (α : Type*) where
  cells : ℕ → α
  accesses : List ℕ

namespace TracedMemory

/-- Cells of which none has been accessed. -/
def ofCells (cells : ℕ → α) : TracedMemory α := ⟨cells, []⟩

/-- `memory[i]`. -/
def read (m : TracedMemory α) (i : ℕ) : α × TracedMemory α := (m.cells i, ⟨m.cells, i :: m.accesses⟩)

/-- `memory[i] = x`. -/
def write (m : TracedMemory α) (i : ℕ) (x : α) : TracedMemory α :=
  ⟨Function.update m.cells i x, i :: m.accesses⟩

@[simp] theorem read_value (m : TracedMemory α) (i : ℕ) : (m.read i).1 = m.cells i := rfl

@[simp] theorem read_cells (m : TracedMemory α) (i : ℕ) : (m.read i).2.cells = m.cells := rfl

@[simp] theorem read_accesses (m : TracedMemory α) (i : ℕ) : (m.read i).2.accesses = i :: m.accesses := rfl

@[simp] theorem write_cells (m : TracedMemory α) (i : ℕ) (x : α) :
    (m.write i x).cells = Function.update m.cells i x := rfl

@[simp] theorem write_accesses (m : TracedMemory α) (i : ℕ) (x : α) :
    (m.write i x).accesses = i :: m.accesses := rfl

/-- Copy `xs` to the cells from `i` on, as `memcpy(&memory[i], xs, length)` does. -/
def writeAll (m : TracedMemory α) (i : ℕ) : List α → TracedMemory α
  | [] => m
  | x :: xs => (m.write i x).writeAll (i + 1) xs

/-- `&memory[i]`: the cells from `i` on, as a function that gets this pointer sees them. -/
def cellsFrom (m : TracedMemory α) (i : ℕ) : TracedMemory α := ofCells fun k => m.cells (i + k)

/-- The memory after what a function has done through a pointer to cell `i`. -/
def replaceFrom (m : TracedMemory α) (i : ℕ) (part : TracedMemory α) : TracedMemory α :=
  ⟨fun k => if k < i then m.cells k else part.cells (k - i), part.accesses.map (i + ·) ++ m.accesses⟩

@[simp] theorem cellsFrom_cells (m : TracedMemory α) (i k : ℕ) :
    (m.cellsFrom i).cells k = m.cells (i + k) := rfl

@[simp] theorem cellsFrom_accesses (m : TracedMemory α) (i : ℕ) : (m.cellsFrom i).accesses = [] := rfl

/-- Before the pointer nothing has changed. -/
theorem replaceFrom_of_lt (m part : TracedMemory α) {i k : ℕ} (h : k < i) :
    (m.replaceFrom i part).cells k = m.cells k := if_pos h

/-- From the pointer on the memory is what the function has left. -/
@[simp] theorem replaceFrom_add (m part : TracedMemory α) (i k : ℕ) :
    (m.replaceFrom i part).cells (i + k) = part.cells k := by
  rw [replaceFrom]
  dsimp only
  rw [if_neg (by omega), Nat.add_sub_cancel_left]

/-- A function that leaves its cells as they are changes nothing. -/
theorem replaceFrom_cells_of_eq (m : TracedMemory α) {i : ℕ} {part : TracedMemory α}
    (h : part.cells = (m.cellsFrom i).cells) : (m.replaceFrom i part).cells = m.cells := by
  funext k
  rw [replaceFrom, h]
  dsimp only
  split
  · rfl
  · rw [cellsFrom_cells, Nat.add_sub_cancel' (by omega)]

/-- The accesses through a pointer are those of the memory behind it. -/
theorem mem_replaceFrom_accesses (m part : TracedMemory α) (i k : ℕ) :
    k ∈ (m.replaceFrom i part).accesses ↔ (∃ j ∈ part.accesses, i + j = k) ∨ k ∈ m.accesses := by
  rw [replaceFrom, List.mem_append, List.mem_map]

/-- Cells that have been copied are found where they were put, and nothing else has changed. -/
theorem writeAll_cells (m : TracedMemory α) (i : ℕ) (xs : List α) (k : ℕ) :
    (m.writeAll i xs).cells k = if i ≤ k then xs.getD (k - i) (m.cells k) else m.cells k := by
  induction xs generalizing m i with
  | nil => simp [writeAll]
  | cons x xs ih =>
    rw [writeAll, ih, write_cells]
    by_cases hbehind : i + 1 ≤ k
    · obtain ⟨j, rfl⟩ : ∃ j, k = i + 1 + j := ⟨k - (i + 1), by omega⟩
      have hnext : i + 1 + j - i = j + 1 := by omega
      have hne : i + 1 + j ≠ i := by omega
      rw [if_pos hbehind, if_pos (by omega), Function.update_of_ne hne, hnext, List.getD_cons_succ,
        Nat.add_sub_cancel_left]
    · rw [if_neg hbehind]
      by_cases hthis : k = i
      · subst hthis
        rw [Function.update_self, if_pos (le_refl k), Nat.sub_self, List.getD_cons_zero]
      · rw [Function.update_of_ne hthis, if_neg (by omega)]

/-- The cells to which something is copied. -/
theorem mem_writeAll_accesses (m : TracedMemory α) (i : ℕ) (xs : List α) (k : ℕ) :
    k ∈ (m.writeAll i xs).accesses ↔ (i ≤ k ∧ k < i + xs.length) ∨ k ∈ m.accesses := by
  induction xs generalizing m i with
  | nil => simp [writeAll]
  | cons x xs ih =>
    rw [writeAll, ih, write_accesses, List.mem_cons, List.length_cons]
    grind

end TracedMemory

/-- Bit `i` of a memory of bytes, the least significant bit of a byte first. -/
def bitAt (cells : ℕ → UInt8) (i : ℕ) : Bool := (cells (i / 8)).toNat.testBit (i % 8)

/-- The little-endian word in the bytes `k` and `k + 1`. -/
def wordAt (cells : ℕ → UInt8) (k : ℕ) : UInt16 := joinBytes (cells (k + 1)) (cells k)

/-- The bits of a byte are eight bits of the memory. -/
theorem testBit_cell (cells : ℕ → UInt8) (k : ℕ) {j : ℕ} (hj : j < 8) :
    (cells k).toNat.testBit j = bitAt cells (8 * k + j) := by
  have hdiv : (8 * k + j) / 8 = k := by omega
  have hmod : (8 * k + j) % 8 = j := by omega
  rw [bitAt, hdiv, hmod]

/-- A byte has no bits above the eighth. -/
theorem testBit_byte_of_le (x : UInt8) {j : ℕ} (hj : 8 ≤ j) : x.toNat.testBit j = false :=
  Nat.testBit_lt_two_pow (lt_of_lt_of_le x.toNat_lt (Nat.pow_le_pow_right (by decide) hj))

/-- Bytes with the same bits are the same. -/
theorem byte_eq_of_testBit {x y : UInt8} (h : ∀ j < 8, x.toNat.testBit j = y.toNat.testBit j) : x = y := by
  apply UInt8.toNat_inj.mp
  apply Nat.eq_of_testBit_eq
  intro j
  by_cases hj : j < 8
  · exact h j hj
  · rw [testBit_byte_of_le x (Nat.le_of_not_lt hj), testBit_byte_of_le y (Nat.le_of_not_lt hj)]

/-- Cells with the same bits are the same. -/
theorem cell_eq_of_bitAt {a b : ℕ → UInt8} {k : ℕ} (h : ∀ j < 8, bitAt a (8 * k + j) = bitAt b (8 * k + j)) :
    a k = b k := byte_eq_of_testBit fun j hj => by
  rw [testBit_cell a k hj, testBit_cell b k hj]
  exact h j hj

/-- The bits of a joined word are those of its low byte and then those of its high byte. -/
theorem testBit_joinBytes (hi lo : UInt8) (j : ℕ) :
    (joinBytes hi lo).toNat.testBit j = if j < 8 then lo.toNat.testBit j else hi.toNat.testBit (j - 8) := by
  rw [joinBytes_toNat]
  exact Nat.testBit_two_pow_mul_add hi.toNat lo.toNat_lt j

/-- The bits of a word are sixteen bits of the memory. -/
theorem testBit_wordAt (cells : ℕ → UInt8) (k : ℕ) {j : ℕ} (hj : j < 16) :
    (wordAt cells k).toNat.testBit j = bitAt cells (8 * k + j) := by
  rw [wordAt, testBit_joinBytes]
  split
  case isTrue hlow => exact testBit_cell cells k hlow
  case isFalse hhigh =>
    rw [testBit_cell cells (k + 1) (by omega)]
    congr 1
    omega

/-- The bits of a word that is shifted up by less than its width. -/
theorem testBit_shiftLeft_word (x y : UInt16) (hy : y.toNat < 16) {j : ℕ} (hj : j < 16) :
    (x <<< y).toNat.testBit j = (decide (y.toNat ≤ j) && x.toNat.testBit (j - y.toNat)) := by
  rw [UInt16.toNat_shiftLeft, Nat.mod_eq_of_lt hy, Nat.testBit_mod_two_pow, Nat.testBit_shiftLeft,
    decide_eq_true hj, Bool.true_and]

/-- The bits of a word that is shifted down by less than its width. -/
theorem testBit_shiftRight_word (x y : UInt16) (hy : y.toNat < 16) (j : ℕ) :
    (x >>> y).toNat.testBit j = x.toNat.testBit (y.toNat + j) := by
  rw [UInt16.toNat_shiftRight, Nat.mod_eq_of_lt hy, Nat.testBit_shiftRight]

/-- The bits of the complement of a word. -/
theorem testBit_not_word (x : UInt16) {j : ℕ} (hj : j < 16) :
    (~~~x).toNat.testBit j = !x.toNat.testBit j := by
  have hbit := BitVec.getLsbD_not (x := x.toBitVec) (i := j)
  rw [decide_eq_true hj, Bool.true_and] at hbit
  exact hbit

/-- The bits of the low byte. -/
theorem testBit_lowByte (x : UInt16) {j : ℕ} (hj : j < 8) :
    (lowByte x).toNat.testBit j = x.toNat.testBit j := by
  have h := testBit_joinBytes (highByte x) (lowByte x) j
  rwa [joinBytes_highByte_lowByte, if_pos hj, eq_comm] at h

/-- The bits of the high byte. -/
theorem testBit_highByte (x : UInt16) (j : ℕ) : (highByte x).toNat.testBit j = x.toNat.testBit (j + 8) := by
  have h := testBit_joinBytes (highByte x) (lowByte x) (j + 8)
  rwa [joinBytes_highByte_lowByte, if_neg (by omega), Nat.add_sub_cancel, eq_comm] at h

/-- A byte gives the memory its eight bits and leaves the others alone. -/
theorem bitAt_update (cells : ℕ → UInt8) (k : ℕ) (x : UInt8) (i : ℕ) :
    bitAt (Function.update cells k x) i =
      if 8 * k ≤ i ∧ i < 8 * k + 8 then x.toNat.testBit (i - 8 * k) else bitAt cells i := by
  rw [bitAt]
  by_cases hk : i / 8 = k
  · rw [hk, Function.update_self, if_pos (by omega)]
    congr 1
    omega
  · rw [Function.update_of_ne hk, if_neg (by omega)]
    rfl

/-- A word put into two bytes gives the memory its sixteen bits and leaves the others alone. -/
theorem bitAt_update_word (cells : ℕ → UInt8) (k : ℕ) (word : UInt16) (i : ℕ) :
    bitAt (Function.update (Function.update cells k (lowByte word)) (k + 1) (highByte word)) i =
      if 8 * k ≤ i ∧ i < 8 * k + 16 then word.toNat.testBit (i - 8 * k) else bitAt cells i := by
  have hmod : i % 8 < 8 := Nat.mod_lt _ (by decide)
  rw [bitAt]
  by_cases hhigh : i / 8 = k + 1
  · rw [hhigh, Function.update_self, testBit_highByte, if_pos (by omega)]
    congr 1
    omega
  · rw [Function.update_of_ne hhigh]
    by_cases hlow : i / 8 = k
    · rw [hlow, Function.update_self, testBit_lowByte word hmod, if_pos (by omega)]
      congr 1
      omega
    · rw [Function.update_of_ne hlow, if_neg (by omega)]
      rfl

end RemoteManage.Foundation
