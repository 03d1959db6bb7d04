import Mathlib.Data.List.Basic

/-!
# Copies into and out of a memory

A memory is a cell for every address. Storing a list writes it from an address on, loading reads
so many cells from an address on. Stores and loads of consecutive parts are those of the whole, and
a load sees of a store what lies in its range.
-/

namespace RemoteManage.Foundation

variable {α : Type*}

/-- The memory after a list has been stored at an address. -/
def storeAt (memory : ℕ → α) (address : ℕ) (values : List α) : ℕ → α :=
  fun i => if address ≤ i then (values[i - address]?).getD (memory i) else memory i

/-- The cells from an address on. -/
def loadAt (memory : ℕ → α) (address count : ℕ) : List α :=
  (List.range count).map fun i => memory (address + i)

@[simp] theorem storeAt_nil (memory : ℕ → α) (address : ℕ) : storeAt memory address [] = memory := by
  funext i
  simp [storeAt]

@[simp] theorem loadAt_length (memory : ℕ → α) (address count : ℕ) :
    (loadAt memory address count).length = count := by
  simp [loadAt]

/-- Storing one part after the other stores the whole. -/
theorem storeAt_append (memory : ℕ → α) (address : ℕ) (left right : List α) :
    storeAt memory address (left ++ right) =
      storeAt (storeAt memory address left) (address + left.length) right := by
  funext i
  simp only [storeAt]
  by_cases hstart : address ≤ i
  · by_cases hleft : i - address < left.length
    · rw [if_pos hstart, if_neg (by omega), if_pos hstart, List.getElem?_append_left hleft]
    · rw [if_pos hstart, if_pos (by omega), if_pos hstart, List.getElem?_append_right (by omega),
        List.getElem?_eq_none (by omega : left.length ≤ i - address), Option.getD_none,
        show i - address - left.length = i - (address + left.length) by omega]
  · rw [if_neg hstart, if_neg (by omega), if_neg hstart]

/-- Loading one part after the other loads the whole. -/
theorem loadAt_add (memory : ℕ → α) (address first second : ℕ) :
    loadAt memory address (first + second) =
      loadAt memory address first ++ loadAt memory (address + first) second := by
  simp [loadAt, List.range_add, Nat.add_assoc]

/-- Loading consecutive blocks of one size loads them all. -/
theorem loadAt_blocks (memory : ℕ → α) (start size count : ℕ) :
    loadAt memory (start * size) (count * size) =
      (List.range count).flatMap fun k => loadAt memory ((start + k) * size) size := by
  induction count with
  | zero => simp [loadAt]
  | succ count ih =>
    rw [Nat.succ_mul, loadAt_add, ih, List.range_succ, List.flatMap_append, List.flatMap_singleton,
      Nat.add_mul]

/-- A load inside the range of a store sees what was stored. -/
theorem loadAt_storeAt_inside (memory : ℕ → α) (address : ℕ) (values : List α) (skip count : ℕ)
    (h : skip + count ≤ values.length) :
    loadAt (storeAt memory address values) (address + skip) count = (values.drop skip).take count := by
  apply List.ext_getElem
  · rw [loadAt_length, List.length_take, List.length_drop]
    omega
  · intro i hi _
    rw [loadAt_length] at hi
    have hplace : address + skip + i - address = skip + i := by omega
    have hlt : skip + i < values.length := by omega
    simp only [loadAt, storeAt, List.getElem_map, List.getElem_range, List.getElem_take, List.getElem_drop]
    rw [if_pos (by omega), hplace, List.getElem?_eq_getElem hlt, Option.getD_some]

/-- A load outside the range of a store sees what was there. -/
theorem loadAt_storeAt_outside (memory : ℕ → α) (address : ℕ) (values : List α) (start count : ℕ)
    (h : start + count ≤ address ∨ address + values.length ≤ start) :
    loadAt (storeAt memory address values) start count = loadAt memory start count := by
  refine List.map_congr_left fun i hi => ?_
  have hlt : i < count := List.mem_range.mp hi
  unfold storeAt
  rcases h with hbefore | hafter
  · rw [if_neg (by omega)]
  · rw [if_pos (by omega), List.getElem?_eq_none (by omega), Option.getD_none]

end RemoteManage.Foundation
