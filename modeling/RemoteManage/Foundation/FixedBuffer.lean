import Mathlib.Data.Vector.Basic
import Mathlib.Data.List.GetD
import Mathlib.Order.MinMax

/-!
# Fixed-size buffers that are filled from the front

A C array of `n` cells, together with the idiom `buffer[size++] = x`. Writing outside
the array is undefined behaviour in C. Here such a write leaves the cells alone and
raises the sticky mark `overrun`, so that a run is free of it exactly when the mark is
still down at its end.

`AppendBuffer` pairs a buffer with the counter of the idiom. The counter has its own
width, because the programs count in `uint8_t` and `uint16_t`.
-/

namespace RemoteManage.Foundation

variable {α : Type*} {n w : ℕ}

/-- An array of `n` cells with the mark of a write that fell outside it. -/
structure FixedBuffer (α : Type*) (n : ℕ) where
  cells : Vector α n
  overrun : Bool

namespace FixedBuffer

/-- An array all of whose cells hold `x`. -/
def filled (n : ℕ) (x : α) : FixedBuffer α n := ⟨Vector.replicate n x, false⟩

/-- `buffer[i] = x`. -/
def write (b : FixedBuffer α n) (i : ℕ) (x : α) : FixedBuffer α n :=
  if h : i < n then { b with cells := b.cells.set i x } else { b with overrun := true }

/-- Copy `xs` to the cells from `i` on, as `memcpy(&buffer[i], xs, length)` does. -/
def writeAll (b : FixedBuffer α n) (i : ℕ) : List α → FixedBuffer α n
  | [] => b
  | x :: xs => (b.write i x).writeAll (i + 1) xs

/-- `buffer[i]`, with a default outside the array. -/
def read [Inhabited α] (b : FixedBuffer α n) (i : ℕ) : α := (b.cells.toList[i]?).getD default

/-- The first `k` cells. -/
def contents (b : FixedBuffer α n) (k : ℕ) : List α := b.cells.toList.take k

/-- The `k` cells from `i` on. -/
def slice (b : FixedBuffer α n) (i k : ℕ) : List α := (b.cells.toList.drop i).take k

@[simp] theorem contents_zero (b : FixedBuffer α n) : b.contents 0 = [] := rfl

/-- There are no more cells than the array has. -/
theorem contents_length (b : FixedBuffer α n) (k : ℕ) : (b.contents k).length = min k n := by
  rw [contents, List.length_take, Vector.length_toList]

/-- A write inside the array leaves the overrun mark as it was. -/
theorem write_overrun (b : FixedBuffer α n) {i : ℕ} (x : α) (h : i < n) :
    (b.write i x).overrun = b.overrun := by
  simp [write, h]

/-- Writing the cell behind a prefix extends the prefix by that cell. -/
theorem write_contents_succ (b : FixedBuffer α n) {i : ℕ} (x : α) (h : i < n) :
    (b.write i x).contents (i + 1) = b.contents i ++ [x] := by
  have hlen : i < b.cells.toList.length := by simpa using h
  simp only [write, h, dif_pos, contents, Vector.toList_set]
  rw [List.take_add_one, List.take_set_of_le (le_refl i), List.getElem?_set_self hlen]
  rfl

/-- A write leaves the cells before it alone. -/
theorem write_contents_of_le (b : FixedBuffer α n) {i k : ℕ} (x : α) (h : k ≤ i) :
    (b.write i x).contents k = b.contents k := by
  unfold write
  split
  · simp only [contents, Vector.toList_set]
    exact List.take_set_of_le h
  · rfl

/-- A write inside a prefix changes one cell of it. -/
theorem write_contents_of_lt (b : FixedBuffer α n) {i k : ℕ} (x : α) (h : i < n) :
    (b.write i x).contents k = (b.contents k).set i x := by
  simp only [write, h, dif_pos, contents, Vector.toList_set, List.take_set]

/-- Copying inside the array leaves the overrun mark as it was. -/
theorem writeAll_overrun (b : FixedBuffer α n) (i : ℕ) (xs : List α) (h : i + xs.length ≤ n) :
    (b.writeAll i xs).overrun = b.overrun := by
  induction xs generalizing b i with
  | nil => rfl
  | cons x xs ih =>
    simp only [List.length_cons] at h
    rw [writeAll, ih _ _ (by omega), write_overrun _ _ (by omega)]

/-- Copying behind a prefix extends the prefix by the copied cells. -/
theorem writeAll_contents (b : FixedBuffer α n) (i : ℕ) (xs : List α) (h : i + xs.length ≤ n) :
    (b.writeAll i xs).contents (i + xs.length) = b.contents i ++ xs := by
  induction xs generalizing b i with
  | nil => simp [writeAll]
  | cons x xs ih =>
    simp only [List.length_cons] at h
    have hi : i < n := by omega
    rw [writeAll, List.length_cons, show i + (xs.length + 1) = i + 1 + xs.length by omega,
      ih _ _ (by omega), write_contents_succ _ _ hi, List.append_assoc, List.singleton_append]

/-- All the cells after a write. -/
theorem write_toList (b : FixedBuffer α n) {i : ℕ} (x : α) (h : i < n) :
    (b.write i x).cells.toList = b.cells.toList.set i x := by
  simp only [write, h, dif_pos, Vector.toList_set]

/-- Copying leaves the cells behind it alone. -/
theorem writeAll_drop (b : FixedBuffer α n) (i : ℕ) (xs : List α) (h : i + xs.length ≤ n) :
    (b.writeAll i xs).cells.toList.drop (i + xs.length) = b.cells.toList.drop (i + xs.length) := by
  induction xs generalizing b i with
  | nil => rfl
  | cons x xs ih =>
    rw [List.length_cons] at h ⊢
    rw [writeAll, show i + (xs.length + 1) = i + 1 + xs.length by omega, ih _ _ (by omega),
      write_toList _ _ (by omega), List.drop_set_of_lt (by omega)]

/-- Copying leaves the cells before it alone. -/
theorem writeAll_contents_of_le (b : FixedBuffer α n) {i k : ℕ} (xs : List α) (h : k ≤ i) :
    (b.writeAll i xs).contents k = b.contents k := by
  induction xs generalizing b i with
  | nil => rfl
  | cons x xs ih => rw [writeAll, ih _ (Nat.le_succ_of_le h), write_contents_of_le _ _ h]

/-- Cells copied to the beginning are the first ones. -/
theorem writeAll_zero_contents (b : FixedBuffer α n) (xs : List α) (h : xs.length ≤ n) :
    (b.writeAll 0 xs).contents xs.length = xs := by
  have hall := b.writeAll_contents 0 xs (by omega)
  rwa [Nat.zero_add, contents_zero, List.nil_append] at hall

/-- All the cells after cells have been copied to the beginning. -/
theorem writeAll_zero_toList (b : FixedBuffer α n) (xs : List α) (h : xs.length ≤ n) :
    (b.writeAll 0 xs).cells.toList = xs ++ b.cells.toList.drop xs.length := by
  have hdrop := b.writeAll_drop 0 xs (by omega)
  have htake := b.writeAll_zero_contents xs h
  rw [Nat.zero_add] at hdrop
  rw [contents] at htake
  rw [← hdrop]
  nth_rewrite 2 [← htake]
  exact (List.take_append_drop _ _).symm

/-- Of cells copied to the beginning every prefix is found there. -/
theorem writeAll_zero_prefix (b : FixedBuffer α n) {xs ys : List α} (hys : ys <+: xs) (h : xs.length ≤ n) :
    (b.writeAll 0 xs).contents ys.length = ys := by
  have hall := congrArg (List.take ys.length) (b.writeAll_zero_contents xs h)
  rw [contents, List.take_take, min_eq_left hys.length_le] at hall
  exact hall.trans (List.prefix_iff_eq_take.mp hys).symm

/-- A cell inside a known prefix is read from the prefix, whatever the fallback. -/
theorem read_eq_of_contents [Inhabited α] (b : FixedBuffer α n) {k : ℕ} {l : List α}
    (h : b.contents k = l) {i : ℕ} (hi : i < l.length) (fallback : α) :
    b.read i = l.getD i fallback := by
  subst h
  have hik : i < k ∧ i < b.cells.toList.length := by
    simpa only [contents, List.length_take, lt_min_iff] using hi
  rw [List.getD_eq_getElem _ _ hi]
  simp only [read, contents, List.getElem_take, List.getElem?_eq_getElem hik.2, Option.getD_some]

/-- Cells inside a known prefix are copied from the prefix. -/
theorem slice_eq_of_contents (b : FixedBuffer α n) {k : ℕ} {l : List α} (h : b.contents k = l)
    {i m : ℕ} (hm : i + m ≤ k) : b.slice i m = (l.drop i).take m := by
  subst h
  simp only [slice, contents, List.drop_take, List.take_take]
  rw [min_eq_left (by omega)]

/-- Cells inside the array are as many as were asked for. -/
theorem slice_length (b : FixedBuffer α n) {i k : ℕ} (h : i + k ≤ n) : (b.slice i k).length = k := by
  simp only [slice, List.length_take, List.length_drop, Vector.length_toList]
  omega

/-- Copying does not change what is read before it. -/
theorem read_writeAll_of_lt [Inhabited α] (b : FixedBuffer α n) {i j : ℕ} (xs : List α) (h : j < i) :
    (b.writeAll i xs).read j = b.read j := by
  induction xs generalizing b i with
  | nil => rfl
  | cons x xs ih =>
    rw [writeAll, ih _ (Nat.lt_succ_of_lt h)]
    unfold write
    split
    · simp only [read, Vector.toList_set, List.getElem?_set_ne (Nat.ne_of_gt h)]
    · rfl

/-- Cells that have been copied are found where they were put. -/
theorem slice_writeAll (b : FixedBuffer α n) (i : ℕ) (xs : List α) (h : i + xs.length ≤ n) :
    (b.writeAll i xs).slice i xs.length = xs := by
  have hbefore : (b.contents i).length = i := by
    rw [contents_length]
    exact min_eq_left (Nat.le_trans (Nat.le_add_right _ _) h)
  rw [slice_eq_of_contents _ (b.writeAll_contents i xs h) (Nat.le_refl _), List.drop_left' hbefore,
    List.take_length]

/-- Neighbouring cells are copied together. -/
theorem slice_add (b : FixedBuffer α n) (i j k : ℕ) :
    b.slice i (j + k) = b.slice i j ++ b.slice (i + j) k := by
  simp only [slice, List.take_add, List.drop_drop]

/-- The first of several cells is the one that is read. -/
theorem slice_succ [Inhabited α] (b : FixedBuffer α n) {i : ℕ} (h : i < n) (k : ℕ) :
    b.slice i (k + 1) = b.read i :: b.slice (i + 1) k := by
  have hlen : i < b.cells.toList.length := by simpa using h
  simp only [slice, read]
  rw [List.drop_eq_getElem_cons hlen, List.take_succ_cons, List.getElem?_eq_getElem hlen, Option.getD_some]

/-- What is read after a write inside the array. -/
theorem read_write [Inhabited α] (b : FixedBuffer α n) {i : ℕ} (x : α) (h : i < n) (j : ℕ) :
    (b.write i x).read j = if j = i then x else b.read j := by
  have hlen : i < b.cells.toList.length := by simpa using h
  rw [read, write_toList b x h]
  split
  case isTrue hj => rw [hj, List.getElem?_set_self hlen, Option.getD_some]
  case isFalse hj =>
    rw [List.getElem?_set_ne (Ne.symm hj)]
    rfl

/-- The first cells are what is read one after the other. -/
theorem contents_eq_map_read [Inhabited α] (b : FixedBuffer α n) {k : ℕ} (h : k ≤ n) :
    b.contents k = (List.range k).map b.read := by
  refine List.ext_getElem ?_ fun i hi _ => ?_
  · rw [contents_length, min_eq_left h, List.length_map, List.length_range]
  · rw [List.getElem_map, List.getElem_range, b.read_eq_of_contents rfl hi default,
      List.getD_eq_getElem _ _ hi]

/-- A write raises the mark exactly when it falls outside the array. -/
theorem overrun_write_iff (b : FixedBuffer α n) (i : ℕ) (x : α) :
    (b.write i x).overrun = false ↔ b.overrun = false ∧ i < n := by
  by_cases h : i < n
  · rw [write_overrun b x h, and_iff_left h]
  · simp [write, h]

/-- Copying raises the mark exactly when a cell falls outside the array. -/
theorem overrun_writeAll_iff (b : FixedBuffer α n) (i : ℕ) (xs : List α) :
    (b.writeAll i xs).overrun = false ↔ b.overrun = false ∧ ∀ k < xs.length, i + k < n := by
  induction xs generalizing b i with
  | nil => simp [writeAll]
  | cons x xs ih =>
    rw [writeAll, ih, overrun_write_iff, and_assoc, List.length_cons]
    refine and_congr_right fun _ => ⟨?_, ?_⟩
    · rintro ⟨hfirst, hrest⟩ k hk
      cases k with
      | zero => exact hfirst
      | succ k => exact Nat.add_right_comm i 1 k ▸ hrest k (Nat.lt_of_succ_lt_succ hk)
    · intro hall
      refine ⟨hall 0 (Nat.zero_lt_succ _), fun k hk => ?_⟩
      rw [Nat.add_right_comm]
      exact hall (k + 1) (Nat.succ_lt_succ hk)

/-- Bytes copied to the beginning and one more behind them lie inside the array exactly when it is longer
than they are. -/
theorem overrun_terminated_iff (b : FixedBuffer α n) (xs : List α) (x : α) :
    ((b.writeAll 0 xs).write xs.length x).overrun = false ↔ b.overrun = false ∧ xs.length < n := by
  rw [overrun_write_iff, overrun_writeAll_iff, and_assoc]
  refine and_congr_right fun _ => and_iff_right_of_imp fun hlt k hk => ?_
  rw [Nat.zero_add]
  exact hk.trans hlt

end FixedBuffer

/-- A buffer with the counter of the cells filled so far; the counter is `w` bits wide. -/
structure AppendBuffer (α : Type*) (n w : ℕ) where
  buffer : FixedBuffer α n
  size : ℕ

namespace AppendBuffer

/-- `buffer[size++] = x`. -/
def push (a : AppendBuffer α n w) (x : α) : AppendBuffer α n w :=
  ⟨a.buffer.write a.size x, (a.size + 1) % 2 ^ w⟩

/-- `memcpy(&buffer[size], xs, length)` followed by `size += length`. -/
def pushAll (a : AppendBuffer α n w) (xs : List α) : AppendBuffer α n w :=
  ⟨a.buffer.writeAll a.size xs, (a.size + xs.length) % 2 ^ w⟩

/-- `buffer[size++] = x` for each of the given values. -/
def pushEach (a : AppendBuffer α n w) (xs : List α) : AppendBuffer α n w := xs.foldl push a

/-- The cells filled so far. -/
def written (a : AppendBuffer α n w) : List α := a.buffer.contents a.size

/-- There are as many of them as the counter says, or as the array has. -/
theorem written_length (a : AppendBuffer α n w) : a.written.length = min a.size n :=
  a.buffer.contents_length a.size

/-- The buffer holds exactly `l`, and no write has fallen outside it. -/
structure Holds (a : AppendBuffer α n w) (l : List α) : Prop where
  size : a.size = l.length
  contents : a.buffer.contents l.length = l
  intact : a.buffer.overrun = false

/-- A buffer about to be filled holds nothing. -/
theorem holds_nil (b : FixedBuffer α n) (h : b.overrun = false) :
    (⟨b, 0⟩ : AppendBuffer α n w).Holds [] := ⟨rfl, rfl, h⟩

namespace Holds

variable {a : AppendBuffer α n w} {l : List α}

/-- The filled cells are the list held. -/
theorem written_eq (h : a.Holds l) : a.written = l := by
  rw [written, h.size, h.contents]

/-- The list held fits into the array. -/
theorem length_le (h : a.Holds l) : l.length ≤ n := by
  have hlen := congrArg List.length h.contents
  rw [FixedBuffer.contents_length] at hlen
  omega

/-- Appending one cell while there is room for it in the array and in the counter. -/
theorem push_of_lt (h : a.Holds l) (x : α) (hroom : l.length < n) (hsize : l.length + 1 < 2 ^ w) :
    (a.push x).Holds (l ++ [x]) := by
  refine ⟨?_, ?_, ?_⟩
  · simp only [AppendBuffer.push, h.size, List.length_append, List.length_singleton]
    exact Nat.mod_eq_of_lt hsize
  · simp only [AppendBuffer.push, h.size, List.length_append, List.length_singleton]
    rw [FixedBuffer.write_contents_succ _ _ hroom, h.contents]
  · simp only [AppendBuffer.push, h.size]
    rw [FixedBuffer.write_overrun _ _ hroom, h.intact]

/-- Appending cells one after the other while there is room for them in the array and in the counter. -/
theorem pushEach_of_lt (h : a.Holds l) (xs : List α) (hroom : l.length + xs.length ≤ n)
    (hsize : l.length + xs.length < 2 ^ w) : (a.pushEach xs).Holds (l ++ xs) := by
  induction xs generalizing a l with
  | nil => simpa [AppendBuffer.pushEach] using h
  | cons x xs ih =>
    simp only [List.length_cons] at hroom hsize
    have hx := h.push_of_lt x (by omega) (by omega)
    have hlen : (l ++ [x]).length = l.length + 1 := List.length_append
    have hxs := ih hx (by omega) (by omega)
    rwa [List.append_assoc, List.singleton_append] at hxs

/-- Appending a block while there is room for it in the array and in the counter. -/
theorem pushAll_of_lt (h : a.Holds l) (xs : List α) (hroom : l.length + xs.length ≤ n)
    (hsize : l.length + xs.length < 2 ^ w) : (a.pushAll xs).Holds (l ++ xs) := by
  refine ⟨?_, ?_, ?_⟩
  · simp only [AppendBuffer.pushAll, h.size, List.length_append]
    exact Nat.mod_eq_of_lt hsize
  · simp only [AppendBuffer.pushAll, h.size, List.length_append]
    rw [FixedBuffer.writeAll_contents _ _ _ hroom, h.contents]
  · simp only [AppendBuffer.pushAll, h.size]
    rw [FixedBuffer.writeAll_overrun _ _ _ hroom, h.intact]

/-- Appending one cell to an array that the counter can count. -/
theorem push (h : a.Holds l) (x : α) (hroom : l.length < n) (hw : n < 2 ^ w) :
    (a.push x).Holds (l ++ [x]) := h.push_of_lt x hroom (by omega)

/-- Appending cells one after the other to an array that the counter can count. -/
theorem pushEach (h : a.Holds l) (xs : List α) (hroom : l.length + xs.length ≤ n) (hw : n < 2 ^ w) :
    (a.pushEach xs).Holds (l ++ xs) := h.pushEach_of_lt xs hroom (by omega)

/-- Appending a block to an array that the counter can count. -/
theorem pushAll (h : a.Holds l) (xs : List α) (hroom : l.length + xs.length ≤ n) (hw : n < 2 ^ w) :
    (a.pushAll xs).Holds (l ++ xs) := h.pushAll_of_lt xs hroom (by omega)

/-- A held cell is read back. -/
theorem read [Inhabited α] (h : a.Holds l) {i : ℕ} (hi : i < l.length) (fallback : α) :
    a.buffer.read i = l.getD i fallback :=
  a.buffer.read_eq_of_contents h.contents hi fallback

/-- Held cells are copied out. -/
theorem slice (h : a.Holds l) {i m : ℕ} (hm : i + m ≤ l.length) :
    a.buffer.slice i m = (l.drop i).take m :=
  a.buffer.slice_eq_of_contents h.contents hm

end Holds

end AppendBuffer

end RemoteManage.Foundation
