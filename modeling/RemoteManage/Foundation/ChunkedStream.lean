import Mathlib.Data.List.Basic

/-!
# Streams that are cut into chunks

A stream is written in records and read in chunks, and the two need not have anything to do with each
other. Where a list is cut is given by the positions at which its parts end. A relay that puts another
element in the place of the last one of every chunk changes the stream at the ends of the chunks
and nowhere else.
-/

namespace RemoteManage.Foundation.ChunkedStream

variable {α : Type*}

/-- The positions at which the parts of a stream end. -/
def ends : List (List α) → List ℕ
  | [] => []
  | part :: parts => part.length :: (ends parts).map (part.length + ·)

/-- Parts that are not empty end behind the beginning. -/
theorem ends_pos {parts : List (List α)} (h : ∀ part ∈ parts, part ≠ []) : ∀ e ∈ ends parts, 0 < e := by
  induction parts with
  | nil => exact fun e he => absurd he List.not_mem_nil
  | cons part rest ih =>
    rw [List.forall_mem_cons] at h
    have hpos := List.length_pos_of_ne_nil h.1
    rw [ends, List.forall_mem_cons, List.forall_mem_map]
    exact ⟨hpos, fun e _ => Nat.add_pos_left hpos e⟩

/-- Where a part ends stands its last element. -/
theorem getElem?_of_mem_ends {parts : List (List α)} {x : α}
    (h : ∀ part ∈ parts, part.getLast? = some x) {e : ℕ} (he : e ∈ ends parts) :
    parts.flatten[e - 1]? = some x := by
  induction parts generalizing e with
  | nil => contradiction
  | cons part rest ih =>
    rw [List.forall_mem_cons] at h
    have hne : part ≠ [] := fun hnil => by
      rw [hnil] at h
      exact nomatch h.1
    rw [List.flatten_cons]
    rcases List.mem_cons.mp he with rfl | he
    · rw [List.getElem?_append_left (Nat.sub_one_lt (Nat.ne_of_gt (List.length_pos_of_ne_nil hne))),
        ← List.getLast?_eq_getElem?]
      exact h.1
    · obtain ⟨e', he', rfl⟩ := List.mem_map.mp he
      have hpos : 0 < e' := ends_pos (fun part hpart hnil => by
        have hlast := h.2 part hpart
        rw [hnil] at hlast
        exact nomatch hlast) e' he'
      rw [Nat.add_sub_assoc hpos, List.getElem?_append_right (Nat.le_add_right _ _), Nat.add_sub_cancel_left]
      exact ih h.2 he'

/-- The lists are equally long, and they differ at the given positions at most. -/
def AgreeExcept (p : ℕ → Prop) (left right : List α) : Prop :=
  left.length = right.length ∧ ∀ i, left[i]? ≠ right[i]? → p i

/-- A chunk with its last element replaced. -/
def replaceLast (x : α) (chunk : List α) : List α := chunk.dropLast ++ [x]

/-- The last element is replaced by a write at its position. -/
theorem set_length_sub_one (x : α) {chunk : List α} (hne : chunk ≠ []) :
    chunk.set (chunk.length - 1) x = replaceLast x chunk := by
  obtain ⟨front, last, rfl⟩ := List.eq_nil_or_concat' chunk |>.resolve_left hne
  rw [replaceLast, List.dropLast_concat, List.length_append, List.length_singleton, Nat.add_sub_cancel,
    List.set_append_right _ _ (Nat.le_refl _), Nat.sub_self]
  rfl

/-- A chunk keeps its length. -/
theorem length_replaceLast (x : α) {chunk : List α} (hne : chunk ≠ []) :
    (replaceLast x chunk).length = chunk.length := by
  rw [← set_length_sub_one x hne, List.length_set]

/-- A list agrees with itself. -/
theorem agreeExcept_refl (p : ℕ → Prop) (l : List α) : AgreeExcept p l l := ⟨rfl, fun _ h => absurd rfl h⟩

/-- Lists that are put together of equally long parts agree where their parts do. -/
theorem agreeExcept_append_iff {p : ℕ → Prop} {left left' right right' : List α}
    (h : left.length = left'.length) :
    AgreeExcept p (left ++ right) (left' ++ right') ↔
      AgreeExcept p left left' ∧ AgreeExcept (fun i => p (left.length + i)) right right' := by
  constructor
  · rintro ⟨hlength, hdiffer⟩
    rw [List.length_append, List.length_append, h, Nat.add_right_inj] at hlength
    refine ⟨⟨h, fun i hi => ?_⟩, hlength, fun i hi => ?_⟩
    · have hlt : i < left.length := by
        by_contra hge
        rw [List.getElem?_eq_none (by omega), List.getElem?_eq_none (by omega)] at hi
        exact hi rfl
      apply hdiffer i
      rwa [List.getElem?_append_left hlt, List.getElem?_append_left (h ▸ hlt)]
    · apply hdiffer (left.length + i)
      rw [List.getElem?_append_right (by omega), List.getElem?_append_right (by omega), ← h]
      rwa [Nat.add_sub_cancel_left]
  · rintro ⟨⟨-, hleft⟩, hlength, hright⟩
    refine ⟨by rw [List.length_append, List.length_append, h, hlength], fun i hi => ?_⟩
    by_cases hlt : i < left.length
    · apply hleft i
      rwa [List.getElem?_append_left hlt, List.getElem?_append_left (h ▸ hlt)] at hi
    · rw [List.getElem?_append_right (by omega), List.getElem?_append_right (by omega), ← h] at hi
      have hp := hright (i - left.length) hi
      dsimp only at hp
      rwa [Nat.add_sub_of_le (Nat.not_lt.mp hlt)] at hp

/-- To replace the last element of a chunk changes that one, if it was another. -/
theorem agreeExcept_replaceLast_iff {p : ℕ → Prop} {x : α} {chunk : List α} (hne : chunk ≠ [])
    (hx : x ∉ chunk) : AgreeExcept p (replaceLast x chunk) chunk ↔ p (chunk.length - 1) := by
  obtain ⟨front, last, rfl⟩ := List.eq_nil_or_concat' chunk |>.resolve_left hne
  have hlast : x ≠ last := fun heq => hx (heq ▸ List.mem_append_right _ (List.mem_singleton_self x))
  rw [replaceLast, List.dropLast_concat, agreeExcept_append_iff rfl, List.length_append,
    List.length_singleton, Nat.add_sub_cancel, and_iff_right (agreeExcept_refl p front)]
  constructor
  · intro h
    exact h.2 0 fun heq => hlast (Option.some.inj heq)
  · intro h
    refine ⟨rfl, fun i hi => ?_⟩
    cases i with
    | zero => exact h
    | succ i => exact absurd rfl hi

/-- A relay that replaces the last element of every chunk changes the stream at the ends of the chunks. -/
theorem agreeExcept_relay_iff {p : ℕ → Prop} {x : α} {chunks : List (List α)}
    (h : ∀ chunk ∈ chunks, chunk ≠ [] ∧ x ∉ chunk) :
    AgreeExcept p (chunks.map (replaceLast x)).flatten chunks.flatten ↔ ∀ e ∈ ends chunks, p (e - 1) := by
  induction chunks generalizing p with
  | nil => simp [AgreeExcept, ends]
  | cons chunk rest ih =>
    obtain ⟨⟨hne, hx⟩, hrest⟩ := List.forall_mem_cons.mp h
    have hlength := length_replaceLast x hne
    rw [List.map_cons, List.flatten_cons, List.flatten_cons, agreeExcept_append_iff hlength,
      agreeExcept_replaceLast_iff hne hx, hlength, ih hrest, ends, List.forall_mem_cons, List.forall_mem_map]
    refine and_congr_right fun _ => forall₂_congr fun e he => ?_
    rw [Nat.add_sub_assoc (ends_pos (fun part hpart => (hrest part hpart).1) e he)]

end RemoteManage.Foundation.ChunkedStream
