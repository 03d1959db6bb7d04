import Mathlib.Algebra.Order.Group.Defs
import Mathlib.Algebra.BigOperators.Group.List.Basic
import Mathlib.Algebra.Order.Group.MinMax
import Mathlib.Data.List.Sort
import Mathlib.Tactic.Abel

/-!
# The median of a list

The median of an odd number of values is the middle one of them in order. Of three values it is
what remains of their sum without the largest and the smallest. A loop that looks for these two
from initial bounds finds them only when the bounds lie on the right side of some value, so the
remainder is the median exactly then.
-/

namespace RemoteManage.Foundation

variable {K : Type*}

/-- The middle one of the values in order. The number of values is taken to be odd. -/
def IsMedian [LE K] (m : K) (values : List K) : Prop :=
  ∃ sorted : List K, sorted.Perm values ∧ sorted.Pairwise (· ≤ ·) ∧ sorted[sorted.length / 2]? = some m

/-- The median is one of the values. -/
theorem IsMedian.mem [LE K] {m : K} {values : List K} (h : IsMedian m values) : m ∈ values := by
  obtain ⟨sorted, hperm, -, hmiddle⟩ := h
  exact hperm.subset (List.mem_of_getElem? hmiddle)

/-- There is only one median. -/
theorem IsMedian.unique [PartialOrder K] {m n : K} {values : List K} (hm : IsMedian m values)
    (hn : IsMedian n values) : m = n := by
  obtain ⟨sorted, hperm, hsorted, hmiddle⟩ := hm
  obtain ⟨other, hotherPerm, hotherSorted, hotherMiddle⟩ := hn
  have hsame : sorted = other :=
    List.Perm.eq_of_pairwise (fun _ _ _ _ hle hge => le_antisymm hle hge) hsorted hotherSorted
      (hperm.trans hotherPerm.symm)
  rw [hsame, hotherMiddle] at hmiddle
  exact (Option.some.inj hmiddle).symm

/-- Every list has its values in order. -/
theorem exists_sorted [LinearOrder K] (values : List K) :
    ∃ sorted : List K, sorted.Perm values ∧ sorted.Pairwise (· ≤ ·) :=
  ⟨values.insertionSort (· ≤ ·), values.perm_insertionSort _, values.pairwise_insertionSort _⟩

/-- What remains of the sum without the largest value, looked for from `high`, and the smallest, looked for
from `low`. -/
def trimmedSum [AddCommGroup K] [LinearOrder K] (low high : K) (values : List K) : K :=
  values.sum - values.foldl max high - values.foldl min low

variable [AddCommGroup K] [LinearOrder K]

/-- The sum and the two extremes do not depend on the order in which the values come. -/
theorem trimmedSum_perm (low high : K) {values others : List K} (hperm : values.Perm others) :
    trimmedSum low high values = trimmedSum low high others := by
  unfold trimmedSum
  rw [hperm.sum_eq, hperm.foldl_op_eq, hperm.foldl_op_eq]

/-- Of three values in order the remainder is the middle one, displaced by what the bounds hide of the
extremes. -/
theorem trimmedSum_triple (low high : K) {a b c : K} (hab : a ≤ b) (hbc : b ≤ c) :
    trimmedSum low high [a, b, c] = b + (a - min low a) - (max high c - c) := by
  have hlargest : [a, b, c].foldl max high = max high c := by
    simp only [List.foldl_cons, List.foldl_nil, max_assoc, max_eq_right hbc, max_eq_right hab]
  have hsmallest : [a, b, c].foldl min low = min low a := by
    simp only [List.foldl_cons, List.foldl_nil, min_assoc]
    rw [min_eq_left hbc, min_eq_left hab]
  rw [trimmedSum, hlargest, hsmallest, List.sum_cons, List.sum_cons, List.sum_singleton]
  abel

/-- Of three values the remainder is the median exactly when one of them is not above the bound from which
the smallest is looked for, and one not below the bound for the largest. -/
theorem isMedian_trimmedSum_iff {low high : K} (hbounds : high ≤ low) {values : List K}
    (hlength : values.length = 3) :
    IsMedian (trimmedSum low high values) values ↔ (∃ x ∈ values, x ≤ low) ∧ ∃ x ∈ values, high ≤ x := by
  obtain ⟨sorted, hperm, hsorted⟩ := exists_sorted values
  rw [← trimmedSum_perm low high hperm]
  simp only [← hperm.mem_iff]
  rw [← hperm.length_eq] at hlength
  obtain ⟨a, b, c, rfl⟩ := List.length_eq_three.mp hlength
  obtain ⟨hab, hbc⟩ : a ≤ b ∧ b ≤ c := by simp_all
  have hmedian : IsMedian b values := ⟨[a, b, c], hperm, hsorted, by simp⟩
  have hiff : IsMedian (trimmedSum low high [a, b, c]) values ↔ trimmedSum low high [a, b, c] = b :=
    ⟨fun h => h.unique hmedian, fun h => h.symm ▸ hmedian⟩
  rw [hiff, trimmedSum_triple low high hab hbc]
  constructor
  · intro hmiddle
    have hequal : a - min low a = max high c - c :=
      sub_eq_zero.mp (add_eq_left.mp (add_sub_assoc b (a - min low a) (max high c - c) ▸ hmiddle))
    -- the two displacements cannot be there together, since the bounds do not cross
    have ha : a ≤ low := by
      by_contra! hlow
      have hhigh : high ≤ c := (hbounds.trans hlow.le).trans (hab.trans hbc)
      rw [min_eq_left hlow.le, max_eq_right hhigh, sub_self] at hequal
      exact absurd (sub_eq_zero.mp hequal) hlow.ne'
    rw [min_eq_right ha, sub_self] at hequal
    have hc : high ≤ c := max_eq_right_iff.mp (sub_eq_zero.mp hequal.symm)
    exact ⟨⟨a, by simp, ha⟩, c, by simp, hc⟩
  · rintro ⟨⟨x, hx, hxlow⟩, y, hy, hyhigh⟩
    have hbetween : ∀ z ∈ [a, b, c], a ≤ z ∧ z ≤ c := by
      simp [hab, hbc, hab.trans hbc]
    have ha : a ≤ low := (hbetween x hx).1.trans hxlow
    have hc : high ≤ c := hyhigh.trans (hbetween y hy).2
    rw [min_eq_right ha, max_eq_right hc, sub_self, sub_self, add_zero, sub_zero]

end RemoteManage.Foundation
