import Mathlib.Data.List.Basic

/-!
# Updates of a record, field by field

A loader assigns the fields of a record one after the other and gives up at the first value it cannot take.
What it has assigned by then stays. The record is seen as the list of its fields, and each update
writes one of them, behind those written before. No update then undoes an earlier one, so the
record is what it was exactly when each update that was made has written what was there.
-/

namespace RemoteManage.Foundation

/-- Updates one after the other, up to the first that is missing, and whether none is. -/
def applyUntil {S : Type*} : List (Option (S → S)) → S → S × Bool
  | [], s => (s, true)
  | none :: _, s => (s, false)
  | some update :: rest, s => applyUntil rest (update s)

namespace FieldUpdates

variable {S V : Type*}

/-- The updates that are made leave the record as it is. -/
def Keep (updates : List (Option (S → S))) (s : S) : Prop :=
  ∀ update, some update ∈ updates.takeWhile Option.isSome → update s = s

/-- An update writes a value into a field and does nothing when the value is there. -/
def Writes (fields : S → List V) (i : ℕ) (update : S → S) : Prop :=
  ∃ v, (∀ s, fields (update s) = (fields s).set i v) ∧ ∀ s, (fields s)[i]? = some v → update s = s

/-- The updates write the fields from `i` on, one each. -/
def WriteFrom (fields : S → List V) : ℕ → List (Option (S → S)) → Prop
  | _, [] => True
  | i, update :: rest => (∀ f, update = some f → Writes fields i f) ∧ WriteFrom fields (i + 1) rest

/-- All updates are made exactly when none is missing. -/
theorem applyUntil_snd_iff (updates : List (Option (S → S))) (s : S) :
    (applyUntil updates s).2 = true ↔ none ∉ updates := by
  induction updates generalizing s with
  | nil => simp [applyUntil]
  | cons update rest ih =>
    cases update with
    | none => simp [applyUntil]
    | some f => simpa [applyUntil] using ih (f s)

/-- The first of the updates leaves the record as it is, and so do those made after it. -/
theorem keep_cons_iff {f : S → S} {rest : List (Option (S → S))} {s : S} :
    Keep (some f :: rest) s ↔ f s = s ∧ Keep rest s := by
  rw [Keep, List.takeWhile_cons_of_pos rfl]
  constructor
  · intro h
    exact ⟨h f List.mem_cons_self, fun g hg => h g (List.mem_cons_of_mem _ hg)⟩
  · rintro ⟨hfirst, hrest⟩ g hg
    rcases List.mem_cons.mp hg with heq | hmem
    · obtain rfl := Option.some.inj heq
      exact hfirst
    · exact hrest g hmem

/-- Updates that leave the record as it is one by one do so together. -/
theorem applyUntil_of_keep {updates : List (Option (S → S))} {s : S} (h : Keep updates s) :
    (applyUntil updates s).1 = s := by
  induction updates with
  | nil => rfl
  | cons update rest ih =>
    cases update with
    | none => rfl
    | some f =>
      obtain ⟨hfirst, hrest⟩ := keep_cons_iff.mp h
      rw [applyUntil, hfirst]
      exact ih hrest

variable {fields : S → List V}

/-- Fields before those that are written stay. -/
theorem applyUntil_field_of_lt {i j : ℕ} (hj : j < i) {updates : List (Option (S → S))}
    (h : WriteFrom fields i updates) (s : S) : (fields (applyUntil updates s).1)[j]? = (fields s)[j]? := by
  induction updates generalizing i s with
  | nil => rfl
  | cons update rest ih =>
    cases update with
    | none => rfl
    | some f =>
      obtain ⟨v, hset, -⟩ := h.1 f rfl
      rw [applyUntil, ih (Nat.lt_succ_of_lt hj) h.2, hset, List.getElem?_set_ne (Nat.ne_of_gt hj)]

/-- When the fields that are written are what they were, each update that was made has left the record as
it was. -/
theorem keep_of_applyUntil {n i : ℕ} (hfields : ∀ s, (fields s).length = n)
    {updates : List (Option (S → S))} (hlength : i + updates.length ≤ n)
    (h : WriteFrom fields i updates) {s : S}
    (hsame : ∀ j, i ≤ j → j < i + updates.length →
      (fields (applyUntil updates s).1)[j]? = (fields s)[j]?) : Keep updates s := by
  induction updates generalizing i with
  | nil => exact fun f hf => absurd hf List.not_mem_nil
  | cons update rest ih =>
    rw [List.length_cons] at hlength hsame
    cases update with
    | none => exact fun f hf => absurd hf List.not_mem_nil
    | some f =>
      obtain ⟨v, hset, hkeep⟩ := h.1 f rfl
      -- no later update writes this field, so it holds what the update has written
      have hfirst : f s = s := by
        apply hkeep
        have hwritten := applyUntil_field_of_lt (Nat.lt_succ_self i) h.2 (f s)
        rw [hset, List.getElem?_set_self (by rw [hfields]; omega)] at hwritten
        rw [← hsame i (Nat.le_refl i) (by omega)]
        exact hwritten
      refine keep_cons_iff.mpr ⟨hfirst, ih (by omega) h.2 fun j hi hj => ?_⟩
      have hlater := hsame j (by omega) (by omega)
      rwa [applyUntil, hfirst] at hlater

end FieldUpdates

end RemoteManage.Foundation
