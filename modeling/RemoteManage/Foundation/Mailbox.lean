import Mathlib.Data.List.Nodup
import Mathlib.Data.List.GetD

/-!
# A mailbox of one place

A producer finds items one after another and puts the last one found into a single place, over
whatever is there. The place can be emptied by anybody, and an item that lies in it can be taken
without emptying it. Items are known by their position among those found, so that two of the same
value can be told apart. The newest item is not lost as long as it is on its way to the place, in
the place, or taken.
-/

namespace RemoteManage.Foundation

variable {A : Type*}

/-- The items found, whether the last of them is on its way, the item in the place, and those taken. -/
structure Mailbox (A : Type*) where
  found : List A
  underway : Bool
  place : Option ℕ
  taken : List ℕ
  deriving DecidableEq, Repr

namespace Mailbox

/-- Nothing has been found. -/
def empty : Mailbox A := ⟨[], false, none, []⟩

/-- The producer finds an item. -/
def find (box : Mailbox A) (a : A) : Mailbox A := { box with found := box.found ++ [a], underway := true }

/-- The producer puts the last item found into the place. -/
def put (box : Mailbox A) : Mailbox A := { box with place := some (box.found.length - 1), underway := false }

/-- The place is emptied. -/
def clear (box : Mailbox A) : Mailbox A := { box with place := none }

/-- What lies in the place is taken. -/
def take (box : Mailbox A) : Mailbox A := { box with taken := box.taken ++ box.place.toList }

/-- The item in the place has been found, and is the last one unless a newer one is on its way; an item is on
its way only when one has been found. -/
structure Wf (box : Mailbox A) : Prop where
  place_lt : ∀ k, box.place = some k → k < box.found.length
  place_last : ∀ k, box.place = some k → box.underway = false → k + 1 = box.found.length
  underway_found : box.underway = true → box.found ≠ []

/-- The last item found is on its way, in the place, or taken. -/
def KeepsNewest (box : Mailbox A) : Prop :=
  box.found = [] ∨ box.underway = true ∨ box.place = some (box.found.length - 1) ∨
    box.found.length - 1 ∈ box.taken

/-- The newest item is kept, and no item is taken twice. -/
def Delivers (box : Mailbox A) : Prop := box.KeepsNewest ∧ box.taken.Nodup

/-- Emptying the place loses nothing: what lies in it has been taken, or a newer item is on its way. -/
def MayClear (box : Mailbox A) : Prop := box.underway = true ∨ ∀ k, box.place = some k → k ∈ box.taken

/-- What lies in the place has not been taken. -/
def MayTake (box : Mailbox A) : Prop := ∀ k, box.place = some k → k ∉ box.taken

instance [DecidableEq A] (box : Mailbox A) : Decidable box.KeepsNewest :=
  inferInstanceAs (Decidable (_ ∨ _))

instance (box : Mailbox A) : Decidable box.MayClear :=
  match h : box.place with
  | none => isTrue (Or.inr (by simp [h]))
  | some k => decidable_of_iff (box.underway = true ∨ k ∈ box.taken) (by simp [MayClear, h])

instance (box : Mailbox A) : Decidable box.MayTake :=
  match h : box.place with
  | none => isTrue (by simp [MayTake, h])
  | some k => decidable_of_iff (k ∉ box.taken) (by simp [MayTake, h])

/-- The empty mailbox is well formed. -/
theorem empty_wf : (empty : Mailbox A).Wf := ⟨nofun, nofun, nofun⟩

/-- The empty mailbox has nothing to lose. -/
theorem empty_delivers : (empty : Mailbox A).Delivers := ⟨Or.inl rfl, List.nodup_nil⟩

variable {box : Mailbox A}

/-- Finding an item leaves the mailbox well formed. -/
theorem Wf.find (h : box.Wf) (a : A) : (box.find a).Wf where
  place_lt k hk := by
    have := h.place_lt k hk
    simp only [Mailbox.find, List.length_append]
    omega
  place_last k hk hunder := Bool.noConfusion hunder
  underway_found _ := by simp [Mailbox.find]

/-- Putting the last item into the place leaves the mailbox well formed. -/
theorem Wf.put (h : box.Wf) (hunder : box.underway = true) : box.put.Wf where
  place_lt k hk := by
    have := List.length_pos_of_ne_nil (h.underway_found hunder)
    obtain rfl := Option.some.inj hk
    exact Nat.sub_lt this Nat.one_pos
  place_last k hk _ := by
    obtain rfl := Option.some.inj hk
    exact Nat.sub_add_cancel (List.length_pos_of_ne_nil (h.underway_found hunder))
  underway_found := nofun

/-- Emptying the place leaves the mailbox well formed. -/
theorem Wf.clear (h : box.Wf) : box.clear.Wf := ⟨nofun, nofun, h.underway_found⟩

/-- Taking an item leaves the mailbox well formed. -/
theorem Wf.take (h : box.Wf) : box.take.Wf := ⟨h.place_lt, h.place_last, h.underway_found⟩

/-- Finding an item loses nothing. -/
theorem Delivers.find (h : box.Delivers) (a : A) : (box.find a).Delivers := ⟨Or.inr (Or.inl rfl), h.2⟩

/-- Putting the last item into the place loses nothing. -/
theorem Delivers.put (h : box.Delivers) : box.put.Delivers := ⟨Or.inr (Or.inr (Or.inl rfl)), h.2⟩

/-- Emptying the place loses nothing exactly when what lies in it has been taken or a newer item is on its
way. -/
theorem Delivers.clear_iff (h : box.Delivers) (hwf : box.Wf) : box.clear.Delivers ↔ box.MayClear := by
  constructor
  · rintro ⟨hnil | hunder | hplace | htaken, -⟩
    · refine Or.inr fun k hk => absurd (hwf.place_lt k hk) ?_
      rw [show box.found = [] from hnil]
      exact Nat.not_lt_zero k
    · exact Or.inl hunder
    · exact absurd hplace.symm (Option.some_ne_none _)
    · cases hunder : box.underway with
      | true => exact Or.inl hunder
      | false =>
        refine Or.inr fun k hk => ?_
        have hlast := hwf.place_last k hk hunder
        exact (show k = box.found.length - 1 by omega) ▸ htaken
  · intro hmay
    refine ⟨?_, h.2⟩
    rcases h.1 with hnil | hunder | hplace | htaken
    · exact Or.inl hnil
    · exact Or.inr (Or.inl hunder)
    · rcases hmay with hunder | hread
      · exact Or.inr (Or.inl hunder)
      · exact Or.inr (Or.inr (Or.inr (hread _ hplace)))
    · exact Or.inr (Or.inr (Or.inr htaken))

/-- Taking what lies in the place takes no item twice exactly when it has not been taken before. -/
theorem Delivers.take_iff (h : box.Delivers) : box.take.Delivers ↔ box.MayTake := by
  have hkeeps : box.take.KeepsNewest := by
    rcases h.1 with hnil | hunder | hplace | htaken
    · exact Or.inl hnil
    · exact Or.inr (Or.inl hunder)
    · exact Or.inr (Or.inr (Or.inl hplace))
    · exact Or.inr (Or.inr (Or.inr (List.mem_append_left _ htaken)))
  unfold Delivers MayTake
  rw [and_iff_right hkeeps, take]
  cases hplace : box.place with
  | none => simpa using h.2
  | some k =>
    simp only [Option.toList_some, List.nodup_append, h.2, List.nodup_singleton, true_and,
      List.mem_singleton, forall_eq, Option.some.injEq, forall_eq']
    exact ⟨fun hnew hk => hnew k hk rfl, fun hnew a ha hak => hnew (hak ▸ ha)⟩

end Mailbox

end RemoteManage.Foundation
