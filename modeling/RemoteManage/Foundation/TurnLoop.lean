import Mathlib.Data.Nat.Notation

/-!
# Loops that return from their turns

The body of an endless loop either goes on with a new state or returns. What a turn guarantees, whether it
goes on or returns, holds after any number of turns, and the loop returns when a measure falls with every
turn that goes on.
-/

namespace RemoteManage.Foundation

/-- What a turn of a loop comes to. -/
inductive LoopTurn (S R : Type*) where
  | again (s : S)
  | done (result : R) (s : S)

namespace LoopTurn

variable {S R : Type*}

/-- The state that a turn leaves. -/
def state : LoopTurn S R → S
  | again s => s
  | done _ s => s

/-- A turn that goes on leaves one condition, and a turn that returns another one. -/
def Ensures (inv : S → Prop) (post : R → S → Prop) : LoopTurn S R → Prop
  | again s => inv s
  | done result s => post result s

/-- What `k` turns come to, or fewer when one of them returns. -/
def iterate (turn : S → LoopTurn S R) : ℕ → S → LoopTurn S R
  | 0, s => again s
  | k + 1, s =>
    match turn s with
    | again s' => iterate turn k s'
    | done result s' => done result s'

variable {turn : S → LoopTurn S R} {inv : S → Prop} {post : R → S → Prop}

/-- After a turn that goes on the loop goes on from its state. -/
theorem iterate_of_again {s s' : S} (h : turn s = again s') (k : ℕ) :
    iterate turn (k + 1) s = iterate turn k s' := by
  rw [iterate, h]

/-- A turn that returns ends the loop. -/
theorem iterate_of_done {s s' : S} {result : R} (h : turn s = done result s') (k : ℕ) :
    iterate turn (k + 1) s = done result s' := by
  rw [iterate, h]

/-- Weaker conditions are ensured as well. -/
theorem Ensures.imp {t : LoopTurn S R} {inv' : S → Prop} {post' : R → S → Prop} (h : t.Ensures inv post)
    (hinv : ∀ s, inv s → inv' s) (hpost : ∀ result s, post result s → post' result s) :
    t.Ensures inv' post' := by
  cases t with
  | again s => exact hinv s h
  | done result s => exact hpost result s h

/-- So is a weaker condition for the turns that go on. -/
theorem Ensures.imp_again {t : LoopTurn S R} {inv' : S → Prop} (h : t.Ensures inv post)
    (hinv : ∀ s, inv s → inv' s) : t.Ensures inv' post :=
  h.imp hinv fun _ _ hpost => hpost

/-- What every turn ensures is so after any number of turns. -/
theorem iterate_ensures (hturn : ∀ s, inv s → (turn s).Ensures inv post) {s : S} (hs : inv s) (k : ℕ) :
    (iterate turn k s).Ensures inv post := by
  induction k generalizing s with
  | zero => exact hs
  | succ k ih =>
    have h := hturn s hs
    cases hs' : turn s with
    | again s' =>
      rw [hs'] at h
      rw [iterate_of_again hs']
      exact ih h
    | done result s' =>
      rw [hs'] at h
      rw [iterate_of_done hs']
      exact h

/-- A loop returns when every turn that goes on lowers a measure. -/
theorem exists_iterate_done (measure : S → ℕ)
    (hturn : ∀ s, inv s → (turn s).Ensures (fun s' => inv s' ∧ measure s' < measure s) post)
    {s : S} (hs : inv s) : ∃ k result t, iterate turn k s = done result t := by
  induction hm : measure s using Nat.strongRecOn generalizing s with
  | ind m ih =>
    have h := hturn s hs
    cases hs' : turn s with
    | again s' =>
      rw [hs'] at h
      obtain ⟨k, result, t, hk⟩ := ih (measure s') (hm ▸ h.2) h.1 rfl
      exact ⟨k + 1, result, t, (iterate_of_again hs' k).trans hk⟩
    | done result t => exact ⟨1, result, t, iterate_of_done hs' 0⟩

end LoopTurn

end RemoteManage.Foundation
