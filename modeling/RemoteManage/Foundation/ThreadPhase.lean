import Mathlib.Algebra.BigOperators.Group.Finset.Piecewise
import Mathlib.Data.Fintype.Basic

/-!
# Threads counted by their phase

Finitely many threads are each in one phase of the operation they perform. A step of one thread
moves it from a phase to another one: the first count falls by one, the second grows by one and
every other count stays. Accounting invariants over threads in mid-operation are sums of such
counts.
-/

namespace RemoteManage.Foundation

variable {ι P : Type*} [Fintype ι] [DecidableEq P]

/-- The number of threads in a phase. -/
def inPhase (phase : ι → P) (p : P) : ℕ := (Finset.univ.filter fun thread => phase thread = p).card

/-- Threads that are all in one phase are in no other. -/
theorem inPhase_const_of_ne {p q : P} (h : q ≠ p) : inPhase (fun _ : ι => q) p = 0 := by
  rw [inPhase, Finset.filter_false_of_mem fun _ _ => h]
  rfl

/-- A phase that a thread is in has threads. -/
theorem inPhase_pos {phase : ι → P} {thread : ι} {p : P} (h : phase thread = p) : 0 < inPhase phase p :=
  Finset.card_pos.mpr ⟨thread, Finset.mem_filter.mpr ⟨Finset.mem_univ thread, h⟩⟩

variable [DecidableEq ι] {phase : ι → P} {thread : ι} {p q : P}

/-- What a thread's move does to the count of any phase. -/
theorem inPhase_update (phase : ι → P) (thread : ι) (q p : P) :
    inPhase (Function.update phase thread q) p + (if phase thread = p then 1 else 0) =
      inPhase phase p + if q = p then 1 else 0 := by
  have hothers : ∑ other ∈ Finset.univ.erase thread,
      (if Function.update phase thread q other = p then 1 else 0) =
        ∑ other ∈ Finset.univ.erase thread, if phase other = p then 1 else 0 := by
    refine Finset.sum_congr rfl fun other hother => ?_
    rw [Function.update_of_ne (Finset.ne_of_mem_erase hother)]
  have hbefore :=
    Finset.add_sum_erase _ (fun other => if phase other = p then 1 else 0) (Finset.mem_univ thread)
  rw [inPhase, inPhase, Finset.card_filter, Finset.card_filter, ← hbefore,
    ← Finset.add_sum_erase _ _ (Finset.mem_univ thread), hothers, Function.update_self]
  omega

/-- The phase that a thread enters has one thread more. -/
theorem inPhase_update_to (h : phase thread = p) (hne : p ≠ q) :
    inPhase (Function.update phase thread q) q = inPhase phase q + 1 := by
  simpa [h, hne] using inPhase_update phase thread q q

/-- The phase that a thread leaves has one thread less. -/
theorem inPhase_update_from (h : phase thread = p) (hne : q ≠ p) :
    inPhase (Function.update phase thread q) p + 1 = inPhase phase p := by
  simpa [h, hne] using inPhase_update phase thread q p

/-- The other phases keep their threads. -/
theorem inPhase_update_of_ne {r : P} (h : phase thread = p) (hp : p ≠ r) (hq : q ≠ r) :
    inPhase (Function.update phase thread q) r = inPhase phase r := by
  simpa [h, hp, hq] using inPhase_update phase thread q r

end RemoteManage.Foundation
