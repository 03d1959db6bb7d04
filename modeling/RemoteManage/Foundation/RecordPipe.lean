import Mathlib.Data.List.Forall2

/-!
# Records on an unframed byte stream

Writers put whole records on a stream, a reader takes any number of symbols off it and
handles what it took by one call. Nothing on the stream says where a record ends, so the
records arrive one by one only if every read takes exactly the oldest record. What a call
sees of a record is a parameter, since a reader may hand on more than it has read.
-/

namespace RemoteManage.Foundation

/-- The records written, the symbols queued and the calls made. -/
structure RecordPipe (α C : Type*) where
  written : List (List α)
  queued : List α
  calls : List C

namespace RecordPipe

variable {α C : Type*}

/-- An empty stream. -/
def empty : RecordPipe α C := ⟨[], [], []⟩

/-- A record is written. -/
def write (p : RecordPipe α C) (record : List α) : RecordPipe α C :=
  { p with written := p.written ++ [record], queued := p.queued ++ record }

/-- The next `k` symbols are read and handled by a call. -/
def read (p : RecordPipe α C) (k : ℕ) (call : C) : RecordPipe α C :=
  { p with queued := p.queued.drop k, calls := p.calls ++ [call] }

/-- Each record is either still queued or has been seen by one call, in the order of writing. -/
def Delivered (sees : List α → C → Prop) (p : RecordPipe α C) : Prop :=
  ∃ passed pending, p.written = passed ++ pending ∧ p.queued = pending.flatten ∧
    List.Forall₂ sees passed p.calls

/-- A read of `k` symbols takes exactly the oldest record that no call has seen. -/
def TakesRecord (p : RecordPipe α C) (k : ℕ) : Prop :=
  p.written[p.calls.length]?.map List.length = some k

instance (p : RecordPipe α C) (k : ℕ) : Decidable (p.TakesRecord k) :=
  inferInstanceAs (Decidable (_ = _))

variable {sees : List α → C → Prop} {p : RecordPipe α C}

/-- On an empty stream nothing is missing. -/
theorem delivered_empty : Delivered sees (empty : RecordPipe α C) := ⟨[], [], rfl, rfl, .nil⟩

/-- The oldest record that no call has seen is the first one queued. -/
theorem getElem?_calls {passed pending : List (List α)} (hwritten : p.written = passed ++ pending)
    (hsees : List.Forall₂ sees passed p.calls) : p.written[p.calls.length]? = pending.head? := by
  rw [hwritten, ← hsees.length_eq, List.getElem?_append_right (Nat.le_refl _), Nat.sub_self,
    List.head?_eq_getElem?]

/-- Writing loses nothing. -/
theorem Delivered.write (h : Delivered sees p) (record : List α) : Delivered sees (p.write record) := by
  obtain ⟨passed, pending, hwritten, hqueued, hsees⟩ := h
  refine ⟨passed, pending ++ [record], ?_, ?_, hsees⟩
  · rw [RecordPipe.write, hwritten, List.append_assoc]
  · rw [RecordPipe.write, hqueued, List.flatten_append, List.flatten_singleton]

/-- A read that takes exactly the oldest record passes it on. -/
theorem Delivered.read (h : Delivered sees p) {k : ℕ} (hk : p.TakesRecord k) {call : C}
    (hcall : sees (p.queued.take k) call) : Delivered sees (p.read k call) := by
  obtain ⟨passed, pending, hwritten, hqueued, hsees⟩ := h
  rw [TakesRecord, getElem?_calls hwritten hsees] at hk
  cases pending with
  | nil => contradiction
  | cons record rest =>
    obtain rfl : record.length = k := Option.some.inj hk
    rw [hqueued, List.flatten_cons, List.take_left] at hcall
    refine ⟨passed ++ [record], rest, ?_, ?_, List.rel_append hsees (.cons hcall .nil)⟩
    · rw [RecordPipe.read, hwritten, List.append_assoc, List.singleton_append]
    · rw [RecordPipe.read, hqueued, List.flatten_cons, List.drop_left]

/-- If nothing is missing after a read, the read has taken exactly the oldest record. -/
theorem Delivered.takesRecord (h : Delivered sees p) {k : ℕ} (hk : k ≤ p.queued.length) {call : C}
    (hread : Delivered sees (p.read k call)) : p.TakesRecord k := by
  obtain ⟨passed, pending, hwritten, hqueued, hsees⟩ := h
  obtain ⟨passed', pending', hwritten', hqueued', hsees'⟩ := hread
  have hcount : passed'.length = passed.length + 1 := by
    rw [hsees'.length_eq, hsees.length_eq, RecordPipe.read, List.length_append, List.length_singleton]
  have hsplit : passed ++ pending = passed' ++ pending' := hwritten.symm.trans hwritten'
  rw [TakesRecord, getElem?_calls hwritten hsees]
  cases pending with
  | nil =>
    have hlen := congrArg List.length hsplit
    simp only [List.append_nil, List.length_append] at hlen
    omega
  | cons record rest =>
    rw [← List.singleton_append, ← List.append_assoc] at hsplit
    have hlen : (passed ++ [record]).length = passed'.length := by
      rw [List.length_append, List.length_singleton, hcount]
    obtain ⟨-, rfl⟩ := List.append_inj hsplit hlen
    have hrest := congrArg List.length hqueued'
    rw [RecordPipe.read, hqueued] at hrest
    rw [hqueued] at hk
    simp only [List.flatten_cons, List.length_drop, List.length_append] at hrest hk
    have hrecord : record.length = k := by omega
    rw [List.head?_cons, Option.map_some, hrecord]

end RecordPipe

end RemoteManage.Foundation
