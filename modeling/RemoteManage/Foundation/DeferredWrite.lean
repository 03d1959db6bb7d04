import Mathlib.Data.Multiset.AddSub
import Mathlib.Data.Multiset.MapFold
import Mathlib.Data.List.Flatten

/-!
# Writes that are carried out later

An asynchronous write refers to a region of the caller's memory. What it puts on the wire
is what the region contains at the time of each piece, and the pieces of several writes
under way may come in any order. The bytes the region contained when the write was
submitted are recorded with it, so that what was asked for can be compared with what is
sent.

The wire is the concatenation of the submitted blocks as long as no store changes what is
still to be sent and no piece is sent while another write is partly sent: the three rules
`Orderly.store`, `Orderly.submit` and `Orderly.send` carry this through every run.
-/

namespace RemoteManage.Foundation.DeferredWrite

/-- A write under way: the region it refers to, its length, how much of it has been sent, and the
block the region contained when it was submitted. -/
structure Op (R α : Type*) where
  region : R
  length : ℕ
  sent : ℕ
  block : List α
  deriving DecidableEq

/-- The memory, the writes under way, what has been put on the wire and the blocks submitted. -/
structure State (M R α : Type*) where
  memory : M
  outstanding : Multiset (Op R α)
  wire : List α
  submitted : List (List α)

variable {M R α : Type*} (view : M → R → List α)

/-- What memory contains of the part of a write that is still to be sent. -/
def unsent (m : M) (op : Op R α) : List α :=
  ((view m op.region).drop op.sent).take (op.length - op.sent)

/-- A store to memory. -/
def store (s : State M R α) (m : M) : State M R α := { s with memory := m }

/-- A write of the first part of a region is submitted. -/
def submit (s : State M R α) (region : R) (length : ℕ) : State M R α :=
  let block := (view s.memory region).take length
  { s with
    outstanding := ⟨region, length, 0, block⟩ ::ₘ s.outstanding
    submitted := s.submitted ++ [block] }

/-- The next piece of a write under way is sent; a write that has been sent entirely is completed. -/
def send [DecidableEq R] [DecidableEq α] (s : State M R α) (op : Op R α) (n : ℕ) :
    Option (State M R α) :=
  if op ∈ s.outstanding ∧ 0 < n ∧ op.sent + n ≤ op.length then
    some { s with
      wire := s.wire ++ (unsent view s.memory op).take n
      outstanding :=
        if op.sent + n = op.length then s.outstanding.erase op
        else { op with sent := op.sent + n } ::ₘ s.outstanding.erase op }
  else none

/-- The wire is a first part of a concatenation of the blocks submitted, each of them once, and all
of it when no write is under way. -/
def Concatenated (s : State M R α) : Prop :=
  ∃ order : List (List α), order.Perm s.submitted ∧ s.wire <+: order.flatten ∧
    (s.outstanding = 0 → s.wire = order.flatten)

/-- The writes sent, in the order in which they have been, and at most one partly sent. -/
def Arranged (outstanding : Multiset (Op R α)) (done : List (List α)) (wire : List α) : Prop :=
  ((∀ op ∈ outstanding, op.sent = 0) ∧ wire = done.flatten) ∨
    ∃ op rest, outstanding = op ::ₘ rest ∧ (∀ other ∈ rest, other.sent = 0) ∧
      wire = done.flatten ++ op.block.take op.sent

/-- Memory still contains what each write under way is to send, and the wire is arranged. -/
structure Orderly (s : State M R α) : Prop where
  length : ∀ op ∈ s.outstanding, op.block.length = op.length
  unfinished : ∀ op ∈ s.outstanding, op.sent < op.length
  kept : ∀ op ∈ s.outstanding, unsent view s.memory op = op.block.drop op.sent
  arranged : ∃ done : List (List α),
    (done : Multiset (List α)) + s.outstanding.map Op.block = (s.submitted : Multiset (List α)) ∧
      Arranged s.outstanding done s.wire

variable {view} {s : State M R α}

/-- A wire on which nothing has been asked for. -/
theorem orderly_initial (m : M) : Orderly view (⟨m, 0, [], []⟩ : State M R α) where
  length op hop := absurd hop (Multiset.notMem_zero op)
  unfinished op hop := absurd hop (Multiset.notMem_zero op)
  kept op hop := absurd hop (Multiset.notMem_zero op)
  arranged := ⟨[], rfl, .inl ⟨fun op hop => absurd hop (Multiset.notMem_zero op), rfl⟩⟩

/-- In an orderly state the wire is a concatenation of the blocks submitted. -/
theorem Orderly.concatenated (h : Orderly view s) : Concatenated s := by
  obtain ⟨done, hsubmitted, ⟨hzero, hwire⟩ | ⟨op, rest, hcons, -, hwire⟩⟩ := h.arranged
  · obtain ⟨later, hlater⟩ := Quot.exists_rep (s.outstanding.map Op.block)
    change (later : Multiset (List α)) = _ at hlater
    rw [← hlater, Multiset.coe_add, Multiset.coe_eq_coe] at hsubmitted
    refine ⟨done ++ later, hsubmitted, ?_, ?_⟩
    · rw [hwire, List.flatten_append]
      exact List.prefix_append _ _
    · intro hnone
      rw [hnone, Multiset.map_zero, Multiset.coe_eq_zero] at hlater
      rw [hwire, hlater, List.append_nil]
  · obtain ⟨later, hlater⟩ := Quot.exists_rep (rest.map Op.block)
    change (later : Multiset (List α)) = _ at hlater
    rw [hcons, Multiset.map_cons, ← hlater, Multiset.cons_coe, Multiset.coe_add,
      Multiset.coe_eq_coe] at hsubmitted
    refine ⟨done ++ op.block :: later, hsubmitted, ?_, ?_⟩
    · rw [hwire, List.flatten_append, List.flatten_cons, List.prefix_append_right_inj]
      exact (List.take_prefix _ _).trans (List.prefix_append _ _)
    · intro hnone
      rw [hnone] at hcons
      exact absurd hcons.symm (Multiset.cons_ne_zero)

/-- A store that leaves alone what is still to be sent. -/
theorem Orderly.store (h : Orderly view s) (m : M)
    (hkept : ∀ op ∈ s.outstanding, unsent view m op = unsent view s.memory op) :
    Orderly view (store s m) where
  length := h.length
  unfinished := h.unfinished
  kept op hop := (hkept op hop).trans (h.kept op hop)
  arranged := h.arranged

/-- A submission, at any time. -/
theorem Orderly.submit (h : Orderly view s) (region : R) {length : ℕ} (hpos : 0 < length)
    (hlength : length ≤ (view s.memory region).length) : Orderly view (submit view s region length) := by
  obtain ⟨done, hsubmitted, harranged⟩ := h.arranged
  have hblock : ((view s.memory region).take length).length = length := by
    rw [List.length_take, min_eq_left hlength]
  refine ⟨?_, ?_, ?_, done, ?_, ?_⟩
  · intro op hop
    rcases Multiset.mem_cons.mp hop with rfl | hop
    · exact hblock
    · exact h.length op hop
  · intro op hop
    rcases Multiset.mem_cons.mp hop with rfl | hop
    · exact hpos
    · exact h.unfinished op hop
  · intro op hop
    rcases Multiset.mem_cons.mp hop with rfl | hop
    · rfl
    · exact h.kept op hop
  · change (done : Multiset (List α)) + (_ ::ₘ s.outstanding).map Op.block =
      ((s.submitted ++ [_] : List (List α)) : Multiset (List α))
    rw [Multiset.map_cons, Multiset.add_cons, hsubmitted, ← Multiset.coe_add, Multiset.coe_singleton,
      Multiset.add_comm, Multiset.singleton_add]
  · rcases harranged with ⟨hzero, hwire⟩ | ⟨op, rest, hcons, hzero, hwire⟩
    · refine .inl ⟨?_, hwire⟩
      intro op hop
      rcases Multiset.mem_cons.mp hop with rfl | hop
      · rfl
      · exact hzero op hop
    · refine .inr ⟨op, ⟨region, length, 0, (view s.memory region).take length⟩ ::ₘ rest, ?_, ?_, hwire⟩
      · change _ ::ₘ s.outstanding = _
        rw [hcons, Multiset.cons_swap]
      · intro other hother
        rcases Multiset.mem_cons.mp hother with rfl | hother
        · rfl
        · exact hzero other hother

/-- Of the writes under way, one may go on when none of the others is partly sent. -/
theorem Arranged.focus {outstanding rest : Multiset (Op R α)} {op : Op R α} {done : List (List α)}
    {wire : List α} (h : Arranged outstanding done wire) (hop : outstanding = op ::ₘ rest)
    (hrest : ∀ other ∈ rest, other.sent = 0) : wire = done.flatten ++ op.block.take op.sent := by
  rcases h with ⟨hzero, hwire⟩ | ⟨busy, others, hbusy, hothers, hwire⟩
  · have hsent : op.sent = 0 := hzero op (hop ▸ Multiset.mem_cons_self op rest)
    rw [hwire, hsent, List.take_zero, List.append_nil]
  · by_cases hsame : op = busy
    · rw [hsame, hwire]
    · have hbusySent : busy.sent = 0 := by
        have hmem : busy ∈ op ::ₘ rest := hop ▸ hbusy ▸ Multiset.mem_cons_self busy others
        exact hrest busy ((Multiset.mem_cons.mp hmem).resolve_left (Ne.symm hsame))
      have hsent : op.sent = 0 := by
        have hmem : op ∈ busy ::ₘ others := hbusy ▸ hop ▸ Multiset.mem_cons_self op rest
        exact hothers op ((Multiset.mem_cons.mp hmem).resolve_left hsame)
      rw [hwire, hbusySent, hsent]
      simp only [List.take_zero]

/-- Sending reads memory and leaves it alone. -/
theorem send_memory [DecidableEq R] [DecidableEq α] {op : Op R α} {n : ℕ} {s' : State M R α}
    (hstep : send view s op n = some s') : s'.memory = s.memory := by
  obtain ⟨-, heq⟩ := Option.ite_none_right_eq_some.mp hstep
  rw [← Option.some.inj heq]

/-- A piece sent while no other write is partly sent. -/
theorem Orderly.send [DecidableEq R] [DecidableEq α] (h : Orderly view s) {op : Op R α} {n : ℕ}
    (halone : ∀ other ∈ s.outstanding.erase op, other.sent = 0) {s' : State M R α}
    (hstep : send view s op n = some s') : Orderly view s' := by
  obtain ⟨⟨hop, hn, hle⟩, heq⟩ := Option.ite_none_right_eq_some.mp hstep
  obtain rfl := Option.some.inj heq
  obtain ⟨done, hsubmitted, harranged⟩ := h.arranged
  have hcons : s.outstanding = op ::ₘ s.outstanding.erase op := (Multiset.cons_erase hop).symm
  have hlength := h.length op hop
  have hwire : s.wire ++ (unsent view s.memory op).take n =
      done.flatten ++ op.block.take (op.sent + n) := by
    rw [harranged.focus hcons halone, h.kept op hop, List.append_assoc, ← List.take_add]
  have hrest : ∀ other ∈ s.outstanding.erase op, other ∈ s.outstanding :=
    fun other hother => Multiset.mem_of_mem_erase hother
  by_cases hlast : op.sent + n = op.length
  · simp only [if_pos hlast]
    refine ⟨fun o ho => h.length o (hrest o ho), fun o ho => h.unfinished o (hrest o ho),
      fun o ho => h.kept o (hrest o ho), done ++ [op.block], ?_, .inl ⟨halone, ?_⟩⟩
    · rw [hcons, Multiset.map_cons, ← Multiset.singleton_add] at hsubmitted
      rw [← hsubmitted, ← Multiset.coe_add, Multiset.coe_singleton, Multiset.add_assoc]
    · rw [hwire, hlast, ← hlength, List.take_length, List.flatten_append, List.flatten_singleton]
  · simp only [if_neg hlast]
    refine ⟨?_, ?_, ?_, done, ?_, .inr ⟨_, _, rfl, halone, hwire⟩⟩
    · intro o ho
      rcases Multiset.mem_cons.mp ho with rfl | ho
      · exact hlength
      · exact h.length o (hrest o ho)
    · intro o ho
      rcases Multiset.mem_cons.mp ho with rfl | ho
      · exact lt_of_le_of_ne hle hlast
      · exact h.unfinished o (hrest o ho)
    · intro o ho
      rcases Multiset.mem_cons.mp ho with rfl | ho
      · have hkept := congrArg (List.drop n) (h.kept op hop)
        rw [unsent, List.drop_take, List.drop_drop, List.drop_drop] at hkept
        rw [unsent, ← hkept, Nat.sub_sub]
      · exact h.kept o (hrest o ho)
    · rw [hcons, Multiset.map_cons] at hsubmitted
      rw [Multiset.map_cons]
      exact hsubmitted

end RemoteManage.Foundation.DeferredWrite
