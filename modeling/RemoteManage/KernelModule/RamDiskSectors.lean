import RemoteManage.Foundation.Mealy
import RemoteManage.KernelModule.RamDisk
import Mathlib.Data.List.Induction

/-!
# The disk of sectors behind the RAM-disk drivers

The reference disk knows sectors only: each holds what the last write to it stored, or what was there
at first. Both drivers keep their memory equal to it, and so read the same.
-/

namespace RemoteManage.KernelModule

open RemoteManage.Foundation

/-- The bytes of a sector. -/
def sectorOf (memory : RamMemory) (n : ℕ) : List UInt8 := loadAt memory (n * diskSectorBlock) diskSectorBlock

/-- What a request stores in a sector, if it is a write and the sector is in its range. -/
def DiskRequest.stored (rq : DiskRequest) (n : ℕ) : Option (List UInt8) :=
  if rq.write ∧ rq.sector ≤ n ∧ n < rq.sector + rq.sectors then
    some ((rq.segments.flatten.drop ((n - rq.sector) * diskSectorBlock)).take diskSectorBlock)
  else none

/-- A sector after some requests: what the last write to it stored, or what was there at first. -/
def sectorAfter (initial : RamMemory) (history : List DiskRequest) (n : ℕ) : List UInt8 :=
  (history.reverse.findSome? (·.stored n)).getD (sectorOf initial n)

/-- One more request changes the sectors it stores to. -/
theorem sectorAfter_append (initial : RamMemory) (history : List DiskRequest) (rq : DiskRequest) (n : ℕ) :
    sectorAfter initial (history ++ [rq]) n = (rq.stored n).getD (sectorAfter initial history n) := by
  rw [sectorAfter, List.reverse_append, List.reverse_singleton, List.singleton_append, List.findSome?_cons]
  cases h : rq.stored n with
  | none => rw [Option.getD_none, sectorAfter]
  | some bytes => rw [Option.getD_some, Option.getD_some]

/-- A request of whole sectors changes the sectors it stores to. -/
theorem sectorOf_perform (memory : RamMemory) {rq : DiskRequest} (h : rq.Aligned) (n : ℕ) :
    sectorOf (rq.perform memory).1 n = (rq.stored n).getD (sectorOf memory n) := by
  cases hwrite : rq.write with
  | false => simp [DiskRequest.perform, performAt, DiskRequest.stored, hwrite]
  | true =>
    simp only [DiskRequest.perform, performAt, DiskRequest.stored, hwrite, if_true, true_and, sectorOf]
    split
    · next hrange =>
      have hplace :
          n * diskSectorBlock = rq.sector * diskSectorBlock + (n - rq.sector) * diskSectorBlock := by
        rw [← Nat.add_mul, Nat.add_sub_cancel' hrange.1]
      have hend : (n - rq.sector) * diskSectorBlock + diskSectorBlock ≤ rq.segments.flatten.length := by
        rw [h.bytes, ← Nat.succ_mul]
        exact Nat.mul_le_mul_right _ (by omega)
      rw [hplace, loadAt_storeAt_inside _ _ _ _ _ hend, Option.getD_some]
    · next hrange =>
      rw [Option.getD_none]
      refine loadAt_storeAt_outside _ _ _ _ _ ?_
      rw [h.bytes, ← Nat.succ_mul, ← Nat.add_mul]
      exact (show n + 1 ≤ rq.sector ∨ rq.sector + rq.sectors ≤ n by omega).imp (Nat.mul_le_mul_right _)
        (Nat.mul_le_mul_right _)

/-- The pieces of a cut keep the lengths that they were given. -/
theorem cut_lengths (lengths : List ℕ) (bytes : List UInt8) (h : lengths.sum = bytes.length) :
    (cut lengths bytes).map List.length = lengths := by
  induction lengths generalizing bytes with
  | nil => rfl
  | cons length rest ih =>
    rw [List.sum_cons] at h
    rw [cut, List.map_cons, ih _ (by rw [List.length_drop]; omega), List.length_take,
      Nat.min_eq_left (by omega)]

/-- The pieces of a cut are all of the bytes. -/
theorem cut_flatten (lengths : List ℕ) (bytes : List UInt8) (h : lengths.sum = bytes.length) :
    (cut lengths bytes).flatten = bytes := by
  induction lengths generalizing bytes with
  | nil => exact (List.eq_nil_of_length_eq_zero h.symm).symm
  | cons length rest ih =>
    rw [List.sum_cons] at h
    rw [cut, List.flatten_cons, ih _ (by rw [List.length_drop]; omega), List.take_append_drop]

/-- A read fills buffers of the same lengths with the sectors of its range. -/
theorem DiskRequest.perform_read (memory : RamMemory) {rq : DiskRequest} (h : rq.Aligned)
    (hread : rq.write = false) :
    (rq.perform memory).2.map List.length = rq.segments.map List.length ∧
      (rq.perform memory).2.flatten =
        (List.range rq.sectors).flatMap fun k => sectorOf memory (rq.sector + k) := by
  have hsum : (rq.segments.map List.length).sum =
      (loadAt memory (rq.sector * diskSectorBlock) rq.segments.flatten.length).length := by
    rw [loadAt_length, List.length_flatten]
  simp only [DiskRequest.perform, performAt, hread, Bool.false_eq_true, if_false]
  refine ⟨cut_lengths _ _ hsum, ?_⟩
  rw [cut_flatten _ _ hsum, h.bytes, loadAt_blocks]
  rfl

/-- After requests inside the disk both drivers hold the same memory, that of the reference disk. -/
theorem ramDisks_hold (initial : RamMemory) (history : List DiskRequest) (h : ∀ rq ∈ history, rq.Inside) :
    Mealy.after ramQueueRq initial history = Mealy.after ramBlkSubmitBio initial history ∧
      ∀ n, sectorOf (Mealy.after ramBlkSubmitBio initial history) n = sectorAfter initial history n := by
  induction history using List.reverseRecOn with
  | nil => exact ⟨rfl, fun n => by rw [Mealy.after_nil, sectorAfter]; simp⟩
  | append_singleton history rq ih =>
    obtain ⟨hmemory, hsectors⟩ := ih fun earlier hearlier => h earlier (List.mem_append_left _ hearlier)
    have hrq : rq.Inside := h rq (List.mem_append_right _ List.mem_cons_self)
    simp only [Mealy.after_append, Mealy.after, hmemory, ramQueueRq_eq _ hrq, ramBlkSubmitBio_eq _ hrq,
      true_and]
    intro n
    rw [sectorOf_perform _ hrq.aligned, sectorAfter_append, hsectors]

/-- Both RAM-disk drivers are the reference disk: for requests inside it they hold its sectors and answer
alike, a read with those of its range. `ram_queue_rq` refuses what begins inside and ends behind. -/
theorem ramDisks_agree (initial : RamMemory) (history : List DiskRequest) (h : ∀ rq ∈ history, rq.Inside) :
    let memory := Mealy.after ramBlkSubmitBio initial history
    Mealy.after ramQueueRq initial history = memory ∧
    (∀ n, sectorOf memory n = sectorAfter initial history n) ∧
    (∀ rq : DiskRequest, rq.Inside →
      ramQueueRq memory rq = ((ramBlkSubmitBio memory rq).1, (ramBlkSubmitBio memory rq).2, .ok) ∧
      (∀ n, n < rq.sector ∨ rq.sector + rq.sectors ≤ n →
        sectorOf (ramBlkSubmitBio memory rq).1 n = sectorOf memory n) ∧
      (rq.write = false →
        (ramBlkSubmitBio memory rq).1 = memory ∧
        (ramBlkSubmitBio memory rq).2.map List.length = rq.segments.map List.length ∧
        (ramBlkSubmitBio memory rq).2.flatten =
          (List.range rq.sectors).flatMap fun k => sectorAfter initial history (rq.sector + k))) ∧
    ∀ rq : DiskRequest, rq.sector < diskSectorsTotal → diskSectorsTotal < rq.sector + rq.sectors →
      rq.sectors ≤ 2097152 → ramQueueRq memory rq = (memory, rq.segments, .ioerr) := by
  intro memory
  obtain ⟨hmemory, hsectors⟩ := ramDisks_hold initial history h
  refine ⟨hmemory, hsectors, fun rq hrq => ?_, fun rq hstart hbeyond hsize =>
    ramQueueRq_ioerr memory hstart hbeyond hsize⟩
  rw [ramBlkSubmitBio_eq memory hrq]
  refine ⟨ramQueueRq_eq memory hrq, fun n hn => ?_, fun hread => ?_⟩
  · rw [sectorOf_perform memory hrq.aligned, DiskRequest.stored, if_neg (by omega), Option.getD_none]
  · obtain ⟨hlengths, hbytes⟩ := rq.perform_read memory hrq.aligned hread
    refine ⟨by simp [DiskRequest.perform, performAt, hread], hlengths, ?_⟩
    rw [hbytes]
    exact List.flatMap_congr fun k _ => hsectors _

/-- Two sectors are written from one segment each, and then the second of them again. -/
def twoWrites : List DiskRequest :=
  [⟨true, 3, [List.replicate 512 7, List.replicate 512 8]⟩, ⟨true, 4, [List.replicate 512 9]⟩]

/-- A read of them with the sector before, into buffers of two sectors and one. -/
def readBack : DiskRequest := ⟨false, 2, [List.replicate 1024 0, List.replicate 512 0]⟩

/-- The read and the writes are inside the disk. -/
theorem inside_readBack_twoWrites : ∀ rq ∈ readBack :: twoWrites, rq.Inside := by
  have hall : ∀ rq ∈ readBack :: twoWrites,
      (∀ segment ∈ rq.segments, diskSectorBlock ∣ segment.length) ∧
        rq.sector + rq.sectors ≤ diskSectorsTotal := by
    decide +kernel
  exact fun rq hrq => ⟨(hall rq hrq).1, (hall rq hrq).2⟩

/-- Both drivers read back the sector that has not been written and the last bytes written to the others. -/
theorem ramDisks_agree_written :
    let memory := Mealy.after ramBlkSubmitBio (fun _ => 0) twoWrites
    Mealy.after ramQueueRq (fun _ => 0) twoWrites = memory ∧
      (ramBlkSubmitBio memory readBack).2.map List.length = [1024, 512] ∧
      (ramBlkSubmitBio memory readBack).2.flatten =
        List.replicate 512 0 ++ List.replicate 512 7 ++ List.replicate 512 9 ∧
      ramQueueRq memory readBack = (memory, (ramBlkSubmitBio memory readBack).2, .ok) := by
  intro memory
  obtain ⟨hread, hwrites⟩ := List.forall_mem_cons.mp inside_readBack_twoWrites
  obtain ⟨hmemory, -, hrequest, -⟩ := ramDisks_agree (fun _ => 0) twoWrites hwrites
  obtain ⟨hqueue, -, hreads⟩ := hrequest readBack hread
  obtain ⟨hkept, hlengths, hbytes⟩ := hreads rfl
  refine ⟨hmemory, hlengths.trans (by decide +kernel), hbytes.trans (by decide +kernel), ?_⟩
  rw [hqueue, hkept]

end RemoteManage.KernelModule
