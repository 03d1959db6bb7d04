import RemoteManage.Foundation.MemoryCopy
import Mathlib.Algebra.BigOperators.Ring.List
import Mathlib.Algebra.Order.Ring.Nat
import Mathlib.Data.Int.Basic
import Mathlib.Data.Nat.ModEq

/-!
# The two RAM-disk drivers

`ram_blk_submit_bio` goes through the segments of a bio by sectors, one transfer a segment.
`ram_queue_rq` checks the range of a request in 32 bits and goes through its segments by bytes, with
a cursor into the memory and a count of what remains. A segment is the contents of its buffer; a
read replaces them. The memory is that behind `ram_blk_addr`, and pointers into it are offsets.

Inside the disk both move the flattened segments in one piece.
-/

namespace RemoteManage.KernelModule

open RemoteManage.Foundation

/-- `DISK_SECTORS_TOTAL`. -/
abbrev diskSectorsTotal : ℕ := 1 * 2048 * 10

/-- `DISK_SECTOR_BLOCK`. -/
abbrev diskSectorBlock : ℕ := 512

theorem diskSectorsTotal_eq : diskSectorsTotal = 20480 := rfl

theorem diskSectorBlock_eq : diskSectorBlock = 512 := rfl

/-- `RAM_CAPACITY`, which `ram_size` is set to. -/
def ramCapacity : UInt32 := UInt32.ofNat (diskSectorsTotal * diskSectorBlock)

/-- The memory of a RAM disk. -/
abbrev RamMemory := ℕ → UInt8

/-- A bio or a request: its direction, its first sector and the buffers of its segments. -/
structure DiskRequest where
  write : Bool
  sector : ℕ
  segments : List (List UInt8)
  deriving DecidableEq, Repr

/-- `blk_rq_sectors`: the sectors of all segments together. -/
def DiskRequest.sectors (rq : DiskRequest) : ℕ := rq.segments.flatten.length / diskSectorBlock

/-- The segments are made of whole sectors. -/
def DiskRequest.Aligned (rq : DiskRequest) : Prop := ∀ segment ∈ rq.segments, diskSectorBlock ∣ segment.length

/-- The request is made of whole sectors and inside the capacity of the disk. -/
structure DiskRequest.Inside (rq : DiskRequest) : Prop where
  aligned : rq.Aligned
  inside : rq.sector + rq.sectors ≤ diskSectorsTotal

/-- `ram_blk_transfer`, with `unsigned long` of 32 bits. -/
def ramBlkTransfer (memory : RamMemory) (sector nsect : UInt32) (buffer : List UInt8) (write : Bool) :
    RamMemory × List UInt8 :=
  let offset := sector <<< 9
  let nbytes := nsect <<< 9
  if write then (storeAt memory offset.toNat (buffer.take nbytes.toNat), buffer)
  else (memory, loadAt memory offset.toNat nbytes.toNat ++ buffer.drop nbytes.toNat)

/-- The loop of `ram_blk_submit_bio` over the segments. -/
def submitSegments (write : Bool) : RamMemory → ℕ → List (List UInt8) → RamMemory × List (List UInt8)
  | memory, _, [] => (memory, [])
  | memory, sector, buffer :: rest =>
    let len := buffer.length >>> 9
    let moved := ramBlkTransfer memory (UInt32.ofNat sector) (UInt32.ofNat len) buffer write
    let others := submitSegments write moved.1 (sector + len) rest
    (others.1, moved.2 :: others.2)

/-- `ram_blk_submit_bio`: the memory and the buffers afterwards. -/
def ramBlkSubmitBio (memory : RamMemory) (bio : DiskRequest) : RamMemory × List (List UInt8) :=
  submitSegments bio.write memory bio.sector bio.segments

/-- `blk_status_t`, as far as it is used. -/
inductive BlkStatus where
  | ok
  | ioerr
  deriving DecidableEq, Repr

/-- The loop of `ram_queue_rq` over the segments, from the cursor on. -/
def queueSegments (write : Bool) : RamMemory → ℕ → ℤ → List (List UInt8) → RamMemory × List (List UInt8)
  | memory, _, _, [] => (memory, [])
  | memory, cursor, remaining, bv :: rest =>
    if remaining = 0 then (memory, bv :: rest)
    else
      let size := min (bv.length : ℤ) remaining
      let moved := if write then (storeAt memory cursor bv, bv) else (memory, loadAt memory cursor bv.length)
      let others := queueSegments write moved.1 (cursor + size.toNat) (remaining - size) rest
      (others.1, moved.2 :: others.2)

/-- `ram_queue_rq`: the memory, the buffers and the status afterwards. -/
def ramQueueRq (memory : RamMemory) (rq : DiskRequest) : RamMemory × List (List UInt8) × BlkStatus :=
  let remaining : UInt32 := UInt32.ofNat rq.sectors <<< 9
  let offset : UInt32 := UInt32.ofNat rq.sector <<< 9
  if remaining + offset > ramCapacity then (memory, rq.segments, .ioerr)
  else
    let moved := queueSegments rq.write memory offset.toNat remaining.toInt32.toInt rq.segments
    (moved.1, moved.2, .ok)

/-- A list cut into pieces of given lengths. -/
def cut : List ℕ → List UInt8 → List (List UInt8)
  | [], _ => []
  | length :: rest, bytes => bytes.take length :: cut rest (bytes.drop length)

/-- What a transfer does to a memory and the buffers: a write stores them from an address on, a read loads as
many bytes into them. -/
def performAt (write : Bool) (memory : RamMemory) (address : ℕ) (segments : List (List UInt8)) :
    RamMemory × List (List UInt8) :=
  if write then (storeAt memory address segments.flatten, segments)
  else (memory, cut (segments.map List.length) (loadAt memory address segments.flatten.length))

/-- What a request does to a memory and its buffers. -/
def DiskRequest.perform (rq : DiskRequest) (memory : RamMemory) : RamMemory × List (List UInt8) :=
  performAt rq.write memory (rq.sector * diskSectorBlock) rq.segments

/-- A transfer moves one segment and then the others behind it. -/
theorem performAt_cons (write : Bool) (memory : RamMemory) (address : ℕ) (segment : List UInt8)
    (rest : List (List UInt8)) :
    performAt write memory address (segment :: rest) =
      let moved := if write then (storeAt memory address segment, segment)
        else (memory, loadAt memory address segment.length)
      let others := performAt write moved.1 (address + segment.length) rest
      (others.1, moved.2 :: others.2) := by
  cases write with
  | true =>
    simp only [performAt, if_true, List.flatten_cons, storeAt_append]
  | false =>
    simp only [performAt, Bool.false_eq_true, if_false, List.flatten_cons, List.map_cons, cut,
      List.length_append, loadAt_add]
    rw [List.take_left' (loadAt_length ..), List.drop_left' (loadAt_length ..)]

/-- A transfer of no bytes does nothing. -/
theorem performAt_of_flatten_nil (write : Bool) (memory : RamMemory) (address : ℕ)
    (segments : List (List UInt8)) (h : segments.flatten = []) :
    performAt write memory address segments = (memory, segments) := by
  induction segments with
  | nil => cases write <;> simp [performAt, cut]
  | cons segment rest ih =>
    obtain ⟨rfl, hrest⟩ := List.append_eq_nil_iff.mp h
    rw [performAt_cons]
    cases write <;> simp [ih, hrest, loadAt]

/-- A shift by nine bits multiplies by the size of a sector, as long as the product has 32 bits. -/
theorem shift_sectors {n : ℕ} (h : n < 8388608) : (UInt32.ofNat n <<< 9).toNat = n * diskSectorBlock := by
  have hlt : n < 4294967296 := by omega
  rw [UInt32.toNat_shiftLeft, UInt32.toNat_ofNat_of_lt' hlt]
  change (n <<< 9) % 4294967296 = n * 512
  rw [Nat.shiftLeft_eq]
  omega

/-- A transfer of whole sectors inside the disk moves the segment. -/
theorem ramBlkTransfer_eq (memory : RamMemory) {sector : ℕ} {buffer : List UInt8} (write : Bool)
    (haligned : diskSectorBlock ∣ buffer.length)
    (hinside : sector + buffer.length / diskSectorBlock ≤ diskSectorsTotal) :
    ramBlkTransfer memory (UInt32.ofNat sector) (UInt32.ofNat (buffer.length >>> 9)) buffer write =
      if write then (storeAt memory (sector * diskSectorBlock) buffer, buffer)
      else (memory, loadAt memory (sector * diskSectorBlock) buffer.length) := by
  have hlen : buffer.length >>> 9 = buffer.length / diskSectorBlock := Nat.shiftRight_eq_div_pow _ 9
  have hbytes : buffer.length / diskSectorBlock * diskSectorBlock = buffer.length :=
    Nat.div_mul_cancel haligned
  have htotal : diskSectorsTotal < 8388608 := by decide
  have hsector : sector < 8388608 := by omega
  have hsectors : buffer.length / diskSectorBlock < 8388608 := by
    generalize buffer.length / diskSectorBlock = sectors at hinside ⊢
    omega
  rw [ramBlkTransfer, hlen, shift_sectors hsector, shift_sectors hsectors, hbytes, List.take_length,
    List.drop_length, List.append_nil]

/-- The loop of `ram_blk_submit_bio` performs the request. -/
theorem submitSegments_eq (write : Bool) (memory : RamMemory) (sector : ℕ) (segments : List (List UInt8))
    (haligned : ∀ segment ∈ segments, diskSectorBlock ∣ segment.length)
    (hinside : sector + segments.flatten.length / diskSectorBlock ≤ diskSectorsTotal) :
    submitSegments write memory sector segments =
      performAt write memory (sector * diskSectorBlock) segments := by
  induction segments generalizing memory sector with
  | nil => cases write <;> simp [submitSegments, performAt, cut]
  | cons segment rest ih =>
    rw [List.forall_mem_cons] at haligned
    have hlen : segment.length >>> 9 = segment.length / diskSectorBlock := Nat.shiftRight_eq_div_pow _ 9
    have hbytes : segment.length / diskSectorBlock * diskSectorBlock = segment.length :=
      Nat.div_mul_cancel haligned.1
    rw [List.flatten_cons, List.length_append, Nat.add_div_of_dvd_right haligned.1, ← Nat.add_assoc]
      at hinside
    rw [submitSegments, performAt_cons]
    dsimp only
    rw [ramBlkTransfer_eq memory write haligned.1 (Nat.le_of_add_right_le hinside), hlen,
      ih _ _ haligned.2 hinside, Nat.add_mul, hbytes]

/-- The loop of `ram_queue_rq` performs the request, when as many bytes remain as the segments have. -/
theorem queueSegments_eq (write : Bool) (memory : RamMemory) (cursor : ℕ) (segments : List (List UInt8)) :
    queueSegments write memory cursor segments.flatten.length segments =
      performAt write memory cursor segments := by
  induction segments generalizing memory cursor with
  | nil => cases write <;> simp [queueSegments, performAt, cut]
  | cons segment rest ih =>
    rw [queueSegments]
    split
    · next hempty =>
      have hflat : (segment :: rest).flatten = [] := List.eq_nil_of_length_eq_zero (by exact_mod_cast hempty)
      exact (performAt_of_flatten_nil write memory cursor _ hflat).symm
    · have hsize : min (segment.length : ℤ) ((segment :: rest).flatten.length : ℕ) = segment.length := by
        rw [List.flatten_cons, List.length_append]
        omega
      have hleft : (((segment :: rest).flatten.length : ℕ) : ℤ) - segment.length = rest.flatten.length := by
        rw [List.flatten_cons, List.length_append]
        omega
      dsimp only
      rw [hsize, hleft, Int.toNat_natCast, ih, performAt_cons]

/-- `ram_blk_submit_bio` performs a request inside the disk. -/
theorem ramBlkSubmitBio_eq (memory : RamMemory) {rq : DiskRequest} (h : rq.Inside) :
    ramBlkSubmitBio memory rq = rq.perform memory :=
  submitSegments_eq rq.write memory rq.sector rq.segments h.aligned h.inside

/-- The sum that `ram_queue_rq` compares with `ram_size`, when it has 32 bits. -/
theorem queueRange {sectors sector : ℕ} (hsectors : sectors ≤ 2097152) (hsector : sector ≤ diskSectorsTotal) :
    UInt32.ofNat sectors <<< 9 + UInt32.ofNat sector <<< 9 > ramCapacity ↔
      diskSectorsTotal < sectors + sector := by
  have hcapacity : ramCapacity.toNat = 20480 * 512 := rfl
  rw [diskSectorsTotal_eq] at hsector ⊢
  rw [gt_iff_lt, UInt32.lt_iff_toNat_lt, UInt32.toNat_add, shift_sectors (by omega), shift_sectors (by omega),
    hcapacity, diskSectorBlock_eq]
  omega

/-- The bytes of aligned segments are those of whole sectors. -/
theorem DiskRequest.Aligned.bytes {rq : DiskRequest} (h : rq.Aligned) :
    rq.segments.flatten.length = rq.sectors * diskSectorBlock := by
  refine (Nat.div_mul_cancel ?_).symm
  rw [List.length_flatten]
  refine List.dvd_sum fun length hlength => ?_
  obtain ⟨segment, hsegment, rfl⟩ := List.mem_map.mp hlength
  exact h segment hsegment

/-- `ram_queue_rq` performs a request inside the disk and reports success. -/
theorem ramQueueRq_eq (memory : RamMemory) {rq : DiskRequest} (h : rq.Inside) :
    ramQueueRq memory rq = ((rq.perform memory).1, (rq.perform memory).2, .ok) := by
  have hinside : rq.sector + rq.sectors ≤ 20480 := h.inside
  have hsector : rq.sector ≤ diskSectorsTotal := Nat.le_of_add_right_le h.inside
  have hremaining : (UInt32.ofNat rq.sectors <<< 9).toInt32.toInt = rq.segments.flatten.length := by
    rw [h.aligned.bytes, ← shift_sectors (by omega)]
    refine BitVec.toInt_eq_toNat_of_lt ?_
    change 2 * (UInt32.ofNat rq.sectors <<< 9).toNat < 4294967296
    rw [shift_sectors (by omega), diskSectorBlock_eq]
    omega
  have hfits : ¬diskSectorsTotal < rq.sectors + rq.sector := by
    rw [Nat.add_comm]
    exact Nat.not_lt.mpr h.inside
  rw [ramQueueRq]
  dsimp only
  rw [if_neg ((queueRange (by omega) hsector).not.mpr hfits), hremaining, shift_sectors (by omega),
    queueSegments_eq]
  rfl

/-- `ram_queue_rq` refuses a request that begins inside the disk and ends behind it. -/
theorem ramQueueRq_ioerr (memory : RamMemory) {rq : DiskRequest} (hstart : rq.sector < diskSectorsTotal)
    (hbeyond : diskSectorsTotal < rq.sector + rq.sectors) (hsize : rq.sectors ≤ 2097152) :
    ramQueueRq memory rq = (memory, rq.segments, .ioerr) :=
  if_pos ((queueRange hsize hstart.le).mpr (by omega))

end RemoteManage.KernelModule
