import RemoteManage.Foundation.FixedBuffer

/-!
# The converters of `local_device`

`device_manage::update` reads the files of the two converters one after the other into a buffer on
its stack, and puts a zero behind what has been read. `read_string` may fill the whole buffer.
-/

namespace RemoteManage.LocalDevice

open RemoteManage.Foundation

/-- The size of `buf` in `update`. -/
abbrev updateBufSize : ℕ := 72

/-- `iio_device::read_string` on a file that holds some bytes, if it is open: the memory at `str`, and the
value returned. -/
def readString {n : ℕ} (file : Option (List UInt8)) (str : FixedBuffer UInt8 n) (size : ℕ) :
    FixedBuffer UInt8 n × ℤ :=
  match file with
  | none => (str, -1)
  | some content =>
    let ret := (content.take size).length
    if ret ≤ 0 then (str, -1) else (str.writeAll 0 (content.take size), ret)

/-- One converter is read by `update`. -/
def readConverter (buf : FixedBuffer UInt8 updateBufSize) (file : Option (List UInt8)) :
    FixedBuffer UInt8 updateBufSize :=
  let (buf, size) := readString file buf updateBufSize
  if size > 0 then buf.write size.toNat 0 else buf

/-- `buf` after `update` has read both converters. -/
def updateBuf (buf : FixedBuffer UInt8 updateBufSize) (vf610 hx711 : Option (List UInt8)) :
    FixedBuffer UInt8 updateBufSize :=
  readConverter (readConverter buf vf610) hx711

/-- A file that can be read leaves room for the zero. -/
def LeavesRoom (file : Option (List UInt8)) : Prop := ∀ content ∈ file, content.length < updateBufSize

instance (file : Option (List UInt8)) : Decidable (LeavesRoom file) :=
  match file with
  | none => isTrue fun _ h => nomatch h
  | some content => decidable_of_iff (content.length < updateBufSize) (by simp [LeavesRoom])

/-- A converter is read inside the buffer exactly when its file leaves room for the zero. -/
theorem overrun_readConverter_iff (buf : FixedBuffer UInt8 updateBufSize) (file : Option (List UInt8)) :
    (readConverter buf file).overrun = false ↔ buf.overrun = false ∧ LeavesRoom file := by
  cases file with
  | none => exact (and_iff_left fun _ h => nomatch h).symm
  | some content =>
    have hroom : LeavesRoom (some content) ↔ content.length < updateBufSize := by simp [LeavesRoom]
    have hsize : updateBufSize = 72 := rfl
    rw [hroom]
    by_cases hread : (content.take updateBufSize).length ≤ 0
    · have hnone : readConverter buf (some content) = buf := by
        simp only [readConverter, readString, if_pos hread]
        rfl
      rw [List.length_take] at hread
      rw [hnone, and_iff_left (by omega)]
    · have hsome : readConverter buf (some content) =
          (buf.writeAll 0 (content.take updateBufSize)).write (content.take updateBufSize).length 0 := by
        simp only [readConverter, readString, if_neg hread]
        rw [if_pos (by omega), Int.toNat_natCast]
      rw [hsome, FixedBuffer.overrun_terminated_iff, List.length_take]
      exact and_congr_right fun _ => by omega

/-- Both are read inside the buffer exactly when both files leave room for the zero. -/
theorem overrun_updateBuf_iff (buf : FixedBuffer UInt8 updateBufSize) (vf610 hx711 : Option (List UInt8)) :
    (updateBuf buf vf610 hx711).overrun = false ↔
      buf.overrun = false ∧ LeavesRoom vf610 ∧ LeavesRoom hx711 := by
  rw [updateBuf, overrun_readConverter_iff, overrun_readConverter_iff, and_assoc]

end RemoteManage.LocalDevice
