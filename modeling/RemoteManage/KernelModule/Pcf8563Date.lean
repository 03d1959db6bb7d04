import RemoteManage.KernelModule.Pcf8563

/-!
# The date in the registers of the PCF8563 clock

Seven registers hold the date in BCD, with the century beside the month. What the emulated clock
shows is a function of the second alone.
-/

namespace RemoteManage.KernelModule

open RemoteManage.Foundation RemoteManage.Foundation.Calendar

/-- Two decimal digits in a byte. -/
def bcdByte (n : ℕ) : UInt8 := UInt8.ofNat (n / 10 * 16 + n % 10)

/-- `to_bcd` of a number of two digits. -/
theorem toBcd_ofInt {n : ℕ} (h : n < 100) : toBcd (UInt8.ofInt n) = bcdByte n := by
  have hall : ∀ n < 100, toBcd (UInt8.ofInt (n : ℕ)) = bcdByte n := by decide +kernel
  exact hall n h

/-- `from_bcd` of two digits. -/
theorem fromBcd_bcdByte {n : ℕ} (h : n < 100) : (fromBcd (bcdByte n)).toNat = n := by
  have hall : ∀ n < 100, (fromBcd (bcdByte n)).toNat = n := by decide +kernel
  exact hall n h

/-- Minutes and seconds have seven bits. -/
theorem bcdByte_and_7F {n : ℕ} (h : n < 60) : bcdByte n &&& 0x7F = bcdByte n ∧ bcdByte n &&& 0x80 = 0 := by
  have hall : ∀ n < 60, bcdByte n &&& 0x7F = bcdByte n ∧ bcdByte n &&& 0x80 = 0 := by decide +kernel
  exact hall n h

/-- Hours and days of the month have six bits. -/
theorem bcdByte_and_3F {n : ℕ} (h : n < 40) : bcdByte n &&& 0x3F = bcdByte n := by
  have hall : ∀ n < 40, bcdByte n &&& 0x3F = bcdByte n := by decide +kernel
  exact hall n h

/-- A month has five bits, and the century is kept beside them. -/
theorem bcdByte_century {n : ℕ} (h : n < 20) :
    (bcdByte n &&& 0x7F) &&& 0x1F = bcdByte n ∧ (bcdByte n &&& 0x7F) &&& 0x80 = 0 ∧
      (bcdByte n ||| 0x80) &&& 0x1F = bcdByte n ∧ (bcdByte n ||| 0x80) &&& 0x80 ≠ 0 := by
  have hall : ∀ n < 20, (bcdByte n &&& 0x7F) &&& 0x1F = bcdByte n ∧ (bcdByte n &&& 0x7F) &&& 0x80 = 0 ∧
      (bcdByte n ||| 0x80) &&& 0x1F = bcdByte n ∧ (bcdByte n ||| 0x80) &&& 0x80 ≠ 0 := by decide +kernel
  exact hall n h

/-- A day of the week has three bits. -/
theorem weekday_and_07 {n : ℕ} (h : n < 7) : (UInt8.ofInt n &&& 0x07).toNat = n := by
  have hall : ∀ n < 7, (UInt8.ofInt (n : ℕ) &&& 0x07).toNat = n := by decide +kernel
  exact hall n h

/-- The seven bytes in which the emulated clock shows a date. -/
def dateBytes (tm : Tm) : List UInt8 :=
  let month := toBcd (UInt8.ofInt (tm.mon + 1))
  [toBcd (UInt8.ofInt tm.sec), toBcd (UInt8.ofInt tm.min), toBcd (UInt8.ofInt tm.hour),
    toBcd (UInt8.ofInt tm.mday), UInt8.ofInt tm.wday,
    if tm.year ≥ 100 then month &&& 0x7F else month ||| 0x80,
    toBcd (UInt8.ofInt (tm.year.tmod 100))]

/-- The registers of the date show those bytes, whatever was in the register file. -/
theorem regsFrom_shownRegs (regs : Pcf8563Regs) (tm : Tm) :
    I2cBus.regsFrom (Pcf8563State.shownRegs regs tm) 2 7 = dateBytes tm := by
  unfold Pcf8563State.shownRegs dateBytes
  dsimp only
  split <;> rfl

/-- The fields that `localtime` finds, between 1900 and 2099, are those of a clock. -/
theorem localtime_eq {timestamp : ℤ} (hstart : 1900 ≤ (dateTimeOf timestamp).date.year)
    (hend : (dateTimeOf timestamp).date.year < 2100) :
    ∃ sec min hour mday mon year wday : ℕ, localtime timestamp = ⟨sec, min, hour, mday, mon, year, wday⟩ ∧
      sec < 60 ∧ min < 60 ∧ hour < 24 ∧ mday < 32 ∧ mon < 12 ∧ year < 200 ∧ wday < 7 := by
  obtain ⟨hdate, hhour, hmin, hsec⟩ := (dateTimeOf_spec timestamp).1
  have hmday := hdate.day_le.trans (monthDays_le _ _)
  have hyear : (dateTimeOf timestamp).date.year - 1900 =
      (((dateTimeOf timestamp).date.year - 1900).toNat : ℤ) := by omega
  refine ⟨_, _, _, _, _, ((dateTimeOf timestamp).date.year - 1900).toNat, _, ?_, hsec, hmin, hhour,
    Nat.lt_succ_of_le hmday, hdate.month_lt, ?_, weekdayOf_lt (timestamp / 86400)⟩
  · rw [localtime, ← hyear]
  · omega

end RemoteManage.KernelModule
