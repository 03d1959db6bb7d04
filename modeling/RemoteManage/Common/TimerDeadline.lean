import Mathlib.Algebra.Order.Ring.Int

/-!
# The deadline of the timer thread

`timer_struct::run` waits until an absolute time, which it computes from a reading of the monotonic clock. The
seconds of the reading are turned into milliseconds in the `long` of the platform before the period
is added as an `uint64_t`. A product or a sum that the `long` cannot represent is undefined.
-/

namespace RemoteManage.Common

/-- The platforms the process is built for. -/
inductive Platform where
  | armTarget
  | host
  deriving DecidableEq, Repr

namespace Platform

/-- The width of a `long`, which is that of `time_t` as well. -/
def longBits : Platform → ℕ
  | armTarget => 32
  | host => 64

/-- The value is one of a `long`. -/
def IsLong (p : Platform) (x : ℤ) : Prop := -2 ^ (p.longBits - 1) ≤ x ∧ x < 2 ^ (p.longBits - 1)

instance (p : Platform) (x : ℤ) : Decidable (p.IsLong x) := inferInstanceAs (Decidable (_ ∧ _))

/-- The result of an operation on `long`, which is undefined on overflow. -/
def long (p : Platform) (x : ℤ) : Option ℤ := if p.IsLong x then some x else none

/-- The conversion of an `uint64_t` to `long`. -/
def toLong (p : Platform) (x : UInt64) : ℤ := Int.bmod x.toNat (2 ^ p.longBits)

end Platform

/-- `struct timespec`. -/
structure Timespec where
  tvSec : ℤ
  tvNsec : ℤ
  deriving DecidableEq, Repr

/-- The absolute time that `timer_struct::run` computes from a reading of the clock. -/
def deadline (p : Platform) (ts : Timespec) (period : UInt64) : Option Timespec := do
  let seconds ← p.long (ts.tvSec * 1000)
  let sum ← p.long (seconds + ts.tvNsec.tdiv 1000000)
  let millisecond := UInt64.ofInt sum + period
  let tvSec := p.toLong (millisecond / 1000)
  let tvNsec := p.toLong ((millisecond - millisecond / 1000 * 1000) * 1000 * 1000)
  return ⟨tvSec, tvNsec⟩

/-- What the monotonic clock returns on a platform. -/
structure ClockReading (p : Platform) where
  ts : Timespec
  tvSec_nonneg : 0 ≤ ts.tvSec
  tvSec_long : p.IsLong ts.tvSec
  tvNsec_nonneg : 0 ≤ ts.tvNsec
  tvNsec_lt : ts.tvNsec < 1000000000

namespace ClockReading

variable {p : Platform}

/-- The reading rounded down to milliseconds. -/
def milliseconds (now : ClockReading p) : ℤ := now.ts.tvSec * 1000 + now.ts.tvNsec / 1000000

/-- The deadline is a time of the clock, the period behind the reading. -/
def DeadlineLaw (now : ClockReading p) (period : UInt64) : Prop :=
  ∃ ts, deadline p now.ts period = some ts ∧ 0 ≤ ts.tvNsec ∧ ts.tvNsec < 1000000000 ∧
    ts.tvSec * 1000000000 + ts.tvNsec = (now.milliseconds + period.toNat) * 1000000

/-- The milliseconds of the reading are a `long`. -/
def Representable (now : ClockReading p) : Prop := now.milliseconds < 2 ^ (p.longBits - 1)

instance (now : ClockReading p) : Decidable now.Representable := inferInstanceAs (Decidable (_ < _))

/-- No deadline is computed from a reading whose milliseconds are no `long`. -/
theorem representable_of_deadlineLaw {now : ClockReading p} {period : UInt64}
    (h : now.DeadlineLaw period) : now.Representable := by
  obtain ⟨ts, hdeadline, -⟩ := h
  obtain ⟨seconds, hseconds, hrest⟩ := Option.bind_eq_some_iff.mp hdeadline
  obtain ⟨sum, hsum, -⟩ := Option.bind_eq_some_iff.mp hrest
  obtain ⟨-, hproduct⟩ := Option.ite_none_right_eq_some.mp hseconds
  obtain ⟨hlong, -⟩ := Option.ite_none_right_eq_some.mp hsum
  rw [← Option.some.inj hproduct, Int.tdiv_eq_ediv_of_nonneg now.tvNsec_nonneg] at hlong
  exact hlong.2

/-- What fits into a `long` keeps its value when an `uint64_t` is converted. -/
theorem toLong_of_lt {x : UInt64} (h : x.toNat < 2 ^ (p.longBits - 1)) : p.toLong x = x.toNat := by
  cases p <;>
  · simp only [Platform.longBits] at h
    apply Int.bmod_eq_of_le <;> simp only [Platform.longBits] <;> omega

/-- The milliseconds since the clock's start do not lie before it. -/
theorem milliseconds_nonneg (now : ClockReading p) : 0 ≤ now.milliseconds := by
  have hsec := now.tvSec_nonneg
  have hnsec := now.tvNsec_nonneg
  rw [milliseconds]
  omega

/-- Representable milliseconds stay below half of what an `uint64_t` can count. -/
theorem milliseconds_lt {now : ClockReading p} (h : now.Representable) : now.milliseconds < 2 ^ 63 := by
  refine lt_of_lt_of_le h ?_
  cases p <;> decide

/-- The milliseconds of the deadline. -/
theorem toNat_millisecond {now : ClockReading p} {period : UInt64} (hperiod : period.toNat < 2 ^ 31)
    (h : now.Representable) :
    (UInt64.ofInt now.milliseconds + period).toNat = now.milliseconds.toNat + period.toNat := by
  have hnonneg := now.milliseconds_nonneg
  have hlt := milliseconds_lt h
  rw [UInt64.toNat_add, UInt64.ofInt, UInt64.toNat_ofNat']
  omega

/-- Both operations on `long` have a result, the milliseconds of the reading. -/
theorem long_milliseconds {now : ClockReading p} (h : now.Representable) :
    p.long (now.ts.tvSec * 1000) = some (now.ts.tvSec * 1000) ∧
      p.long (now.ts.tvSec * 1000 + now.ts.tvNsec.tdiv 1000000) = some now.milliseconds := by
  have hsec := now.tvSec_nonneg
  have hnsec := now.tvNsec_nonneg
  have hpow : (0 : ℤ) < 2 ^ (p.longBits - 1) := Int.pow_pos (by decide)
  rw [Representable, milliseconds] at h
  rw [Int.tdiv_eq_ediv_of_nonneg hnsec]
  exact ⟨if_pos ⟨by omega, by omega⟩, if_pos ⟨by omega, h⟩⟩

/-- The seconds of the deadline are a `long`. -/
theorem seconds_lt {now : ClockReading p} {period : UInt64} (hperiod : period.toNat < 2 ^ 31)
    (h : now.Representable) :
    (now.milliseconds.toNat + period.toNat) / 1000 < 2 ^ (p.longBits - 1) := by
  have hnonneg := now.milliseconds_nonneg
  rw [Representable] at h
  cases p <;> simp only [Platform.longBits] at h ⊢ <;> omega

/-- The deadline is computed as it is meant when the milliseconds of the reading are representable. -/
theorem deadlineLaw_of_representable {now : ClockReading p} {period : UInt64}
    (hperiod : period.toNat < 2 ^ 31) (h : now.Representable) : now.DeadlineLaw period := by
  have hnonneg := now.milliseconds_nonneg
  have hlt := milliseconds_lt h
  obtain ⟨hproduct, hsum⟩ := long_milliseconds h
  have hmillisecond := toNat_millisecond hperiod h
  set millisecond := UInt64.ofInt now.milliseconds + period with hdef
  have hseconds : (millisecond / 1000).toNat = millisecond.toNat / 1000 := UInt64.toNat_div ..
  have hwhole : (millisecond / 1000 * 1000).toNat = millisecond.toNat / 1000 * 1000 := by
    rw [UInt64.toNat_mul, hseconds]
    change _ * 1000 % _ = _
    omega
  have hrest : (millisecond - millisecond / 1000 * 1000).toNat = millisecond.toNat % 1000 := by
    rw [UInt64.toNat_sub_of_le _ _ (UInt64.le_iff_toNat_le.mpr (by omega)), hwhole]
    omega
  have hnsec : ((millisecond - millisecond / 1000 * 1000) * 1000 * 1000).toNat =
      millisecond.toNat % 1000 * 1000000 := by
    rw [UInt64.toNat_mul, UInt64.toNat_mul, hrest]
    change _ * 1000 % _ * 1000 % _ = _
    omega
  have hsecLong := toLong_of_lt (p := p) (x := millisecond / 1000)
    (by rw [hseconds, hmillisecond]; exact seconds_lt hperiod h)
  have hnsecLong := toLong_of_lt (p := p) (x := (millisecond - millisecond / 1000 * 1000) * 1000 * 1000)
    (by rw [hnsec]; cases p <;> simp only [Platform.longBits] <;> omega)
  refine ⟨⟨p.toLong (millisecond / 1000),
    p.toLong ((millisecond - millisecond / 1000 * 1000) * 1000 * 1000)⟩, ?_, ?_, ?_, ?_⟩
  · simp [deadline, hproduct, hsum, hdef]
  · rw [hnsecLong]
    exact Int.natCast_nonneg _
  · dsimp only
    rw [hnsecLong, hnsec]
    omega
  · dsimp only
    rw [hsecLong, hnsecLong, hseconds, hnsec]
    omega

/-- The deadline lies the period behind the reading exactly when the milliseconds of the reading are a
`long`. -/
theorem deadlineLaw_iff (p : Platform) (now : ClockReading p) (period : UInt64)
    (hperiod : period.toNat < 2 ^ 31) : now.DeadlineLaw period ↔ now.Representable :=
  ⟨representable_of_deadlineLaw, deadlineLaw_of_representable hperiod⟩

/-- The clock of the target at its start. -/
def start : ClockReading .armTarget := ⟨⟨0, 0⟩, by decide, by decide, by decide, by decide⟩

/-- The first deadline of a timer of the target. -/
theorem deadlineLaw_iff_start : start.DeadlineLaw 100 ↔ start.Representable :=
  deadlineLaw_iff .armTarget start 100 (by decide)

/-- The clock of the target after 25 days. -/
def late : ClockReading .armTarget := ⟨⟨2147484, 0⟩, by decide, by decide, by decide, by decide⟩

/-- The target has no deadline then. -/
theorem not_deadlineLaw_late : ¬ late.DeadlineLaw 100 := fun h =>
  absurd (representable_of_deadlineLaw h) (by decide)

end ClockReading

end RemoteManage.Common
