import Mathlib.Algebra.BigOperators.Group.List.Basic
import Mathlib.Algebra.Order.Ring.Int
import Mathlib.Data.List.GetD

/-!
# The proleptic Gregorian calendar

Days are numbered from the first of January 1970, in both directions. A date is found from the
number of its day by way of the year, whose first day has a closed form, and the blocks that the
months make in the year. Every valid date has one number and every number one valid date; the
calendar repeats itself every 400 years.

Months count from zero, days of a month from one.
-/

namespace RemoteManage.Foundation.Calendar

/-- The first position of a block in a list of consecutive blocks. -/
def blockStart (lengths : List ℕ) (i : ℕ) : ℕ := (lengths.take i).sum

/-- The block in which a position lies, and its place there. -/
def locate : List ℕ → ℕ → ℕ × ℕ
  | [], n => (0, n)
  | length :: rest, n =>
    if n < length then (0, n) else ((locate rest (n - length)).1 + 1, (locate rest (n - length)).2)

/-- The blocks after the first begin behind it. -/
theorem blockStart_cons_succ (length : ℕ) (rest : List ℕ) (i : ℕ) :
    blockStart (length :: rest) (i + 1) = length + blockStart rest i := by
  rw [blockStart, List.take_succ_cons, List.sum_cons, blockStart]

/-- A position inside the blocks lies in the block found, at the place found. -/
theorem locate_spec (lengths : List ℕ) (n : ℕ) (h : n < lengths.sum) :
    (locate lengths n).1 < lengths.length ∧
      blockStart lengths (locate lengths n).1 + (locate lengths n).2 = n ∧
      (locate lengths n).2 < lengths.getD (locate lengths n).1 0 := by
  induction lengths generalizing n with
  | nil => exact absurd h (Nat.not_lt_zero n)
  | cons length rest ih =>
    rw [List.sum_cons] at h
    by_cases hn : n < length
    · simp [locate, hn, blockStart]
    · obtain ⟨hblock, hplace, hlt⟩ := ih (n - length) (by omega)
      simp only [locate, if_neg hn, List.length_cons, List.getD_cons_succ, blockStart_cons_succ]
      exact ⟨by omega, by omega, hlt⟩

/-- The position at a place of a block is found there. -/
theorem locate_blockStart (lengths : List ℕ) (i k : ℕ) (hk : k < lengths.getD i 0) :
    locate lengths (blockStart lengths i + k) = (i, k) := by
  induction lengths generalizing i with
  | nil => exact absurd hk (by simp)
  | cons length rest ih =>
    cases i with
    | zero => simpa [locate, blockStart] using hk
    | succ i =>
      have hrest := ih i hk
      rw [blockStart_cons_succ, locate, if_neg (by omega),
        show length + blockStart rest i + k - length = blockStart rest i + k by omega, hrest]

/-- A place of a block lies inside the blocks. -/
theorem blockStart_add_lt (lengths : List ℕ) (i k : ℕ) (hk : k < lengths.getD i 0) :
    blockStart lengths i + k < lengths.sum := by
  induction lengths generalizing i with
  | nil => exact absurd hk (by simp)
  | cons length rest ih =>
    cases i with
    | zero => simpa [blockStart] using lt_of_lt_of_le hk (Nat.le_add_right length rest.sum)
    | succ i =>
      rw [blockStart_cons_succ, List.sum_cons, Nat.add_assoc]
      exact Nat.add_lt_add_left (ih i hk) length

/-- A year has a 29th of February. -/
def isLeap (year : ℤ) : Bool := decide (year % 4 = 0 ∧ (year % 100 ≠ 0 ∨ year % 400 = 0))

/-- The lengths of the months. -/
def monthLengths (leap : Bool) : List ℕ :=
  [31, if leap then 29 else 28, 31, 30, 31, 30, 31, 31, 30, 31, 30, 31]

/-- The length of a month. -/
def monthDays (year : ℤ) (month : ℕ) : ℕ := (monthLengths (isLeap year)).getD month 0

/-- No month is longer than 31 days. -/
theorem monthDays_le (year : ℤ) (month : ℕ) : monthDays year month ≤ 31 := by
  have hall : ∀ leap, ∀ length ∈ monthLengths leap, length ≤ 31 := by decide
  unfold monthDays
  by_cases hmonth : month < (monthLengths (isLeap year)).length
  · rw [List.getD_eq_getElem _ _ hmonth]
    exact hall _ _ (List.getElem_mem hmonth)
  · rw [List.getD_eq_default _ _ (not_lt.mp hmonth)]
    exact Nat.zero_le 31

/-- A year whose February has 29 days is a leap year. -/
theorem isLeap_of_monthDays {year : ℤ} (h : 29 ≤ monthDays year 1) : isLeap year = true := by
  unfold monthDays at h
  cases hyear : isLeap year with
  | true => rfl
  | false =>
    rw [hyear] at h
    exact absurd h (by decide)

/-- The days from the first of January of the year 1 to that of a year. -/
def yearStart (year : ℤ) : ℤ := 365 * (year - 1) + (year - 1) / 4 - (year - 1) / 100 + (year - 1) / 400

/-- The year in which the day after so many days from the first of January of the year 1 lies. -/
def yearOf (days : ℤ) : ℤ :=
  let year := 400 * days / 146097 + 1
  if yearStart (year + 1) ≤ days then year + 1 else year

/-- A year has the days of its months. -/
theorem monthLengths_sum (leap : Bool) : (monthLengths leap).sum = if leap then 366 else 365 := by
  cases leap <;> rfl

/-- From one year to the next there are the days of the months. -/
theorem yearStart_succ (year : ℤ) :
    yearStart (year + 1) = yearStart year + (monthLengths (isLeap year)).sum := by
  have hfours : year / 4 = (year - 1) / 4 + if year % 4 = 0 then 1 else 0 := by omega
  have hhundreds : year / 100 = (year - 1) / 100 + if year % 100 = 0 then 1 else 0 := by omega
  have hfourHundreds : year / 400 = (year - 1) / 400 + if year % 400 = 0 then 1 else 0 := by omega
  rw [monthLengths_sum, yearStart, yearStart, add_sub_cancel_right, hfours, hhundreds, hfourHundreds]
  simp only [isLeap, decide_eq_true_eq, Nat.cast_ite, Nat.cast_ofNat]
  omega

/-- The first day of a year is never more than two days from the mean. -/
theorem yearStart_bounds (year : ℤ) :
    146097 * (year - 1) - 699 ≤ 400 * yearStart year ∧ 400 * yearStart year ≤ 146097 * (year - 1) + 396 := by
  unfold yearStart
  omega

/-- The year found is the one in which the day lies. -/
theorem yearOf_spec (days : ℤ) : yearStart (yearOf days) ≤ days ∧ days < yearStart (yearOf days + 1) := by
  have hthis := yearStart_bounds (400 * days / 146097 + 1)
  have hnext := yearStart_bounds (400 * days / 146097 + 1 + 1)
  have hafter := yearStart_bounds (400 * days / 146097 + 1 + 1 + 1)
  unfold yearOf
  dsimp only
  split
  · next hlate => exact ⟨hlate, by omega⟩
  · next hlate => exact ⟨by omega, by omega⟩

/-- Later years begin later. -/
theorem yearStart_mono {year later : ℤ} (h : year ≤ later) : yearStart year ≤ yearStart later := by
  unfold yearStart
  omega

/-- The year in which a day lies is the one found. -/
theorem yearOf_eq {year days : ℤ} (hstart : yearStart year ≤ days) (hend : days < yearStart (year + 1)) :
    yearOf days = year := by
  obtain ⟨hfound, hfoundEnd⟩ := yearOf_spec days
  by_contra hne
  rcases lt_or_gt_of_ne hne with hlt | hgt
  · have := yearStart_mono (show yearOf days + 1 ≤ year from hlt)
    omega
  · have := yearStart_mono (show year + 1 ≤ yearOf days from hgt)
    omega

/-- A date; the months count from zero, the days from one. -/
@[ext]
structure Date where
  year : ℤ
  month : ℕ
  day : ℕ
  deriving DecidableEq, Repr

/-- The month has the day. -/
structure Date.Valid (d : Date) : Prop where
  month_lt : d.month < 12
  day_pos : 1 ≤ d.day
  day_le : d.day ≤ monthDays d.year d.month

instance (d : Date) : Decidable d.Valid :=
  decidable_of_iff (d.month < 12 ∧ 1 ≤ d.day ∧ d.day ≤ monthDays d.year d.month)
    ⟨fun h => ⟨h.1, h.2.1, h.2.2⟩, fun h => ⟨h.month_lt, h.day_pos, h.day_le⟩⟩

/-- The number of a date, counted from the first of January 1970. -/
def Date.dayNumber (d : Date) : ℤ :=
  yearStart d.year + blockStart (monthLengths (isLeap d.year)) d.month + (d.day - 1) - 719162

/-- The date of a day. -/
def dateOf (number : ℤ) : Date :=
  let days := number + 719162
  let place := locate (monthLengths (isLeap (yearOf days))) (days - yearStart (yearOf days)).toNat
  ⟨yearOf days, place.1, place.2 + 1⟩

/-- The date of a day is valid, and the day its number. -/
theorem dateOf_spec (number : ℤ) : (dateOf number).Valid ∧ (dateOf number).dayNumber = number := by
  obtain ⟨hstart, hend⟩ := yearOf_spec (number + 719162)
  rw [yearStart_succ] at hend
  obtain ⟨hmonth, hday, hlt⟩ := locate_spec (monthLengths (isLeap (yearOf (number + 719162))))
    (number + 719162 - yearStart (yearOf (number + 719162))).toNat (by omega)
  refine ⟨⟨hmonth, Nat.le_add_left 1 _, hlt⟩, ?_⟩
  simp only [Date.dayNumber, dateOf]
  omega

/-- A valid day of a month, counted from zero. -/
theorem Date.Valid.day_lt {d : Date} (h : d.Valid) :
    d.day - 1 < (monthLengths (isLeap d.year)).getD d.month 0 :=
  lt_of_lt_of_le (Nat.sub_lt h.day_pos Nat.one_pos) h.day_le

/-- The date found for the number of a valid date is the date. -/
theorem dateOf_dayNumber {d : Date} (h : d.Valid) : dateOf d.dayNumber = d := by
  have hplace := blockStart_add_lt _ _ _ h.day_lt
  have hday := h.day_pos
  have hyear : yearOf (d.dayNumber + 719162) = d.year := by
    apply yearOf_eq
    · unfold Date.dayNumber
      omega
    · rw [yearStart_succ]
      unfold Date.dayNumber
      omega
  have hposition : (d.dayNumber + 719162 - yearStart d.year).toNat =
      blockStart (monthLengths (isLeap d.year)) d.month + (d.day - 1) := by
    unfold Date.dayNumber
    omega
  unfold dateOf
  dsimp only
  rw [hyear, hposition, locate_blockStart _ _ _ h.day_lt]
  ext <;> simp [Nat.sub_add_cancel hday]

/-- The leap years repeat themselves every 400 years. -/
theorem isLeap_period (year m : ℤ) : isLeap (year + 400 * m) = isLeap year := by
  unfold isLeap
  congr 1
  rw [eq_iff_iff]
  omega

/-- The same date so many times 400 years later. -/
def Date.shift (d : Date) (m : ℤ) : Date := { d with year := d.year + 400 * m }

/-- The same date 400 years later is 146097 days later. -/
theorem Date.dayNumber_shift (d : Date) (m : ℤ) : (d.shift m).dayNumber = d.dayNumber + 146097 * m := by
  simp only [Date.dayNumber, Date.shift, isLeap_period, yearStart]
  omega

/-- A valid date is valid 400 years later. -/
theorem Date.Valid.shift {d : Date} (h : d.Valid) (m : ℤ) : (d.shift m).Valid where
  month_lt := h.month_lt
  day_pos := h.day_pos
  day_le := by
    have hle := h.day_le
    unfold monthDays at hle ⊢
    rwa [Date.shift, isLeap_period]

/-- The date 146097 days later is the same one 400 years later. -/
theorem dateOf_shift (number m : ℤ) : dateOf (number + 146097 * m) = (dateOf number).shift m := by
  obtain ⟨hvalid, hnumber⟩ := dateOf_spec number
  rw [← dateOf_dayNumber (hvalid.shift m), Date.dayNumber_shift, hnumber]

/-- The day of the week of a day, from zero for Sunday. -/
def weekdayOf (number : ℤ) : ℕ := ((number + 4) % 7).toNat

/-- There are seven days of the week. -/
theorem weekdayOf_lt (number : ℤ) : weekdayOf number < 7 := by
  unfold weekdayOf
  omega

/-- A date and a time of the day. -/
@[ext]
structure DateTime where
  date : Date
  hour : ℕ
  minute : ℕ
  second : ℕ
  deriving DecidableEq, Repr

/-- The date is valid and the time that of a clock. -/
structure DateTime.Valid (d : DateTime) : Prop where
  date : d.date.Valid
  hour_lt : d.hour < 24
  minute_lt : d.minute < 60
  second_lt : d.second < 60

instance (d : DateTime) : Decidable d.Valid :=
  decidable_of_iff (d.date.Valid ∧ d.hour < 24 ∧ d.minute < 60 ∧ d.second < 60)
    ⟨fun h => ⟨h.1, h.2.1, h.2.2.1, h.2.2.2⟩, fun h => ⟨h.date, h.hour_lt, h.minute_lt, h.second_lt⟩⟩

/-- The seconds from the beginning of 1970, every day having as many. -/
def DateTime.seconds (d : DateTime) : ℤ :=
  d.date.dayNumber * 86400 + (d.hour * 3600 + d.minute * 60 + d.second : ℕ)

/-- The date and time of a second. -/
def dateTimeOf (seconds : ℤ) : DateTime :=
  let ofDay := (seconds % 86400).toNat
  ⟨dateOf (seconds / 86400), ofDay / 3600, ofDay / 60 % 60, ofDay % 60⟩

/-- The date and time of a second are valid, and the second their number. -/
theorem dateTimeOf_spec (seconds : ℤ) :
    (dateTimeOf seconds).Valid ∧ (dateTimeOf seconds).seconds = seconds := by
  obtain ⟨hvalid, hnumber⟩ := dateOf_spec (seconds / 86400)
  have hofDay : (seconds % 86400).toNat < 86400 := by omega
  refine ⟨⟨hvalid, ?_, ?_, ?_⟩, ?_⟩
  · exact Nat.div_lt_of_lt_mul hofDay
  · exact Nat.mod_lt _ (by decide)
  · exact Nat.mod_lt _ (by decide)
  · simp only [DateTime.seconds, dateTimeOf, hnumber]
    omega

/-- The date and time found for the number of a valid one are the same. -/
theorem dateTimeOf_seconds {d : DateTime} (h : d.Valid) : dateTimeOf d.seconds = d := by
  obtain ⟨hdate, hhour, hminute, hsecond⟩ := h
  have hday : d.seconds / 86400 = d.date.dayNumber := by
    unfold DateTime.seconds
    omega
  have hofDay : (d.seconds % 86400).toNat = d.hour * 3600 + d.minute * 60 + d.second := by
    unfold DateTime.seconds
    omega
  unfold dateTimeOf
  dsimp only
  rw [hday, hofDay, dateOf_dayNumber hdate]
  ext1
  · rfl
  · dsimp only
    omega
  · dsimp only
    omega
  · dsimp only
    omega

/-- The first second of a year. -/
def newYear (year : ℤ) : DateTime := ⟨⟨year, 0, 1⟩, 0, 0, 0⟩

/-- The years before a year are those of the seconds before its first. -/
theorem dateTimeOf_year_lt_iff (seconds year : ℤ) :
    (dateTimeOf seconds).date.year < year ↔ seconds < (newYear year).seconds := by
  obtain ⟨hstart, hend⟩ := yearOf_spec (seconds / 86400 + 719162)
  have hfirst : (newYear year).seconds = (yearStart year - 719162) * 86400 := by
    simp [newYear, DateTime.seconds, Date.dayNumber, blockStart]
  have hyear : (dateTimeOf seconds).date.year = yearOf (seconds / 86400 + 719162) := rfl
  rw [hfirst, hyear]
  constructor
  · intro hlt
    have := yearStart_mono (show yearOf (seconds / 86400 + 719162) + 1 ≤ year from hlt)
    omega
  · intro hlt
    by_contra hge
    have := yearStart_mono (not_lt.mp hge)
    omega

/-- The seconds in 400 years. -/
def secondsOfPeriod : ℤ := 146097 * 86400

/-- So many times 400 years later the date is the same one in a later year, and the time the same. -/
theorem dateTimeOf_shift (seconds m : ℤ) :
    dateTimeOf (seconds + secondsOfPeriod * m) =
      { dateTimeOf seconds with date := (dateTimeOf seconds).date.shift m } := by
  have hday : (seconds + secondsOfPeriod * m) / 86400 = seconds / 86400 + 146097 * m := by
    unfold secondsOfPeriod
    omega
  have hofDay : (seconds + secondsOfPeriod * m) % 86400 = seconds % 86400 := by
    unfold secondsOfPeriod
    omega
  simp only [dateTimeOf, hday, hofDay, dateOf_shift]

end RemoteManage.Foundation.Calendar
