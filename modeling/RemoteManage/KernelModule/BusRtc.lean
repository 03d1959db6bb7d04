import RemoteManage.KernelModule.Pcf8563Date

/-!
# The driver of the PCF8563 clock

`pcf8563_set_time` writes seven registers in one transfer and `pcf8563_get_time` reads them in one.
Both have their own BCD codec with the century in the month's register, and the emulated clock has
the same one again. `rtc_valid_tm`, `bin2bcd` and `bcd2bin` of the kernel are parameters.
-/

namespace RemoteManage.KernelModule

open RemoteManage.Foundation RemoteManage.Foundation.Calendar

/-- What the kernel gives the driver: `rtc_valid_tm`, `bin2bcd` and `bcd2bin`. -/
structure RtcCore where
  rtcValidTm : Tm → Bool
  bin2bcd : ℤ → UInt8
  bcd2bin : UInt8 → ℤ

/-- A date from 1970 on and a time of the day. -/
structure Tm.Valid (tm : Tm) : Prop where
  year : 70 ≤ tm.year
  mon : 0 ≤ tm.mon ∧ tm.mon < 12
  mday : 1 ≤ tm.mday ∧ tm.mday ≤ monthDays (tm.year + 1900) tm.mon.toNat
  hour : 0 ≤ tm.hour ∧ tm.hour < 24
  min : 0 ≤ tm.min ∧ tm.min < 60
  sec : 0 ≤ tm.sec ∧ tm.sec < 60

/-- The kernel accepts valid dates only, and converts numbers of two digits. -/
structure RtcCore.Documented (core : RtcCore) : Prop where
  valid : ∀ tm, core.rtcValidTm tm = true → tm.Valid
  bin2bcd : ∀ n : ℕ, n < 100 → core.bin2bcd n = bcdByte n
  bcd2bin : ∀ n : ℕ, n < 100 → core.bcd2bin (bcdByte n) = n

/-- The buffer of `pcf8563_set_time`. -/
def setTimeBuf (core : RtcCore) (tm : Tm) : List UInt8 :=
  let month := core.bin2bcd (tm.mon + 1)
  [core.bin2bcd tm.sec, core.bin2bcd tm.min, core.bin2bcd tm.hour, core.bin2bcd tm.mday,
    UInt8.ofInt tm.wday &&& 0x07,
    if tm.year ≥ 100 then month &&& 0x7F else month ||| 0x80,
    if tm.year ≥ 100 then core.bin2bcd (tm.year - 100) else core.bin2bcd tm.year]

/-- `pcf8563_set_time`: the bus behind it and the value returned. -/
def pcf8563SetTime (core : RtcCore) (b : I2cBus) (tm : Tm) : I2cBus × ℤ :=
  if core.rtcValidTm tm then
    match Transition.run I2cBus.step b (I2cBus.writeBlock 2 (setTimeBuf core tm)) with
    | some b' => (b', 0)
    | none => (b, -5)
  else (b, -22)

/-- What `pcf8563_get_time` makes of the seven bytes. -/
def decodeBuf (core : RtcCore) (buf : List UInt8) : Except ℤ Tm :=
  if buf.getD 0 0 &&& 0x80 ≠ 0 then .error (-22)
  else .ok {
    sec := core.bcd2bin (buf.getD 0 0 &&& 0x7F)
    min := core.bcd2bin (buf.getD 1 0 &&& 0x7F)
    hour := core.bcd2bin (buf.getD 2 0 &&& 0x3F)
    mday := core.bcd2bin (buf.getD 3 0 &&& 0x3F)
    wday := (buf.getD 4 0 &&& 0x07).toNat
    mon := core.bcd2bin (buf.getD 5 0 &&& 0x1F) - 1
    year := core.bcd2bin (buf.getD 6 0) + if buf.getD 5 0 &&& 0x80 = 0 then 100 else 0 }

/-- `pcf8563_get_time`: the bus behind it, and the time or the error. -/
def pcf8563GetTime (core : RtcCore) (b : I2cBus) : I2cBus × Except ℤ Tm :=
  match Transition.run I2cBus.step { b with received := [] } (I2cBus.readBlock 2 7) with
  | some b' => (b', decodeBuf core b'.received)
  | none => (b, .error (-5))

/-- What `pcf8563_store_time` finds after the seven bytes of a buffer. -/
theorem storedTm_writeFrom (regs : Pcf8563Regs) (sec min hour mday wday mon year : UInt8) :
    Pcf8563State.storedTm (I2cBus.writeFrom regs 2 [sec, min, hour, mday, wday, mon, year]) =
      { sec := (fromBcd (sec &&& 0x7F)).toNat
        min := (fromBcd (min &&& 0x7F)).toNat
        hour := (fromBcd (hour &&& 0x3F)).toNat
        mday := (fromBcd (mday &&& 0x3F)).toNat
        mon := (fromBcd (mon &&& 0x1F)).toNat - 1
        year := (fromBcd year).toNat + if mon &&& 0x80 = 0 then 100 else 0
        wday := 0 } := rfl

/-- The driver reads the date that the emulated clock shows, from 1900 to 2099. -/
theorem decodeBuf_dateBytes {core : RtcCore} (hcore : core.Documented) {sec min hour mday mon year wday : ℕ}
    (hsec : sec < 60) (hmin : min < 60) (hhour : hour < 24) (hmday : mday < 32) (hmon : mon < 12)
    (hyear : year < 200) (hwday : wday < 7) :
    decodeBuf core (dateBytes ⟨sec, min, hour, mday, mon, year, wday⟩) =
      .ok ⟨sec, min, hour, mday, mon, year, wday⟩ := by
  have hmonth : ((mon : ℤ) + 1) = ((mon + 1 : ℕ) : ℤ) := by push_cast; rfl
  have hcentury : (year : ℤ).tmod 100 = ((year % 100 : ℕ) : ℤ) := (Int.ofNat_tmod year 100).symm
  obtain ⟨hlate, hlateBit, hearly, hearlyBit⟩ := bcdByte_century (show mon + 1 < 20 by omega)
  rw [dateBytes]
  dsimp only
  rw [hmonth, hcentury, toBcd_ofInt (by omega), toBcd_ofInt (by omega), toBcd_ofInt (by omega),
    toBcd_ofInt (by omega), toBcd_ofInt (by omega), toBcd_ofInt (Nat.mod_lt _ (by decide))]
  rw [decodeBuf, if_neg (by simpa using (bcdByte_and_7F hsec).2)]
  simp only [List.getD_cons_zero, List.getD_cons_succ]
  rw [(bcdByte_and_7F hsec).1, (bcdByte_and_7F hmin).1, bcdByte_and_3F (show hour < 40 by omega),
    bcdByte_and_3F (show mday < 40 by omega), weekday_and_07 hwday, hcore.bcd2bin sec (by omega),
    hcore.bcd2bin min (by omega), hcore.bcd2bin hour (by omega), hcore.bcd2bin mday (by omega),
    hcore.bcd2bin (year % 100) (Nat.mod_lt _ (by decide))]
  split
  · rw [hlate, hcore.bcd2bin (mon + 1) (by omega)]
    congr 1
    ext <;> simp
    omega
  · rw [hearly, hcore.bcd2bin (mon + 1) (by omega)]
    congr 1
    ext <;> simp
    omega

/-- The emulated clock finds the date that the driver wrote, from 1900 to 2099. -/
theorem storedTm_setTimeBuf {core : RtcCore} (hcore : core.Documented) (regs : Pcf8563Regs)
    {sec min hour mday mon year : ℕ} (wday : ℤ) (hsec : sec < 60) (hmin : min < 60) (hhour : hour < 24)
    (hmday : mday < 32) (hmon : mon < 12) (hyear : year < 200) :
    Pcf8563State.storedTm
        (I2cBus.writeFrom regs 2 (setTimeBuf core ⟨sec, min, hour, mday, mon, year, wday⟩)) =
      ⟨sec, min, hour, mday, mon, year, 0⟩ := by
  have hmonth : ((mon : ℤ) + 1) = ((mon + 1 : ℕ) : ℤ) := by push_cast; rfl
  obtain ⟨hlate, hlateBit, hearly, hearlyBit⟩ := bcdByte_century (show mon + 1 < 20 by omega)
  rw [setTimeBuf]
  dsimp only
  rw [storedTm_writeFrom, hmonth, hcore.bin2bcd sec (by omega), hcore.bin2bcd min (by omega),
    hcore.bin2bcd hour (by omega), hcore.bin2bcd mday (by omega), hcore.bin2bcd (mon + 1) (by omega),
    (bcdByte_and_7F hsec).1, (bcdByte_and_7F hmin).1, bcdByte_and_3F (show hour < 40 by omega),
    bcdByte_and_3F (show mday < 40 by omega), fromBcd_bcdByte (show sec < 100 by omega),
    fromBcd_bcdByte (show min < 100 by omega), fromBcd_bcdByte (show hour < 100 by omega),
    fromBcd_bcdByte (show mday < 100 by omega)]
  by_cases hlast : (year : ℤ) ≥ 100
  · have hshort : (year : ℤ) - 100 = ((year - 100 : ℕ) : ℤ) := by omega
    simp only [if_pos hlast]
    rw [hlate, hlateBit, hshort, hcore.bin2bcd (year - 100) (by omega),
      fromBcd_bcdByte (show mon + 1 < 100 by omega), fromBcd_bcdByte (show year - 100 < 100 by omega)]
    ext <;> simp
    omega
  · simp only [if_neg hlast]
    rw [hearly, if_neg hearlyBit, hcore.bin2bcd year (by omega),
      fromBcd_bcdByte (show mon + 1 < 100 by omega), fromBcd_bcdByte (show year < 100 by omega)]
    ext <;> simp

/-- The date and time of the fields. -/
def Tm.dateTime (tm : Tm) : DateTime :=
  ⟨⟨tm.year + 1900, tm.mon.toNat, tm.mday.toNat⟩, tm.hour.toNat, tm.min.toNat, tm.sec.toNat⟩

/-- Valid fields are those of a valid date and time. -/
theorem Tm.Valid.dateTime {tm : Tm} (h : tm.Valid) : tm.dateTime.Valid := by
  obtain ⟨-, hmon, hmday, hhour, hmin, hsec⟩ := h
  refine ⟨⟨?_, ?_, ?_⟩, ?_, ?_, ?_⟩ <;> simp only [Tm.dateTime] <;> omega

/-- `mktime` counts the seconds of valid fields. -/
theorem mktime_eq_seconds {tm : Tm} (h : tm.Valid) : mktime { tm with wday := 0 } = tm.dateTime.seconds := by
  obtain ⟨-, hmon, hmday, hhour, hmin, hsec⟩ := h
  have hyear : tm.mon / 12 = 0 := by omega
  have hmonth : tm.mon % 12 = tm.mon := by omega
  simp only [mktime, DateTime.seconds, Tm.dateTime, Date.dayNumber, hyear, hmonth, add_zero]
  omega

/-- Valid fields are whole numbers within their bounds. -/
theorem Tm.Valid.eq {tm : Tm} (h : tm.Valid) (hlast : tm.year ≤ 199) :
    ∃ sec min hour mday mon year : ℕ, tm = ⟨sec, min, hour, mday, mon, year, tm.wday⟩ ∧
      sec < 60 ∧ min < 60 ∧ hour < 24 ∧ mday < 32 ∧ mon < 12 ∧ year < 200 := by
  obtain ⟨hyear, hmon, hmday, hhour, hmin, hsec⟩ := h
  have := monthDays_le (tm.year + 1900) tm.mon.toNat
  refine ⟨tm.sec.toNat, tm.min.toNat, tm.hour.toNat, tm.mday.toNat, tm.mon.toNat, tm.year.toNat, ?_,
    by omega, by omega, by omega, by omega, by omega, by omega⟩
  ext <;> simp only <;> omega

/-- `pcf8563_set_time` succeeds, and the emulated clock then counts from the time that was set. -/
theorem pcf8563SetTime_spec {core : RtcCore} (hcore : core.Documented) {b : I2cBus}
    (hwaiting : b.device.waitingReg = true) {tm : Tm} (haccepted : core.rtcValidTm tm = true)
    (hlast : tm.year ≤ 199) :
    ∃ b', pcf8563SetTime core b tm = (b', 0) ∧ b'.phase = .idle ∧ b'.device.waitingReg = true ∧
      b'.device.timestamp = tm.dateTime.seconds := by
  have hvalid := hcore.valid tm haccepted
  obtain ⟨bytes, last, hbuf, hlength⟩ :
      ∃ bytes last, setTimeBuf core tm = bytes ++ [last] ∧ bytes.length = 6 :=
    ⟨[_, _, _, _, _, _], _, rfl, rfl⟩
  obtain ⟨b', hrun, hidle, hwaits, -, hregs, htime⟩ :=
    I2cBus.run_writeBlock b hwaiting 2 bytes last (by rw [hlength]; decide)
  rw [← hbuf] at hrun hregs
  refine ⟨b', ?_, hidle, hwaits, ?_⟩
  · rw [pcf8563SetTime, if_pos haccepted, hrun]
  · obtain ⟨sec, min, hour, mday, mon, year, htm, hsec, hmin, hhour, hmday, hmon, hyear⟩ := hvalid.eq hlast
    rw [htime, hregs, htm, storedTm_setTimeBuf hcore _ _ hsec hmin hhour hmday hmon hyear, ← htm]
    rw [← mktime_eq_seconds hvalid, htm]

/-- `pcf8563_get_time` returns the date and time of the emulated clock, from 1900 to 2099. -/
theorem pcf8563GetTime_spec {core : RtcCore} (hcore : core.Documented) {b : I2cBus}
    (hwaiting : b.device.waitingReg = true) (hstart : 1900 ≤ (dateTimeOf b.device.timestamp).date.year)
    (hend : (dateTimeOf b.device.timestamp).date.year < 2100) :
    (pcf8563GetTime core b).2 = .ok (localtime b.device.timestamp) := by
  obtain ⟨b', seconds, hrun, -, hseconds, hreceived⟩ := I2cBus.run_readBlock
    { b with received := [] } hwaiting 2 (by decide) 6 (I2cBus.readBlock 2 7) (by decide)
  have hzero : seconds = 0 := Nat.le_zero.mp (hseconds.trans (by decide))
  obtain ⟨sec, min, hour, mday, mon, year, wday, htm, hsec, hmin, hhour, hmday, hmon, hyear, hwday⟩ :=
    localtime_eq hstart hend
  rw [pcf8563GetTime, hrun]
  dsimp only
  rw [hreceived, hzero, regsFrom_shownRegs, List.nil_append, Nat.cast_zero, add_zero, htm]
  exact decodeBuf_dateBytes hcore hsec hmin hhour hmday hmon hyear hwday

/-- The driver and the emulated clock agree between transfers, whatever has happened before: the time read is
the time set and the seconds since, with its day of the week, as long as it lies before 2100; and a read
transfer with ticks between its bytes returns the date of one second of the transfer. -/
theorem pcf8563_agree {core : RtcCore} (hcore : core.Documented) {now : ℤ} {events : List BusEvent}
    {b : I2cBus} (hrun : Transition.run I2cBus.step (.realized now) events = some b)
    (hidle : b.phase = .idle) :
    (∀ tm, core.rtcValidTm tm = true → tm.year ≤ 199 → ∀ k : ℕ,
      tm.dateTime.seconds + k < (newYear 2100).seconds →
        (pcf8563SetTime core b tm).2 = 0 ∧
          ∃ later, Transition.run I2cBus.step (pcf8563SetTime core b tm).1 (List.replicate k .tick) =
              some later ∧
            (pcf8563GetTime core later).2 = .ok (localtime (tm.dateTime.seconds + k))) ∧
      ∀ transfer : List BusEvent, transfer.filter I2cBus.Loud = I2cBus.readBlock 2 7 →
        ∃ final seconds, Transition.run I2cBus.step { b with received := [] } transfer = some final ∧
          seconds ≤ transfer.count .tick ∧
          final.received = dateBytes (localtime (b.device.timestamp + seconds)) := by
  have hwaiting := I2cBus.run_waitsWhenIdle hrun hidle
  constructor
  · intro tm haccepted hlast k hrange
    obtain ⟨b', hset, -, hwaits, htime⟩ := pcf8563SetTime_spec hcore hwaiting haccepted hlast
    rw [hset]
    refine ⟨rfl, b'.advance k, ?_, ?_⟩
    · rw [I2cBus.run_quiet b' _ (by simp [I2cBus.Quiet]), List.count_replicate_self]
    · have hlater : (b'.advance k).device.timestamp = tm.dateTime.seconds + k := by
        rw [← htime]
        rfl
      have hstart : 1900 ≤ (dateTimeOf (tm.dateTime.seconds + k)).date.year := by
        have hset := (hcore.valid tm haccepted).dateTime
        have hyear := (hcore.valid tm haccepted).year
        by_contra hearly
        have hbefore := (dateTimeOf_year_lt_iff _ _).mp (not_le.mp hearly)
        have hfirst := (dateTimeOf_year_lt_iff tm.dateTime.seconds 1900).mpr (by omega)
        rw [dateTimeOf_seconds hset] at hfirst
        simp only [Tm.dateTime] at hfirst
        omega
      have hend := (dateTimeOf_year_lt_iff _ _).mpr hrange
      rw [← hlater] at hstart hend ⊢
      exact pcf8563GetTime_spec hcore hwaits hstart hend
  · intro transfer htransfer
    obtain ⟨final, seconds, hfinal, -, hseconds, hreceived⟩ :=
      I2cBus.run_readBlock { b with received := [] } hwaiting 2 (by decide) 6 transfer htransfer
    refine ⟨final, seconds, hfinal, hseconds, ?_⟩
    rw [hreceived, regsFrom_shownRegs, List.nil_append]

/-- The functions of the kernel as it has them. -/
def kernelRtcCore : RtcCore where
  rtcValidTm tm := decide (70 ≤ tm.year ∧ (0 ≤ tm.mon ∧ tm.mon < 12) ∧
    (1 ≤ tm.mday ∧ tm.mday ≤ monthDays (tm.year + 1900) tm.mon.toNat) ∧ (0 ≤ tm.hour ∧ tm.hour < 24) ∧
    (0 ≤ tm.min ∧ tm.min < 60) ∧ 0 ≤ tm.sec ∧ tm.sec < 60)
  bin2bcd n := UInt8.ofInt (n / 10 * 16 + n % 10)
  bcd2bin b := (b &&& 0x0F).toNat + (b >>> 4).toNat * 10

/-- The functions of the kernel behave as documented. -/
theorem kernelRtcCore_documented : kernelRtcCore.Documented where
  valid tm h := by
    obtain ⟨hyear, hmon, hmday, hhour, hmin, hsec⟩ := of_decide_eq_true h
    exact ⟨hyear, hmon, hmday, hhour, hmin, hsec⟩
  bin2bcd n h := by
    have hall : ∀ n < 100, kernelRtcCore.bin2bcd (n : ℕ) = bcdByte n := by decide +kernel
    exact hall n h
  bcd2bin n h := by
    have hall : ∀ n < 100, kernelRtcCore.bcd2bin (bcdByte n) = n := by decide +kernel
    exact hall n h

/-- The clock is set on the 28th of February 2024 shortly before midnight, and read 45 seconds later; and it
is read with a tick before the last byte. -/
theorem pcf8563_agree_leapDay :
    ((pcf8563SetTime kernelRtcCore (.realized 0) ⟨30, 59, 23, 28, 1, 124, 3⟩).2 = 0 ∧
      ∃ later, Transition.run I2cBus.step
          (pcf8563SetTime kernelRtcCore (.realized 0) ⟨30, 59, 23, 28, 1, 124, 3⟩).1
          (List.replicate 45 .tick) = some later ∧
        (pcf8563GetTime kernelRtcCore later).2 = .ok ⟨15, 0, 0, 29, 1, 124, 4⟩) ∧
      ∃ final seconds, Transition.run I2cBus.step (.realized 59)
        [.startSend, .send 2, .startRecv, .recv, .recv, .recv, .recv, .recv, .recv, .tick, .recv, .finish] =
          some final ∧ seconds ≤ 1 ∧ final.received = dateBytes (localtime (59 + (seconds : ℕ))) := by
  have hset := (pcf8563_agree kernelRtcCore_documented
    (rfl : Transition.run I2cBus.step (.realized 0) [] = some (.realized 0)) rfl).1
    ⟨30, 59, 23, 28, 1, 124, 3⟩ (by decide +kernel) (by decide) 45 (by decide +kernel)
  have htime : localtime ((Tm.dateTime ⟨30, 59, 23, 28, 1, 124, 3⟩).seconds + (45 : ℕ)) =
      ⟨15, 0, 0, 29, 1, 124, 4⟩ := by decide +kernel
  rw [htime] at hset
  exact ⟨hset, (pcf8563_agree kernelRtcCore_documented
    (rfl : Transition.run I2cBus.step (.realized 59) [] = some (.realized 59)) rfl).2 _ (by decide)⟩

end RemoteManage.KernelModule
