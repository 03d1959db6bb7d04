import RemoteManage.KernelModule.Pcf8563Date

/-!
# Saving and restoring the PCF8563 clock

`vmstate_pcf8563` lists the register file, the register number and `waiting_reg`. The timestamp and
`read_update` are not saved: a restored device counts from the time of the host at which it was
realized, and takes its cache for fresh. Whether the guest can tell depends on what the two
timestamps show from now on, and on a read transfer in which the cache is still to be refreshed.
-/

namespace RemoteManage.KernelModule

open RemoteManage.Foundation RemoteManage.Foundation.Calendar

/-- The fields that `vmstate_pcf8563` saves. -/
structure Pcf8563Vmstate where
  regs : Pcf8563Regs
  reg : UInt8
  waitingReg : Bool

/-- The device is saved. -/
def Pcf8563State.save (s : Pcf8563State) : Pcf8563Vmstate := ⟨s.regs, s.reg, s.waitingReg⟩

/-- What was saved is loaded into a device. -/
def Pcf8563State.load (s : Pcf8563State) (saved : Pcf8563Vmstate) : Pcf8563State :=
  { s with regs := saved.regs, reg := saved.reg, waitingReg := saved.waitingReg }

namespace I2cBus

/-- The bus after the device was saved, and loaded into one realized at a time of the host. -/
def restored (b : I2cBus) (now : ℤ) : I2cBus :=
  { b with device := (Pcf8563State.resetState now).load b.device.save }

/-- A transfer or a tick, but no reset. -/
def IsGuestEvent : BusEvent → Prop
  | .reset _ => False
  | _ => True

/-- Every later sequence of transfers and ticks returns the same bytes from both. -/
def Indistinguishable (b b' : I2cBus) : Prop :=
  ∀ events, (∀ e ∈ events, IsGuestEvent e) →
    (Transition.run step b events).map received = (Transition.run step b' events).map received

/-- Two clocks show the same from now on. -/
def ShowSame (t t' : ℤ) : Prop :=
  ∀ k : ℕ, dateBytes (localtime (t + k)) = dateBytes (localtime (t' + k))

/-- Two timestamps that show the same from now on: they are equal, or both lie from 2000 on and a multiple of
400 years apart. -/
def SameClock (t t' : ℤ) : Prop :=
  t = t' ∨ ((newYear 2000).seconds ≤ t ∧ (newYear 2000).seconds ≤ t' ∧ ∃ m, t' = t + secondsOfPeriod * m)

/-- The cache is still to be refreshed in a read transfer. -/
def RefreshDue (b : I2cBus) : Prop := b.phase = .receiving ∧ b.device.readUpdate = false

/-- What the cache shows after a refresh is a function of the date alone. -/
theorem shownRegs_eq_writeFrom (regs : Pcf8563Regs) (tm : Tm) :
    Pcf8563State.shownRegs regs tm = writeFrom regs 2 (dateBytes tm) := by
  unfold Pcf8563State.shownRegs dateBytes
  dsimp only
  split
  · rw [Function.update_self, Function.update_idem]
    rfl
  · rw [Function.update_self, Function.update_idem]
    rfl

/-- The two devices agree in everything but the second counted, which shows the same, and in `read_update`
outside a read transfer. -/
structure Agree (b b' : I2cBus) : Prop where
  phase : b.phase = b'.phase
  received : b.received = b'.received
  regs : b.device.regs = b'.device.regs
  reg : b.device.reg = b'.device.reg
  waitingReg : b.device.waitingReg = b'.device.waitingReg
  readUpdate : b.phase = .receiving → b.device.readUpdate = b'.device.readUpdate
  clock : ShowSame b.device.timestamp b'.device.timestamp

/-- One second later the clocks still show the same. -/
theorem ShowSame.tick {t t' : ℤ} (h : ShowSame t t') : ShowSame (t + 1) (t' + 1) := by
  intro k
  have hnext := h (k + 1)
  push_cast at hnext
  rwa [add_comm (k : ℤ) 1, ← add_assoc, ← add_assoc] at hnext

/-- A refresh keeps two devices in agreement. -/
theorem Agree.refresh {b b' : I2cBus} (h : Agree b b') (hphase : b.phase = .receiving) :
    b.device.refresh.regs = b'.device.refresh.regs ∧
      b.device.refresh.readUpdate = b'.device.refresh.readUpdate ∧
      b.device.refresh.reg = b'.device.refresh.reg ∧
      b.device.refresh.waitingReg = b'.device.refresh.waitingReg ∧
      b.device.refresh.timestamp = b.device.timestamp ∧
      b'.device.refresh.timestamp = b'.device.timestamp := by
  have hshown := h.clock 0
  simp only [Nat.cast_zero, add_zero] at hshown
  unfold Pcf8563State.refresh
  rw [h.readUpdate hphase, h.reg]
  split
  · refine ⟨?_, rfl, h.reg, h.waitingReg, rfl, rfl⟩
    simp only [Pcf8563State.updateTime, shownRegs_eq_writeFrom, h.regs, hshown]
  · exact ⟨h.regs, h.readUpdate hphase, h.reg, h.waitingReg, rfl, rfl⟩

/-- A byte sent keeps two devices in agreement. -/
theorem Agree.send {b b' : I2cBus} (h : Agree b b') (hphase : b.phase = .sending) (data : UInt8) :
    Agree { b with device := b.device.send data } { b' with device := b'.device.send data } := by
  have hne : b.phase = .receiving → False := fun hreceiving =>
    absurd (hphase.symm.trans hreceiving) (by decide)
  unfold Pcf8563State.send
  rw [h.waitingReg, h.reg, h.regs]
  split
  · exact ⟨h.phase, h.received, rfl, rfl, rfl, fun hreceiving => (hne hreceiving).elim, h.clock⟩
  · dsimp only
    split
    · exact ⟨h.phase, h.received, rfl, rfl, rfl, fun _ => rfl, fun _ => rfl⟩
    · exact ⟨h.phase, h.received, rfl, rfl, rfl, fun hreceiving => (hne hreceiving).elim, h.clock⟩

/-- A byte received keeps two devices in agreement. -/
theorem Agree.recv {b b' : I2cBus} (h : Agree b b') (hphase : b.phase = .receiving) :
    Agree { b with device := b.device.recv.1, received := b.received ++ [b.device.recv.2] }
      { b' with device := b'.device.recv.1, received := b'.received ++ [b'.device.recv.2] } := by
  obtain ⟨hregs, hupdate, hreg, hwaiting, htime, htime'⟩ := h.refresh hphase
  refine ⟨h.phase, ?_, hregs, ?_, hwaiting, fun _ => hupdate, ?_⟩
  · simp only [Pcf8563State.recv, h.received, hregs, hreg]
  · simp only [Pcf8563State.recv, hreg]
  · simp only [Pcf8563State.recv, htime, htime']
    exact h.clock

/-- A transfer or a tick keeps two devices in agreement. -/
theorem Agree.step {b b' : I2cBus} {e : BusEvent} (h : Agree b b') (he : IsGuestEvent e) :
    Option.Rel Agree (I2cBus.step b e) (I2cBus.step b' e) := by
  cases e with
  | startSend =>
    exact .some ⟨rfl, h.received, h.regs, h.reg, h.waitingReg, fun hphase => absurd hphase (by simp),
      h.clock⟩
  | startRecv => exact .some ⟨rfl, h.received, h.regs, h.reg, h.waitingReg, fun _ => rfl, h.clock⟩
  | send data =>
    rw [I2cBus.step, I2cBus.step]
    by_cases hphase : b.phase = .sending
    · rw [if_pos hphase, if_pos (h.phase ▸ hphase)]
      exact .some (h.send hphase data)
    · rw [if_neg hphase, if_neg (h.phase ▸ hphase)]
      exact .none
  | recv =>
    rw [I2cBus.step, I2cBus.step]
    by_cases hphase : b.phase = .receiving
    · rw [if_pos hphase, if_pos (h.phase ▸ hphase)]
      exact .some (h.recv hphase)
    · rw [if_neg hphase, if_neg (h.phase ▸ hphase)]
      exact .none
  | nack => exact .some h
  | finish =>
    rw [I2cBus.step, I2cBus.step]
    by_cases hphase : b.phase ≠ .idle
    · rw [if_pos hphase, if_pos (h.phase ▸ hphase)]
      exact .some ⟨rfl, h.received, h.regs, h.reg, rfl, fun _ => rfl, h.clock⟩
    · rw [if_neg hphase, if_neg (h.phase ▸ hphase)]
      exact .none
  | tick => exact .some ⟨h.phase, h.received, h.regs, h.reg, h.waitingReg, h.readUpdate, h.clock.tick⟩
  | reset now => exact he.elim

/-- Devices in agreement are indistinguishable. -/
theorem Agree.indistinguishable {b b' : I2cBus} (h : Agree b b') : Indistinguishable b b' := by
  intro events hevents
  exact Transition.run_map_eq_of_bisimulation I2cBus.step Agree IsGuestEvent I2cBus.received I2cBus.received
    (fun _ _ h => h.received) (fun _ _ _ h he => h.step he) h hevents

/-- A restored device agrees with the saved one when the clocks show the same and no refresh is due. -/
theorem restored_agree {b : I2cBus} {now : ℤ} (hclock : ShowSame b.device.timestamp now)
    (hdue : ¬ RefreshDue b) : Agree b (b.restored now) where
  phase := rfl
  received := rfl
  regs := rfl
  reg := rfl
  waitingReg := rfl
  readUpdate hphase := by
    cases hupdate : b.device.readUpdate with
    | true => rfl
    | false => exact absurd ⟨hphase, hupdate⟩ hdue
  clock := hclock

/-- A guest that abandons what it does, waits and reads the date, receives the one of that second. -/
theorem run_readLater (b : I2cBus) (k : ℕ) :
    ∃ final, Transition.run step b ([.startSend, .finish] ++ (List.replicate k .tick ++ readBlock 2 7)) =
      some final ∧ final.received = b.received ++ dateBytes (localtime (b.device.timestamp + k)) := by
  let b₁ : I2cBus := { b with device := b.device.event .finish, phase := .idle }
  have hquiet := run_quiet b₁ (List.replicate k .tick) (by simp [Quiet])
  rw [List.count_replicate_self] at hquiet
  obtain ⟨final, seconds, hfinal, -, hseconds, hreceived⟩ :=
    run_readBlock (b₁.advance k) rfl 2 (by decide) 6 (readBlock 2 7) (by decide)
  have hzero : seconds = 0 := Nat.le_zero.mp (hseconds.trans (by decide))
  refine ⟨final, Transition.run_append_eq_some rfl (Transition.run_append_eq_some hquiet hfinal), ?_⟩
  rw [hreceived, hzero, regsFrom_shownRegs, Nat.cast_zero, add_zero]
  rfl

/-- A transfer that reads a block is one of the guest. -/
theorem isGuestEvent_readBlock (reg : UInt8) (len : ℕ) : ∀ e ∈ readBlock reg len, IsGuestEvent e := by
  intro e he
  simp only [readBlock, List.mem_cons, List.mem_append, List.mem_replicate, List.not_mem_nil, or_false] at he
  rcases he with rfl | rfl | rfl | ⟨-, rfl⟩ | rfl <;> trivial

/-- The later sequences that show a guest the clock are transfers and ticks. -/
theorem isGuestEvent_readLater (k : ℕ) :
    ∀ e ∈ ([.startSend, .finish] ++ (List.replicate k .tick ++ readBlock 2 7) : List BusEvent),
      IsGuestEvent e := by
  intro e he
  rcases List.mem_append.mp he with hleave | hread
  · simp only [List.mem_cons, List.not_mem_nil, or_false] at hleave
    rcases hleave with rfl | rfl <;> trivial
  · rcases List.mem_append.mp hread with htick | hblock
    · rw [List.eq_of_mem_replicate htick]
      trivial
    · exact isGuestEvent_readBlock 2 7 e hblock

/-- Indistinguishable devices show the same from now on. -/
theorem Indistinguishable.showSame {b b' : I2cBus} (h : Indistinguishable b b')
    (hreceived : b.received = b'.received) : ShowSame b.device.timestamp b'.device.timestamp := by
  intro k
  obtain ⟨final, hfinal, hbytes⟩ := run_readLater b k
  obtain ⟨final', hfinal', hbytes'⟩ := run_readLater b' k
  have hsame := h _ (isGuestEvent_readLater k)
  rw [hfinal, hfinal', Option.map_some, Option.map_some, hbytes, hbytes', hreceived] at hsame
  exact List.append_cancel_left (Option.some.inj hsame)

/-- A device that refreshes its cache before it shows a date, or has just done so. -/
def ShowsClock (s : Pcf8563State) : Prop :=
  s.readUpdate = false ∨ ∃ regs, s.regs = Pcf8563State.shownRegs regs (localtime s.timestamp)

/-- A refresh leaves such a device as one, and registers of the date then show its clock. -/
theorem ShowsClock.refresh {s : Pcf8563State} (h : ShowsClock s) :
    ShowsClock s.refresh ∧ s.refresh.timestamp = s.timestamp ∧ s.refresh.reg = s.reg ∧
      (Pcf8563State.IsDateReg s.reg →
        ∃ regs, s.refresh.regs = Pcf8563State.shownRegs regs (localtime s.timestamp)) := by
  unfold Pcf8563State.refresh
  split
  · exact ⟨Or.inr ⟨s.regs, rfl⟩, rfl, rfl, fun _ => ⟨s.regs, rfl⟩⟩
  · next hkept =>
    refine ⟨h, rfl, rfl, fun hdate => ?_⟩
    rcases h with hdue | hshown
    · exact absurd ⟨hdue, hdate⟩ hkept
    · exact hshown

/-- The register of the seconds after a refresh. -/
theorem getReg_shownRegs (regs : Pcf8563Regs) (tm : Tm) :
    Pcf8563State.getReg (Pcf8563State.shownRegs regs tm) 2 = toBcd (UInt8.ofInt tm.sec) :=
  (List.cons.inj (regsFrom_shownRegs regs tm)).1

/-- In a read transfer such a device shows the second of its clock. -/
theorem run_showsClock (b : I2cBus) (hphase : b.phase = .receiving) (hshows : ShowsClock b.device)
    (count : ℕ) (hreg : b.device.reg + UInt8.ofNat count = 2) :
    ∃ final bytes, Transition.run step b (List.replicate (count + 1) .recv ++ [.finish]) = some final ∧
      final.received = b.received ++ (bytes ++ [toBcd (UInt8.ofInt (localtime b.device.timestamp).sec)]) := by
  obtain ⟨hnext, htime, hkept, hshown⟩ := hshows.refresh
  let next : I2cBus := { b with device := b.device.recv.1, received := b.received ++ [b.device.recv.2] }
  have hstep : step b .recv = some next := if_pos hphase
  induction count generalizing b with
  | zero =>
    have hseconds : b.device.reg = 2 := by simpa using hreg
    obtain ⟨regs, hregs⟩ := hshown (by rw [hseconds]; decide)
    have hfinish : step next .finish =
        some { next with device := next.device.event .finish, phase := .idle } :=
      if_pos (by simp [next, hphase])
    refine ⟨{ next with device := next.device.event .finish, phase := .idle }, [],
      Transition.run_append_eq_some (Transition.run_singleton hstep) (Transition.run_singleton hfinish), ?_⟩
    have hvalue : b.device.recv.2 = toBcd (UInt8.ofInt (localtime b.device.timestamp).sec) := by
      rw [Pcf8563State.recv]
      dsimp only
      rw [hkept, hseconds, hregs, getReg_shownRegs]
    rw [List.nil_append, ← hvalue]
  | succ count ih =>
    have hafter : next.device.reg + UInt8.ofNat count = 2 := by
      rw [UInt8.ofNat_add, UInt8.add_comm (UInt8.ofNat _), ← UInt8.add_assoc] at hreg
      change b.device.refresh.reg + 1 + UInt8.ofNat count = 2
      rwa [hkept]
    have hagain : ShowsClock next.device := hnext
    obtain ⟨hnext', htime', hkept', hshown'⟩ := hagain.refresh
    obtain ⟨final, bytes, hfinal, hbytes⟩ := ih next hphase hagain hafter hnext' htime' hkept' hshown'
      (if_pos hphase)
    refine ⟨final, b.device.recv.2 :: bytes, Transition.run_cons_eq_some.mpr ⟨next, hstep, hfinal⟩, ?_⟩
    have hsame : next.device.timestamp = b.device.timestamp := htime
    rw [hbytes, hsame]
    exact List.append_assoc _ _ _

/-- The second of a clock. -/
theorem localtime_sec (t : ℤ) : (localtime t).sec = ((t % 60).toNat : ℕ) := by
  simp only [localtime, dateTimeOf]
  omega

/-- A restored device in a read transfer can be told apart when a refresh is due: it never shows that a second
has passed. -/
theorem not_indistinguishable_of_refreshDue {b : I2cBus} {now : ℤ} (hdue : RefreshDue b) :
    ¬ Indistinguishable b (b.restored now) := by
  intro hsame
  obtain ⟨hphase, hupdate⟩ := hdue
  let count : ℕ := (2 - b.device.reg).toNat
  have hreg : b.device.reg + UInt8.ofNat count = 2 := by
    rw [UInt8.ofNat_toNat, UInt8.add_comm, UInt8.sub_add_cancel]
  -- the register of the seconds, now and a second later, is the one that was saved
  have hsaved : ∀ n : ℕ, (regsFrom b.device.regs b.device.reg (count + 1)).getLast? =
      some (toBcd (UInt8.ofInt (localtime (b.device.timestamp + n)).sec)) := by
    intro n
    let events : List BusEvent := List.replicate n .tick ++ (List.replicate (count + 1) .recv ++ [.finish])
    have hguest : ∀ e ∈ events, IsGuestEvent e := by
      intro e he
      simp only [events, List.mem_append, List.mem_replicate, List.mem_singleton] at he
      rcases he with ⟨-, rfl⟩ | ⟨-, rfl⟩ | rfl <;> trivial
    have hloud : events.filter Loud = List.replicate (count + 1) .recv ++ [.finish] := by
      simp [events, Quiet, List.filter_append]
    have hquiet := run_quiet b (List.replicate n .tick) (by simp [Quiet])
    rw [List.count_replicate_self] at hquiet
    obtain ⟨final, bytes, hfinal, hbytes⟩ := run_showsClock (b.advance n) hphase (Or.inl hupdate) count hreg
    obtain ⟨final', hfinal', -, hbytes'⟩ := run_latched (b.restored now) hphase rfl (count + 1) events hloud
    have hequal := hsame events hguest
    rw [Transition.run_append_eq_some hquiet hfinal, hfinal', Option.map_some, Option.map_some, hbytes,
      hbytes'] at hequal
    have hregs : bytes ++ [_] = regsFrom b.device.regs b.device.reg (count + 1) :=
      List.append_cancel_left (Option.some.inj hequal)
    rw [← hregs, List.getLast?_concat]
    rfl
  have hsec : ∀ n : ℕ, toBcd (UInt8.ofInt (localtime (b.device.timestamp + n)).sec) =
      bcdByte ((b.device.timestamp + n) % 60).toNat := by
    intro n
    rw [localtime_sec, toBcd_ofInt (by omega)]
  have hbytes := Option.some.inj ((hsaved 0).symm.trans (hsaved 1))
  rw [hsec, hsec] at hbytes
  have hseconds : (fromBcd _).toNat = (fromBcd _).toNat := congrArg (fun byte => (fromBcd byte).toNat) hbytes
  rw [fromBcd_bcdByte (by omega), fromBcd_bcdByte (by omega)] at hseconds
  omega

/-- What the clock shows of a date from 2000 on. -/
def lateBytes (d : DateTime) (wday : ℕ) : List UInt8 :=
  [bcdByte d.second, bcdByte d.minute, bcdByte d.hour, bcdByte d.date.day, UInt8.ofInt wday,
    bcdByte (d.date.month + 1) &&& 0x7F, bcdByte ((d.date.year - 1900) % 100).toNat]

/-- From 2000 on the clock shows the date with the bit of the century clear. -/
theorem dateBytes_late {t : ℤ} (h : (newYear 2000).seconds ≤ t) :
    dateBytes (localtime t) = lateBytes (dateTimeOf t) (weekdayOf (t / 86400)) := by
  have hyear : ¬ (dateTimeOf t).date.year < 2000 := fun hlt =>
    absurd ((dateTimeOf_year_lt_iff t 2000).mp hlt) (not_lt.mpr h)
  obtain ⟨hdate, hhour, hminute, hsecond⟩ := (dateTimeOf_spec t).1
  have hday := hdate.day_le.trans (monthDays_le _ _)
  have hmonth := hdate.month_lt
  have hlate : (localtime t).year ≥ 100 := by
    simp only [localtime]
    omega
  have hshown : (localtime t).year.tmod 100 = (((dateTimeOf t).date.year - 1900) % 100).toNat := by
    rw [Int.tmod_eq_emod_of_nonneg (by omega)]
    simp only [localtime]
    omega
  have hnext : (localtime t).mon + 1 = (((dateTimeOf t).date.month + 1 : ℕ) : ℤ) := by
    simp only [localtime]
    push_cast
    rfl
  rw [dateBytes, if_pos hlate, hshown, hnext, toBcd_ofInt (by omega), toBcd_ofInt (by omega)]
  simp only [localtime]
  rw [toBcd_ofInt (by omega), toBcd_ofInt (by omega), toBcd_ofInt (by omega), toBcd_ofInt (by omega)]
  rfl

/-- From 2000 on, what the clock shows repeats itself every 400 years. -/
theorem dateBytes_shift {t m : ℤ} (h : (newYear 2000).seconds ≤ t)
    (hshifted : (newYear 2000).seconds ≤ t + secondsOfPeriod * m) :
    dateBytes (localtime (t + secondsOfPeriod * m)) = dateBytes (localtime t) := by
  have hweekday : weekdayOf ((t + secondsOfPeriod * m) / 86400) = weekdayOf (t / 86400) := by
    unfold secondsOfPeriod weekdayOf
    omega
  have hcentury (year : ℤ) : (year + 400 * m - 1900) % 100 = (year - 1900) % 100 := by omega
  rw [dateBytes_late h, dateBytes_late hshifted, hweekday, dateTimeOf_shift]
  simp only [lateBytes, Date.shift, hcentury]

/-- The bit of the century in what the clock shows. -/
theorem dateBytes_century (t : ℤ) :
    (dateBytes (localtime t)).getD 5 0 &&& 0x80 = 0 ↔ (newYear 2000).seconds ≤ t := by
  have hmonth := (dateTimeOf_spec t).1.date.month_lt
  obtain ⟨-, hlateBit, -, hearlyBit⟩ := bcdByte_century (show (dateTimeOf t).date.month + 1 < 20 by omega)
  have hnext : (localtime t).mon + 1 = (((dateTimeOf t).date.month + 1 : ℕ) : ℤ) := by
    simp only [localtime]
    push_cast
    rfl
  by_cases h : (newYear 2000).seconds ≤ t
  · rw [dateBytes_late h]
    exact iff_of_true hlateBit h
  · have hearly : ¬ (localtime t).year ≥ 100 := by
      have := (dateTimeOf_year_lt_iff t 2000).mpr (not_le.mp h)
      simp only [localtime]
      omega
    rw [dateBytes, if_neg hearly, hnext, toBcd_ofInt (by omega : (dateTimeOf t).date.month + 1 < 100)]
    exact iff_of_false hearlyBit h

/-- Numbers of two digits are known by their bytes. -/
theorem bcdByte_inj {n m : ℕ} (hn : n < 100) (hm : m < 100) (h : bcdByte n = bcdByte m) : n = m := by
  rw [← fromBcd_bcdByte hn, h, fromBcd_bcdByte hm]

/-- The 29th of February 2000 at midnight. -/
def leapDay : DateTime := ⟨⟨2000, 1, 29⟩, 0, 0, 0⟩

/-- What the clock shows on the 29th of February 2000 at midnight it shows every 400 years only. -/
theorem eq_leapDay_of_dateBytes {t : ℤ}
    (h : dateBytes (localtime t) = dateBytes (localtime leapDay.seconds)) :
    ∃ m, t = leapDay.seconds + secondsOfPeriod * m := by
  have hleap : dateTimeOf leapDay.seconds = leapDay := dateTimeOf_seconds (by decide)
  have hlateDay : (newYear 2000).seconds ≤ leapDay.seconds := by decide
  have hlate : (newYear 2000).seconds ≤ t := by
    rw [← dateBytes_century, h, dateBytes_century]
    exact hlateDay
  obtain ⟨⟨⟨hmonth, hday, hle⟩, hhour, hminute, hsecond⟩, hcount⟩ := dateTimeOf_spec t
  have hdays := hle.trans (monthDays_le _ _)
  rw [dateBytes_late hlate, dateBytes_late hlateDay, hleap] at h
  simp only [lateBytes, leapDay, List.cons.injEq, and_true] at h
  obtain ⟨hs, hmi, hh, hd, -, hmo, hy⟩ := h
  -- the bytes give the date, and the year up to its century
  have hsecondZero := bcdByte_inj (by omega) (by decide) hs
  have hminuteZero := bcdByte_inj (by omega) (by decide) hmi
  have hhourZero := bcdByte_inj (by omega) (by decide) hh
  have hdayLeap := bcdByte_inj (by omega) (by decide) hd
  have hmonthByte := congrArg (fun byte => byte &&& 0x1F) hmo
  simp only [(bcdByte_century (show (dateTimeOf t).date.month + 1 < 20 by omega)).1,
    (bcdByte_century (show 1 + 1 < 20 by decide)).1] at hmonthByte
  have hfebruary := bcdByte_inj (by omega) (by decide) hmonthByte
  have hcentury := bcdByte_inj (by omega) (by decide) hy
  -- of the years that end in 00, those with the day are 400 years apart
  have hmonthIs : (dateTimeOf t).date.month = 1 := by omega
  rw [hdayLeap, hmonthIs] at hle
  have hrule := of_decide_eq_true (isLeap_of_monthDays hle)
  have hyear : (dateTimeOf t).date.year = 2000 + 400 * (((dateTimeOf t).date.year - 2000) / 400) := by omega
  refine ⟨((dateTimeOf t).date.year - 2000) / 400, ?_⟩
  have hsame : dateTimeOf t =
      dateTimeOf (leapDay.seconds + secondsOfPeriod * (((dateTimeOf t).date.year - 2000) / 400)) := by
    rw [dateTimeOf_shift, hleap]
    ext
    · exact hyear
    · exact hmonthIs
    · exact hdayLeap
    · exact hhourZero
    · exact hminuteZero
    · exact hsecondZero
  calc
    t = (dateTimeOf t).seconds := hcount.symm
    _ = (dateTimeOf _).seconds := congrArg DateTime.seconds hsame
    _ = _ := (dateTimeOf_spec _).2

/-- Clocks of which one is before 2000 show the same from now on only when they count the same second: the
later one reaches 2000 first. -/
theorem ShowSame.not_lt {t t' : ℤ} (h : ShowSame t t') (hearly : t' < (newYear 2000).seconds) : ¬ t < t' := by
  intro hlt
  have hreach := h ((newYear 2000).seconds - t').toNat
  have hlate : (newYear 2000).seconds ≤ t + ((newYear 2000).seconds - t').toNat := by
    rw [← dateBytes_century, hreach, dateBytes_century]
    omega
  omega

/-- Two clocks show the same from now on exactly when they count the same second, or both are in 2000 or later
and a multiple of 400 years apart. -/
theorem showSame_iff (t t' : ℤ) : ShowSame t t' ↔ SameClock t t' := by
  constructor
  · intro h
    have hsymm : ShowSame t' t := fun k => (h k).symm
    have hcentury : (newYear 2000).seconds ≤ t ↔ (newYear 2000).seconds ≤ t' := by
      have hnow := h 0
      rw [Nat.cast_zero, add_zero, add_zero] at hnow
      rw [← dateBytes_century, hnow, dateBytes_century]
    by_cases hlate : (newYear 2000).seconds ≤ t
    · -- wait for a 29th of February of a year that 400 divides
      have hlate' := hcentury.mp hlate
      have hperiod : (0 : ℤ) < secondsOfPeriod := by decide
      have hwait := Int.emod_nonneg (leapDay.seconds - t) hperiod.ne'
      have hreached : t + ((leapDay.seconds - t) % secondsOfPeriod).toNat =
          leapDay.seconds + secondsOfPeriod * -((leapDay.seconds - t) / secondsOfPeriod) := by
        have := Int.emod_add_mul_ediv (leapDay.seconds - t) secondsOfPeriod
        rw [Int.toNat_of_nonneg hwait, mul_neg]
        omega
      have hday := h ((leapDay.seconds - t) % secondsOfPeriod).toNat
      rw [hreached, dateBytes_shift (by decide) (by omega)] at hday
      obtain ⟨m, hm⟩ := eq_leapDay_of_dateBytes hday.symm
      refine Or.inr ⟨hlate, hlate', m + (leapDay.seconds - t) / secondsOfPeriod, ?_⟩
      rw [mul_add]
      rw [mul_neg] at hreached
      omega
    · have hearly' : t' < (newYear 2000).seconds := not_le.mp fun h => hlate (hcentury.mpr h)
      exact Or.inl (le_antisymm (not_lt.mp (hsymm.not_lt (not_le.mp hlate))) (not_lt.mp (h.not_lt hearly')))
  · rintro (rfl | ⟨hlate, hlate', m, rfl⟩) k
    · rfl
    · rw [add_right_comm]
      exact (dateBytes_shift (by omega) (by omega)).symm

/-- Saving and restoring is indistinguishable to the guest exactly when the timestamp is that of the host, or
both lie from 2000 on and a multiple of 400 years apart, and no refresh is due in a read transfer. -/
theorem restored_indistinguishable_iff (b : I2cBus) (now : ℤ) :
    Indistinguishable b (b.restored now) ↔ SameClock b.device.timestamp now ∧ ¬ RefreshDue b := by
  constructor
  · intro h
    exact ⟨(showSame_iff _ _).mp (h.showSame rfl), fun hdue => not_indistinguishable_of_refreshDue hdue h⟩
  · rintro ⟨hclock, hdue⟩
    exact (restored_agree ((showSame_iff _ _).mpr hclock) hdue).indistinguishable

/-- A clock at the beginning of 1970 that is restored five seconds later by the host shows those five seconds;
and one that is restored between the start of a read and the first byte shows the second before, although the
timestamps are equal. -/
theorem restored_distinguishable :
    ¬ (∀ (start now : ℤ) (events : List BusEvent) (b : I2cBus),
      Transition.run step (realized start) events = some b → Indistinguishable b (b.restored now)) ∧
      (Transition.run step (realized 0) (readBlock 2 7)).map received =
        some [0x00, 0x00, 0x00, 0x01, 0x04, 0x81, 0x70] ∧
      (Transition.run step ((realized 0).restored 5) (readBlock 2 7)).map received =
        some [0x05, 0x00, 0x00, 0x01, 0x04, 0x81, 0x70] ∧
      ((Transition.run step (realized 0) [.startSend, .send 2, .startRecv, .tick]).bind fun b =>
        (Transition.run step b [.recv]).map received) = some [0x01] ∧
      ((Transition.run step (realized 0) [.startSend, .send 2, .startRecv, .tick]).bind fun b =>
        (Transition.run step (b.restored b.device.timestamp) [.recv]).map received) = some [0x00] := by
  have hsaved : (Transition.run step (realized 0) (readBlock 2 7)).map received =
      some [0x00, 0x00, 0x00, 0x01, 0x04, 0x81, 0x70] := by decide +kernel
  have hrestored : (Transition.run step ((realized 0).restored 5) (readBlock 2 7)).map received =
      some [0x05, 0x00, 0x00, 0x01, 0x04, 0x81, 0x70] := by decide +kernel
  refine ⟨fun h => ?_, hsaved, hrestored, by decide +kernel, by decide +kernel⟩
  have hsame := h 0 5 [] (realized 0) rfl (readBlock 2 7) (isGuestEvent_readBlock 2 7)
  rw [hsaved, hrestored] at hsame
  exact absurd hsame (by decide)

end I2cBus

end RemoteManage.KernelModule
