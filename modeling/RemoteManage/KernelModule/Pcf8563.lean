import RemoteManage.Foundation.Calendar
import RemoteManage.Foundation.Transition
import Mathlib.Tactic.Ring

/-!
# The PCF8563 clock of the emulated board

The emulated clock counts seconds in `timestamp`; its registers are a cache of the date in BCD. A
written register of the date sets `timestamp` from all of them, and the first byte of the date that
is read after a start or a finish refreshes them from `timestamp`.

The bus delivers starts, bytes and finishes in order. The timer and a reset may come at any time.
`mktime` and `localtime` are those of the C library in UTC, on the proleptic Gregorian calendar.
-/

namespace RemoteManage.KernelModule

open RemoteManage.Foundation RemoteManage.Foundation.Calendar

/-- The fields of `struct tm` and of `struct rtc_time` that are used. -/
@[ext]
structure Tm where
  sec : ℤ
  min : ℤ
  hour : ℤ
  mday : ℤ
  mon : ℤ
  year : ℤ
  wday : ℤ
  deriving DecidableEq, Repr

/-- `localtime` in UTC. -/
def localtime (timestamp : ℤ) : Tm :=
  let d := dateTimeOf timestamp
  ⟨d.second, d.minute, d.hour, d.date.day, d.date.month, d.date.year - 1900, weekdayOf (timestamp / 86400)⟩

/-- `mktime` in UTC: months and the smaller fields may lie outside their ranges. -/
def mktime (tm : Tm) : ℤ :=
  let first : Date := ⟨tm.year + 1900 + tm.mon / 12, (tm.mon % 12).toNat, 1⟩
  (first.dayNumber + (tm.mday - 1)) * 86400 + tm.hour * 3600 + tm.min * 60 + tm.sec

/-- `to_bcd`. -/
def toBcd (value : UInt8) : UInt8 := ((value / 10) <<< 4) ||| (value % 10)

/-- `from_bcd`. -/
def fromBcd (value : UInt8) : UInt8 := (value >>> 4) * 10 + (value &&& 0x0F)

/-- `PCF8563_REG_MAX`. -/
abbrev pcf8563RegMax : ℕ := 0x0F

/-- The register file. -/
abbrev Pcf8563Regs := Fin (pcf8563RegMax + 1) → UInt8

/-- `PCF8563State`. The handle of the timer is left out. -/
@[ext]
structure Pcf8563State where
  regs : Pcf8563Regs
  reg : UInt8
  waitingReg : Bool
  readUpdate : Bool
  timestamp : ℤ

/-- The events of the bus that a slave is told of, `enum i2c_event`. -/
inductive I2cEvent where
  | startRecv
  | startSend
  | startSendAsync
  | finish
  | nack
  deriving DecidableEq, Repr

namespace Pcf8563State

/-- The registers that `pcf8563_update_time` writes. -/
def shownRegs (regs : Pcf8563Regs) (tm : Tm) : Pcf8563Regs :=
  let regs := Function.update regs 2 (toBcd (UInt8.ofInt tm.sec))
  let regs := Function.update regs 3 (toBcd (UInt8.ofInt tm.min))
  let regs := Function.update regs 4 (toBcd (UInt8.ofInt tm.hour))
  let regs := Function.update regs 5 (toBcd (UInt8.ofInt tm.mday))
  let regs := Function.update regs 6 (UInt8.ofInt tm.wday)
  let regs := Function.update regs 7 (toBcd (UInt8.ofInt (tm.mon + 1)))
  let regs :=
    if tm.year ≥ 100 then Function.update regs 7 (regs 7 &&& 0x7F)
    else Function.update regs 7 (regs 7 ||| 0x80)
  Function.update regs 8 (toBcd (UInt8.ofInt (tm.year.tmod 100)))

/-- `pcf8563_update_time`. -/
def updateTime (s : Pcf8563State) : Pcf8563State :=
  { s with regs := shownRegs s.regs (localtime s.timestamp) }

/-- The date that `pcf8563_store_time` finds in the registers. -/
def storedTm (regs : Pcf8563Regs) : Tm where
  sec := (fromBcd (regs 2 &&& 0x7F)).toNat
  min := (fromBcd (regs 3 &&& 0x7F)).toNat
  hour := (fromBcd (regs 4 &&& 0x3F)).toNat
  mday := (fromBcd (regs 5 &&& 0x3F)).toNat
  mon := (fromBcd (regs 7 &&& 0x1F)).toNat - 1
  year := (fromBcd (regs 8)).toNat + if regs 7 &&& 0x80 = 0 then 100 else 0
  wday := 0

/-- `pcf8563_store_time`. -/
def storeTime (s : Pcf8563State) : Pcf8563State := { s with timestamp := mktime (storedTm s.regs) }

/-- `timer_cb`. -/
def timerCb (s : Pcf8563State) : Pcf8563State := { s with timestamp := s.timestamp + 1 }

/-- `pcf8563_reset_state`, which realizes the device as well, at a time of the host. -/
def resetState (now : ℤ) : Pcf8563State :=
  updateTime ⟨fun _ => 0, 0, true, true, now⟩

/-- A register is written, if there is one of that number. -/
def setReg (regs : Pcf8563Regs) (reg data : UInt8) : Pcf8563Regs :=
  if h : reg.toNat ≤ pcf8563RegMax then Function.update regs ⟨reg.toNat, Nat.lt_succ_of_le h⟩ data else regs

/-- A register is read, if there is one of that number. -/
def getReg (regs : Pcf8563Regs) (reg : UInt8) : UInt8 :=
  if h : reg.toNat ≤ pcf8563RegMax then regs ⟨reg.toNat, Nat.lt_succ_of_le h⟩ else 0xFF

/-- The registers of the date, from `REG_SEC` to `REG_YEAR`. -/
def IsDateReg (reg : UInt8) : Prop := reg ≥ 2 ∧ reg ≤ 8

instance (reg : UInt8) : Decidable (IsDateReg reg) := inferInstanceAs (Decidable (_ ∧ _))

/-- `pcf8563_send`. -/
def send (s : Pcf8563State) (data : UInt8) : Pcf8563State :=
  if s.waitingReg then { s with reg := data, waitingReg := false }
  else
    let s := { s with regs := setReg s.regs s.reg data }
    let s := if IsDateReg s.reg then { s.storeTime with readUpdate := false } else s
    { s with reg := s.reg + 1 }

/-- What a read of the current register does to the cache. -/
def refresh (s : Pcf8563State) : Pcf8563State :=
  if s.readUpdate = false ∧ IsDateReg s.reg then { s.updateTime with readUpdate := true } else s

/-- `pcf8563_recv`. -/
def recv (s : Pcf8563State) : Pcf8563State × UInt8 :=
  let s := s.refresh
  ({ s with reg := s.reg + 1 }, getReg s.regs s.reg)

/-- `pcf8563_event`. -/
def event (s : Pcf8563State) : I2cEvent → Pcf8563State
  | .startRecv => { s with readUpdate := false }
  | .finish => { s with waitingReg := true, readUpdate := false }
  | .startSend | .nack | .startSendAsync => s

end Pcf8563State

/-- Where the bus is in a transfer. -/
inductive BusPhase where
  | idle
  | sending
  | receiving
  deriving DecidableEq, Repr

/-- The device on its bus, with the bytes that the host has received. -/
structure I2cBus where
  device : Pcf8563State
  phase : BusPhase
  received : List UInt8

/-- What happens on the bus, to the timer, or to the board. -/
inductive BusEvent where
  | startSend
  | startRecv
  | send (data : UInt8)
  | recv
  | nack
  | finish
  | tick
  | reset (now : ℤ)
  deriving DecidableEq, Repr

namespace I2cBus

/-- The device as it is realized at a time of the host. -/
def realized (now : ℤ) : I2cBus := ⟨.resetState now, .idle, []⟩

/-- One step; bytes come only in a transfer of their direction. -/
def step (b : I2cBus) : BusEvent → Option I2cBus
  | .startSend => some { b with device := b.device.event .startSend, phase := .sending }
  | .startRecv => some { b with device := b.device.event .startRecv, phase := .receiving }
  | .send data => if b.phase = .sending then some { b with device := b.device.send data } else none
  | .recv =>
    if b.phase = .receiving then
      some { b with device := b.device.recv.1, received := b.received ++ [b.device.recv.2] }
    else none
  | .nack => some { b with device := b.device.event .nack }
  | .finish =>
    if b.phase ≠ .idle then some { b with device := b.device.event .finish, phase := .idle } else none
  | .tick => some { b with device := b.device.timerCb }
  | .reset now => some { b with device := .resetState now }

/-- Between transfers the device waits for the number of a register. -/
def WaitsWhenIdle (b : I2cBus) : Prop := b.phase = .idle → b.device.waitingReg = true

/-- Every step keeps the device waiting between transfers. -/
theorem WaitsWhenIdle.step {b b' : I2cBus} {e : BusEvent} (h : b.WaitsWhenIdle)
    (hstep : I2cBus.step b e = some b') : b'.WaitsWhenIdle := by
  cases e with
  | startSend =>
    obtain rfl := Option.some.inj hstep
    exact fun hidle => absurd hidle (by simp)
  | startRecv =>
    obtain rfl := Option.some.inj hstep
    exact fun hidle => absurd hidle (by simp)
  | send data =>
    obtain ⟨hphase, rfl⟩ := Transition.enabled_of_ite hstep
    exact fun hidle => absurd (hphase.symm.trans hidle) (by simp)
  | recv =>
    obtain ⟨hphase, rfl⟩ := Transition.enabled_of_ite hstep
    exact fun hidle => absurd (hphase.symm.trans hidle) (by simp)
  | nack =>
    obtain rfl := Option.some.inj hstep
    exact h
  | finish =>
    obtain ⟨-, rfl⟩ := Transition.enabled_of_ite hstep
    exact fun _ => rfl
  | tick =>
    obtain rfl := Option.some.inj hstep
    exact h
  | reset now =>
    obtain rfl := Option.some.inj hstep
    exact fun _ => rfl

/-- Between transfers the device waits for the number of a register, whatever has happened. -/
theorem run_waitsWhenIdle {now : ℤ} {events : List BusEvent} {b : I2cBus}
    (hrun : Transition.run step (realized now) events = some b) : b.WaitsWhenIdle :=
  Transition.run_invariant WaitsWhenIdle (fun _ _ _ h hstep => h.step hstep) hrun fun _ => rfl

/-- A tick or a `NACK`, which may come between any two bytes. -/
def Quiet (e : BusEvent) : Bool := e = .tick ∨ e = .nack

/-- So many seconds later. -/
def advance (b : I2cBus) (seconds : ℕ) : I2cBus :=
  { b with device := { b.device with timestamp := b.device.timestamp + seconds } }

/-- Quiet events let time pass, and nothing else. -/
theorem run_quiet (b : I2cBus) (events : List BusEvent) (hquiet : ∀ e ∈ events, Quiet e = true) :
    Transition.run step b events = some (b.advance (events.count .tick)) := by
  induction events generalizing b with
  | nil => simp [Transition.run, advance]
  | cons e rest ih =>
    rw [List.forall_mem_cons] at hquiet
    obtain rfl | rfl : e = .tick ∨ e = .nack := by simpa [Quiet] using hquiet.1
    · rw [Transition.run, step, Option.bind_some, ih _ hquiet.2, List.count_cons_self]
      simp only [advance, Pcf8563State.timerCb, Nat.cast_add, Nat.cast_one, add_assoc, add_comm (1 : ℤ)]
    · rw [Transition.run, step, Option.bind_some, ih _ hquiet.2, List.count_cons_of_ne (by decide)]
      rfl

/-- A start, a byte or a finish. -/
abbrev Loud (e : BusEvent) : Bool := !Quiet e

/-- Up to the next start, byte or finish only time passes. -/
theorem run_loud_cons (b : I2cBus) {events rest : List BusEvent} {e : BusEvent}
    (hevents : events.filter Loud = e :: rest) :
    ∃ seconds tail, seconds ≤ events.count .tick ∧ tail.filter Loud = rest ∧
      seconds + tail.count .tick ≤ events.count .tick ∧
      ∀ next final, step (b.advance seconds) e = some next → Transition.run step next tail = some final →
        Transition.run step b events = some final := by
  obtain ⟨quiet, tail, rfl, hquiet, -, htail⟩ := List.filter_eq_cons_iff.mp hevents
  refine ⟨quiet.count .tick, tail, ?_, htail, ?_, ?_⟩
  · rw [List.count_append]
    exact Nat.le_add_right _ _
  · rw [List.count_append]
    exact Nat.add_le_add_left (List.count_le_count_cons ..) _
  · intro next final hnext hfinal
    have hpass := run_quiet b quiet fun x hx => by simpa using hquiet x hx
    exact Transition.run_append_eq_some hpass (Transition.run_cons_eq_some.mpr ⟨next, hnext, hfinal⟩)

/-- After the last start, byte or finish only time passes. -/
theorem run_loud_nil (b : I2cBus) {events : List BusEvent} (hevents : events.filter Loud = []) :
    Transition.run step b events = some (b.advance (events.count .tick)) :=
  run_quiet b events fun x hx => by simpa using List.filter_eq_nil_iff.mp hevents x hx

/-- The registers from one number on. -/
def regsFrom (regs : Pcf8563Regs) (reg : UInt8) : ℕ → List UInt8
  | 0 => []
  | count + 1 => Pcf8563State.getReg regs reg :: regsFrom regs (reg + 1) count

/-- Once the cache is fresh, the bytes read up to the finish come from it. -/
theorem run_latched (b : I2cBus) (hphase : b.phase = .receiving) (hfresh : b.device.readUpdate = true)
    (count : ℕ) (events : List BusEvent)
    (hevents : events.filter Loud = List.replicate count .recv ++ [.finish]) :
    ∃ final, Transition.run step b events = some final ∧ final.phase = .idle ∧
      final.received = b.received ++ regsFrom b.device.regs b.device.reg count := by
  induction count generalizing b events with
  | zero =>
    obtain ⟨seconds, tail, -, htail, -, hrun⟩ := run_loud_cons b hevents
    have hfinish : step (b.advance seconds) .finish =
        some { b.advance seconds with device := (b.advance seconds).device.event .finish, phase := .idle } :=
      if_pos (by simp [advance, hphase])
    refine ⟨_, hrun _ _ hfinish (run_loud_nil _ htail), rfl, ?_⟩
    exact (List.append_nil _).symm
  | succ count ih =>
    rw [List.replicate_succ, List.cons_append] at hevents
    obtain ⟨seconds, tail, -, htail, -, hrun⟩ := run_loud_cons b hevents
    have hrefresh : (b.advance seconds).device.refresh = (b.advance seconds).device :=
      if_neg fun h => absurd h.1 (by simp [advance, hfresh])
    let next : I2cBus :=
      ⟨{ (b.advance seconds).device with reg := b.device.reg + 1 }, b.phase,
        b.received ++ [Pcf8563State.getReg b.device.regs b.device.reg]⟩
    have hrecv : step (b.advance seconds) .recv = some next := by
      rw [step, if_pos (show (b.advance seconds).phase = .receiving from hphase), Pcf8563State.recv, hrefresh]
      rfl
    obtain ⟨final, hfinal, hidle, hreceived⟩ := ih next hphase hfresh tail htail
    refine ⟨final, hrun next final hrecv hfinal, hidle, ?_⟩
    rw [hreceived, regsFrom]
    exact List.append_assoc _ _ _

/-- The transfer of `pcf8563_read_block`. -/
def readBlock (reg : UInt8) (len : ℕ) : List BusEvent :=
  .startSend :: .send reg :: .startRecv :: (List.replicate len .recv ++ [.finish])

/-- A block of the date that is read is that of one second during the transfer, whatever ticks fall between
its bytes. -/
theorem run_readBlock (b : I2cBus) (hwaiting : b.device.waitingReg = true) (reg : UInt8)
    (hreg : Pcf8563State.IsDateReg reg) (count : ℕ) (events : List BusEvent)
    (hevents : events.filter Loud = readBlock reg (count + 1)) :
    ∃ final seconds, Transition.run step b events = some final ∧ final.phase = .idle ∧
      seconds ≤ events.count .tick ∧
      final.received = b.received ++
        regsFrom (Pcf8563State.shownRegs b.device.regs (localtime (b.device.timestamp + seconds))) reg
          (count + 1) := by
  -- one event after the other, with the ticks before it
  obtain ⟨n₁, tail₁, -, hloud₁, hcount₁, hrun₁⟩ := run_loud_cons b hevents
  let b₁ : I2cBus := { b.advance n₁ with phase := .sending }
  obtain ⟨n₂, tail₂, -, hloud₂, hcount₂, hrun₂⟩ := run_loud_cons b₁ hloud₁
  let b₂ : I2cBus :=
    { b₁.advance n₂ with device := { (b₁.advance n₂).device with reg := reg, waitingReg := false } }
  have hsend : step (b₁.advance n₂) (.send reg) = some b₂ := by
    rw [step, if_pos (show (b₁.advance n₂).phase = .sending from rfl), Pcf8563State.send,
      if_pos (show (b₁.advance n₂).device.waitingReg = true from hwaiting)]
  obtain ⟨n₃, tail₃, -, hloud₃, hcount₃, hrun₃⟩ := run_loud_cons b₂ hloud₂
  let b₃ : I2cBus :=
    { b₂.advance n₃ with device := { (b₂.advance n₃).device with readUpdate := false }, phase := .receiving }
  rw [List.replicate_succ, List.cons_append] at hloud₃
  obtain ⟨n₄, tail₄, -, hloud₄, hcount₄, hrun₄⟩ := run_loud_cons b₃ hloud₃
  let b₄ : I2cBus :=
    ⟨{ (b₃.advance n₄).device.updateTime with reg := reg + 1, readUpdate := true }, .receiving,
      b.received ++ [Pcf8563State.getReg (b₃.advance n₄).device.updateTime.regs reg]⟩
  have hrefresh : (b₃.advance n₄).device.refresh =
      { (b₃.advance n₄).device.updateTime with readUpdate := true } := if_pos ⟨rfl, hreg⟩
  have hrecv : step (b₃.advance n₄) .recv = some b₄ := by
    rw [step, if_pos (show (b₃.advance n₄).phase = .receiving from rfl), Pcf8563State.recv, hrefresh]
    rfl
  obtain ⟨final, hfinal, hidle, hreceived⟩ := run_latched b₄ rfl rfl count tail₄ hloud₄
  have htime : b₃.device.timestamp + n₄ = b.device.timestamp + (n₁ + n₂ + n₃ + n₄ : ℕ) := by
    simp only [b₃, b₂, b₁, advance]
    push_cast
    ring
  refine ⟨final, n₁ + n₂ + n₃ + n₄, ?_, hidle, by omega, ?_⟩
  · exact hrun₁ b₁ final rfl (hrun₂ b₂ final hsend (hrun₃ b₃ final rfl (hrun₄ b₄ final hrecv hfinal)))
  · rw [hreceived, ← htime]
    exact List.append_assoc _ _ _

/-- The register file after bytes written from a register on. -/
def writeFrom (regs : Pcf8563Regs) (reg : UInt8) : List UInt8 → Pcf8563Regs
  | [] => regs
  | data :: rest => writeFrom (Pcf8563State.setReg regs reg data) (reg + 1) rest

/-- After bytes of which the last goes to a register of the date, the time is the one in the registers. -/
theorem run_sends (b : I2cBus) (hphase : b.phase = .sending) (hwaiting : b.device.waitingReg = false)
    (bytes : List UInt8) (last : UInt8)
    (hlast : Pcf8563State.IsDateReg (b.device.reg + UInt8.ofNat bytes.length)) :
    ∃ final, Transition.run step b ((bytes ++ [last]).map .send) = some final ∧ final.phase = .sending ∧
      final.received = b.received ∧
      final.device.regs = writeFrom b.device.regs b.device.reg (bytes ++ [last]) ∧
      final.device.timestamp = mktime (Pcf8563State.storedTm final.device.regs) := by
  induction bytes generalizing b with
  | nil =>
    have hreg : Pcf8563State.IsDateReg b.device.reg := by simpa using hlast
    refine ⟨{ b with device := b.device.send last }, ?_, hphase, rfl, ?_, ?_⟩
    · exact Transition.run_singleton (if_pos hphase)
    · simp [Pcf8563State.send, hwaiting, hreg, writeFrom, Pcf8563State.storeTime]
    · simp [Pcf8563State.send, hwaiting, hreg, Pcf8563State.storeTime]
  | cons data rest ih =>
    have hnext : (b.device.send data).reg = b.device.reg + 1 ∧ (b.device.send data).waitingReg = false ∧
        (b.device.send data).regs = Pcf8563State.setReg b.device.regs b.device.reg data := by
      rw [Pcf8563State.send, if_neg (by simp [hwaiting])]
      dsimp only
      split
      · exact ⟨rfl, hwaiting, rfl⟩
      · exact ⟨rfl, hwaiting, rfl⟩
    obtain ⟨hreg, hwait, hregs⟩ := hnext
    rw [List.length_cons, UInt8.ofNat_add, UInt8.add_comm (UInt8.ofNat _), ← UInt8.add_assoc] at hlast
    obtain ⟨final, hfinal, hsending, hreceived, hfile, htime⟩ :=
      ih { b with device := b.device.send data } hphase hwait (hreg ▸ hlast)
    refine ⟨final, ?_, hsending, hreceived, ?_, htime⟩
    · exact Transition.run_cons_eq_some.mpr ⟨_, if_pos hphase, hfinal⟩
    · rw [hfile, hreg, hregs]
      rfl

/-- The transfer of `pcf8563_write_block`. -/
def writeBlock (reg : UInt8) (buf : List UInt8) : List BusEvent :=
  .startSend :: .send reg :: (buf.map .send ++ [.finish])

/-- A block that ends with a register of the date sets the time to the one then in the registers. -/
theorem run_writeBlock (b : I2cBus) (hwaiting : b.device.waitingReg = true) (reg : UInt8)
    (bytes : List UInt8) (last : UInt8) (hlast : Pcf8563State.IsDateReg (reg + UInt8.ofNat bytes.length)) :
    ∃ final, Transition.run step b (writeBlock reg (bytes ++ [last])) = some final ∧ final.phase = .idle ∧
      final.device.waitingReg = true ∧ final.received = b.received ∧
      final.device.regs = writeFrom b.device.regs reg (bytes ++ [last]) ∧
      final.device.timestamp = mktime (Pcf8563State.storedTm final.device.regs) := by
  let b₁ : I2cBus := { b with device := { b.device with reg := reg, waitingReg := false }, phase := .sending }
  have hsend : step { b with phase := .sending } (.send reg) = some b₁ := by
    rw [step, if_pos rfl, Pcf8563State.send, if_pos hwaiting]
  obtain ⟨b₂, hsends, hsending, hreceived, hfile, htime⟩ := run_sends b₁ rfl rfl bytes last hlast
  have hfinish : step b₂ .finish = some { b₂ with device := b₂.device.event .finish, phase := .idle } :=
    if_pos (by simp [hsending])
  refine ⟨{ b₂ with device := b₂.device.event .finish, phase := .idle }, ?_, rfl, rfl, hreceived, hfile,
    htime⟩
  refine Transition.run_cons_eq_some.mpr ⟨{ b with phase := .sending }, rfl, ?_⟩
  refine Transition.run_cons_eq_some.mpr ⟨b₁, hsend, ?_⟩
  exact Transition.run_append_eq_some hsends (Transition.run_singleton hfinish)

end I2cBus

end RemoteManage.KernelModule
