import Mathlib.Data.Int.Basic
import Mathlib.Data.List.Basic

/-!
# The loop LEDs of `local_device`

`loopled_device` lights a red, a yellow and a green lamp in turn, one tick for each call of
`loop_refresh_per_second`. Every lamp is switched by a write of its own, and the state keeps what the
lamps showed after each of them. The device file is a parameter that answers the writes; calls of
`loop_refresh_per_second` and `set_state` are atomic.
-/

namespace RemoteManage.LocalDevice

/-- The lamps `LOOP_LED_YELLOW`, `LOOP_LED_RED` and `LOOP_LED_GREEN`. -/
inductive Led where
  | yellow
  | red
  | green
  deriving DecidableEq, Repr

/-- The lamp that follows in the cycle. -/
def Led.next : Led → Led
  | .green => .yellow
  | .yellow => .red
  | .red => .green

/-- Which lamps are on. -/
structure Lamps where
  red : Bool
  yellow : Bool
  green : Bool
  deriving DecidableEq, Repr

namespace Lamps

/-- All lamps off. -/
def off : Lamps := ⟨false, false, false⟩

/-- One lamp switched on or off. -/
def set (lamps : Lamps) : Led → Bool → Lamps
  | .red, status => { lamps with red := status }
  | .yellow, status => { lamps with yellow := status }
  | .green, status => { lamps with green := status }

/-- Only the given lamp on, if any. -/
def only : Option Led → Lamps
  | none => off
  | some led => off.set led true

/-- At most one lamp is on. -/
def AtMostOne (lamps : Lamps) : Prop := lamps.red.toNat + lamps.yellow.toNat + lamps.green.toNat ≤ 1

instance (lamps : Lamps) : Decidable lamps.AtMostOne := inferInstanceAs (Decidable (_ ≤ _))

/-- The lamp that is on, if any. -/
def lit (lamps : Lamps) : Option Led :=
  if lamps.red then some .red else if lamps.yellow then some .yellow
  else if lamps.green then some .green else none

/-- What the lamps show after each of some writes. -/
def along (lamps : Lamps) : List (Led × Bool) → List Lamps
  | [] => []
  | (led, status) :: rest => lamps.set led status :: (lamps.set led status).along rest

end Lamps

/-- `device_fd_`, and what each `write` on it returns. -/
structure LedFile where
  deviceFd : ℤ
  nSize : ℕ → ℤ

/-- The file is open and every write succeeds. -/
structure LedFile.Succeeds (file : LedFile) : Prop where
  opened : 0 ≤ file.deviceFd
  written : ∀ n, 0 < file.nSize n

/-- `loopled_device`, the lamps and what they showed after each write so far. -/
structure LoopLed where
  isLoopledRun : Bool
  tick : UInt16
  lamps : Lamps
  shown : List Lamps
  deriving DecidableEq, Repr

/-- A call of the device. -/
inductive LoopLedCall where
  | loopRefreshPerSecond
  | setState (state : Bool)
  deriving DecidableEq, Repr

/-- `GREEN_TICK_TICKCOUNT`. -/
def greenTickTickcount : UInt16 := 60

/-- `GREEN_BLINK_TICKCOUNT`. -/
def greenBlinkTickcount : UInt16 := greenTickTickcount + 10

/-- `YELLOW_TICKCOUNT`. -/
def yellowTickcount : UInt16 := greenBlinkTickcount + 6

/-- `RED_TICK_TICKCOUNT`. -/
def redTickTickcount : UInt16 := yellowTickcount + 40

namespace LoopLed

/-- A new device, with all lamps off. -/
def init : LoopLed := ⟨false, 0, .off, []⟩

/-- The lamp is written. -/
def write (s : LoopLed) (led : Led) (status : Bool) : LoopLed :=
  { s with lamps := s.lamps.set led status, shown := s.shown ++ [s.lamps.set led status] }

/-- `write_io_status`. -/
def writeIoStatus (s : LoopLed) (file : LedFile) (led : Led) (status : Bool) : LoopLed × Bool :=
  if 0 ≤ file.deviceFd then
    if 0 < file.nSize s.shown.length then (s.write led status, true)
    else ({ s with shown := s.shown ++ [s.lamps] }, false)
  else (s, false)

/-- `write_multi_io`, which stops at the first write that fails. -/
def writeMultiIo (s : LoopLed) (file : LedFile) (red yellow green : Bool) : LoopLed × Bool :=
  let wroteRed := s.writeIoStatus file .red red
  if wroteRed.2 then
    let wroteYellow := wroteRed.1.writeIoStatus file .yellow yellow
    if wroteYellow.2 then wroteYellow.1.writeIoStatus file .green green
    else (wroteYellow.1, false)
  else (wroteRed.1, false)

/-- The tick is counted. -/
def countTick (s : LoopLed) : LoopLed := { s with tick := s.tick + 1 }

/-- `loop_refresh_per_second`. -/
def loopRefreshPerSecond (s : LoopLed) (file : LedFile) : LoopLed :=
  if s.isLoopledRun then
    if s.tick = 0 then (s.writeMultiIo file false false true).1.countTick
    else if s.tick ≥ greenTickTickcount ∧ s.tick < greenBlinkTickcount then
      if s.tick % 2 = 0 then (s.writeIoStatus file .green false).1.countTick
      else (s.writeIoStatus file .green true).1.countTick
    else if s.tick = greenBlinkTickcount then
      ((s.writeIoStatus file .green false).1.writeMultiIo file false true false).1.countTick
    else if s.tick = yellowTickcount then
      ((s.writeIoStatus file .yellow false).1.writeMultiIo file true false false).1.countTick
    else if s.tick ≥ redTickTickcount then
      { (s.writeMultiIo file false false false).1 with tick := 0 }
    else s.countTick
  else ({ s with tick := 0 }.writeMultiIo file false false false).1

/-- `set_state`. -/
def setState (s : LoopLed) (state : Bool) : LoopLed :=
  if state = false then { s with isLoopledRun := state, tick := 0 } else { s with isLoopledRun := state }

/-- One call. -/
def step (file : LedFile) (s : LoopLed) : LoopLedCall → LoopLed
  | .loopRefreshPerSecond => s.loopRefreshPerSecond file
  | .setState state => s.setState state

/-- Calls one after the other. -/
def run (file : LedFile) (s : LoopLed) (calls : List LoopLedCall) : LoopLed := calls.foldl (step file) s

/-- What the lamps show before the calls and after each write of them. -/
def showing (file : LedFile) (s : LoopLed) (calls : List LoopLedCall) : List Lamps :=
  s.lamps :: (s.run file calls).shown.drop s.shown.length

/-- The writes of a refresh at a tick, in order. -/
def refreshWrites (tick : UInt16) : List (Led × Bool) :=
  if tick = 0 then [(.red, false), (.yellow, false), (.green, true)]
  else if tick ≥ greenTickTickcount ∧ tick < greenBlinkTickcount then [(.green, !decide (tick % 2 = 0))]
  else if tick = greenBlinkTickcount then [(.green, false), (.red, false), (.yellow, true), (.green, false)]
  else if tick = yellowTickcount then [(.yellow, false), (.red, true), (.yellow, false), (.green, false)]
  else if tick ≥ redTickTickcount then [(.red, false), (.yellow, false), (.green, false)]
  else []

/-- The tick after a refresh. -/
def nextTick (tick : UInt16) : UInt16 := if tick ≥ redTickTickcount then 0 else tick + 1

/-- Lamps written one after the other. -/
def writeAll (s : LoopLed) (writes : List (Led × Bool)) : LoopLed :=
  writes.foldl (fun s w => s.write w.1 w.2) s

variable {file : LedFile} {s : LoopLed}

/-- A write that succeeds switches its lamp. -/
theorem writeIoStatus_of_succeeds (hfile : file.Succeeds) (s : LoopLed) (led : Led) (status : Bool) :
    s.writeIoStatus file led status = (s.write led status, true) := by
  rw [writeIoStatus, if_pos hfile.opened, if_pos (hfile.written _)]

/-- Where the writes succeed `write_multi_io` switches all three lamps. -/
theorem writeMultiIo_of_succeeds (hfile : file.Succeeds) (s : LoopLed) (red yellow green : Bool) :
    s.writeMultiIo file red yellow green =
      (((s.write .red red).write .yellow yellow).write .green green, true) := by
  simp only [writeMultiIo, writeIoStatus_of_succeeds hfile, if_true]

/-- Before the end of the cycle the tick goes on. -/
theorem nextTick_of_lt {tick : UInt16} (h : tick < redTickTickcount) : nextTick tick = tick + 1 :=
  if_neg (UInt16.not_le.mpr h)

/-- A refresh of a device that runs. -/
theorem loopRefreshPerSecond_of_run (hfile : file.Succeeds) (hrun : s.isLoopledRun = true) :
    s.loopRefreshPerSecond file = { s.writeAll (refreshWrites s.tick) with tick := nextTick s.tick } := by
  rw [loopRefreshPerSecond, if_pos hrun, refreshWrites]
  simp only [writeMultiIo_of_succeeds hfile, writeIoStatus_of_succeeds hfile]
  by_cases hzero : s.tick = 0
  · rw [if_pos hzero, if_pos hzero, nextTick_of_lt (hzero ▸ by decide)]
    rfl
  rw [if_neg hzero, if_neg hzero]
  by_cases hblink : s.tick ≥ greenTickTickcount ∧ s.tick < greenBlinkTickcount
  · rw [if_pos hblink, if_pos hblink, nextTick_of_lt (UInt16.lt_trans hblink.2 (by decide))]
    by_cases hodd : s.tick % 2 = 0
    · rw [if_pos hodd, decide_eq_true hodd]
      rfl
    · rw [if_neg hodd, decide_eq_false hodd]
      rfl
  rw [if_neg hblink, if_neg hblink]
  by_cases hyellow : s.tick = greenBlinkTickcount
  · rw [if_pos hyellow, if_pos hyellow, nextTick_of_lt (hyellow ▸ by decide)]
    rfl
  rw [if_neg hyellow, if_neg hyellow]
  by_cases hred : s.tick = yellowTickcount
  · rw [if_pos hred, if_pos hred, nextTick_of_lt (hred ▸ by decide)]
    rfl
  rw [if_neg hred, if_neg hred]
  by_cases hend : s.tick ≥ redTickTickcount
  · rw [if_pos hend, if_pos hend, nextTick, if_pos hend]
    rfl
  · rw [if_neg hend, if_neg hend, nextTick, if_neg hend]
    rfl

/-- A refresh of a device that is stopped puts all lamps out. -/
theorem loopRefreshPerSecond_of_not_run (hfile : file.Succeeds) (hrun : s.isLoopledRun = false) :
    s.loopRefreshPerSecond file =
      { s with tick := 0 }.writeAll [(.red, false), (.yellow, false), (.green, false)] := by
  rw [loopRefreshPerSecond, hrun, if_neg Bool.false_ne_true, writeMultiIo_of_succeeds hfile]
  rfl

/-- What a list of writes does. -/
theorem writeAll_eq (s : LoopLed) (writes : List (Led × Bool)) :
    s.writeAll writes =
      { s with
        lamps := (s.lamps.along writes).getLastD s.lamps
        shown := s.shown ++ s.lamps.along writes } := by
  induction writes generalizing s with
  | nil => simp [writeAll, Lamps.along]
  | cons w rest ih =>
    change (s.write w.1 w.2).writeAll rest = _
    rw [ih, Lamps.along, List.getLastD_cons]
    simp [write]

end LoopLed

end RemoteManage.LocalDevice
