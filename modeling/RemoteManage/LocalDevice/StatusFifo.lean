import RemoteManage.Foundation.RecordPipe
import RemoteManage.Foundation.Transition
import RemoteManage.LocalDevice.DeviceInfo
import RemoteManage.LocalDevice.PwmDevice

/-!
# The status FIFO between `local_device` and `main_process`

`device_manage::update` observes the devices, and when something has changed it writes the record
of the whole status to the FIFO. `device_process::run` reads up to 512 bytes at a time and hands
them to `copy_to_device`, which decodes the record at the beginning of the receive buffer and
leaves the rest. The records have no frame, so the status held by `main_process` is the last one
sent when the read that empties the FIFO begins with its record.

The duty of the PWM channel reaches the status through `get_duty`.
-/

namespace RemoteManage.LocalDevice

open RemoteManage.Foundation

/-- Two statuses lie in memory as the same bytes: `operator !=` does not hold. -/
def DeviceReadInfo.Same (left right : DeviceReadInfo) : Prop :=
  left.ledIo = right.ledIo ∧ left.beepIo = right.beepIo ∧ left.pwmDuty = right.pwmDuty ∧
    left.apInfo = right.apInfo ∧ left.icmInfo = right.icmInfo ∧ left.angle = right.angle ∧
    left.hx711 = right.hx711 ∧ left.vf610Adc = right.vf610Adc ∧
    left.rtcTimer.size = right.rtcTimer.size ∧ left.rtcTimer.buffer.cells = right.rtcTimer.buffer.cells

instance (left right : DeviceReadInfo) : Decidable (left.Same right) := by
  unfold DeviceReadInfo.Same
  infer_instance

/-- What the drivers report in one cycle; the duty comes from the PWM driver. -/
abbrev Observation := {info : DeviceReadInfo // info.InRange}

/-- The observation with the duty of the PWM driver. -/
def Observation.withDuty (obs : Observation) (duty : UInt8) : DeviceReadInfo :=
  { obs.val with pwmDuty := duty }

/-- The duty does not matter for the range. -/
theorem Observation.withDuty_inRange (obs : Observation) (duty : UInt8) : (obs.withDuty duty).InRange :=
  ⟨obs.property.angle, obs.property.rtcSize⟩

variable {σ : Type*}

/-- The PWM channel with the calls made of `pwm_setup` and those made before the last update,
`outer_info_` and the transmit buffer of `local_device`, the FIFO, and the receive buffer and `info_`
of `main_process`. -/
structure StatusFifo (σ : Type*) where
  files : σ
  pwm : PwmDevice
  setups : List PwmSetup
  reported : List PwmSetup
  outerInfo : DeviceReadInfo
  txBuffer : FixedBuffer UInt8 deviceRxBufferSize
  pipe : RecordPipe UInt8 (FixedBuffer UInt8 deviceRxBufferSize)
  rxBuffer : FixedBuffer UInt8 deviceRxBufferSize
  info : DeviceReadInfo

/-- The PWM channel is set up, the devices are observed, or the FIFO is read. -/
inductive StatusEvent where
  | pwmSetup (state : Int32) (peroid duty : UInt32)
  | update (obs : Observation)
  | read (k : ℕ)

namespace StatusFifo

/-- Nothing has been observed; the buffers and `info_` have any contents. -/
def init (files : σ) (txBuffer rxBuffer : Vector UInt8 deviceRxBufferSize) (info : DeviceReadInfo) :
    StatusFifo σ where
  files := files
  pwm := .init
  setups := []
  reported := []
  outerInfo := .clear
  txBuffer := ⟨txBuffer, false⟩
  pipe := .empty
  rxBuffer := ⟨rxBuffer, false⟩
  info := info

/-- `pwm_setup` on the channel of `local_device`. -/
def pwmSetup (sysfs : Sysfs σ) (s : StatusFifo σ) (state : Int32) (peroid duty : UInt32) : StatusFifo σ :=
  let result := s.pwm.pwmSetup sysfs s.files state peroid duty
  { s with files := result.1, pwm := result.2.1, setups := s.setups ++ [⟨duty, 0 ≤ result.2.2⟩] }

/-- `device_manage::update`. -/
def update (s : StatusFifo σ) (obs : Observation) : StatusFifo σ :=
  let s := { s with reported := s.setups }
  let interInfo := obs.withDuty s.pwm.getDuty
  if interInfo.Same s.outerInfo then s
  else
    let out := interInfo.copyToBuffer s.txBuffer
    { s with outerInfo := interInfo, txBuffer := out.buffer, pipe := s.pipe.write out.written }

/-- `device_process::run` on the next `k` bytes. -/
def read (signed : Bool) (s : StatusFifo σ) (k : ℕ) : StatusFifo σ :=
  let rxBuffer := s.rxBuffer.writeAll 0 (s.pipe.queued.take k)
  { s with pipe := s.pipe.read k rxBuffer, rxBuffer := rxBuffer, info := s.info.copyToDevice signed rxBuffer }

/-- One step, where plain `char` is signed or not. A read returns at least one byte, at most what is queued
and at most the size of the receive buffer. -/
def step (signed : Bool) (sysfs : Sysfs σ) (s : StatusFifo σ) : StatusEvent → Option (StatusFifo σ)
  | .pwmSetup state peroid duty => some (s.pwmSetup sysfs state peroid duty)
  | .update obs => some (s.update obs)
  | .read k =>
    if 0 < k ∧ k ≤ s.pipe.queued.length ∧ k ≤ deviceRxBufferSize then some (s.read signed k) else none

/-- A read that empties the FIFO begins with the record of the last status sent. -/
def ReadsLast (s : StatusFifo σ) : StatusEvent → Prop
  | .read k => k = s.pipe.queued.length → s.outerInfo.record <+: s.pipe.queued
  | _ => True

instance (s : StatusFifo σ) (e : StatusEvent) : Decidable (ReadsLast s e) := by
  unfold ReadsLast
  cases e <;> infer_instance

/-- A read that empties the FIFO begins with the record of the last status sent, and what is observed
survives `CREATE_UINT16`. -/
def ReadsFresh (signed : Bool) (s : StatusFifo σ) (e : StatusEvent) : Prop :=
  ReadsLast s e ∧
    match e with
    | .update obs => signed = false ∨ obs.val.apInfo.SurvivesSign
    | _ => True

instance (signed : Bool) (s : StatusFifo σ) (e : StatusEvent) : Decidable (ReadsFresh signed s e) := by
  unfold ReadsFresh
  cases e <;> infer_instance

section Step

variable {signed : Bool} {sysfs : Sysfs σ}

/-- What holds of the writing side in every run: the transmit buffer is intact, a status has been sent or the
FIFO is empty, and `outer_info_` can be carried and has the duty that was asked for before the last
update. -/
structure Writes (s : StatusFifo σ) : Prop where
  intact : s.txBuffer.overrun = false
  inRange : s.outerInfo.InRange
  duty : s.outerInfo.pwmDuty.toNat = requestedDuty s.reported % 256
  pwm : s.pwm.getDuty.toNat = requestedDuty s.setups % 256

/-- Nothing has been observed and no duty asked for. -/
theorem writes_init (files : σ) (txBuffer rxBuffer : Vector UInt8 deviceRxBufferSize)
    (info : DeviceReadInfo) :
    Writes (init files txBuffer rxBuffer info) where
  intact := rfl
  inRange := DeviceReadInfo.clear_inRange
  duty := rfl
  pwm := rfl

/-- A call of `pwm_setup` touches only the channel. -/
theorem Writes.pwmSetup {s : StatusFifo σ} (h : Writes s) (state : Int32) (peroid duty : UInt32) :
    Writes (s.pwmSetup sysfs state peroid duty) where
  intact := h.intact
  inRange := h.inRange
  duty := h.duty
  pwm := by
    change (s.pwm.pwmSetup sysfs s.files state peroid duty).2.1.getDuty.toNat =
      requestedDuty (s.setups ++ [_]) % 256
    rw [PwmDevice.pwmSetup_duty, requestedDuty_concat, UInt32.toNat_toUInt8]

/-- An update leaves everything but `reported` alone when nothing has changed; otherwise it sends the new
status. -/
theorem Writes.update {s : StatusFifo σ} (h : Writes s) (obs : Observation) : Writes (s.update obs) := by
  have hrange := obs.withDuty_inRange s.pwm.getDuty
  unfold StatusFifo.update
  dsimp only
  split
  · next hsame =>
    refine ⟨h.intact, h.inRange, ?_, h.pwm⟩
    exact (congrArg UInt8.toNat hsame.2.2.1).symm.trans h.pwm
  · exact ⟨(hrange.copyToBuffer_holds s.txBuffer h.intact).intact, hrange, h.pwm, h.pwm⟩

/-- Every step keeps what holds of the writing side. -/
theorem step_writes {s s' : StatusFifo σ} {e : StatusEvent} (h : Writes s)
    (hstep : step signed sysfs s e = some s') : Writes s' := by
  cases e with
  | pwmSetup state peroid duty => exact Option.some.inj hstep ▸ h.pwmSetup state peroid duty
  | update obs => exact Option.some.inj hstep ▸ h.update obs
  | read k =>
    obtain ⟨-, rfl⟩ := Transition.enabled_of_ite hstep
    exact ⟨h.intact, h.inRange, h.duty, h.pwm⟩

/-- With the FIFO empty, the receive buffer begins with the record of the last status sent, and `info_` has
been decoded from it. -/
def Decoded (signed : Bool) (s : StatusFifo σ) : Prop :=
  s.pipe.queued = [] → s.pipe.written ≠ [] → Sees s.outerInfo.record s.rxBuffer ∧
    ∃ previous : DeviceReadInfo, s.info = previous.copyToDevice signed s.rxBuffer

/-- A new status is queued. -/
theorem Decoded.update {s : StatusFifo σ} (hwrites : Writes s) (h : Decoded signed s) (obs : Observation) :
    Decoded signed (s.update obs) := by
  have hrange := obs.withDuty_inRange s.pwm.getDuty
  unfold StatusFifo.update
  dsimp only
  split
  · exact h
  · intro hempty
    have hrecord := (List.append_eq_nil_iff.mp hempty).2
    rw [(hrange.copyToBuffer_holds s.txBuffer hwrites.intact).written_eq] at hrecord
    have hlen := congrArg List.length hrecord
    rw [hrange.record_length, List.length_nil] at hlen
    omega

/-- A read that empties the FIFO from the record of the last status decodes this record. -/
theorem Decoded.read {s : StatusFifo σ} {k : ℕ} (hqueued : k ≤ s.pipe.queued.length)
    (hsize : k ≤ deviceRxBufferSize) (hlast : ReadsLast s (.read k)) : Decoded signed (s.read signed k) := by
  intro hempty _
  have hk : k = s.pipe.queued.length := Nat.le_antisymm hqueued (List.drop_eq_nil_iff.mp hempty)
  refine ⟨?_, s.info, rfl⟩
  have hall : s.pipe.queued.take k = s.pipe.queued := by rw [hk, List.take_length]
  change (s.rxBuffer.writeAll 0 (s.pipe.queued.take k)).contents s.outerInfo.record.length = _
  rw [hall]
  exact s.rxBuffer.writeAll_zero_prefix (hlast hk) (hk ▸ hsize)

/-- Every step in which a read that empties the FIFO begins with the last record keeps `info_` decoded. -/
theorem step_decoded {s s' : StatusFifo σ} {e : StatusEvent} (hwrites : Writes s) (h : Decoded signed s)
    (hlast : ReadsLast s e) (hstep : step signed sysfs s e = some s') : Decoded signed s' := by
  cases e with
  | pwmSetup state peroid duty => exact Option.some.inj hstep ▸ h
  | update obs => exact Option.some.inj hstep ▸ h.update hwrites obs
  | read k =>
    obtain ⟨⟨-, hqueued, hsize⟩, rfl⟩ := Transition.enabled_of_ite hstep
    exact Decoded.read hqueued hsize hlast

/-- What every run in which such reads begin with the last record leads to. -/
theorem run_decoded {files : σ} {txBuffer rxBuffer : Vector UInt8 deviceRxBufferSize} {info : DeviceReadInfo}
    {events : List StatusEvent} {s : StatusFifo σ}
    (hrun : Transition.run (step signed sysfs) (init files txBuffer rxBuffer info) events = some s)
    (hlast : Transition.Along (step signed sysfs) ReadsLast (init files txBuffer rxBuffer info) events) :
    Writes s ∧ Decoded signed s := by
  apply Transition.run_invariant_along ReadsLast (fun s => Writes s ∧ Decoded signed s) _ hrun hlast
  · exact ⟨writes_init files txBuffer rxBuffer info, fun _ hne => absurd rfl hne⟩
  · intro s e s' hs hcond hstep
    exact ⟨step_writes hs.1 hstep, step_decoded hs.1 hs.2 hcond hstep⟩

end Step

section Run

variable {signed : Bool} {sysfs : Sysfs σ} {files : σ} {txBuffer rxBuffer : Vector UInt8 deviceRxBufferSize}
  {info : DeviceReadInfo} {events : List StatusEvent} {s : StatusFifo σ}

/-- A status that has been sent is one that has been observed. -/
theorem run_survivesSign
    (hrun : Transition.run (step signed sysfs) (init files txBuffer rxBuffer info) events = some s)
    (hfresh : Transition.Along (step signed sysfs) (ReadsFresh signed) (init files txBuffer rxBuffer info)
      events) :
    s.pipe.written ≠ [] → signed = false ∨ s.outerInfo.apInfo.SurvivesSign := by
  apply Transition.run_invariant_along (ReadsFresh signed)
    (fun s => s.pipe.written ≠ [] → signed = false ∨ s.outerInfo.apInfo.SurvivesSign) _ hrun hfresh
  · intro hne
    contradiction
  · intro s e s' hs hcond hstep
    cases e with
    | pwmSetup state peroid duty => exact Option.some.inj hstep ▸ hs
    | update obs =>
      obtain rfl := Option.some.inj hstep
      unfold StatusFifo.update
      dsimp only
      split
      · exact hs
      · exact fun _ => hcond.2
    | read k =>
      obtain ⟨-, rfl⟩ := Transition.enabled_of_ite hstep
      exact hs

end Run

/-- In every run in which a read that empties the FIFO begins with the record of the last status sent, and
what is observed survives `CREATE_UINT16`, `info_` carries the last status sent whenever all bytes
written so far have been read. -/
theorem run_fresh (signed : Bool) (sysfs : Sysfs σ) (files : σ)
    (txBuffer rxBuffer : Vector UInt8 deviceRxBufferSize) (info : DeviceReadInfo) (events : List StatusEvent)
    (s : StatusFifo σ)
    (hrun : Transition.run (step signed sysfs) (init files txBuffer rxBuffer info) events = some s)
    (hfresh : Transition.Along (step signed sysfs) (ReadsFresh signed) (init files txBuffer rxBuffer info)
      events)
    (hempty : s.pipe.queued = []) (hsent : s.pipe.written ≠ []) : s.info.Restores s.outerInfo := by
  obtain ⟨hwrites, hdecoded⟩ := run_decoded hrun (hfresh.mono fun _ _ h => h.1)
  obtain ⟨hsees, previous, hinfo⟩ := hdecoded hempty hsent
  have hap := (hwrites.inRange.copyToDevice_apInfo_iff hsees signed previous).mpr
    (run_survivesSign hrun hfresh hsent)
  rw [hinfo]
  exact hwrites.inRange.copyToDevice_restores hsees signed previous hap

/-- A status is read before the next one is sent. -/
theorem run_fresh_inTurn :
    ∃ s : StatusFifo Unit, Transition.run (step true ⟨fun _ _ => true, fun _ _ _ => ((), 1)⟩)
        (init () (.replicate _ 0) (.replicate _ 0) .clear)
        [.update ⟨{ DeviceReadInfo.clear with ledIo := 1 }, by decide, by decide⟩, .read 50,
          .update ⟨.clear, DeviceReadInfo.clear_inRange⟩, .read 50] = some s ∧
      s.info.Restores s.outerInfo := by
  have hrun : (Transition.run (step true ⟨fun _ _ => true, fun _ _ _ => ((), 1)⟩)
      (init () (.replicate _ 0) (.replicate _ 0) .clear)
      [.update ⟨{ DeviceReadInfo.clear with ledIo := 1 }, by decide, by decide⟩, .read 50,
        .update ⟨.clear, DeviceReadInfo.clear_inRange⟩, .read 50]).map
      (fun s => (s.pipe.queued, s.pipe.written.length)) = some ([], 2) := by
    decide +kernel
  obtain ⟨s, hs, hstate⟩ := Option.map_eq_some_iff.mp hrun
  obtain ⟨hempty, hcount⟩ := Prod.mk.inj hstate
  have hsent : s.pipe.written ≠ [] := List.ne_nil_of_length_eq_add_one hcount
  exact ⟨s, hs, run_fresh true _ _ _ _ _ _ s hs (by decide +kernel) hempty hsent⟩

/-- Two statuses are read at once, and `info_` carries the first. -/
theorem run_fresh_backlog :
    ¬ ∀ (signed : Bool) (sysfs : Sysfs Unit) (files : Unit)
        (txBuffer rxBuffer : Vector UInt8 deviceRxBufferSize) (info : DeviceReadInfo)
        (events : List StatusEvent) (s : StatusFifo Unit),
        Transition.run (step signed sysfs) (init files txBuffer rxBuffer info) events = some s →
        s.pipe.queued = [] → s.pipe.written ≠ [] → s.info.Restores s.outerInfo := by
  intro h
  have hrun : (Transition.run (step false ⟨fun _ _ => true, fun _ _ _ => ((), 1)⟩)
      (init () (.replicate _ 0) (.replicate _ 0) .clear)
      [.update ⟨{ DeviceReadInfo.clear with ledIo := 1 }, by decide, by decide⟩,
        .update ⟨.clear, DeviceReadInfo.clear_inRange⟩, .read 100]).map
      (fun s => (s.pipe.queued, s.pipe.written.length, s.info.ledIo, s.outerInfo.ledIo)) =
        some ([], 2, 1, 0) := by
    decide +kernel
  obtain ⟨s, hs, hstate⟩ := Option.map_eq_some_iff.mp hrun
  simp only [Prod.mk.injEq] at hstate
  obtain ⟨hempty, hcount, hinfo, houter⟩ := hstate
  have hrestores := h false _ _ _ _ _ _ s hs hempty (List.ne_nil_of_length_eq_add_one hcount)
  have hled := hrestores.ledIo
  rw [hinfo, houter] at hled
  contradiction

/-- The duty that `main_process` holds when it has received the status of the last update is the low byte of
the duty asked for before this update: it is the duty of the last call of `pwm_setup` that succeeded
completely exactly when the two agree. -/
theorem run_pwmDuty_iff (signed : Bool) (sysfs : Sysfs σ) (files : σ)
    (txBuffer rxBuffer : Vector UInt8 deviceRxBufferSize) (info : DeviceReadInfo) (events : List StatusEvent)
    (s : StatusFifo σ)
    (hrun : Transition.run (step signed sysfs) (init files txBuffer rxBuffer info) events = some s)
    (hlast : Transition.Along (step signed sysfs) ReadsLast (init files txBuffer rxBuffer info) events)
    (hempty : s.pipe.queued = []) (hsent : s.pipe.written ≠ []) :
    s.info.pwmDuty.toNat = appliedDuty s.reported ↔
      requestedDuty s.reported % 256 = appliedDuty s.reported := by
  obtain ⟨hwrites, hdecoded⟩ := run_decoded hrun hlast
  obtain ⟨hsees, previous, hinfo⟩ := hdecoded hempty hsent
  have hduty : s.info.pwmDuty = s.outerInfo.pwmDuty := by
    rw [hinfo]
    exact hwrites.inRange.read hsees (i := 2) (by decide)
  rw [hduty, hwrites.duty]

/-- A duty of 200 is applied and reported. -/
theorem run_pwmDuty_iff_applied :
    ∃ s : StatusFifo Unit, Transition.run (step false ⟨fun _ _ => true, fun _ _ _ => ((), 1)⟩)
        (init () (.replicate _ 0) (.replicate _ 0) .clear)
        [.pwmSetup 1 1000 200, .update ⟨.clear, DeviceReadInfo.clear_inRange⟩, .read 50] = some s ∧
      s.info.pwmDuty.toNat = appliedDuty s.reported := by
  have hrun : (Transition.run (step false ⟨fun _ _ => true, fun _ _ _ => ((), 1)⟩)
      (init () (.replicate _ 0) (.replicate _ 0) .clear)
      [.pwmSetup 1 1000 200, .update ⟨.clear, DeviceReadInfo.clear_inRange⟩, .read 50]).map
      (fun s => (s.pipe.queued, s.pipe.written.length, s.reported)) = some ([], 1, [⟨200, true⟩]) := by
    decide +kernel
  obtain ⟨s, hs, hstate⟩ := Option.map_eq_some_iff.mp hrun
  simp only [Prod.mk.injEq] at hstate
  obtain ⟨hempty, hcount, hreported⟩ := hstate
  have hsent : s.pipe.written ≠ [] := List.ne_nil_of_length_eq_add_one hcount
  refine ⟨s, hs, (run_pwmDuty_iff false _ _ _ _ _ _ s hs (by decide +kernel) hempty hsent).mpr ?_⟩
  rw [hreported]
  decide

/-- A duty of 25000 is applied, and 168 is reported. -/
theorem run_pwmDuty_narrowed :
    ¬ ∀ (signed : Bool) (sysfs : Sysfs Unit) (files : Unit)
        (txBuffer rxBuffer : Vector UInt8 deviceRxBufferSize) (info : DeviceReadInfo)
        (events : List StatusEvent) (s : StatusFifo Unit),
        Transition.run (step signed sysfs) (init files txBuffer rxBuffer info) events = some s →
        Transition.Along (step signed sysfs) ReadsLast (init files txBuffer rxBuffer info) events →
        s.pipe.queued = [] → s.pipe.written ≠ [] → s.info.pwmDuty.toNat = appliedDuty s.reported := by
  intro h
  have hrun : (Transition.run (step false ⟨fun _ _ => true, fun _ _ _ => ((), 1)⟩)
      (init () (.replicate _ 0) (.replicate _ 0) .clear)
      [.pwmSetup 1 50000 25000, .update ⟨.clear, DeviceReadInfo.clear_inRange⟩, .read 50]).map
      (fun s => (s.pipe.queued, s.pipe.written.length, s.info.pwmDuty, s.reported)) =
        some ([], 1, 168, [⟨25000, true⟩]) := by
    decide +kernel
  obtain ⟨s, hs, hstate⟩ := Option.map_eq_some_iff.mp hrun
  simp only [Prod.mk.injEq] at hstate
  obtain ⟨hempty, hcount, hinfo, hreported⟩ := hstate
  have hduty := h false _ _ _ _ _ _ s hs (by decide +kernel) hempty
    (List.ne_nil_of_length_eq_add_one hcount)
  rw [hinfo, hreported] at hduty
  revert hduty
  decide

end StatusFifo

end RemoteManage.LocalDevice
