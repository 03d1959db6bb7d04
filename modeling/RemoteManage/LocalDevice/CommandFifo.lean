import RemoteManage.Foundation.RecordPipe
import RemoteManage.Foundation.Transition
import RemoteManage.LocalDevice.DeviceEvent

/-!
# The command FIFO of `local_device`

Four writers put records on the FIFO: the periodic loop event, the key that toggles the
LED, and `set_device` and `sync_info` of `main_process`. The loop of `device_manage::run`
reads up to 512 bytes at a time and calls `process_event` once on what it has read, which
looks at the beginning of the receive buffer only.

Every record is passed on exactly in the runs in which every read returns one record
(`run_delivered_iff`). Two records that wait together are enough for one to be lost
(`run_delivered_lost`).
-/

namespace RemoteManage.LocalDevice

open RemoteManage.Foundation

/-- The FIFO with the calls of `process_event`, each told by the receive buffer it is given, the
receive buffer, and the LED status that the key toggles. -/
structure CommandFifo where
  pipe : RecordPipe UInt8 (FixedBuffer UInt8 deviceRxBufferSize)
  rxBuffer : FixedBuffer UInt8 deviceRxBufferSize
  status : UInt8

/-- A step of one of the writers, or a read. A message is built where the stack holds anything. -/
inductive CommandEvent where
  | loop
  | keyPress (stack : FixedBuffer UInt8 40)
  | setDevice (stack : FixedBuffer UInt8 40) (dev : UInt8) (buf : List UInt8)
  | syncInfo (stack : FixedBuffer UInt8 40) (buf : List UInt8)
  | read (k : ℕ)

namespace CommandFifo

/-- Nothing has been written. -/
def init (rxBuffer : FixedBuffer UInt8 deviceRxBufferSize) : CommandFifo := ⟨.empty, rxBuffer, 0⟩

/-- What `process_event` has made the device do. -/
def actions (s : CommandFifo) : List DeviceAction := s.pipe.calls.map processEvent

/-- One step. `set_device` and `sync_info` write nothing when their argument does not fit, and a read
returns at least one byte, at most what is queued and at most the size of the receive buffer. -/
def step (s : CommandFifo) : CommandEvent → Option CommandFifo
  | .loop => some { s with pipe := s.pipe.write (eventBytes deviceLoopEvent) }
  | .keyPress stack =>
    let status := if s.status = 0 then 1 else 0
    some { s with
      pipe := s.pipe.write (eventBufMessage stack deviceHwSetEvent [deviceLed, status])
      status := status }
  | .setDevice stack dev buf =>
    if 31 < buf.length then some s
    else some { s with pipe := s.pipe.write (eventBufMessage stack deviceHwSetEvent (dev :: buf)) }
  | .syncInfo stack buf =>
    if 32 < buf.length then some s
    else some { s with pipe := s.pipe.write (eventBufMessage stack deviceSyncEvent buf) }
  | .read k =>
    if 0 < k ∧ k ≤ s.pipe.queued.length ∧ k ≤ deviceRxBufferSize then
      let rxBuffer := s.rxBuffer.writeAll 0 (s.pipe.queued.take k)
      some { s with pipe := s.pipe.read k rxBuffer, rxBuffer := rxBuffer }
    else none

/-- Every record written is still queued or has been passed to `process_event` once, in the order of
writing and with its own bytes. -/
def Delivered (s : CommandFifo) : Prop := s.pipe.Delivered Sees

/-- A read returns exactly the oldest record that has not been passed on. -/
def TakesRecord (s : CommandFifo) : CommandEvent → Prop
  | .read k => s.pipe.TakesRecord k
  | _ => True

instance (s : CommandFifo) : (e : CommandEvent) → Decidable (TakesRecord s e)
  | .loop => inferInstanceAs (Decidable True)
  | .keyPress _ => inferInstanceAs (Decidable True)
  | .setDevice _ _ _ => inferInstanceAs (Decidable True)
  | .syncInfo _ _ => inferInstanceAs (Decidable True)
  | .read k => inferInstanceAs (Decidable (s.pipe.TakesRecord k))

/-- A writer that checks the size of its argument leaves the pipe alone or puts its record on it. -/
theorem pipe_of_ite {c : Prop} [Decidable c] {s s' : CommandFifo} {record : List UInt8}
    (h : (if c then some s else some { s with pipe := s.pipe.write record }) = some s') :
    s'.pipe = s.pipe ∨ s'.pipe = s.pipe.write record := by
  split at h
  · exact .inl (Option.some.inj h ▸ rfl)
  · exact .inr (Option.some.inj h ▸ rfl)

/-- A step of a writer leaves the pipe alone or puts a record on it. -/
theorem step_writer {s s' : CommandFifo} {e : CommandEvent} (he : ∀ k, e ≠ .read k)
    (hstep : step s e = some s') : s'.pipe = s.pipe ∨ ∃ record, s'.pipe = s.pipe.write record := by
  cases e with
  | loop =>
    obtain rfl := Option.some.inj hstep
    exact .inr ⟨_, rfl⟩
  | keyPress stack =>
    obtain rfl := Option.some.inj hstep
    exact .inr ⟨_, rfl⟩
  | setDevice stack dev buf => exact (pipe_of_ite hstep).imp_right fun hpipe => ⟨_, hpipe⟩
  | syncInfo stack buf => exact (pipe_of_ite hstep).imp_right fun hpipe => ⟨_, hpipe⟩
  | read k => exact absurd rfl (he k)

/-- A read takes bytes off the pipe and hands the receive buffer on. -/
theorem step_read {s s' : CommandFifo} {k : ℕ} (hstep : step s (.read k) = some s') :
    k ≤ s.pipe.queued.length ∧ Sees (s.pipe.queued.take k) s'.rxBuffer ∧
      s'.pipe = s.pipe.read k s'.rxBuffer := by
  obtain ⟨⟨-, hqueued, hk⟩, rfl⟩ := Transition.enabled_of_ite hstep
  refine ⟨hqueued, sees_writeAll _ _ ?_, rfl⟩
  rw [List.length_take]
  exact (Nat.min_le_left _ _).trans hk

/-- A step in which a read takes exactly one record loses nothing. -/
theorem step_delivered {s s' : CommandFifo} {e : CommandEvent} (h : Delivered s)
    (htakes : TakesRecord s e) (hstep : step s e = some s') : Delivered s' := by
  by_cases he : ∃ k, e = .read k
  · obtain ⟨k, rfl⟩ := he
    obtain ⟨-, hsees, hpipe⟩ := step_read hstep
    rw [Delivered, hpipe]
    exact h.read htakes hsees
  · obtain hpipe | ⟨record, hpipe⟩ := step_writer (fun k hk => he ⟨k, hk⟩) hstep
    · rwa [Delivered, hpipe]
    · rw [Delivered, hpipe]
      exact h.write record

/-- A step that loses nothing is one in which a read takes exactly one record. -/
theorem step_takesRecord {s s' : CommandFifo} {e : CommandEvent} (h : Delivered s)
    (hstep : step s e = some s') (h' : Delivered s') : TakesRecord s e := by
  cases e with
  | read k =>
    obtain ⟨hk, -, hpipe⟩ := step_read hstep
    rw [Delivered, hpipe] at h'
    exact h.takesRecord hk h'
  | _ => trivial

/-- In a run every record written is passed to `process_event` exactly once, in order and with its
own bytes, at all times if and only if every read returns exactly one record. -/
theorem run_delivered_iff (rxBuffer : FixedBuffer UInt8 deviceRxBufferSize)
    (events : List CommandEvent) (t : CommandFifo)
    (hrun : Transition.run step (init rxBuffer) events = some t) :
    (∀ before after, events = before ++ after → ∀ s,
        Transition.run step (init rxBuffer) before = some s → Delivered s) ↔
      Transition.Along step TakesRecord (init rxBuffer) events :=
  (Transition.along_iff_reached TakesRecord Delivered (fun _ _ _ h htakes hstep =>
    step_delivered h htakes hstep) (fun _ _ _ h hstep h' => step_takesRecord h hstep h') hrun
    RecordPipe.delivered_empty).symm

/-- A loop event and a level change, each read before the next is written. -/
theorem run_delivered_iff_inTurn :
    ∃ t, Transition.run step (init (FixedBuffer.filled deviceRxBufferSize 0))
        [.loop, .read 2, .syncInfo (FixedBuffer.filled 40 7) [0, 3], .read 40] = some t ∧ Delivered t := by
  have hsome : (Transition.run step (init (FixedBuffer.filled deviceRxBufferSize 0))
      [.loop, .read 2, .syncInfo (FixedBuffer.filled 40 7) [0, 3], .read 40]).isSome = true := by
    decide +kernel
  obtain ⟨t, hrun⟩ := Option.isSome_iff_exists.mp hsome
  have hdelivered := (run_delivered_iff _ _ t hrun).mpr (by decide +kernel)
  exact ⟨t, hrun, hdelivered _ [] (List.append_nil _).symm t hrun⟩

/-- Two loop events that wait together are read at once, and the second is never passed on. -/
theorem run_delivered_lost :
    ¬ ∀ (rxBuffer : FixedBuffer UInt8 deviceRxBufferSize) (events : List CommandEvent) (t : CommandFifo),
      Transition.run step (init rxBuffer) events = some t → Delivered t := by
  intro h
  have hrun : (Transition.run step (init (FixedBuffer.filled deviceRxBufferSize 0))
      [.loop, .loop, .read 4]).map (fun t => (t.pipe.written, t.pipe.queued, t.pipe.calls.length)) =
        some ([[0, 0], [0, 0]], [], 1) := by decide +kernel
  obtain ⟨t, ht, hstate⟩ := Option.map_eq_some_iff.mp hrun
  obtain ⟨hwritten, hrest⟩ := Prod.mk.inj hstate
  obtain ⟨hqueued, hcalls⟩ := Prod.mk.inj hrest
  obtain ⟨passed, pending, hsplit, hflatten, hsees⟩ := h _ _ t ht
  obtain ⟨record, rfl⟩ := List.length_eq_one_iff.mp (hsees.length_eq.trans hcalls)
  rw [hwritten] at hsplit
  have hpending : [[0, 0]] = pending := (List.cons.inj hsplit).2
  rw [hqueued, ← hpending] at hflatten
  exact absurd hflatten (by decide)

end CommandFifo

end RemoteManage.LocalDevice
