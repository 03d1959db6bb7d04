import RemoteManage.Common.DynamicConfig
import RemoteManage.LocalDevice.CommandFifo
import RemoteManage.MainProcess.Console

/-!
# The log level of `local_device`

`sync_level` records a level as an `int` and, when the level of `local_device` is another one than before,
sends its low byte through the command FIFO. `local_device` runs at the level that it has read from the
file when it was started, until the first of these events. The two levels agree when all events have
been processed, unless the last of the levels is no byte.
-/

namespace RemoteManage.MainProcess

open RemoteManage.Foundation RemoteManage.LocalDevice RemoteManage.Common

/-- The dynamic configuration of `main_process` and the FIFO to `local_device`. -/
structure LevelSync where
  config : DynamicConfig
  fifo : CommandFifo

/-- A call of `sync_level`, or a step of another writer or the reader of the FIFO. -/
inductive LevelEvent where
  | syncLevel (dev level : Int32) (stack : FixedBuffer UInt8 40)
  | other (e : CommandEvent)

namespace LevelSync

/-- The level that is recorded for `local_device`. -/
def recorded (s : LevelSync) : Int32 := s.config.parameter.loggerPrivilege.localDeviceLevel

/-- One step. Nothing but `sync_level` calls `sync_info`. -/
def step (s : LevelSync) : LevelEvent → Option LevelSync
  | .syncLevel dev level stack =>
    let config := (s.config.setLoggerLevel dev level).1
    match (syncLevel s.config.parameter.loggerPrivilege dev level).sync with
    | none => some ⟨config, s.fifo⟩
    | some buf => (s.fifo.step (.syncInfo stack buf)).map fun fifo => ⟨config, fifo⟩
  | .other (.syncInfo _ _) => none
  | .other e => (s.fifo.step e).map fun fifo => { s with fifo := fifo }

/-- The level that is set by an action of the device. -/
def levelOf : DeviceAction → Option Int32
  | .setLevel level => some (Int32.ofNat level.toNat)
  | _ => none

/-- The level in force after some actions. -/
def levelAfter (start : Int32) (actions : List DeviceAction) : Int32 :=
  (actions.filterMap levelOf).getLastD start

/-- What the records on the FIFO ask for. -/
def requested (s : LevelSync) : List DeviceAction := s.fifo.pipe.written.map recordAction

/-- Every level event that has been written has been processed, in the order of writing. -/
def Processed (s : LevelSync) : Prop :=
  s.fifo.actions.filterMap levelOf = s.requested.filterMap levelOf

instance (s : LevelSync) : Decidable s.Processed := inferInstanceAs (Decidable (_ = _))

/-- The levels that `local_device` has been given, in order. -/
def localLevels (events : List LevelEvent) : List Int32 :=
  events.filterMap fun
    | .syncLevel dev level _ => if dev = localLoggerDev then some level else none
    | .other _ => none

/-- The low byte of a level, as `process_sync` casts it. -/
def lowLevel (level : Int32) : Int32 := Int32.ofNat level.toUInt32.toUInt8.toNat

/-- A level survives the way through the event when it is a byte. -/
theorem lowLevel_eq_iff (level : Int32) : lowLevel level = level ↔ 0 ≤ level ∧ level ≤ 255 := by
  have hbyte : level.toUInt32.toUInt8.toNat = level.toUInt32.toNat % 256 := UInt32.toNat_toUInt8 _
  have hlow : (lowLevel level).toInt = (level.toUInt32.toNat % 256 : ℕ) := by
    rw [lowLevel, hbyte, Int32.toInt_ofNat_of_lt]
    omega
  have hlevel : level.toInt = if 2 * level.toUInt32.toNat < 2 ^ 32 then (level.toUInt32.toNat : ℤ)
      else level.toUInt32.toNat - (2 ^ 32 : ℕ) := BitVec.toInt_eq_toNat_cond _
  have hlt := level.toUInt32.toNat_lt
  rw [← Int32.toInt_inj, Int32.le_iff_toInt_le, Int32.le_iff_toInt_le, hlow]
  change _ ↔ (0 : ℤ) ≤ _ ∧ _ ≤ (255 : ℤ)
  split at hlevel <;> omega

/-- In the receive buffer a buffer message is found with its identifier and its buffer. -/
theorem sees_eventBufMessage (stack : FixedBuffer UInt8 40) (id : UInt16) {buffer : List UInt8}
    (h : buffer.length ≤ 32) :
    getId ((FixedBuffer.filled deviceRxBufferSize 0).writeAll 0 (eventBufMessage stack id buffer)) = id ∧
      ∀ i < buffer.length,
        dataBuffer ((FixedBuffer.filled deviceRxBufferSize 0).writeAll 0 (eventBufMessage stack id buffer))
          i = buffer.getD i 0 := by
  refine Sees.eventBufMessage (sees_writeAll _ _ ?_) h
  rw [eventBufMessage_length]
  decide

/-- A level event sets the level that it holds. -/
theorem recordAction_sync (stack : FixedBuffer UInt8 40) (level : UInt8) :
    recordAction (eventBufMessage stack deviceSyncEvent [0, level]) = .setLevel level := by
  obtain ⟨hid, hbuffer⟩ := sees_eventBufMessage stack deviceSyncEvent (show [0, level].length ≤ 32 by simp)
  rw [recordAction, processEvent, hid, if_neg (by decide), if_neg (by decide), if_pos rfl, processSync,
    hbuffer 0 (by simp), hbuffer 1 (by simp)]
  rfl

/-- What the hardware is made to do sets no level. -/
theorem levelOf_processHardware (rx : FixedBuffer UInt8 deviceRxBufferSize) :
    levelOf (processHardware rx) = none := by
  rw [processHardware]
  split_ifs <;> rfl

/-- An event for the hardware sets no level. -/
theorem levelOf_recordAction_hwSet (stack : FixedBuffer UInt8 40) {buffer : List UInt8}
    (h : buffer.length ≤ 32) :
    levelOf (recordAction (eventBufMessage stack deviceHwSetEvent buffer)) = none := by
  obtain ⟨hid, -⟩ := sees_eventBufMessage stack deviceHwSetEvent h
  rw [recordAction, processEvent, hid, if_neg (by decide), if_pos rfl, levelOf_processHardware]

/-- Nor does a loop event. -/
theorem levelOf_recordAction_loop : levelOf (recordAction (eventBytes deviceLoopEvent)) = none := by
  decide +kernel

/-- One more action sets the level, or leaves it. -/
theorem levelAfter_concat (start : Int32) (actions : List DeviceAction) (action : DeviceAction) :
    levelAfter start (actions ++ [action]) = (levelOf action).getD (levelAfter start actions) := by
  rw [levelAfter, List.filterMap_append]
  cases haction : levelOf action with
  | none =>
    rw [List.filterMap_cons_none haction, List.filterMap_nil, List.append_nil]
    rfl
  | some level =>
    rw [List.filterMap_cons_some haction, List.filterMap_nil, List.getLastD_concat]
    rfl

/-- A record that sets no level leaves the level that is asked for. -/
theorem levelAfter_write {record : List UInt8} (h : levelOf (recordAction record) = none) (start : Int32)
    (written : List (List UInt8)) :
    levelAfter start ((written ++ [record]).map recordAction) =
      levelAfter start (written.map recordAction) := by
  rw [List.map_append, List.map_singleton, levelAfter_concat, h]
  rfl

/-- The other writers and the reader leave the configuration and the level that is asked for. -/
theorem step_other {s s' : LevelSync} {e : CommandEvent} (hstep : s.step (.other e) = some s')
    (start : Int32) :
    s'.config = s.config ∧ levelAfter start s'.requested = levelAfter start s.requested := by
  cases e with
  | loop =>
    obtain rfl := Option.some.inj hstep
    exact ⟨rfl, levelAfter_write levelOf_recordAction_loop start _⟩
  | keyPress stack =>
    obtain rfl := Option.some.inj hstep
    exact ⟨rfl, levelAfter_write (levelOf_recordAction_hwSet stack (by simp)) start _⟩
  | setDevice stack dev buf =>
    obtain ⟨fifo, hfifo, rfl⟩ := Option.map_eq_some_iff.mp hstep
    rw [CommandFifo.step] at hfifo
    split at hfifo
    · obtain rfl := Option.some.inj hfifo
      exact ⟨rfl, rfl⟩
    · obtain rfl := Option.some.inj hfifo
      refine ⟨rfl, levelAfter_write (levelOf_recordAction_hwSet stack ?_) start _⟩
      rw [List.length_cons]
      omega
  | syncInfo stack buf => contradiction
  | read k =>
    obtain ⟨fifo, hfifo, rfl⟩ := Option.map_eq_some_iff.mp hstep
    obtain ⟨-, -, hpipe⟩ := CommandFifo.step_read hfifo
    refine ⟨rfl, ?_⟩
    rw [requested, requested, hpipe]
    rfl

/-- The level recorded after a call of `sync_level`. -/
theorem recorded_setLoggerLevel (config : DynamicConfig) (dev level : Int32) :
    (config.setLoggerLevel dev level).1.parameter.loggerPrivilege.localDeviceLevel =
      if dev = localLoggerDev then level else config.parameter.loggerPrivilege.localDeviceLevel := by
  have hprivilege : (config.setLoggerLevel dev level).1.parameter.loggerPrivilege =
      config.parameter.loggerPrivilege.withLevel dev level :=
    config.parameter.loggerPrivilege.setLoggerLevel_fst dev level
  rw [hprivilege]
  split
  · next hdev => rw [hdev, LoggerPrivilege.withLevel, if_neg (by decide), if_pos rfl]
  · next hdev =>
    have hlevel := config.parameter.loggerPrivilege.level_withLevel_of_ne level (Ne.symm hdev)
    exact Option.some.inj hlevel

/-- No level but the first one has been given to `local_device`. -/
def Untouched (start : Int32) (levels : List Int32) : Prop := ∀ level ∈ levels, level = start

instance (start : Int32) (levels : List Int32) : Decidable (Untouched start levels) :=
  List.decidableBAll (fun level => level = start) levels

/-- What is true of the levels recorded and asked for after the events so far. -/
structure Follows (start : Int32) (history : List LevelEvent) (s : LevelSync) : Prop where
  recorded : s.recorded = (localLevels history).getLastD start
  requested : levelAfter start s.requested =
    if Untouched start (localLevels history) then start else lowLevel s.recorded
  mirrors : s.config.Mirrors

/-- A call of `sync_level` records the level and asks for it, if it is another one. -/
theorem step_syncLevel {s s' : LevelSync} {dev level : Int32} {stack : FixedBuffer UInt8 40}
    (hstep : s.step (.syncLevel dev level stack) = some s') (start : Int32) :
    s'.config = (s.config.setLoggerLevel dev level).1 ∧
      levelAfter start s'.requested =
        if dev = localLoggerDev ∧ s.recorded ≠ level then lowLevel level
        else levelAfter start s.requested := by
  have hsync : (syncLevel s.config.parameter.loggerPrivilege dev level).sync =
      if dev = localLoggerDev ∧ s.recorded ≠ level then some [0, level.toUInt32.toUInt8] else none := rfl
  rw [step, hsync] at hstep
  by_cases hsend : dev = localLoggerDev ∧ s.recorded ≠ level
  · rw [if_pos hsend] at hstep ⊢
    obtain ⟨fifo, hfifo, rfl⟩ := Option.map_eq_some_iff.mp hstep
    obtain rfl := Option.some.inj hfifo
    refine ⟨rfl, ?_⟩
    change levelAfter start ((_ ++ [_]).map recordAction) = _
    rw [List.map_append, List.map_singleton, levelAfter_concat, recordAction_sync]
    rfl
  · rw [if_neg hsend] at hstep ⊢
    obtain rfl := Option.some.inj hstep
    exact ⟨rfl, rfl⟩

/-- A call that is not for `local_device` gives it no level. -/
theorem localLevels_concat_syncLevel (history : List LevelEvent) (dev level : Int32)
    (stack : FixedBuffer UInt8 40) :
    localLevels (history ++ [.syncLevel dev level stack]) =
      if dev = localLoggerDev then localLevels history ++ [level] else localLevels history := by
  rw [localLevels, List.filterMap_append]
  split
  · next hdev => simp [hdev, localLevels]
  · next hdev => simp [hdev, localLevels]

/-- Where all elements of a list are the default, its last one is. -/
theorem getLastD_of_forall_eq {α : Type*} {l : List α} {x : α} (h : ∀ y ∈ l, y = x) : l.getLastD x = x := by
  have hmem : l.getLastD x ∈ x :: l := List.getLastD_mem_cons
  rcases List.mem_cons.mp hmem with hlast | hlast
  · exact hlast
  · exact h _ hlast

/-- The levels are those of the first level alone when this was so before and the new one is it, too. -/
theorem untouched_concat {start level : Int32} {levels : List Int32} :
    Untouched start (levels ++ [level]) ↔ Untouched start levels ∧ level = start := by
  rw [Untouched, List.forall_mem_append, List.forall_mem_singleton]
  rfl

/-- A level that is the recorded one need not be asked for, and another one is. -/
theorem requested_concat {start recorded level : Int32} {levels : List Int32}
    (hrecorded : recorded = levels.getLastD start) :
    (if recorded ≠ level then lowLevel level
        else if Untouched start levels then start else lowLevel recorded) =
      if Untouched start (levels ++ [level]) then start else lowLevel level := by
  have hstart : Untouched start levels → recorded = start := fun hall =>
    hrecorded.trans (getLastD_of_forall_eq hall)
  by_cases hsame : recorded = level
  · rw [if_neg (not_not.mpr hsame), hsame]
    by_cases hall : Untouched start levels
    · rw [if_pos hall, if_pos (untouched_concat.mpr ⟨hall, hsame.symm.trans (hstart hall)⟩)]
    · rw [if_neg hall, if_neg fun h => hall (untouched_concat.mp h).1]
  · rw [if_pos hsame, if_neg]
    intro h
    obtain ⟨hall, hlevel⟩ := untouched_concat.mp h
    exact hsame ((hstart hall).trans hlevel.symm)

/-- A call of `sync_level` keeps what is true of the levels. -/
theorem Follows.syncLevel {start : Int32} {history : List LevelEvent} {s s' : LevelSync} {dev level : Int32}
    {stack : FixedBuffer UInt8 40} (h : Follows start history s)
    (hstep : s.step (.syncLevel dev level stack) = some s') :
    Follows start (history ++ [.syncLevel dev level stack]) s' := by
  obtain ⟨hconfig, hrequested⟩ := step_syncLevel hstep start
  have hrecorded : s'.recorded = if dev = localLoggerDev then level else s.recorded := by
    rw [LevelSync.recorded, hconfig, recorded_setLoggerLevel]
    rfl
  have hlevels := localLevels_concat_syncLevel history dev level stack
  have hmirrors : s'.config.Mirrors := hconfig ▸ h.mirrors.setLoggerLevel dev level
  by_cases hdev : dev = localLoggerDev
  · rw [if_pos hdev] at hrecorded hlevels
    refine ⟨?_, ?_, hmirrors⟩
    · rw [hrecorded, hlevels, List.getLastD_concat]
    · rw [hrequested, h.requested, hlevels, hrecorded]
      simp only [hdev, true_and]
      exact requested_concat h.recorded
  · rw [if_neg hdev] at hrecorded hlevels
    refine ⟨?_, ?_, hmirrors⟩
    · rw [hrecorded, hlevels, h.recorded]
    · rw [hrequested, if_neg fun hsend => hdev hsend.1, h.requested, hlevels, hrecorded]

/-- Every step keeps what is true of the levels. -/
theorem Follows.step {start : Int32} (history : List LevelEvent) (s : LevelSync) (e : LevelEvent)
    (s' : LevelSync) (h : Follows start history s)
    (hstep : s.step e = some s') : Follows start (history ++ [e]) s' := by
  cases e with
  | other e =>
    obtain ⟨hconfig, hrequested⟩ := step_other hstep start
    have hlevels : localLevels (history ++ [.other e]) = localLevels history := by
      rw [localLevels, List.filterMap_append]
      exact List.append_nil _
    have hrecorded : s'.recorded = s.recorded := by
      rw [LevelSync.recorded, LevelSync.recorded, hconfig]
    constructor
    case recorded => rw [hrecorded, h.recorded, hlevels]
    case requested => rw [hrequested, h.requested, hlevels, hrecorded]
    case mirrors => exact hconfig ▸ h.mirrors
  | syncLevel dev level stack => exact h.syncLevel hstep

/-- `local_device` runs at the level that is recorded, and after a restart would run at it again. -/
def Agrees (start : Int32) (s : LevelSync) : Prop :=
  levelAfter start s.fifo.actions = s.recorded ∧
    ∀ q, (dynamicInit s.config.file q).1.loggerPrivilege.localDeviceLevel = levelAfter start s.fifo.actions

/-- No level but the first one has been given to `local_device`, or the last one is a byte. -/
def Transmissible (start : Int32) (levels : List Int32) : Prop :=
  (∀ level ∈ levels, level = start) ∨ ∀ level ∈ levels.getLast?, 0 ≤ level ∧ level ≤ 255

/-- Both processes at the level that has been read from the file, with nothing on the FIFO. -/
def init (config : DynamicConfig) (rxBuffer : FixedBuffer UInt8 deviceRxBufferSize) : LevelSync :=
  ⟨config, .init rxBuffer⟩

/-- Where everything has been processed, the levels agree exactly when the level could be transmitted. -/
theorem Follows.agrees_iff {start : Int32} {events : List LevelEvent} {s : LevelSync}
    (h : Follows start events s) (hprocessed : s.Processed) :
    Agrees start s ↔ Transmissible start (localLevels events) := by
  have hforce : levelAfter start s.fifo.actions = levelAfter start s.requested := by
    rw [levelAfter, hprocessed]
    rfl
  have hrestart (q : SystemParamter) :
      (dynamicInit s.config.file q).1.loggerPrivilege.localDeviceLevel = s.recorded := by
    rw [h.mirrors q]
    rfl
  rw [Agrees, hforce, h.requested]
  by_cases hall : Untouched start (localLevels events)
  · have hrecorded : s.recorded = start := h.recorded.trans (getLastD_of_forall_eq hall)
    rw [if_pos hall]
    exact iff_of_true ⟨hrecorded.symm, fun q => (hrestart q).trans hrecorded⟩ (.inl hall)
  · have hgiven : ¬ ∀ level ∈ localLevels events, level = start := hall
    rw [if_neg hall, Transmissible, or_iff_right hgiven]
    have hlast : (localLevels events).getLast? = some s.recorded := by
      have hrecorded := h.recorded
      rw [List.getLastD_eq_getLast?] at hrecorded
      cases hget : (localLevels events).getLast? with
      | none =>
        rw [List.getLast?_eq_none_iff] at hget
        rw [hget] at hall
        exact absurd (fun _ hmem => absurd hmem List.not_mem_nil) hall
      | some level =>
        rw [hget] at hrecorded
        exact congrArg some hrecorded.symm
    have hbyte : (∀ level ∈ (localLevels events).getLast?, 0 ≤ level ∧ level ≤ 255) ↔
        lowLevel s.recorded = s.recorded := by
      rw [hlast, lowLevel_eq_iff]
      exact ⟨fun h => h _ rfl, fun h _ hmem => Option.some.inj hmem ▸ h⟩
    rw [hbyte]
    exact ⟨And.left, fun hlow => ⟨hlow, fun q => (hrestart q).trans hlow.symm⟩⟩

/-- Whatever levels `sync_level` is called with, once all level events have been processed `local_device`
runs at the recorded level exactly when no other level than the first one has been given to it or the last one
is a byte. -/
theorem run_agrees_iff {file : Option JsonTree} {p q : SystemParamter}
    (hinit : dynamicInit file q = (p, true)) {rxBuffer : FixedBuffer UInt8 deviceRxBufferSize}
    {events : List LevelEvent} {t : LevelSync}
    (hrun : Transition.run step (init ⟨p, file⟩ rxBuffer) events = some t) (hprocessed : t.Processed) :
    Agrees p.loggerPrivilege.localDeviceLevel t ↔
      Transmissible p.loggerPrivilege.localDeviceLevel (localLevels events) := by
  have hstart : Follows p.loggerPrivilege.localDeviceLevel [] (init ⟨p, file⟩ rxBuffer) := by
    constructor
    case recorded => rfl
    case requested => exact (if_pos fun _ hmem => absurd hmem List.not_mem_nil).symm
    case mirrors => exact DynamicConfig.mirrors_of_dynamicInit hinit
  exact (Transition.run_history (Follows p.loggerPrivilege.localDeviceLevel) Follows.step hrun
    hstart).agrees_iff hprocessed

/-- A configuration with levels of 0 that has been read from a file that holds nothing. -/
def zeroLevels : SystemParamter := { defaultInit with loggerPrivilege := default }

/-- It is what is read from that file. -/
theorem dynamicInit_zeroLevels : dynamicInit (some .null) defaultInit = (zeroLevels, true) :=
  DynamicConfig.dynamicInit_iff.mpr ⟨default, rfl, rfl⟩

/-- The level is set once and the event is read. -/
def setOnce (level : Int32) : List LevelEvent :=
  [.syncLevel localLoggerDev level (FixedBuffer.filled 40 7), .other (.read 40)]

/-- The levels agree after a level of 3. -/
theorem run_agrees_iff_three : ∃ t,
    Transition.run step (init ⟨zeroLevels, some .null⟩ (FixedBuffer.filled deviceRxBufferSize 0))
      (setOnce 3) = some t ∧ Agrees 0 t := by
  have hsome : ((Transition.run step (init ⟨zeroLevels, some .null⟩
      (FixedBuffer.filled deviceRxBufferSize 0)) (setOnce 3)).map fun t =>
        decide t.Processed) = some true := by
    decide +kernel
  have hbyte : ∀ level ∈ (localLevels (setOnce 3)).getLast?, 0 ≤ level ∧ level ≤ 255 := by
    intro level hlevel
    obtain rfl : 3 = level := Option.some.inj hlevel
    decide
  obtain ⟨t, hrun, hprocessed⟩ := Option.map_eq_some_iff.mp hsome
  exact ⟨t, hrun, (run_agrees_iff dynamicInit_zeroLevels hrun (of_decide_eq_true hprocessed)).mpr
    (.inr hbyte)⟩

/-- A level of 300 is recorded, and `local_device` runs at 44. -/
theorem run_not_agrees : ¬ ∀ (file : Option JsonTree) (p q : SystemParamter)
    (rxBuffer : FixedBuffer UInt8 deviceRxBufferSize) (events : List LevelEvent) (t : LevelSync),
    dynamicInit file q = (p, true) → Transition.run step (init ⟨p, file⟩ rxBuffer) events = some t →
      t.Processed → Agrees p.loggerPrivilege.localDeviceLevel t := by
  intro h
  have hsome : ((Transition.run step (init ⟨zeroLevels, some .null⟩
      (FixedBuffer.filled deviceRxBufferSize 0)) (setOnce 300)).map fun t =>
        (decide t.Processed,
          levelAfter 0 t.fifo.actions, t.recorded)) = some (true, 44, 300) := by
    decide +kernel
  obtain ⟨t, hrun, hstate⟩ := Option.map_eq_some_iff.mp hsome
  obtain ⟨hprocessed, hlevels⟩ := Prod.mk.inj hstate
  obtain ⟨hforce, hrecorded⟩ := Prod.mk.inj hlevels
  have hagrees := h _ _ _ _ _ t dynamicInit_zeroLevels hrun (of_decide_eq_true hprocessed)
  have hequal : (44 : Int32) = 300 := hforce.symm.trans (hagrees.1.trans hrecorded)
  contradiction

end LevelSync

end RemoteManage.MainProcess
