import RemoteManage.Foundation.Mailbox
import RemoteManage.Foundation.Transition
import Mathlib.Logic.Function.Basic

/-!
# The key driver

An edge of the key line runs `key_handler`, which arms the timer unless `protect` is set. The timer
compares the line with `key_value`, and writes the press, the release or `KEY_KEEP` into the one word
`status`. `key_read` waits for a word other than `KEY_KEEP`, copies it to the user and writes
`KEY_KEEP` over it.

Each access to `status`, `protect` and `key_value` is one step, and any number of threads read. The
level of the line and the edges are free. Beside the driver runs a mailbox that says which change the
word stands for and which changes have been copied to a reader; it decides nothing.
-/

namespace RemoteManage.KernelModule

open RemoteManage.Foundation

/-- `enum key_status`. -/
inductive KeyStatus where
  | press
  | release
  | keep
  deriving DecidableEq, Repr

/-- What `key_timer_func` writes for a new level of the line. -/
def KeyStatus.ofLevel (value : UInt8) : KeyStatus := if value = 1 then .press else .release

/-- Where `key_handler` is. -/
inductive HandlerPhase where
  /-- Not running. -/
  | idle
  /-- It has found `protect` cleared. -/
  | protecting
  /-- It has set `protect`. -/
  | arming
  deriving DecidableEq, Repr

/-- Where `key_timer_func` is. -/
inductive KeyTimerPhase where
  /-- Not running. -/
  | idle
  /-- It has found a level other than `key_value`. -/
  | changed (value : UInt8)
  /-- It has stored the level in `key_value`. -/
  | publishing (value : UInt8)
  /-- It has found the level of `key_value`. -/
  | unchanged
  /-- It has written `status`. -/
  | unprotecting
  deriving DecidableEq, Repr

/-- Where a thread is in `key_read`. -/
inductive KeyReadPhase where
  /-- In no call, or before the test of `status`. -/
  | idle
  /-- It has found a word other than `KEY_KEEP`. -/
  | copying
  /-- It has copied the word. -/
  | clearing
  deriving DecidableEq, Repr

/-- `key_data` with the contexts that use it. -/
structure KeyData (ι : Type*) where
  /-- `status`. -/
  status : KeyStatus
  /-- `protect`. -/
  protect : Bool
  /-- `key_value`. -/
  keyValue : UInt8
  /-- The timer is pending. -/
  armed : Bool
  /-- Where the handler is. -/
  handler : HandlerPhase
  /-- Where the timer function is. -/
  timer : KeyTimerPhase
  /-- Where the threads that read are. -/
  readers : ι → KeyReadPhase
  /-- The changes found, the one `status` stands for, and those copied to a reader. -/
  box : Mailbox UInt8
  /-- The words copied to readers, with the changes they stand for. -/
  reports : List (Option ℕ × KeyStatus)

/-- The steps of the handler, the timer function and the readers. -/
inductive KeyEvent (ι : Type*) where
  /-- An edge: the handler reads `protect`. -/
  | interrupt
  /-- The handler sets `protect`. -/
  | protects
  /-- The handler arms the timer. -/
  | arms
  /-- The timer function reads the line and compares it with `key_value`. -/
  | expires (value : UInt8)
  /-- The timer function stores the level. -/
  | stores
  /-- The timer function writes the press or the release. -/
  | publishes
  /-- The timer function writes `KEY_KEEP`. -/
  | keeps
  /-- The timer function clears `protect`. -/
  | unprotects
  /-- A reader tests `status`; with `KEY_KEEP` it waits or returns `-EAGAIN`. -/
  | checks (reader : ι)
  /-- A reader copies `status` to the user. -/
  | copies (reader : ι)
  /-- The copy to the user fails, and the reader returns `-EFAULT`. -/
  | faults (reader : ι)
  /-- A reader writes `KEY_KEEP` and returns. -/
  | clears (reader : ι)
  deriving DecidableEq

namespace KeyData

variable {ι : Type*}

/-- The state after `key_probe`, with the level then on the line. -/
def init (keyValue : UInt8) : KeyData ι where
  status := .keep
  protect := false
  keyValue := keyValue
  armed := false
  handler := .idle
  timer := .idle
  readers := fun _ => .idle
  box := .empty
  reports := []

/-- `key_poll`: a read can begin. -/
def keyPoll (s : KeyData ι) : Bool := decide (s.status ≠ .keep)

section Steps

variable [DecidableEq ι]

/-- A reader goes to another place in `key_read`. -/
def moveReader (s : KeyData ι) (reader : ι) (phase : KeyReadPhase) : KeyData ι :=
  { s with readers := Function.update s.readers reader phase }

/-- A reader that has moved is where it went. -/
@[simp] theorem moveReader_self (s : KeyData ι) (reader : ι) (phase : KeyReadPhase) :
    (s.moveReader reader phase).readers reader = phase := by
  simp [moveReader]

/-- One step of one of the contexts. -/
def step (s : KeyData ι) : KeyEvent ι → Option (KeyData ι)
  | .interrupt =>
    if s.handler = .idle then some (if s.protect then s else { s with handler := .protecting }) else none
  | .protects =>
    if s.handler = .protecting then some { s with protect := true, handler := .arming } else none
  | .arms => if s.handler = .arming then some { s with armed := true, handler := .idle } else none
  | .expires value =>
    if s.armed = true ∧ s.timer = .idle then
      some (if value ≠ s.keyValue then
        { s with armed := false, timer := .changed value, box := s.box.find value }
        else { s with armed := false, timer := .unchanged })
    else none
  | .stores =>
    match s.timer with
    | .changed value => some { s with keyValue := value, timer := .publishing value }
    | _ => none
  | .publishes =>
    match s.timer with
    | .publishing value => some { s with status := .ofLevel value, timer := .unprotecting, box := s.box.put }
    | _ => none
  | .keeps =>
    if s.timer = .unchanged then
      some { s with status := .keep, timer := .unprotecting, box := s.box.clear }
    else none
  | .unprotects => if s.timer = .unprotecting then some { s with protect := false, timer := .idle } else none
  | .checks reader =>
    if s.readers reader = .idle then some (if s.keyPoll then s.moveReader reader .copying else s) else none
  | .copies reader =>
    if s.readers reader = .copying then
      some { s.moveReader reader .clearing with
        box := s.box.take, reports := s.reports ++ [(s.box.place, s.status)] }
    else none
  | .faults reader => if s.readers reader = .copying then some (s.moveReader reader .idle) else none
  | .clears reader =>
    if s.readers reader = .clearing then
      some { s.moveReader reader .idle with status := .keep, box := s.box.clear }
    else none

end Steps

/-- The word stands for the change that the mailbox names, and is `KEY_KEEP` when it names none. -/
def StandsFor (found : List UInt8) (change : Option ℕ) (status : KeyStatus) : Prop :=
  match change with
  | none => status = .keep
  | some k => ∃ value, found[k]? = some value ∧ status = .ofLevel value

/-- The last change found is on its way to `status` with its level. -/
def TimerHolds (s : KeyData ι) : Prop :=
  match s.timer with
  | .changed value | .publishing value => s.box.underway = true ∧ s.box.found.getLast? = some value
  | _ => s.box.underway = false

/-- The mailbox describes the driver. -/
structure Consistent (s : KeyData ι) : Prop where
  wf : s.box.Wf
  timer : s.TimerHolds
  status : StandsFor s.box.found s.box.place s.status
  reports : ∀ report ∈ s.reports, StandsFor s.box.found report.1 report.2
  taken : s.box.taken = s.reports.filterMap Prod.fst

/-- The step discards nothing and repeats nothing: `status` is emptied when it is empty, holds a change that
has been copied, or is about to be replaced by a newer one, and it is copied when it is empty or has not been
copied before. -/
def Spares (s : KeyData ι) : KeyEvent ι → Prop
  | .keeps | .clears _ => s.box.MayClear
  | .copies _ => s.box.MayTake
  | _ => True

instance (s : KeyData ι) (e : KeyEvent ι) : Decidable (Spares s e) := by
  unfold Spares
  cases e <;> infer_instance

/-- A word keeps its meaning when further changes are found. -/
theorem StandsFor.append {found : List UInt8} {change : Option ℕ} {status : KeyStatus}
    (h : StandsFor found change status) (newer : List UInt8) : StandsFor (found ++ newer) change status := by
  cases change with
  | none => exact h
  | some k =>
    obtain ⟨value, hvalue, hstatus⟩ := h
    obtain ⟨hlt, -⟩ := List.getElem?_eq_some_iff.mp hvalue
    exact ⟨value, (List.getElem?_append_left hlt).trans hvalue, hstatus⟩

/-- The driver is described after `key_probe`. -/
theorem init_consistent (keyValue : UInt8) : Consistent (init keyValue : KeyData ι) where
  wf := Mailbox.empty_wf
  timer := rfl
  status := rfl
  reports := nofun
  taken := rfl

section Step

variable {s s' : KeyData ι}

/-- The step of the timer function that compares the levels. -/
theorem Consistent.expires (h : Consistent s) (value : UInt8) (hidle : s.timer = .idle)
    (hstep : (if value ≠ s.keyValue then
      { s with armed := false, timer := .changed value, box := s.box.find value }
      else { s with armed := false, timer := .unchanged }) = s') : Consistent s' := by
  split at hstep
  · subst hstep
    exact {
      wf := h.wf.find value
      timer := ⟨rfl, List.getLast?_concat⟩
      status := h.status.append [value]
      reports := fun report hreport => (h.reports report hreport).append [value]
      taken := h.taken }
  · subst hstep
    have htimer := h.timer
    rw [TimerHolds, hidle] at htimer
    exact ⟨h.wf, htimer, h.status, h.reports, h.taken⟩

/-- The step of the timer function that writes a press or a release. -/
theorem Consistent.publishes (h : Consistent s) {value : UInt8} (hphase : s.timer = .publishing value) :
    Consistent { s with status := .ofLevel value, timer := .unprotecting, box := s.box.put } := by
  have htimer := h.timer
  rw [TimerHolds, hphase] at htimer
  exact {
    wf := h.wf.put htimer.1
    timer := rfl
    status := ⟨value, List.getLast?_eq_getElem? ▸ htimer.2, rfl⟩
    reports := h.reports
    taken := h.taken }

variable [DecidableEq ι]

/-- A copy to a reader. -/
theorem Consistent.copies (h : Consistent s) (reader : ι) :
    Consistent { s.moveReader reader .clearing with
      box := s.box.take, reports := s.reports ++ [(s.box.place, s.status)] } where
  wf := h.wf.take
  timer := h.timer
  status := h.status
  reports report hreport := by
    rcases List.mem_append.mp hreport with hold | hnew
    · exact h.reports report hold
    · rw [List.mem_singleton.mp hnew]
      exact h.status
  taken := by
    change s.box.taken ++ s.box.place.toList = (s.reports ++ [(s.box.place, s.status)]).filterMap Prod.fst
    rw [h.taken, List.filterMap_append]
    cases s.box.place <;> rfl

/-- Every step leaves the driver described by the mailbox. -/
theorem Consistent.step {e : KeyEvent ι} (h : Consistent s) (hstep : KeyData.step s e = some s') :
    Consistent s' := by
  cases e with
  | interrupt =>
    obtain ⟨-, rfl⟩ := Transition.enabled_of_ite hstep
    split
    · exact h
    · exact ⟨h.wf, h.timer, h.status, h.reports, h.taken⟩
  | protects =>
    obtain ⟨-, rfl⟩ := Transition.enabled_of_ite hstep
    exact ⟨h.wf, h.timer, h.status, h.reports, h.taken⟩
  | arms =>
    obtain ⟨-, rfl⟩ := Transition.enabled_of_ite hstep
    exact ⟨h.wf, h.timer, h.status, h.reports, h.taken⟩
  | expires value =>
    obtain ⟨⟨-, hidle⟩, hs'⟩ := Transition.enabled_of_ite hstep
    exact h.expires value hidle hs'
  | stores =>
    simp only [KeyData.step] at hstep
    split at hstep
    · next value hphase =>
      obtain rfl := Option.some.inj hstep
      have htimer := h.timer
      rw [TimerHolds, hphase] at htimer
      exact ⟨h.wf, htimer, h.status, h.reports, h.taken⟩
    · cases hstep
  | publishes =>
    simp only [KeyData.step] at hstep
    split at hstep
    · next value hphase =>
      obtain rfl := Option.some.inj hstep
      exact h.publishes hphase
    · cases hstep
  | keeps =>
    obtain ⟨hphase, rfl⟩ := Transition.enabled_of_ite hstep
    have htimer := h.timer
    rw [TimerHolds, hphase] at htimer
    exact ⟨h.wf.clear, htimer, rfl, h.reports, h.taken⟩
  | unprotects =>
    obtain ⟨hphase, rfl⟩ := Transition.enabled_of_ite hstep
    have htimer := h.timer
    rw [TimerHolds, hphase] at htimer
    exact ⟨h.wf, htimer, h.status, h.reports, h.taken⟩
  | checks reader =>
    obtain ⟨-, rfl⟩ := Transition.enabled_of_ite hstep
    split
    · exact ⟨h.wf, h.timer, h.status, h.reports, h.taken⟩
    · exact h
  | copies reader =>
    obtain ⟨-, rfl⟩ := Transition.enabled_of_ite hstep
    exact h.copies reader
  | faults reader =>
    obtain ⟨-, rfl⟩ := Transition.enabled_of_ite hstep
    exact ⟨h.wf, h.timer, h.status, h.reports, h.taken⟩
  | clears reader =>
    obtain ⟨-, rfl⟩ := Transition.enabled_of_ite hstep
    exact ⟨h.wf.clear, h.timer, rfl, h.reports, h.taken⟩

/-- A step keeps the mailbox delivering exactly when it spares the changes. -/
theorem step_delivers_iff {e : KeyEvent ι} (h : Consistent s) (hdelivers : s.box.Delivers)
    (hstep : KeyData.step s e = some s') : s'.box.Delivers ↔ Spares s e := by
  cases e with
  | interrupt =>
    obtain ⟨-, rfl⟩ := Transition.enabled_of_ite hstep
    split <;> exact iff_of_true hdelivers trivial
  | protects =>
    obtain ⟨-, rfl⟩ := Transition.enabled_of_ite hstep
    exact iff_of_true hdelivers trivial
  | arms =>
    obtain ⟨-, rfl⟩ := Transition.enabled_of_ite hstep
    exact iff_of_true hdelivers trivial
  | expires value =>
    obtain ⟨-, rfl⟩ := Transition.enabled_of_ite hstep
    split
    · exact iff_of_true (hdelivers.find value) trivial
    · exact iff_of_true hdelivers trivial
  | stores =>
    simp only [KeyData.step] at hstep
    split at hstep
    · obtain rfl := Option.some.inj hstep
      exact iff_of_true hdelivers trivial
    · cases hstep
  | publishes =>
    simp only [KeyData.step] at hstep
    split at hstep
    · obtain rfl := Option.some.inj hstep
      exact iff_of_true hdelivers.put trivial
    · cases hstep
  | keeps =>
    obtain ⟨-, rfl⟩ := Transition.enabled_of_ite hstep
    exact hdelivers.clear_iff h.wf
  | unprotects =>
    obtain ⟨-, rfl⟩ := Transition.enabled_of_ite hstep
    exact iff_of_true hdelivers trivial
  | checks reader =>
    obtain ⟨-, rfl⟩ := Transition.enabled_of_ite hstep
    split <;> exact iff_of_true hdelivers trivial
  | copies reader =>
    obtain ⟨-, rfl⟩ := Transition.enabled_of_ite hstep
    exact hdelivers.take_iff
  | faults reader =>
    obtain ⟨-, rfl⟩ := Transition.enabled_of_ite hstep
    exact iff_of_true hdelivers trivial
  | clears reader =>
    obtain ⟨-, rfl⟩ := Transition.enabled_of_ite hstep
    exact hdelivers.clear_iff h.wf

/-- A reader that runs its read in a row reports the change in `status`. -/
theorem Consistent.readable (h : Consistent s) {k : ℕ} (hplace : s.box.place = some k) {reader : ι}
    (hidle : s.readers reader = .idle) :
    ∃ value s', s.box.found[k]? = some value ∧
      Transition.run KeyData.step s [.checks reader, .copies reader, .clears reader] = some s' ∧
      s'.reports = s.reports ++ [(some k, .ofLevel value)] := by
  have hstatus := h.status
  rw [hplace] at hstatus
  obtain ⟨value, hvalue, hword⟩ := hstatus
  have hpoll : s.keyPoll = true := by
    rw [keyPoll, hword, KeyStatus.ofLevel]
    split <;> rfl
  let checked := s.moveReader reader .copying
  let copied := { checked.moveReader reader .clearing with
    box := s.box.take, reports := s.reports ++ [(s.box.place, s.status)] }
  have hcheck : KeyData.step s (.checks reader) = some checked := by
    simp only [KeyData.step, hidle, hpoll, if_true, checked]
  have hcopy : KeyData.step checked (.copies reader) = some copied :=
    if_pos (s.moveReader_self reader .copying)
  have hclear : KeyData.step copied (.clears reader) =
      some { copied.moveReader reader .idle with status := .keep, box := copied.box.clear } :=
    if_pos (checked.moveReader_self reader .clearing)
  refine ⟨value, _, hvalue, Transition.run_append_eq_some (Transition.run_singleton hcheck)
    (Transition.run_append_eq_some (Transition.run_singleton hcopy) (Transition.run_singleton hclear)), ?_⟩
  change s.reports ++ [(s.box.place, s.status)] = _
  rw [hplace, hword]

end Step

variable [DecidableEq ι]

/-- Every change found is reported once with its press or release, unless a newer one was found first: the
newest is on its way, in `status` or reported, and a reader that comes now reports what is in `status`. -/
structure ReportsChanges (s : KeyData ι) : Prop where
  newest : s.box.KeepsNewest
  once : (s.reports.filterMap Prod.fst).Nodup
  values : ∀ report ∈ s.reports, StandsFor s.box.found report.1 report.2
  readable : ∀ k, s.box.place = some k → ∀ reader, s.readers reader = .idle →
    ∃ value s', s.box.found[k]? = some value ∧
      Transition.run step s [.checks reader, .copies reader, .clears reader] = some s' ∧
      s'.reports = s.reports ++ [(some k, .ofLevel value)]

/-- The driver reports its changes exactly when the mailbox delivers them. -/
theorem Consistent.reportsChanges_iff {s : KeyData ι} (h : Consistent s) :
    ReportsChanges s ↔ s.box.Delivers := by
  constructor
  · intro hreports
    exact ⟨hreports.newest, h.taken ▸ hreports.once⟩
  · intro hdelivers
    exact {
      newest := hdelivers.1
      once := h.taken ▸ hdelivers.2
      values := h.reports
      readable := fun k hplace reader hidle => h.readable hplace hidle }

/-- The runs in which every change is reported once are those in which every step that empties `status` finds
it empty, copied or about to be replaced by a newer change, and every copy finds it empty or not copied
before. -/
theorem run_reportsChanges_iff (keyValue : UInt8) {events : List (KeyEvent ι)} {t : KeyData ι}
    (hrun : Transition.run step (init keyValue) events = some t) :
    Transition.Along step Spares (init keyValue) events ↔
      ∀ before after, events = before ++ after → ∀ s, Transition.run step (init keyValue) before = some s →
        ReportsChanges s := by
  have hkeep : ∀ (s : KeyData ι) e s', Consistent s ∧ s.box.Delivers → Spares s e → step s e = some s' →
      Consistent s' ∧ s'.box.Delivers := by
    intro s e s' hs hspares hstep
    exact ⟨hs.1.step hstep, (step_delivers_iff hs.1 hs.2 hstep).mpr hspares⟩
  have hneed : ∀ (s : KeyData ι) e s', Consistent s ∧ s.box.Delivers → step s e = some s' →
      Consistent s' ∧ s'.box.Delivers → Spares s e := by
    intro s e s' hs hstep hs'
    exact (step_delivers_iff hs.1 hs.2 hstep).mp hs'.2
  rw [Transition.along_iff_reached _ _ hkeep hneed hrun ⟨init_consistent keyValue, Mailbox.empty_delivers⟩]
  refine forall₂_congr fun before after => forall_congr' fun _ => forall₂_congr fun s hs => ?_
  have hconsistent : Consistent s :=
    Transition.run_invariant Consistent (fun _ _ _ h hstep => h.step hstep) hs (init_consistent keyValue)
  rw [hconsistent.reportsChanges_iff, and_iff_right hconsistent]

/-- An edge and the run of the timer function that finds a new level. -/
def changeEvents (value : UInt8) : List (KeyEvent ι) :=
  [.interrupt, .protects, .arms, .expires value, .stores, .publishes, .unprotects]

/-- An edge and the run of the timer function that finds the old level. -/
def bounceEvents (value : UInt8) : List (KeyEvent ι) :=
  [.interrupt, .protects, .arms, .expires value, .keeps, .unprotects]

/-- A read from the test to the return. -/
def readEvents (reader : ι) : List (KeyEvent ι) := [.checks reader, .copies reader, .clears reader]

/-- A press that is read before the line bounces is reported in every state on the way. -/
theorem run_reportsChanges_read :
    Transition.Along step Spares (init 0)
        (changeEvents 1 ++ readEvents () ++ bounceEvents 1 : List (KeyEvent Unit)) ∧
      ∀ before after, (changeEvents 1 ++ readEvents () ++ bounceEvents 1 : List (KeyEvent Unit)) =
        before ++ after → ∀ s, Transition.run step (init 0) before = some s → ReportsChanges s := by
  have hspares : Transition.Along step Spares (init 0)
      (changeEvents 1 ++ readEvents () ++ bounceEvents 1 : List (KeyEvent Unit)) := by decide
  obtain ⟨t, hrun⟩ := Option.isSome_iff_exists.mp (show (Transition.run step (init 0)
    (changeEvents 1 ++ readEvents () ++ bounceEvents 1 : List (KeyEvent Unit))).isSome by decide)
  exact ⟨hspares, (run_reportsChanges_iff 0 hrun).mp hspares⟩

/-- A press is lost when the line bounces before it is read, and so is the release that is found between the
copy of the press and the end of the read. -/
theorem run_change_lost :
    ¬ (∀ (keyValue : UInt8) (events : List (KeyEvent Unit)) (s : KeyData Unit),
      Transition.run step (init keyValue) events = some s → ReportsChanges s) ∧
      (Transition.run step (init 0) (changeEvents 1 ++ bounceEvents 1 : List (KeyEvent Unit))).map
        (fun s => (s.box.found, s.status, s.reports)) = some ([1], .keep, []) ∧
      (Transition.run step (init 0) (changeEvents 1 ++ [.checks (), .copies ()] ++ changeEvents 0 ++
        [.clears ()])).map (fun s => (s.box.found, s.status, s.reports)) =
          some ([1, 0], .keep, [(some 0, .press)]) := by
  refine ⟨fun h => ?_, by decide, by decide⟩
  have hlost : (Transition.run step (init 0) (changeEvents 1 ++ bounceEvents 1 : List (KeyEvent Unit))).map
      (fun s => decide s.box.KeepsNewest) = some false := by decide
  obtain ⟨s, hs, hnewest⟩ := Option.map_eq_some_iff.mp hlost
  exact of_decide_eq_false hnewest (h 0 _ s hs).newest

end KeyData

end RemoteManage.KernelModule
