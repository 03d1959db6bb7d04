import RemoteManage.Modbus.MbAscii

/-!
# When the ASCII receiver reports a frame

Over every sequence of characters and expiries of the timer, a frame is reported exactly at the end of a text:
a colon, data characters that have room in the buffer, and the end of the line. A frame that is given up
behind its carriage return leaves the timer running, and its expiry fails the assertion.
-/

namespace RemoteManage.Modbus.MbAscii

open RemoteManage.Foundation

section Texts

variable {base s : MbAscii} {body : List UInt8}

/-- The data characters of a frame, from any state of the receiver. -/
theorem run_open (hfailed : base.failed = none) (hidle : base.eSndState = .txIdle) (htext : IsText body)
    (hroom : body.length ≤ 2 * mbSerPduSizeMax) :
    ∃ s, Transition.run rcvStep base (characters (colon :: body)) = some s ∧ base.Receiving s body := by
  obtain ⟨s, hrun, hs⟩ := (restart_receiving base).text hfailed hidle htext hroom
  refine ⟨s, Transition.run_cons_eq_some.mpr ⟨base.restart, ?_, hrun⟩, hs⟩
  rw [rcvStep_character hfailed, xMBASCIIReceiveFSM_colon hidle]

/-- The carriage return behind the data characters. -/
theorem Receiving.carriageReturn (h : base.Receiving s body) (hidle : base.eSndState = .txIdle) :
    s.xMBASCIIReceiveFSM carriageReturn = { s with eRcvState := .rxWaitEof, timer := true } := by
  have hsnd : s.eSndState = .txIdle := by rw [h.kept, hidle]
  have hrcv : s.eRcvState = .rxRcv := by rw [h.kept]
  rw [xMBASCIIReceiveFSM, if_neg (not_not.mpr hsnd), hrcv]
  rfl

/-- The character behind the carriage return. -/
theorem xMBASCIIReceiveFSM_waitEof (hrcv : s.eRcvState = .rxWaitEof) (hidle : s.eSndState = .txIdle)
    (c : UInt8) : s.xMBASCIIReceiveFSM c =
      if c = lineFeed then { s with eRcvState := .rxIdle, timer := false }.xMBPortEventPost .frameReceived
      else if c = colon then s.restart
      else { s with eRcvState := .rxIdle } := by
  rw [xMBASCIIReceiveFSM, if_neg (not_not.mpr hidle), hrcv]

/-- A receiver that is idle waits for a colon. -/
theorem xMBASCIIReceiveFSM_idle (hrcv : s.eRcvState = .rxIdle) (hidle : s.eSndState = .txIdle) (c : UInt8) :
    s.xMBASCIIReceiveFSM c = if c = colon then s.restart else s := by
  rw [xMBASCIIReceiveFSM, if_neg (not_not.mpr hidle), hrcv]

/-- A colon, data characters and a carriage return. -/
theorem run_closed (hfailed : base.failed = none) (hidle : base.eSndState = .txIdle) (htext : IsText body)
    (hroom : body.length ≤ 2 * mbSerPduSizeMax) :
    ∃ s, Transition.run rcvStep base (characters (colon :: body ++ [MbAscii.carriageReturn])) =
        some { s with eRcvState := .rxWaitEof, timer := true } ∧ base.Receiving s body := by
  obtain ⟨s, hopen, hs⟩ := run_open hfailed hidle htext hroom
  have hok : s.failed = none := by rw [hs.kept, hfailed]
  refine ⟨s, ?_, hs⟩
  rw [characters, List.map_append]
  refine Transition.run_append_eq_some hopen (Transition.run_singleton ?_)
  rw [rcvStep_character hok, hs.carriageReturn hidle]

end Texts

/-- The events end with a frame that was given up behind its carriage return, and no frame has begun since. -/
def GivenUp (history : List RcvEvent) : Prop :=
  ∃ before body c rest, history = before ++ characters (colon :: body ++ [carriageReturn] ++ c :: rest) ∧
    IsText body ∧ body.length ≤ 2 * mbSerPduSizeMax ∧ c ≠ lineFeed ∧ c ≠ colon ∧ colon ∉ rest

/-- What the receiver has of the events so far. -/
inductive Phase (history : List RcvEvent) (s : MbAscii) : Prop where
  | idle (hrcv : s.eRcvState = .rxIdle) (htimer : s.timer = false)
  | givenUp (hrcv : s.eRcvState = .rxIdle) (htimer : s.timer = true) (hhistory : GivenUp history)
  | receiving (before : List RcvEvent) (body : List UInt8) (hrcv : s.eRcvState = .rxRcv)
      (htimer : s.timer = true) (hheld : s.Holds body) (htext : IsText body)
      (hhistory : history = before ++ characters (colon :: body))
  | ending (before : List RcvEvent) (body : List UInt8) (hrcv : s.eRcvState = .rxWaitEof)
      (htimer : s.timer = true) (hheld : s.Holds body) (htext : IsText body)
      (hhistory : history = before ++ characters (colon :: body ++ [carriageReturn]))

/-- What holds of the receiver after some events. -/
structure Follows (history : List RcvEvent) (s : MbAscii) : Prop where
  idle : s.eSndState = .txIdle
  intact : s.ucRTUBuf.overrun = false
  failed : s.failed = none ∨ s.failed = some .timerT1SExpired
  phase : s.failed = none → s.Phase history

section Steps

variable {history : List RcvEvent} {s : MbAscii}

/-- More characters behind some characters. -/
theorem append_characters (before : List RcvEvent) (text : List UInt8) (c : UInt8) :
    before ++ characters text ++ [.character c] = before ++ characters (text ++ [c]) := by
  rw [characters, characters, List.map_append, List.append_assoc]
  rfl

/-- A colon begins a frame. -/
theorem phase_restart (history : List RcvEvent) (s : MbAscii) :
    s.restart.Phase (history ++ [.character colon]) :=
  .receiving history [] rfl rfl (restart_receiving s).held (by nofun) rfl

/-- A character behind a frame that was given up. -/
theorem GivenUp.character (h : GivenUp history) {c : UInt8} (hc : c ≠ colon) :
    GivenUp (history ++ [.character c]) := by
  obtain ⟨before, body, d, rest, rfl, htext, hroom, hline, hcolon, hrest⟩ := h
  refine ⟨before, body, d, rest ++ [c], ?_, htext, hroom, hline, hcolon, ?_⟩
  · rw [append_characters, List.append_assoc]
    rfl
  · rw [List.mem_append, List.mem_singleton, not_or]
    exact ⟨hrest, Ne.symm hc⟩

/-- What a character does to the receiver. -/
theorem Follows.character (h : Follows history s) (hok : s.failed = none) (c : UInt8) :
    Follows (history ++ [.character c]) (s.xMBASCIIReceiveFSM c) := by
  by_cases hcolon : c = colon
  · rw [hcolon, xMBASCIIReceiveFSM_colon h.idle]
    exact ⟨h.idle, h.intact, .inl hok, fun _ => phase_restart history s⟩
  cases h.phase hok with
  | idle hrcv htimer =>
    rw [xMBASCIIReceiveFSM_idle hrcv h.idle, if_neg hcolon]
    exact ⟨h.idle, h.intact, .inl hok, fun _ => .idle hrcv htimer⟩
  | givenUp hrcv htimer hhistory =>
    rw [xMBASCIIReceiveFSM_idle hrcv h.idle, if_neg hcolon]
    exact ⟨h.idle, h.intact, .inl hok, fun _ => .givenUp hrcv htimer (hhistory.character hcolon)⟩
  | receiving before body hrcv htimer hheld htext hhistory =>
    rw [xMBASCIIReceiveFSM, if_neg (not_not.mpr h.idle), hrcv]
    dsimp only
    rw [if_neg hcolon]
    by_cases hreturn : c = carriageReturn
    · rw [if_pos hreturn]
      refine ⟨h.idle, h.intact, .inl hok, fun _ => ?_⟩
      refine .ending before body rfl rfl (hheld.congr rfl rfl rfl) htext ?_
      rw [hhistory, append_characters, hreturn]
    rw [if_neg hreturn]
    by_cases hroom : body.length < 2 * mbSerPduSizeMax
    · obtain ⟨hheld', hintact, hkept⟩ := hheld.receiveData c hroom
      have hfailed : (s.receiveData c).failed = s.failed := by rw [hkept]
      refine ⟨?_, hintact.trans h.intact, .inl (hfailed.trans hok), fun _ => ?_⟩
      · rw [hkept]
        exact h.idle
      · refine .receiving before (body ++ [c]) ?_ ?_ hheld' ?_ ?_
        · rw [hkept]
          exact hrcv
        · rw [hkept]
        · intro d hd
          rcases List.mem_append.mp hd with hd | hd
          · exact htext d hd
          · exact List.mem_singleton.mp hd ▸ ⟨hcolon, hreturn⟩
        · rw [hhistory, append_characters]
          rfl
    · rw [hheld.receiveData_full c (Nat.le_of_not_lt hroom)]
      exact ⟨h.idle, h.intact, .inl hok, fun _ => .idle rfl rfl⟩
  | ending before body hrcv htimer hheld htext hhistory =>
    rw [xMBASCIIReceiveFSM_waitEof hrcv h.idle]
    by_cases hline : c = lineFeed
    · rw [if_pos hline]
      exact ⟨h.idle, h.intact, .inl hok, fun _ => .idle rfl rfl⟩
    · rw [if_neg hline, if_neg hcolon]
      refine ⟨h.idle, h.intact, .inl hok, fun _ => .givenUp rfl htimer ?_⟩
      refine ⟨before, body, c, [], ?_, htext, hheld.length_le, hline, hcolon, List.not_mem_nil⟩
      rw [hhistory, append_characters]

/-- What an expiry does to the receiver. -/
theorem Follows.expiry (h : Follows history s) (hok : s.failed = none) :
    Follows (history ++ [.expiry]) s.xMBASCIITimerT1SExpired := by
  rw [xMBASCIITimerT1SExpired]
  by_cases hrcv : s.eRcvState = .rxIdle
  · rw [if_pos hrcv]
    exact ⟨h.idle, h.intact, .inr rfl, fun hnone => absurd hnone (by nofun)⟩
  · rw [if_neg hrcv]
    exact ⟨h.idle, h.intact, .inl hok, fun _ => .idle rfl rfl⟩

/-- What a step does to the receiver. -/
theorem Follows.step (h : Follows history s) {s' : MbAscii} {e : RcvEvent} (hstep : rcvStep s e = some s') :
    Follows (history ++ [e]) s' := by
  unfold rcvStep at hstep
  cases hfailed : s.failed with
  | some _ =>
    rw [hfailed] at hstep
    contradiction
  | none =>
    rw [hfailed] at hstep
    cases e with
    | character c => exact Option.some.inj hstep ▸ h.character hfailed c
    | expiry =>
      obtain ⟨-, rfl⟩ := Transition.enabled_of_ite hstep
      exact h.expiry hfailed

/-- After every run the receiver follows the events. -/
theorem run_follows (ucRTUBuf : Vector UInt8 mbSerPduSizeMax) {history : List RcvEvent} {s : MbAscii}
    (hrun : Transition.run rcvStep (start ucRTUBuf) history = some s) : Follows history s := by
  have hstart : Follows [] (start ucRTUBuf) := ⟨rfl, rfl, .inl rfl, fun _ => .idle rfl rfl⟩
  exact Transition.run_history Follows (fun _ _ _ _ h hstep => h.step hstep) hrun hstart

/-- A receiver that takes another event has not failed. -/
theorem failed_of_run {events : List RcvEvent} {t : MbAscii} (hrun : Transition.run rcvStep s events = some t)
    (hevents : events ≠ []) : s.failed = none := by
  cases events with
  | nil => contradiction
  | cons e rest =>
    obtain ⟨s', hstep, -⟩ := Transition.run_cons_eq_some.mp hrun
    unfold rcvStep at hstep
    cases hfailed : s.failed with
    | none => rfl
    | some _ =>
      rw [hfailed] at hstep
      contradiction

/-- Characters other than a colon leave an idle receiver as it is. -/
theorem run_idle (hok : s.failed = none) (hidle : s.eSndState = .txIdle) (hrcv : s.eRcvState = .rxIdle)
    {text : List UInt8} (htext : colon ∉ text) : Transition.run rcvStep s (characters text) = some s := by
  induction text with
  | nil => rfl
  | cons c text ih =>
    rw [List.mem_cons, not_or] at htext
    refine Transition.run_cons_eq_some.mpr ⟨s, ?_, ih htext.2⟩
    rw [rcvStep_character hok, xMBASCIIReceiveFSM_idle hrcv hidle, if_neg (Ne.symm htext.1)]

/-- A receiver that has given up a frame is idle, and its timer runs. -/
theorem timer_of_givenUp (ucRTUBuf : Vector UInt8 mbSerPduSizeMax)
    (hrun : Transition.run rcvStep (start ucRTUBuf) history = some s) (h : GivenUp history) :
    s.eRcvState = .rxIdle ∧ s.timer = true := by
  obtain ⟨before, body, c, rest, rfl, htext, hroom, hline, hcolon, hrest⟩ := h
  obtain ⟨base, hbefore, hframe⟩ := Transition.run_append_iff.mp hrun
  have hfollows := run_follows ucRTUBuf hbefore
  have hok := failed_of_run hframe (by
    rw [characters, List.append_assoc, List.cons_append]
    exact List.cons_ne_nil _ _)
  obtain ⟨m, hclosed, hm⟩ := run_closed hok hfollows.idle htext hroom
  have hfailed : m.failed = none := by rw [hm.kept, hok]
  have hsnd : m.eSndState = .txIdle := by rw [hm.kept, hfollows.idle]
  have hgiven : rcvStep { m with eRcvState := .rxWaitEof, timer := true } (.character c) =
      some { m with eRcvState := .rxIdle, timer := true } := by
    rw [rcvStep_character (s := { m with eRcvState := .rxWaitEof, timer := true }) hfailed,
      xMBASCIIReceiveFSM_waitEof (s := { m with eRcvState := .rxWaitEof, timer := true }) rfl hsnd,
      if_neg hline, if_neg hcolon]
  have hlater := run_idle (s := { m with eRcvState := .rxIdle, timer := true }) hfailed hsnd rfl hrest
  have hall := Transition.run_append_eq_some hclosed (Transition.run_cons_eq_some.mpr ⟨_, hgiven, hlater⟩)
  rw [characters, List.map_append] at hframe
  obtain rfl := Option.some.inj (hall.symm.trans hframe)
  exact ⟨rfl, rfl⟩

/-- A data character reports nothing and fails no assertion. -/
theorem receiveData_kept (s : MbAscii) (c : UInt8) :
    (s.receiveData c).failed = s.failed ∧ (s.receiveData c).queue = s.queue := by
  unfold receiveData
  dsimp only
  split
  · split <;> exact ⟨rfl, rfl⟩
  · exact ⟨rfl, rfl⟩

/-- A character fails no assertion while nothing is sent, and only a line feed that is waited for reports a
frame. -/
theorem xMBASCIIReceiveFSM_kept (hidle : s.eSndState = .txIdle) (c : UInt8) :
    (s.xMBASCIIReceiveFSM c).failed = s.failed ∧
      (¬ (s.eRcvState = .rxWaitEof ∧ c = lineFeed) → (s.xMBASCIIReceiveFSM c).queue = s.queue) := by
  cases hrcv : s.eRcvState with
  | rxIdle =>
    rw [xMBASCIIReceiveFSM_idle hrcv hidle]
    split <;> exact ⟨rfl, fun _ => rfl⟩
  | rxRcv =>
    rw [xMBASCIIReceiveFSM, if_neg (not_not.mpr hidle), hrcv]
    dsimp only
    split_ifs
    · exact ⟨rfl, fun _ => rfl⟩
    · exact ⟨rfl, fun _ => rfl⟩
    · exact ⟨(receiveData_kept s c).1, fun _ => (receiveData_kept s c).2⟩
  | rxWaitEof =>
    rw [xMBASCIIReceiveFSM_waitEof hrcv hidle]
    by_cases hline : c = lineFeed
    · rw [if_pos hline]
      exact ⟨rfl, fun hnot => absurd ⟨rfl, hline⟩ hnot⟩
    · rw [if_neg hline]
      split <;> exact ⟨rfl, fun _ => rfl⟩

/-- The frame of some data characters has just ended. -/
structure EndsFrame (body : List UInt8) (history : List RcvEvent) : Prop where
  last : ∃ before, history = before ++ characters (frameText body)
  isText : IsText body
  room : body.length ≤ 2 * mbSerPduSizeMax

/-- Before the last character of a frame the receiver waits for it. -/
theorem EndsFrame.waits {body : List UInt8} {e : RcvEvent} (h : EndsFrame body (history ++ [e]))
    (ucRTUBuf : Vector UInt8 mbSerPduSizeMax)
    (hrun : Transition.run rcvStep (start ucRTUBuf) history = some s) :
    e = .character lineFeed ∧ s.eRcvState = .rxWaitEof ∧ s.Holds body := by
  obtain ⟨before, hlast⟩ := h.last
  have hsplit : frameText body = colon :: body ++ [carriageReturn] ++ [lineFeed] := by
    rw [frameText, List.append_assoc]
    rfl
  rw [hsplit, ← append_characters] at hlast
  obtain ⟨rfl, hend⟩ := List.append_inj' hlast rfl
  obtain ⟨base, hbefore, hframe⟩ := Transition.run_append_iff.mp hrun
  have hok := failed_of_run hframe (List.cons_ne_nil _ _)
  obtain ⟨m, hclosed, hm⟩ := run_closed hok (run_follows ucRTUBuf hbefore).idle h.isText h.room
  obtain rfl := Option.some.inj (hclosed.symm.trans hframe)
  exact ⟨List.singleton_inj.mp hend, rfl, hm.held.congr rfl rfl rfl⟩

end Steps

/-- In every run of the receiver a step reports a frame exactly when it ends one: a colon, at most 512 data
characters, a carriage return and a line feed. The buffer then holds the bytes of the data characters, no
write was outside it, and the assertion of `eMBASCIIReceive` fails exactly for a frame of 512 characters. -/
theorem run_reports_iff (ucRTUBuf : Vector UInt8 mbSerPduSizeMax) (history : List RcvEvent) (s t : MbAscii)
    (e : RcvEvent) (hrun : Transition.run rcvStep (start ucRTUBuf) history = some s)
    (hstep : rcvStep s e = some t) :
    (t.queue ≠ s.queue ↔ ∃ body, EndsFrame body (history ++ [e])) ∧ t.ucRTUBuf.overrun = false ∧
      ∀ body, EndsFrame body (history ++ [e]) →
        t.queue = s.queue ++ [.frameReceived] ∧ t.usRcvBufferPos = body.length / 2 ∧
          t.ucRTUBuf.contents t.usRcvBufferPos = hexBytes body ∧
            (t.Receivable ↔ body.length < 2 * mbSerPduSizeMax) := by
  have hfollows := run_follows ucRTUBuf hrun
  have hok : s.failed = none := failed_of_run (Transition.run_singleton hstep) (List.cons_ne_nil _ _)
  have hends (body : List UInt8) (hbody : EndsFrame body (history ++ [e])) :
      t = { s with eRcvState := .rxIdle, timer := false }.xMBPortEventPost .frameReceived ∧ s.Holds body := by
    obtain ⟨rfl, hrcv, hheld⟩ := hbody.waits ucRTUBuf hrun
    rw [rcvStep_character hok, xMBASCIIReceiveFSM_waitEof hrcv hfollows.idle, if_pos rfl] at hstep
    exact ⟨(Option.some.inj hstep).symm, hheld⟩
  refine ⟨⟨fun hqueue => ?_, ?_⟩, (hfollows.step hstep).intact, ?_⟩
  · cases e with
    | expiry =>
      unfold rcvStep at hstep
      rw [hok] at hstep
      obtain ⟨-, rfl⟩ := Transition.enabled_of_ite hstep
      rw [xMBASCIITimerT1SExpired] at hqueue
      split at hqueue <;> exact absurd rfl hqueue
    | character c =>
      rw [rcvStep_character hok] at hstep
      rw [← Option.some.inj hstep] at hqueue
      obtain ⟨hrcv, rfl⟩ := not_imp_comm.mp (xMBASCIIReceiveFSM_kept hfollows.idle c).2 hqueue
      cases hfollows.phase hok with
      | idle hidle => exact absurd (hidle.symm.trans hrcv) (by decide)
      | givenUp hidle => exact absurd (hidle.symm.trans hrcv) (by decide)
      | receiving _ _ hreceiving => exact absurd (hreceiving.symm.trans hrcv) (by decide)
      | ending before body _ _ hheld htext hhistory =>
        refine ⟨body, ⟨before, ?_⟩, htext, hheld.length_le⟩
        rw [hhistory, append_characters, frameText, List.append_assoc]
        rfl
  · rintro ⟨body, hbody⟩
    rw [(hends body hbody).1, xMBPortEventPost]
    simp
  · intro body hbody
    obtain ⟨rfl, hheld⟩ := hends body hbody
    obtain ⟨hpos, hcontents⟩ := hheld.contents
    refine ⟨rfl, hpos, hcontents, ?_⟩
    have hreceivable : s.usRcvBufferPos < mbSerPduSizeMax ↔ body.length < 2 * mbSerPduSizeMax := by omega
    exact hreceivable

/-- The text of a request to the slave 1 to report itself, before its line feed. -/
def reportText : List UInt8 := [58, 48, 49, 49, 49, 69, 69, 13]

/-- The line feed behind the request. -/
theorem run_reports_iff_report :
    ∃ s t, Transition.run rcvStep (start (.replicate _ 0)) (characters reportText) = some s ∧
      rcvStep s (.character lineFeed) = some t ∧ t.ucRTUBuf.overrun = false := by
  have hsome : ((Transition.run rcvStep (start (.replicate _ 0)) (characters reportText)).bind fun s =>
      rcvStep s (.character lineFeed)).isSome = true := by
    decide +kernel
  obtain ⟨t, ht⟩ := Option.isSome_iff_exists.mp hsome
  obtain ⟨s, hs, hstep⟩ := Option.bind_eq_some_iff.mp ht
  exact ⟨s, t, hs, hstep, (run_reports_iff _ _ s t _ hs hstep).2.1⟩

/-- A run of the receiver fails an assertion exactly when the timer expires behind a frame that was given up:
one whose carriage return was followed by neither a line feed nor a colon, with no colon since. -/
theorem run_failed_iff (ucRTUBuf : Vector UInt8 mbSerPduSizeMax) (events : List RcvEvent) (s : MbAscii)
    (hrun : Transition.run rcvStep (start ucRTUBuf) events = some s) :
    s.failed ≠ none ↔ ∃ history, events = history ++ [.expiry] ∧ GivenUp history := by
  rcases List.eq_nil_or_concat events with rfl | ⟨history, e, rfl⟩
  · obtain rfl := Option.some.inj hrun
    exact iff_of_false (fun h => h rfl) fun ⟨history, hnil, _⟩ => absurd hnil.symm (by simp)
  rw [List.concat_eq_append] at hrun ⊢
  obtain ⟨m, hm, hlast⟩ := Transition.run_append_iff.mp hrun
  have hfollows := run_follows ucRTUBuf hm
  have hok : m.failed = none := failed_of_run hlast (List.cons_ne_nil _ _)
  obtain ⟨s', hstep, hnil⟩ := Transition.run_cons_eq_some.mp hlast
  obtain rfl := Option.some.inj hnil
  cases e with
  | character c =>
    rw [rcvStep_character hok] at hstep
    rw [← Option.some.inj hstep, (xMBASCIIReceiveFSM_kept hfollows.idle c).1, hok]
    refine iff_of_false (fun h => h rfl) ?_
    rintro ⟨history', hlast, -⟩
    exact absurd (List.append_inj' hlast rfl).2 (by simp)
  | expiry =>
    unfold rcvStep at hstep
    rw [hok] at hstep
    obtain ⟨htimer, rfl⟩ := Transition.enabled_of_ite hstep
    constructor
    · intro hfailed
      refine ⟨history, rfl, ?_⟩
      cases hfollows.phase hok with
      | idle _ hoff => exact absurd (hoff.symm.trans htimer) (by decide)
      | givenUp _ _ hhistory => exact hhistory
      | receiving _ _ hrcv =>
        rw [xMBASCIITimerT1SExpired, hrcv] at hfailed
        exact absurd hok hfailed
      | ending _ _ hrcv =>
        rw [xMBASCIITimerT1SExpired, hrcv] at hfailed
        exact absurd hok hfailed
    · rintro ⟨history', hlast, hgiven⟩
      obtain rfl := (List.append_inj' hlast rfl).1
      rw [xMBASCIITimerT1SExpired, if_pos (timer_of_givenUp ucRTUBuf hm hgiven).1]
      exact Option.some_ne_none _

/-- A frame with another character behind its carriage return ends the program when the timer expires. -/
theorem run_failed_iff_givenUp :
    ∃ s, Transition.run rcvStep (start (.replicate _ 0)) (characters (reportText ++ [65]) ++ [.expiry]) =
        some s ∧
      s.failed ≠ none := by
  have hsome : (Transition.run rcvStep (start (.replicate _ 0))
      (characters (reportText ++ [65]) ++ [.expiry])).isSome = true := by
    decide +kernel
  obtain ⟨s, hs⟩ := Option.isSome_iff_exists.mp hsome
  exact ⟨s, hs, (run_failed_iff _ _ s hs).mpr ⟨_, rfl, [], [48, 49, 49, 49, 69, 69], 65, [], rfl,
    by decide, by decide, by decide, by decide, List.not_mem_nil⟩⟩

end RemoteManage.Modbus.MbAscii
