import Mathlib.Data.List.Chain
import RemoteManage.Foundation.Mealy
import RemoteManage.LoggerTool.LogProcess

/-!
# The login gate

Over a history of messages a client is logged in exactly when there is a message with the
right password such that since then no logout has been carried out and no two messages in
a row have been further apart than the timeout (`isLogin_iff`). Commands are forwarded and
the help is shown only then, and always then (`sendMessages_gate`).
-/

namespace RemoteManage.LoggerTool

open RemoteManage.Foundation

/-- A message from a client and the time at which it is handled. -/
structure Message where
  now : UInt32
  data : List UInt8

/-- `send_buffer` as a machine that answers every message with what it has done. -/
def sendMessage (config : LoggerPrivilege) (s : LogProcess) (m : Message) : LogProcess × Effect :=
  ((sendBuffer config m.now s m.data).1, (sendBuffer config m.now s m.data).2.1)

/-- The login state after a history of messages. -/
def afterMessages (config : LoggerPrivilege) (history : List Message) : LogProcess :=
  Mealy.after (sendMessage config) .init history

/-- What has been done with messages that follow a history. -/
def effects (config : LoggerPrivilege) (history messages : List Message) : List Effect :=
  Mealy.outputs (sendMessage config) (afterMessages config history) messages

/-- The message that logs in: the command and the password, and nothing else. -/
def IsLoginMessage (config : LoggerPrivilege) (m : Message) : Prop :=
  m.data = CString.bytes "!passwd " ++ config.passwd

/-- Two messages in a row that are not further apart than the timeout, as the code measures it. -/
def Within (first second : Message) : Prop := second.now - first.now ≤ loginTimeout

/-- The login is still valid when a message arrives. -/
def StillLogin (s : LogProcess) (now : UInt32) : Prop :=
  s.isLogin = true ∧ now - s.lastLoginTimers ≤ loginTimeout

section Step

variable {config : LoggerPrivilege} {s : LogProcess} {now : UInt32} {ptr : List UInt8}

/-- A message that begins with the password command is dispatched to the password check. -/
theorem findCommand_passwd (h : CString.bytes "!passwd " <+: ptr) : findCommand ptr = (.passwd, 8) := by
  have hcommand : (CString.bytes "!passwd ", CmdDevice.passwd) ∈ commandMap := by decide
  exact findCommand_eq hcommand h

/-- Only a message that begins with the password command is. -/
theorem passwd_of_findCommand (h : (findCommand ptr).1 = .passwd) :
    CString.bytes "!passwd " <+: ptr := by
  have honly : ∀ command ∈ commandMap, command.2 = .passwd → command.1 = CString.bytes "!passwd " := by
    decide
  obtain ⟨command, hcommand, hprefix, hfind⟩ :=
    exists_of_findCommand ptr (by rw [h]; exact CmdDevice.noConfusion)
  rw [hfind] at h
  rwa [honly command hcommand h] at hprefix

/-- `login` lets a message pass while the login is valid. -/
theorem login_of_still (hconfig : config.allowNoPasswd = false) (h : StillLogin s now) :
    login config now s ptr = (⟨true, now⟩, true) := by
  obtain ⟨hlogin, hnow⟩ := h
  simp [login, hconfig, hlogin, UInt32.not_lt.mpr hnow]

/-- Otherwise `login` logs out, and lets only the password command pass. -/
theorem login_of_not_still (hconfig : config.allowNoPasswd = false) (h : ¬ StillLogin s now)
    (ptr : List UInt8) :
    (login config now s ptr).1 = ⟨false, now⟩ ∧
      ((login config now s ptr).2 = true ↔ CString.bytes "!passwd " <+: ptr) := by
  have hpasswd := CString.strncmpEq_iff_prefix (CString.bytes "!passwd ") ptr (by decide)
  change CString.strncmpEq 8 _ _ = true ↔ _ at hpasswd
  rw [← hpasswd]
  by_cases hlogin : s.isLogin = true
  · have hlate : loginTimeout < now - s.lastLoginTimers := by
      by_contra hnow
      exact h ⟨hlogin, UInt32.not_lt.mp hnow⟩
    by_cases hcommand : CString.strncmpEq 8 (CString.bytes "!passwd ") ptr = true <;>
      simp [login, hconfig, hlogin, hlate, hcommand]
  · by_cases hcommand : CString.strncmpEq 8 (CString.bytes "!passwd ") ptr = true <;>
      simp [login, hconfig, hlogin, hcommand]

/-- The password check succeeds exactly on the login message. -/
theorem dispatch_passwd (h : CString.bytes "!passwd " <+: ptr) :
    dispatch config s ptr =
      if ptr = CString.bytes "!passwd " ++ config.passwd then (⟨true, s.lastLoginTimers⟩, .login)
      else (s, .passwdError) := by
  obtain ⟨given, rfl⟩ := h
  have hlen : (CString.bytes "!passwd ").length = 8 := by decide
  have hdrop : (CString.bytes "!passwd " ++ given).drop 8 = given := by
    rw [← hlen, List.drop_left]
  have hcheck : (given.length = config.passwd.length ∧ given = config.passwd) ↔
      CString.bytes "!passwd " ++ given = CString.bytes "!passwd " ++ config.passwd := by
    rw [List.append_cancel_left_eq]
    exact ⟨And.right, fun h => ⟨congrArg List.length h, h⟩⟩
  unfold dispatch
  rw [findCommand_passwd (List.prefix_append _ _)]
  dsimp only
  rw [hdrop, List.length_append, hlen, if_pos (Nat.le_add_right _ _), Nat.add_sub_cancel_left]
  simp only [hcheck]

/-- Dispatching a message leaves the client logged in if it logs in, or if it was logged in and has
not been logged out by the message. -/
theorem dispatch_isLogin (config : LoggerPrivilege) (s : LogProcess) (ptr : List UInt8) :
    (dispatch config s ptr).1.lastLoginTimers = s.lastLoginTimers ∧
      ((dispatch config s ptr).1.isLogin = true ↔
        ptr = CString.bytes "!passwd " ++ config.passwd ∨
          s.isLogin = true ∧ (dispatch config s ptr).2 ≠ .logout) := by
  by_cases hpasswd : CString.bytes "!passwd " <+: ptr
  · rw [dispatch_passwd hpasswd]
    by_cases hlogin : ptr = CString.bytes "!passwd " ++ config.passwd
    · simp [hlogin]
    · simp [hlogin]
  · have hlogin : ptr ≠ CString.bytes "!passwd " ++ config.passwd := by
      rintro rfl
      exact hpasswd (List.prefix_append _ _)
    unfold dispatch
    dsimp only
    split
    · split
      case h_6 hcmd => exact absurd (passwd_of_findCommand hcmd) hpasswd
      all_goals simp [hlogin]
    · simp [hlogin]

/-- A command for a FIFO is forwarded there with the bytes behind it. -/
theorem dispatch_write (fifo : CommandFifo) (data : List UInt8) :
    dispatch config s (fifo.command.1 ++ data) = (s, .write fifo data) := by
  have hcommand : fifo.command ∈ commandMap := by cases fifo <;> decide
  unfold dispatch
  rw [findCommand_eq hcommand (List.prefix_append _ _), List.length_append]
  dsimp only
  rw [if_pos (Nat.le_add_right _ _), List.drop_left]
  cases fifo <;> rfl

end Step

section Message

variable {config : LoggerPrivilege} {s : LogProcess} {m : Message}

/-- While the login is valid, a message is dispatched. -/
theorem sendMessage_of_still (hconfig : config.allowNoPasswd = false) (h : StillLogin s m.now) :
    sendMessage config s m = dispatch config ⟨true, m.now⟩ m.data := by
  simp [sendMessage, sendBuffer, login_of_still hconfig h]

/-- Otherwise only the password command is. -/
theorem sendMessage_of_not_still (hconfig : config.allowNoPasswd = false) (h : ¬ StillLogin s m.now) :
    sendMessage config s m =
      if CString.bytes "!passwd " <+: m.data then dispatch config ⟨false, m.now⟩ m.data
      else (⟨false, m.now⟩, .notLogin) := by
  obtain ⟨hstate, hpass⟩ := login_of_not_still hconfig h m.data
  by_cases hprefix : CString.bytes "!passwd " <+: m.data
  · rw [if_pos hprefix]
    simp [sendMessage, sendBuffer, hstate, hpass.mpr hprefix]
  · rw [if_neg hprefix]
    have hret : (login config m.now s m.data).2 = false := by
      rw [← Bool.not_eq_true]
      exact fun hret => hprefix (hpass.mp hret)
    simp [sendMessage, sendBuffer, hstate, hret]

/-- After a message its time is recorded, and the client is logged in if the message logs in, or if
the login was valid and the message has not logged out. -/
theorem sendMessage_isLogin (hconfig : config.allowNoPasswd = false) :
    (sendMessage config s m).1.lastLoginTimers = m.now ∧
      ((sendMessage config s m).1.isLogin = true ↔
        IsLoginMessage config m ∨ StillLogin s m.now ∧ (sendMessage config s m).2 ≠ .logout) := by
  by_cases hstill : StillLogin s m.now
  · rw [sendMessage_of_still hconfig hstill]
    obtain ⟨htime, hlogin⟩ := dispatch_isLogin config ⟨true, m.now⟩ m.data
    refine ⟨htime, hlogin.trans ?_⟩
    simp [IsLoginMessage, hstill]
  · rw [sendMessage_of_not_still hconfig hstill]
    by_cases hprefix : CString.bytes "!passwd " <+: m.data
    · rw [if_pos hprefix]
      obtain ⟨htime, hlogin⟩ := dispatch_isLogin config ⟨false, m.now⟩ m.data
      refine ⟨htime, hlogin.trans ?_⟩
      simp [IsLoginMessage, hstill]
    · rw [if_neg hprefix]
      refine ⟨rfl, ?_⟩
      have hlogin : ¬ IsLoginMessage config m := by
        intro hlogin
        exact hprefix (hlogin ▸ List.prefix_append _ _)
      simp [hlogin, hstill]

/-- The effects that only a client who is logged in may cause. -/
def Effect.Gated : Effect → Prop
  | .write _ _ => True
  | .help _ => True
  | _ => False

/-- Commands are forwarded and the help is shown only while the login is valid. -/
theorem sendMessage_gated (hconfig : config.allowNoPasswd = false)
    (h : (sendMessage config s m).2.Gated) : StillLogin s m.now := by
  by_contra hstill
  rw [sendMessage_of_not_still hconfig hstill] at h
  by_cases hprefix : CString.bytes "!passwd " <+: m.data
  · rw [if_pos hprefix, dispatch_passwd hprefix] at h
    split at h <;> exact h
  · rw [if_neg hprefix] at h
    exact h

/-- While the login is valid, a command is forwarded with the bytes behind it. -/
theorem sendMessage_write (hconfig : config.allowNoPasswd = false) (h : StillLogin s m.now)
    {fifo : CommandFifo} {data : List UInt8} (hm : m.data = fifo.command.1 ++ data) :
    (sendMessage config s m).2 = .write fifo data := by
  rw [sendMessage_of_still hconfig h, hm, dispatch_write]

end Message

section History

variable {config : LoggerPrivilege}

/-- The login state after one more message. -/
theorem afterMessages_append (history : List Message) (m : Message) :
    afterMessages config (history ++ [m]) = (sendMessage config (afterMessages config history) m).1 :=
  Mealy.after_append _ _ _ _

/-- The recorded time is that of the last message. -/
theorem afterMessages_time (hconfig : config.allowNoPasswd = false) (history : List Message) :
    ∀ last ∈ history.getLast?, (afterMessages config history).lastLoginTimers = last.now := by
  intro last hlast
  obtain ⟨before, rfl⟩ := List.getLast?_eq_some_iff.mp hlast
  rw [afterMessages_append]
  exact (sendMessage_isLogin hconfig).1

/-- A message has logged in, no logout has been carried out since then, and neither the messages
since then nor those that follow are further apart than the timeout. -/
def LoggedIn (config : LoggerPrivilege) (history following : List Message) : Prop :=
  ∃ before login since, history = before ++ login :: since ∧ IsLoginMessage config login ∧
    (∀ e ∈ effects config (before ++ [login]) since, e ≠ .logout) ∧
    (login :: since ++ following).IsChain Within

/-- The login is valid for a message exactly when the history shows the client logged in. -/
theorem stillLogin_iff (hconfig : config.allowNoPasswd = false) {history : List Message}
    (h : (afterMessages config history).isLogin = true ↔ LoggedIn config history []) (m : Message) :
    StillLogin (afterMessages config history) m.now ↔ LoggedIn config history [m] := by
  have htime := afterMessages_time hconfig history
  constructor
  · rintro ⟨hlogin, hnow⟩
    obtain ⟨before, login, since, rfl, hmessage, hlogout, hchain⟩ := h.mp hlogin
    refine ⟨before, login, since, rfl, hmessage, hlogout, ?_⟩
    rw [List.append_nil] at hchain
    rw [List.isChain_append]
    refine ⟨hchain, .singleton m, ?_⟩
    intro last hlast next hnext
    obtain rfl := Option.some.inj hnext
    rw [List.getLast?_append_of_ne_nil _ (List.cons_ne_nil _ _)] at htime
    rw [htime last hlast] at hnow
    exact hnow
  · rintro ⟨before, login, since, rfl, hmessage, hlogout, hchain⟩
    rw [List.isChain_append] at hchain
    obtain ⟨hsince, -, hlast⟩ := hchain
    refine ⟨h.mpr ⟨before, login, since, rfl, hmessage, hlogout, by rwa [List.append_nil]⟩, ?_⟩
    obtain ⟨last, hget⟩ : ∃ last, (login :: since).getLast? = some last :=
      Option.isSome_iff_exists.mp (by simp)
    rw [List.getLast?_append_of_ne_nil _ (List.cons_ne_nil _ _)] at htime
    rw [htime last hget]
    exact hlast last hget m rfl

/-- The effects of messages up to one more. -/
theorem effects_append (before : List Message) (login : Message) (since : List Message) (m : Message) :
    effects config (before ++ [login]) (since ++ [m]) =
      effects config (before ++ [login]) since ++
        [(sendMessage config (afterMessages config (before ++ login :: since)) m).2] := by
  have hstate : Mealy.after (sendMessage config) (afterMessages config (before ++ [login])) since =
      afterMessages config (before ++ login :: since) := by
    rw [afterMessages, ← Mealy.after_append, List.append_assoc, List.singleton_append]
    rfl
  rw [effects, Mealy.outputs_append, hstate]
  rfl

/-- The state says that the client is logged in exactly when the history does. -/
theorem isLogin_iff (hconfig : config.allowNoPasswd = false) (history : List Message) :
    (afterMessages config history).isLogin = true ↔ LoggedIn config history [] := by
  induction history using List.reverseRecOn with
  | nil =>
    constructor
    · intro h
      contradiction
    · rintro ⟨before, login, since, hsplit, -⟩
      exact absurd hsplit (by simp)
  | append_singleton history m ih =>
    rw [afterMessages_append, (sendMessage_isLogin hconfig).2, stillLogin_iff hconfig ih]
    constructor
    · rintro (hlogin | ⟨⟨before, login, since, rfl, hmessage, hlogout, hchain⟩, heffect⟩)
      · exact ⟨history, m, [], rfl, hlogin, fun e he => absurd he List.not_mem_nil, .singleton m⟩
      · refine ⟨before, login, since ++ [m], by rw [List.append_assoc, List.cons_append], hmessage, ?_, ?_⟩
        · rw [effects_append]
          intro e he
          rcases List.mem_append.mp he with he | he
          · exact hlogout e he
          · exact List.mem_singleton.mp he ▸ heffect
        · rw [List.append_nil]
          exact hchain
    · rintro ⟨before, login, since, hsplit, hmessage, hlogout, hchain⟩
      rcases List.eq_nil_or_concat' since with rfl | ⟨since, last, rfl⟩
      · obtain ⟨-, hlast⟩ := List.append_inj' hsplit rfl
        obtain rfl := (List.cons.inj hlast).1
        exact .inl hmessage
      · rw [← List.cons_append, ← List.append_assoc] at hsplit
        obtain ⟨rfl, hlast⟩ := List.append_inj' hsplit rfl
        obtain rfl := (List.cons.inj hlast).1
        rw [effects_append] at hlogout
        rw [List.append_nil] at hchain
        refine .inr ⟨⟨before, login, since, rfl, hmessage, ?_, hchain⟩, ?_⟩
        · intro e he
          exact hlogout e (List.mem_append_left _ he)
        · exact hlogout _ (List.mem_append_right _ (List.mem_singleton.mpr rfl))

end History

/-- With passwords required, a message makes a command be forwarded or the help be shown only when an
earlier message is exactly the login command with the password, no logout has been carried out
between the two, and from that message on up to this one no two messages in a row are further
apart than the timeout. And whenever that is so, a command is forwarded with exactly the bytes
behind its prefix. -/
theorem sendMessages_gate (config : LoggerPrivilege) (hconfig : config.allowNoPasswd = false)
    (history : List Message) (m : Message) :
    ((sendMessage config (afterMessages config history) m).2.Gated → LoggedIn config history [m]) ∧
    (LoggedIn config history [m] → ∀ fifo data, m.data = fifo.command.1 ++ data →
      (sendMessage config (afterMessages config history) m).2 = .write fifo data) := by
  have hstill := stillLogin_iff hconfig (isLogin_iff hconfig history) m
  constructor
  · intro hgated
    exact hstill.mp (sendMessage_gated hconfig hgated)
  · intro hlogged fifo data hm
    exact sendMessage_write hconfig (hstill.mpr hlogged) hm

/-- A command one minute after the login is forwarded. -/
theorem sendMessages_gate_command :
    (sendMessage ⟨CString.bytes "root", false⟩
      (afterMessages ⟨CString.bytes "root", false⟩ [⟨7, CString.bytes "!passwd root"⟩])
      ⟨67, CString.bytes "!main_proc ls"⟩).2 = .write .mainProcess (CString.bytes "ls") := by
  refine (sendMessages_gate ⟨CString.bytes "root", false⟩ rfl [⟨7, CString.bytes "!passwd root"⟩]
    ⟨67, CString.bytes "!main_proc ls"⟩).2 ?_ .mainProcess (CString.bytes "ls") (by decide)
  refine ⟨[], ⟨7, CString.bytes "!passwd root"⟩, [], rfl, ?_, fun e he => absurd he List.not_mem_nil, ?_⟩
  · change CString.bytes "!passwd root" = CString.bytes "!passwd " ++ CString.bytes "root"
    decide
  · refine .cons_cons ?_ (.singleton _)
    change (67 : UInt32) - 7 ≤ loginTimeout
    decide

end RemoteManage.LoggerTool
