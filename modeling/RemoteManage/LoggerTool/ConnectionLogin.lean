import RemoteManage.Common.SingleSession
import RemoteManage.LoggerTool.LoginGate

/-!
# The login across connections

`logger_rx_server_run` hands what any session of its server reads to the one `log_process`, without the
session it comes from. So a login is not that of a connection: it stays in force when another client
connects, until a logout or the timeout, and while none is in force what has happened before
does not matter any more. The connections are numbered as they are accepted. A read that fills the buffer of
its session ends the server before it is handed on.
-/

namespace RemoteManage.LoggerTool

open RemoteManage.Foundation RemoteManage.Common

/-- What the handler of the server acts on, with what it has been handed and has done. -/
structure LoggerHost where
  process : LogProcess
  log : List (Message × Effect)

/-- The handler of `logger_rx_server_run`; the messages come at the given times. -/
def rxHandler (config : LoggerPrivilege) (times : ℕ → UInt32) (host : LoggerHost) (ptr : List UInt8) :
    LoggerHost :=
  let m : Message := ⟨times host.log.length, ptr⟩
  let answer := sendMessage config host.process m
  ⟨answer.1, host.log ++ [(m, answer.2)]⟩

/-- A message with the connection it has come from and what has been done with it. -/
structure Handled where
  connection : ℕ
  message : Message
  effect : Effect

/-- The server, with the number of connections so far, the one whose session is at an address, and those
that the messages have come from. -/
structure LoggerServer (σ : Type*) where
  server : AsioServer σ LoggerHost
  connections : ℕ
  connectionAt : σ → ℕ
  sources : List ℕ

namespace LoggerServer

variable {σ : Type*} [LinearOrder σ]

/-- The server after `init`. -/
def init : LoggerServer σ := ⟨.init ⟨.init, []⟩, 0, fun _ => 0, []⟩

/-- One event of the server; a read that is handed on is a message of its connection. -/
def step (config : LoggerPrivilege) (times : ℕ → UInt32) (s : LoggerServer σ) (e : AsioEvent σ) :
    Option (LoggerServer σ) :=
  (s.server.step (rxHandler config times) e).map fun server =>
    match e with
    | .accepted p => ⟨server, s.connections + 1, Function.update s.connectionAt p s.connections, s.sources⟩
    | .readDone p ptr =>
      if ptr.length < maxLength then { s with server := server, sources := s.sources ++ [s.connectionAt p] }
      else { s with server := server }
    | _ => { s with server := server }

/-- The messages that have been handled, in order. -/
def handled (s : LoggerServer σ) : List Handled :=
  (s.sources.zip s.server.host.log).map fun (connection, m, effect) => ⟨connection, m, effect⟩

end LoggerServer

/-- A login is in force for a message that follows others: it has been made by one of them, no later one has
logged out, and no two in a row are further apart than the timeout. -/
def InForce (config : LoggerPrivilege) (before : List Handled) (m : Message) (login : Handled) : Prop :=
  ∃ earlier since, before = earlier ++ login :: since ∧ IsLoginMessage config login.message ∧
    (∀ x ∈ since, x.effect ≠ .logout) ∧ ((login :: since).map Handled.message ++ [m]).IsChain Within

/-- Each message has been answered in the state that those before it have left. -/
def Answered (config : LoggerPrivilege) (handled : List Handled) : Prop :=
  handled.map Handled.effect = effects config [] (handled.map Handled.message)

section Answered

variable {config : LoggerPrivilege} {before after : List Handled}

/-- The messages behind the first ones are answered in the state that those have left. -/
theorem answered_append (h : Answered config (before ++ after)) :
    Answered config before ∧ after.map Handled.effect =
      effects config (before.map Handled.message) (after.map Handled.message) := by
  rw [Answered, List.map_append, List.map_append, effects, Mealy.outputs_append] at h
  exact List.append_inj h (by rw [List.length_map, effects, Mealy.outputs_length, List.length_map])

/-- The history shows a login exactly when one is in force. -/
theorem loggedIn_iff_inForce (h : Answered config before) (m : Message) :
    LoggedIn config (before.map Handled.message) [m] ↔ ∃ login, InForce config before m login := by
  constructor
  · rintro ⟨earlier, login, since, hsplit, hlogin, hlogout, hchain⟩
    obtain ⟨first, rest, rfl, rfl, hrest⟩ := List.map_eq_append_iff.mp hsplit
    obtain ⟨entry, others, rfl, rfl, rfl⟩ := List.map_eq_cons_iff.mp hrest
    refine ⟨entry, first, others, rfl, hlogin, fun x hx => hlogout x.effect ?_, hchain⟩
    rw [← List.singleton_append, ← List.append_assoc] at h
    have hafter := (answered_append h).2
    rw [List.map_append] at hafter
    exact hafter ▸ List.mem_map_of_mem hx
  · rintro ⟨login, earlier, since, rfl, hlogin, hlogout, hchain⟩
    refine ⟨earlier.map Handled.message, login.message, since.map Handled.message, by simp, hlogin, ?_,
      hchain⟩
    rw [← List.singleton_append, ← List.append_assoc] at h
    have hafter := (answered_append h).2
    rw [List.map_append, List.map_singleton] at hafter
    rw [← hafter]
    exact List.forall_mem_map.mpr hlogout

/-- While no login is in force, what has happened before does not matter. -/
theorem effects_of_not_loggedIn (hconfig : config.allowNoPasswd = false) (history messages : List Message)
    {m : Message} (h : ¬ LoggedIn config history [m]) :
    effects config history (m :: messages) = effects config [] (m :: messages) := by
  have hstill : ¬ StillLogin (afterMessages config history) m.now := fun hstill =>
    h ((stillLogin_iff hconfig (isLogin_iff hconfig history) m).mp hstill)
  have hinit : ¬ StillLogin (afterMessages config []) m.now := fun hstill => nomatch hstill.1
  have hsame : sendMessage config (afterMessages config history) m =
      sendMessage config (afterMessages config []) m := by
    rw [sendMessage_of_not_still hconfig hstill, sendMessage_of_not_still hconfig hinit]
  rw [effects, effects, Mealy.outputs, Mealy.outputs, hsame]

end Answered

namespace LoggerServer

variable {σ : Type*} {config : LoggerPrivilege} {times : ℕ → UInt32}

/-- The log is that of the messages that have been handed over, each with its connection. -/
structure Records (config : LoggerPrivilege) (s : LoggerServer σ) : Prop where
  sources : s.sources.length = s.server.host.log.length
  process : s.server.host.process = afterMessages config (s.server.host.log.map Prod.fst)
  effects : s.server.host.log.map Prod.snd = effects config [] (s.server.host.log.map Prod.fst)

/-- One more message that has been handed over. -/
theorem Records.handed {s t : LoggerServer σ} (h : Records config s) {ptr : List UInt8} {source : ℕ}
    (hsources : t.sources = s.sources ++ [source])
    (hhost : t.server.host = rxHandler config times s.server.host ptr) : Records config t where
  sources := by
    rw [hsources, hhost, rxHandler, List.length_append, List.length_append, h.sources]
    rfl
  process := by
    rw [hhost, rxHandler, List.map_append, List.map_singleton, afterMessages_append, ← h.process]
  effects := by
    have hprocess := h.process
    rw [afterMessages] at hprocess
    rw [hhost, rxHandler, List.map_append, List.map_append, List.map_singleton, List.map_singleton,
      LoggerTool.effects, Mealy.outputs_append, h.effects, afterMessages, Mealy.after_nil, ← hprocess]
    rfl

variable [LinearOrder σ]

/-- Every event keeps this. -/
theorem step_records {s t : LoggerServer σ} {e : AsioEvent σ} (h : Records config s)
    (hstep : step config times s e = some t) : Records config t := by
  obtain ⟨server, hserver, rfl⟩ := Option.map_eq_some_iff.mp hstep
  have hhost := AsioServer.step_host hserver
  cases e with
  | readDone p ptr =>
    dsimp only
    by_cases hroom : ptr.length < maxLength
    · rw [if_pos hroom]
      exact h.handed rfl (hhost.trans (if_pos hroom))
    · have hkept := hhost.trans (if_neg hroom)
      rw [if_neg hroom]
      exact ⟨hkept ▸ h.sources, hkept ▸ h.process, hkept ▸ h.effects⟩
  | _ => exact ⟨hhost ▸ h.sources, hhost ▸ h.process, hhost ▸ h.effects⟩

/-- After any events the messages are answered one after the other. -/
theorem run_answered {events : List (AsioEvent σ)} {s : LoggerServer σ}
    (hrun : Transition.run (step config times) init events = some s) : Answered config s.handled := by
  have hinit : Records config (init : LoggerServer σ) := ⟨rfl, rfl, rfl⟩
  obtain ⟨hsources, -, heffects⟩ :=
    Transition.run_invariant (Records config) (fun _ _ _ hs hstep => step_records hs hstep) hrun hinit
  have hlog := List.map_snd_zip (Nat.le_of_eq hsources.symm)
  have hmessage : s.handled.map Handled.message = s.server.host.log.map Prod.fst := by
    rw [← hlog, handled, List.map_map, List.map_map]
    rfl
  have heffect : s.handled.map Handled.effect = s.server.host.log.map Prod.snd := by
    rw [← hlog, handled, List.map_map, List.map_map]
    rfl
  rw [Answered, hmessage, heffect, heffects]

/-- A login is that of a connection: whoever has not logged in on a connection is refused there. -/
def PerConnection (config : LoggerPrivilege) (handled : List Handled) : Prop :=
  ∀ before x after, handled = before ++ x :: after →
    (∀ y ∈ before, y.connection = x.connection → ¬ IsLoginMessage config y.message) → ¬ x.effect.Gated

/-- The password of an example. -/
def rootPrivilege : LoggerPrivilege := ⟨CString.bytes "root", false⟩

/-- A client logs in, and another one connects and sends a command. -/
def twoClients : List (AsioEvent ℕ) :=
  [.accepted 1, .readDone 1 (CString.bytes "!passwd root"), .accepted 2,
    .readDone 2 (CString.bytes "!main_proc ls")]

/-- What the first of two clients has sent. -/
def firstHandled : Handled := ⟨0, ⟨0, CString.bytes "!passwd root"⟩, .login⟩

/-- What the second of two clients has sent. -/
def secondHandled : Handled :=
  ⟨1, ⟨0, CString.bytes "!main_proc ls"⟩, .write .mainProcess (CString.bytes "ls")⟩

/-- The command of the second client is forwarded. -/
theorem run_twoClients : ∃ s, Transition.run (step rootPrivilege fun _ => 0) init twoClients = some s ∧
    s.handled = [firstHandled, secondHandled] := by
  have hpasswd : CString.bytes "!passwd root" ≠ [] ∧ (CString.bytes "!passwd root").length ≤ maxLength ∧
      (CString.bytes "!passwd root").length < maxLength := by decide
  have hcommand : CString.bytes "!main_proc ls" ≠ [] ∧ (CString.bytes "!main_proc ls").length ≤ maxLength ∧
      (CString.bytes "!main_proc ls").length < maxLength := by decide
  have hlogin : sendMessage rootPrivilege .init ⟨0, CString.bytes "!passwd root"⟩ = (⟨true, 0⟩, .login) := by
    decide
  have hwrite : sendMessage rootPrivilege ⟨true, 0⟩ ⟨0, CString.bytes "!main_proc ls"⟩ =
      (⟨true, 0⟩, .write .mainProcess (CString.bytes "ls")) := by decide
  simp [twoClients, Transition.run, step, init, AsioServer.step, AsioServer.init, AsioServer.acceptDone,
    AsioServer.closeAllSession_eq, AsioServer.makeSession, AsioServer.start, AsioServer.join,
    AsioServer.doRead, AsioServer.readDone, hpasswd, hcommand, AsioServer.readInto_contents, rxHandler,
    handled, hlogin, hwrite, firstHandled, secondHandled]

/-- A client that has sent no password gets a command forwarded after another one has logged in. -/
theorem perConnection_fails :
    ¬ ∀ (config : LoggerPrivilege) (times : ℕ → UInt32) (events : List (AsioEvent ℕ)) (s : LoggerServer ℕ),
      config.allowNoPasswd = false → Transition.run (step config times) init events = some s →
      PerConnection config s.handled := by
  intro hall
  obtain ⟨s, hrun, hhandled⟩ := run_twoClients
  refine hall rootPrivilege _ twoClients s rfl hrun [firstHandled] secondHandled [] hhandled ?_ trivial
  intro y hy hsame
  obtain rfl := List.mem_singleton.mp hy
  contradiction

/-- In every run of the server, what a client has not logged in for is carried out only under a login that has
been made on another connection and is still in force; under one that is in force a command is
forwarded, whoever sends it; and from a message on for which none is in force, the first of a connection
for one, everything is answered as if nothing had happened before. -/
theorem run_login_shared (config : LoggerPrivilege) (hconfig : config.allowNoPasswd = false)
    (times : ℕ → UInt32) (events : List (AsioEvent σ)) (s : LoggerServer σ)
    (hrun : Transition.run (step config times) init events = some s) (before after : List Handled)
    (x : Handled) (hsplit : s.handled = before ++ x :: after) :
    ((∀ y ∈ before, y.connection = x.connection → ¬ IsLoginMessage config y.message) → x.effect.Gated →
      ∃ login, InForce config before x.message login ∧ login.connection ≠ x.connection) ∧
    ((∃ login, InForce config before x.message login) → ∀ fifo data,
      x.message.data = fifo.command.1 ++ data → x.effect = .write fifo data) ∧
    ((¬ ∃ login, InForce config before x.message login) →
      (x :: after).map Handled.effect = effects config [] ((x :: after).map Handled.message)) := by
  have hanswered := run_answered hrun
  rw [hsplit] at hanswered
  obtain ⟨hbefore, hafter⟩ := answered_append hanswered
  have hforce := loggedIn_iff_inForce hbefore x.message
  have hstill := stillLogin_iff hconfig (isLogin_iff hconfig (before.map Handled.message)) x.message
  have heffect : x.effect =
      (sendMessage config (afterMessages config (before.map Handled.message)) x.message).2 :=
    (List.cons.inj hafter).1
  refine ⟨?_, ?_, ?_⟩
  · intro hown hgated
    rw [heffect] at hgated
    obtain ⟨login, hlogin⟩ := hforce.mp (hstill.mp (sendMessage_gated hconfig hgated))
    refine ⟨login, hlogin, fun hsame => ?_⟩
    obtain ⟨earlier, since, hlist, hmessage, -⟩ := hlogin
    exact hown login (hlist ▸ List.mem_append_right _ List.mem_cons_self) hsame hmessage
  · intro hlogin fifo data hdata
    rw [heffect]
    exact sendMessage_write hconfig (hstill.mpr (hforce.mpr hlogin)) hdata
  · intro hnone
    rw [hafter]
    exact effects_of_not_loggedIn hconfig _ _ fun hlogged => hnone (hforce.mp hlogged)

/-- What the second client has not logged in for is carried out under the login of the first. -/
theorem run_login_shared_twoClients :
    ∃ login, InForce rootPrivilege [firstHandled] secondHandled.message login ∧
      login.connection ≠ secondHandled.connection := by
  obtain ⟨s, hrun, hhandled⟩ := run_twoClients
  refine (run_login_shared rootPrivilege rfl _ twoClients s hrun [firstHandled] [] secondHandled
    hhandled).1 ?_ trivial
  intro y hy hsame
  obtain rfl := List.mem_singleton.mp hy
  contradiction

end LoggerServer

end RemoteManage.LoggerTool
