import RemoteManage.Common.AsioServer
import Mathlib.Data.Finset.Option

/-!
# One session at a time

The server closes every session when it accepts a new one, and a session leaves the group
when one of its operations fails. `followed` says on the events alone which session is
left: the latest accepted one, until an operation of it has failed. The set of the code is
this session and nothing else after every sequence of events (`step_set`, `run_set`), in
particular when operations of older sessions fail late.
-/

namespace RemoteManage.Common

open RemoteManage.Foundation

namespace AsioEvent

variable {σ : Type*}

/-- The session that joins. -/
def acceptedSession : AsioEvent σ → Option σ
  | accepted p => some p
  | _ => none

/-- What becomes of that which the handler acts on: it gets the bytes of a read that leaves room for the zero
behind them. -/
def handedTo {H : Type*} (handler : H → List UInt8 → H) (host : H) : AsioEvent σ → H
  | readDone _ bytes => if bytes.length < maxLength then handler host bytes else host
  | _ => host

/-- The session of which an operation has failed. -/
def failedSession : AsioEvent σ → Option σ
  | readFailed p => some p
  | writeFailed p => some p
  | _ => none

end AsioEvent

section Followed

variable {σ : Type*} [DecidableEq σ]

/-- The session in the group after one more event. -/
def followed (current : Option σ) : AsioEvent σ → Option σ
  | .accepted p => some p
  | .readFailed p => if current = some p then none else current
  | .writeFailed p => if current = some p then none else current
  | _ => current

/-- An event that accepts nothing leaves the session in the group unless an operation of it failed. -/
theorem followed_eq_some_iff {current : Option σ} {e : AsioEvent σ} (he : e.acceptedSession = none)
    (p : σ) : followed current e = some p ↔ current = some p ∧ e.failedSession ≠ some p := by
  have hfailed (q : σ) : (if current = some q then none else current) = some p ↔
      current = some p ∧ some q ≠ some p := by
    by_cases hq : current = some q
    · rw [if_pos hq, hq]
      exact ⟨fun h => by contradiction, fun h => absurd h.1 h.2⟩
    · rw [if_neg hq]
      exact ⟨fun h => ⟨h, fun hqp => hq (h.trans hqp.symm)⟩, And.left⟩
  cases e with
  | accepted q => contradiction
  | readFailed q => exact hfailed q
  | writeFailed q => exact hfailed q
  | acceptFailed => simp [followed, AsioEvent.failedSession]
  | readDone q bytes => simp [followed, AsioEvent.failedSession]
  | written q => simp [followed, AsioEvent.failedSession]
  | doWrite => simp [followed, AsioEvent.failedSession]

/-- The session in the group is the latest accepted one, if no operation of it has failed since. -/
theorem foldl_followed_eq_some_iff (events : List (AsioEvent σ)) (p : σ) :
    events.foldl followed none = some p ↔
      ∃ before since, events = before ++ .accepted p :: since ∧
        ∀ e ∈ since, e.acceptedSession = none ∧ e.failedSession ≠ some p := by
  induction events using List.reverseRecOn with
  | nil => simp
  | append_singleton events e ih =>
    rw [List.foldl_append, List.foldl_cons, List.foldl_nil]
    constructor
    · intro h
      cases hsession : e.acceptedSession with
      | some q =>
        have he : e = .accepted q := by
          cases e <;> simp_all [AsioEvent.acceptedSession]
        subst he
        obtain rfl : q = p := Option.some.inj h
        exact ⟨events, [], rfl, fun e he => absurd he List.not_mem_nil⟩
      | none =>
        obtain ⟨hcurrent, hfailed⟩ := (followed_eq_some_iff hsession p).mp h
        obtain ⟨before, since, rfl, hsince⟩ := ih.mp hcurrent
        refine ⟨before, since ++ [e], by rw [List.append_assoc, List.cons_append], ?_⟩
        intro e' he'
        rcases List.mem_append.mp he' with he' | he'
        · exact hsince e' he'
        · obtain rfl := List.mem_singleton.mp he'
          exact ⟨hsession, hfailed⟩
    · rintro ⟨before, since, hsplit, hsince⟩
      rcases List.eq_nil_or_concat since with rfl | ⟨since, last, rfl⟩
      · obtain ⟨-, he⟩ := List.append_inj' hsplit rfl
        rw [(List.cons.inj he).1]
        rfl
      · rw [List.concat_eq_append] at hsplit hsince
        rw [← List.cons_append, ← List.append_assoc] at hsplit
        obtain ⟨hevents, hlast⟩ := List.append_inj' hsplit rfl
        obtain rfl := (List.cons.inj hlast).1
        obtain ⟨hsession, hfailed⟩ := hsince e (by simp)
        refine (followed_eq_some_iff hsession p).mpr ⟨ih.mpr ⟨before, since, hevents, ?_⟩, hfailed⟩
        intro e' he'
        exact hsince e' (List.mem_append_left _ he')

end Followed

namespace AsioServer

variable {σ H : Type*} [LinearOrder σ]

/-- `close_all_session` comes to an end with no session in the set and all their sockets closed. -/
theorem closeAllSession_eq (s : AsioServer σ H) :
    s.closeAllSession = { s with set := ∅, closed := s.closed ∪ s.set } := by
  fun_induction closeAllSession s with
  | case1 s hnone =>
    have hset := getSession_eq_none_iff.mp hnone
    rw [hset, Finset.union_empty, ← hset]
  | case2 s p hp ih =>
    have hclosed : insert p s.closed ∪ s.set.erase p = s.closed ∪ s.set := by
      rw [Finset.insert_union, ← Finset.union_insert, Finset.insert_erase (getSession_mem hp)]
    rw [ih]
    simp only [doClose, leave, hclosed]

/-- A write leaves alone what the handler acts on. -/
theorem doWrite_host (s : AsioServer σ H) : s.doWrite.host = s.host := by
  unfold doWrite
  split <;> rfl

/-- A write does not bring the thread to its end. -/
theorem doWrite_ended (s : AsioServer σ H) : s.doWrite.ended = s.ended := by
  unfold doWrite
  split <;> rfl

/-- When the thread has come to its end, only writes are asked for. -/
theorem eq_doWrite_of_ended {handler : H → List UInt8 → H} {s s' : AsioServer σ H} {e : AsioEvent σ}
    (hended : s.ended = true) (hstep : step handler s e = some s') : e = .doWrite := by
  have hnot (q : Prop) : ¬ (s.ended = false ∧ q) := fun h => absurd (hended.symm.trans h.1) (by decide)
  cases e with
  | doWrite => rfl
  | _ => exact absurd (Transition.enabled_of_ite hstep).1 (hnot _)

/-- A read hands on the bytes read, whatever `data_` held before. -/
theorem readInto_contents (data : FixedBuffer UInt8 maxLength) (bytes : List UInt8)
    (h : bytes.length ≤ maxLength) : (readInto data bytes).contents bytes.length = bytes := by
  rw [readInto, FixedBuffer.write_contents_of_le _ _ (le_refl _), data.writeAll_zero_contents bytes h]

/-- Only the handler acts on what it is there for, and it is handed the bytes of the reads. -/
theorem step_host {handler : H → List UInt8 → H} {s s' : AsioServer σ H} {e : AsioEvent σ}
    (hstep : step handler s e = some s') : s'.host = e.handedTo handler s.host := by
  cases e with
  | accepted p =>
    obtain ⟨-, rfl⟩ := Transition.enabled_of_ite hstep
    simp only [acceptDone, closeAllSession_eq, makeSession, start, join, doRead]
    split <;> rfl
  | acceptFailed =>
    obtain ⟨-, rfl⟩ := Transition.enabled_of_ite hstep
    simp only [acceptDone]
    split <;> rfl
  | readDone p bytes =>
    obtain ⟨⟨-, -, -, hlen⟩, rfl⟩ := Transition.enabled_of_ite hstep
    simp only [readDone, doRead, AsioEvent.handedTo, readInto_contents _ bytes hlen]
    split <;> rfl
  | readFailed p =>
    obtain ⟨-, rfl⟩ := Transition.enabled_of_ite hstep
    rfl
  | written p =>
    obtain ⟨-, rfl⟩ := Transition.enabled_of_ite hstep
    rfl
  | writeFailed p =>
    obtain ⟨-, rfl⟩ := Transition.enabled_of_ite hstep
    rfl
  | doWrite =>
    obtain rfl := Option.some.inj hstep
    exact doWrite_host s

/-- The set after an accepted connection is the new session. -/
theorem acceptDone_set (s : AsioServer σ H) (hopen : s.acceptorOpen = true) (p : σ) :
    (s.acceptDone (some p)).set = {p} := by
  rw [acceptDone, if_pos hopen]
  simp only [closeAllSession_eq, makeSession, start, join, doRead, insert_empty_eq]

/-- A set of at most one session after a session has left it. -/
theorem toFinset_erase (current : Option σ) (p : σ) :
    current.toFinset.erase p = (if current = some p then none else current).toFinset := by
  cases current with
  | none => rfl
  | some q =>
    by_cases hq : q = p
    · subst hq
      simp
    · have hp : p ∉ (some q).toFinset := by simpa using Ne.symm hq
      rw [if_neg (fun h => hq (Option.some.inj h)), Finset.erase_eq_of_notMem hp]

/-- One event makes of the set what it makes of the session followed. -/
theorem step_set {handler : H → List UInt8 → H} {s s' : AsioServer σ H} {e : AsioEvent σ}
    {current : Option σ} (hopen : s.acceptorOpen = true) (hset : s.set = current.toFinset)
    (hstep : step handler s e = some s') :
    s'.acceptorOpen = true ∧ s'.set = (followed current e).toFinset := by
  have hleave (p : σ) : s.set.erase p = (if current = some p then none else current).toFinset := by
    rw [hset, toFinset_erase]
  cases e with
  | accepted p =>
    obtain ⟨-, rfl⟩ := Transition.enabled_of_ite hstep
    refine ⟨?_, acceptDone_set s hopen p⟩
    rw [acceptDone, if_pos hopen]
    simp only [closeAllSession_eq, makeSession, start, join, doRead, hopen]
  | acceptFailed =>
    obtain ⟨-, rfl⟩ := Transition.enabled_of_ite hstep
    rw [acceptDone, if_pos hopen]
    exact ⟨hopen, hset⟩
  | readDone p bytes =>
    obtain ⟨-, rfl⟩ := Transition.enabled_of_ite hstep
    rw [readDone]
    split
    · exact ⟨hopen, hset⟩
    · exact ⟨hopen, hset⟩
  | readFailed p =>
    obtain ⟨-, rfl⟩ := Transition.enabled_of_ite hstep
    exact ⟨hopen, hleave p⟩
  | written p =>
    obtain ⟨-, rfl⟩ := Transition.enabled_of_ite hstep
    exact ⟨hopen, hset⟩
  | writeFailed p =>
    obtain ⟨-, rfl⟩ := Transition.enabled_of_ite hstep
    exact ⟨hopen, hleave p⟩
  | doWrite =>
    obtain rfl := Option.some.inj hstep
    unfold doWrite
    split
    · exact ⟨hopen, hset⟩
    · exact ⟨hopen, hset⟩

/-- After any events the set is the session followed. -/
theorem run_set {handler : H → List UInt8 → H} {host : H} {events : List (AsioEvent σ)}
    {s : AsioServer σ H} (hrun : Transition.run (step handler) (init host) events = some s) :
    s.acceptorOpen = true ∧ s.set = (events.foldl followed none).toFinset := by
  let inv (history : List (AsioEvent σ)) (s : AsioServer σ H) : Prop :=
    s.acceptorOpen = true ∧ s.set = (history.foldl followed none).toFinset
  have hstep (history : List (AsioEvent σ)) (s : AsioServer σ H) (e : AsioEvent σ)
      (s' : AsioServer σ H) (hs : inv history s) (h : step handler s e = some s') :
      inv (history ++ [e]) s' := by
    change _ ∧ s'.set = ((history ++ [e]).foldl followed none).toFinset
    rw [List.foldl_append]
    exact step_set hs.1 hs.2 h
  have hinit : inv [] (init host) := ⟨rfl, rfl⟩
  exact Transition.run_history inv hstep hrun hinit

/-- A failed operation of a session that is not in the set leaves the set as it is. -/
theorem step_failed_set {handler : H → List UInt8 → H} {s s' : AsioServer σ H} {e : AsioEvent σ}
    {q : σ} (hfailed : e.failedSession = some q) (hq : q ∉ s.set)
    (hstep : step handler s e = some s') : s'.set = s.set := by
  have herase : s.set.erase q = s.set := Finset.erase_eq_of_notMem hq
  cases e with
  | readFailed p =>
    obtain rfl : p = q := Option.some.inj hfailed
    obtain ⟨-, rfl⟩ := Transition.enabled_of_ite hstep
    exact herase
  | writeFailed p =>
    obtain rfl : p = q := Option.some.inj hfailed
    obtain ⟨-, rfl⟩ := Transition.enabled_of_ite hstep
    exact herase
  | accepted p => contradiction
  | acceptFailed => contradiction
  | readDone p bytes => contradiction
  | written p => contradiction
  | doWrite => contradiction

/-- After any events the group holds at most one session, the most recently accepted one. A failed
operation of any other session does not touch it, the server is valid exactly when no operation
of the most recently accepted session has failed since it joined, and `close_all_session` comes
to an end with an empty set. -/
theorem run_singleSession (handler : H → List UInt8 → H) (host : H) (events : List (AsioEvent σ))
    (s : AsioServer σ H) (hrun : Transition.run (step handler) (init host) events = some s) :
    s.set.card ≤ 1 ∧
    (∀ p ∈ s.set, ∃ before since, events = before ++ .accepted p :: since ∧
      ∀ e ∈ since, e.acceptedSession = none) ∧
    (∀ e q s', e.failedSession = some q → step handler s e = some s' →
      ∀ p ∈ s.set, p ≠ q → s'.set = {p}) ∧
    (s.isValid = true ↔ ∃ p before since, events = before ++ .accepted p :: since ∧
      ∀ e ∈ since, e.acceptedSession = none ∧ e.failedSession ≠ some p) ∧
    s.closeAllSession.set = ∅ := by
  obtain ⟨-, hset⟩ := run_set hrun
  have hmem (p : σ) : p ∈ s.set ↔ ∃ before since, events = before ++ .accepted p :: since ∧
      ∀ e ∈ since, e.acceptedSession = none ∧ e.failedSession ≠ some p := by
    rw [hset, Option.mem_toFinset, Option.mem_def, foldl_followed_eq_some_iff]
  have hcard : s.set.card ≤ 1 := by
    rw [hset, Option.card_toFinset]
    cases events.foldl followed none with
    | none => exact Nat.zero_le 1
    | some p => exact le_refl 1
  refine ⟨hcard, ?_, ?_, ?_, ?_⟩
  · intro p hp
    obtain ⟨before, since, hsplit, hsince⟩ := (hmem p).mp hp
    exact ⟨before, since, hsplit, fun e he => (hsince e he).1⟩
  · intro e q s' hfailed hstep p hp hpq
    have hsingle : s.set = {p} :=
      Finset.eq_singleton_iff_unique_mem.mpr ⟨hp, fun r hr => Finset.card_le_one.mp hcard r hr p hp⟩
    have hq : q ∉ s.set := by
      rw [hsingle, Finset.mem_singleton]
      exact Ne.symm hpq
    rw [step_failed_set hfailed hq hstep, hsingle]
  · have hvalid : s.isValid = true ↔ s.set.Nonempty := by
      rw [isValid, decide_eq_true_iff, Ne, Finset.card_eq_zero, Finset.nonempty_iff_ne_empty]
    rw [hvalid]
    constructor
    · rintro ⟨p, hp⟩
      exact ⟨p, (hmem p).mp hp⟩
    · rintro ⟨p, hp⟩
      exact ⟨p, (hmem p).mpr hp⟩
  · rw [closeAllSession_eq]

/-- The second of two sessions stays when the read operation of the first fails late. -/
theorem run_singleSession_lateError :
    ∃ s : AsioServer ℕ Unit,
      Transition.run (step fun host _ => host) (init ()) [.accepted 1, .accepted 2, .readFailed 1] =
          some s ∧
        s.isValid = true := by
  let events : List (AsioEvent ℕ) := [.accepted 1, .accepted 2, .readFailed 1]
  have hsome : (Transition.run (step fun host _ => host) (init ()) events).isSome = true := by
    simp [events, Transition.run, step, init, acceptDone, closeAllSession_eq, makeSession, start, join,
      doRead]
  obtain ⟨s, hrun⟩ := Option.isSome_iff_exists.mp hsome
  refine ⟨s, hrun, (run_singleSession (fun host _ => host) () events s hrun).2.2.2.1.mpr ?_⟩
  refine ⟨2, [.accepted 1], [.readFailed 1], rfl, ?_⟩
  intro e he
  obtain rfl := List.mem_singleton.mp he
  decide

end AsioServer

end RemoteManage.Common
