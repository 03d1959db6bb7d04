import Mathlib.Data.List.Chain
import RemoteManage.LocalDevice.LoopLed

/-!
# The cycle of the loop LEDs

Within the cycle of 117 ticks the writes of each refresh are checked one tick after the other; the first
refresh of a cycle is checked for every lamp that can be on before it, since a device that is stopped and
enabled again between two refreshes leaves its lamp on. An invariant carries this to all calls: the
tick tells which lamp is on, and no write ever shows two lamps.
-/

namespace RemoteManage.LocalDevice

/-- The lamp lit by the refresh at a tick. -/
def litAt (tick : ℕ) : Option Led :=
  if tick < 60 then some .green
  else if tick < 70 then if tick % 2 = 0 then none else some .green
  else if tick < 76 then some .yellow
  else if tick < 116 then some .red
  else none

/-- The lamp that was lit last before the refresh at a tick of the cycle. -/
def litBefore (tick : ℕ) : Led :=
  if tick = 0 then .red else if tick ≤ 70 then .green else if tick ≤ 76 then .yellow else .red

/-- A lamp stays lit or gives way to the next one. -/
def Follows (led next : Led) : Prop := next = led ∨ next = led.next

instance : DecidableRel Follows := fun _ _ => inferInstanceAs (Decidable (_ ∨ _))

/-- The number of refreshes of a cycle. -/
def cycle : ℕ := 117

/-- What the writes of a refresh show: never two lamps, and at the end the lamp of the tick. -/
def Shows (tick : UInt16) (lamps : Lamps) : Prop :=
  (∀ m ∈ lamps.along (LoopLed.refreshWrites tick), m.AtMostOne) ∧
    (lamps.along (LoopLed.refreshWrites tick)).getLastD lamps = .only (litAt tick.toNat)

/-- After the lamp lit last the writes of a refresh light lamps in their order, and the one lit last is then
that before the next tick. -/
def Turns (tick : UInt16) (lamps : Lamps) (last : Led) : Prop :=
  (last :: (lamps.along (LoopLed.refreshWrites tick)).filterMap Lamps.lit).IsChain Follows ∧
    ((lamps.along (LoopLed.refreshWrites tick)).filterMap Lamps.lit).getLastD last =
      litBefore ((tick.toNat + 1) % cycle)

instance (tick : UInt16) (lamps : Lamps) : Decidable (Shows tick lamps) := by
  unfold Shows
  infer_instance

instance (tick : UInt16) (lamps : Lamps) (last : Led) : Decidable (Turns tick lamps last) := by
  unfold Turns
  infer_instance

/-- The law of the cycle, tick by tick. -/
theorem turns_all : ∀ tick < cycle, tick ≠ 0 →
    Shows (UInt16.ofNat tick) (.only (litAt (tick - 1))) ∧
      Turns (UInt16.ofNat tick) (.only (litAt (tick - 1))) (litBefore tick) ∧
      ∀ led ∈ litAt (tick - 1), led = litBefore tick := by
  decide +kernel

/-- Within the cycle each refresh turns from the lamp of the tick before to its own. -/
theorem turns_of_ne_zero {tick : UInt16} (h : tick.toNat < cycle) (hne : tick ≠ 0) :
    Shows tick (.only (litAt (tick.toNat - 1))) ∧
      Turns tick (.only (litAt (tick.toNat - 1))) (litBefore tick.toNat) ∧
      ∀ led ∈ litAt (tick.toNat - 1), led = litBefore tick.toNat := by
  have hpos : tick.toNat ≠ 0 := fun hzero => hne (UInt16.toNat_inj.mp hzero)
  have hturns := turns_all tick.toNat h hpos
  rwa [UInt16.ofNat_toNat] at hturns

/-- Lamps of which at most one is on are given by that one. -/
theorem Lamps.AtMostOne.eq_only {lamps : Lamps} (h : lamps.AtMostOne) : lamps = .only lamps.lit := by
  obtain ⟨red, yellow, green⟩ := lamps
  revert h
  cases red <;> cases yellow <;> cases green <;> decide

/-- Only the given lamp is lit. -/
theorem Lamps.lit_only (led : Option Led) : (Lamps.only led).lit = led := by
  cases led with
  | none => rfl
  | some led => cases led <;> rfl

/-- What the lamps of a tick show is at most one lamp. -/
theorem Lamps.only_atMostOne (led : Option Led) : (Lamps.only led).AtMostOne := by
  cases led with
  | none => decide
  | some led => cases led <;> decide

/-- Whichever lamp is on, the first refresh of the cycle puts it out before it lights the green one. -/
theorem shows_zero {lamps : Lamps} (h : lamps.AtMostOne) : Shows 0 lamps := by
  rw [h.eq_only]
  cases lamps.lit with
  | none => decide
  | some led => cases led <;> decide

/-- The first refresh of the cycle turns to green from anything but a yellow lamp. -/
theorem turns_zero {lamps : Lamps} {last : Led} (hsingle : lamps.AtMostOne) (hlast : last ≠ .yellow)
    (hlit : lamps.lit = none ∨ lamps.lit = some last) : Turns 0 lamps last := by
  rw [hsingle.eq_only]
  rcases hlit with hnone | hsome
  · rw [hnone]
    revert hlast
    cases last <;> decide
  · rw [hsome]
    revert hlast
    cases last <;> decide

/-- A refresh of a stopped device puts out whichever lamp is on. -/
theorem along_off {lamps : Lamps} (h : lamps.AtMostOne) :
    (∀ m ∈ lamps.along [(.red, false), (.yellow, false), (.green, false)], m.AtMostOne) ∧
      (lamps.along [(.red, false), (.yellow, false), (.green, false)]).getLastD lamps = .off := by
  rw [h.eq_only]
  cases lamps.lit with
  | none => decide
  | some led => cases led <;> decide

namespace LoopLed

/-- What every call keeps: the tick counts within the cycle and tells which lamp is on, and no two lamps have
been on after any write. -/
structure Safe (s : LoopLed) : Prop where
  tick : s.tick.toNat < cycle
  stopped : s.isLoopledRun = false → s.tick = 0
  single : s.lamps.AtMostOne
  lit : s.tick ≠ 0 → s.lamps = .only (litAt (s.tick.toNat - 1))
  shown : ∀ lamps ∈ s.shown, lamps.AtMostOne

variable {file : LedFile} {s : LoopLed}

/-- A new device shows no lamp. -/
theorem safe_init : Safe init := by
  constructor
  case tick => decide
  case stopped => exact fun _ => rfl
  case single => decide
  case lit => exact fun h => absurd rfl h
  case shown => exact fun _ h => absurd h List.not_mem_nil

/-- Ticks are counted modulo the cycle. -/
theorem toNat_nextTick {tick : UInt16} (h : tick.toNat < cycle) :
    (nextTick tick).toNat = (tick.toNat + 1) % cycle := by
  rw [cycle] at h ⊢
  by_cases hend : tick ≥ redTickTickcount
  · have hle : 116 ≤ tick.toNat := hend
    rw [nextTick, if_pos hend, show tick.toNat = 116 by omega]
    rfl
  · have hlt : tick.toNat < 116 := Nat.not_le.mp hend
    rw [nextTick, if_neg hend, UInt16.toNat_add, Nat.mod_eq_of_lt (by change _ + 1 < 65536; omega),
      Nat.mod_eq_of_lt (by omega)]
    rfl

/-- In a safe state the writes of a refresh show no two lamps, and at the end that of the tick. -/
theorem Safe.shows (h : Safe s) : Shows s.tick s.lamps := by
  by_cases hzero : s.tick = 0
  · rw [hzero]
    exact shows_zero h.single
  · rw [h.lit hzero]
    exact (turns_of_ne_zero h.tick hzero).1

/-- No lamp but one was on after any write before, and none after the new writes. -/
theorem Safe.shown_append (h : Safe s) {new : List Lamps} (hnew : ∀ lamps ∈ new, lamps.AtMostOne) :
    ∀ lamps ∈ s.shown ++ new, lamps.AtMostOne := by
  intro lamps hmem
  rcases List.mem_append.mp hmem with hbefore | hafter
  · exact h.shown lamps hbefore
  · exact hnew lamps hafter

/-- A refresh of a device that runs, in a safe state. -/
theorem Safe.refresh (h : Safe s) (hfile : file.Succeeds) (hrun : s.isLoopledRun = true) :
    s.loopRefreshPerSecond file =
      { s with
        tick := nextTick s.tick
        lamps := .only (litAt s.tick.toNat)
        shown := s.shown ++ s.lamps.along (refreshWrites s.tick) } := by
  rw [loopRefreshPerSecond_of_run hfile hrun, writeAll_eq, h.shows.2]

/-- A stopped device is safe with any lamp that is on, as its tick is reset. -/
theorem safe_of_stopped {lamps : Lamps} {shown : List Lamps} (hsingle : lamps.AtMostOne)
    (hshown : ∀ lamps ∈ shown, lamps.AtMostOne) : Safe ⟨false, 0, lamps, shown⟩ := by
  constructor
  case tick => exact Nat.zero_lt_succ _
  case stopped => exact fun _ => rfl
  case single => exact hsingle
  case lit => exact fun hne => absurd rfl hne
  case shown => exact hshown

/-- Before a tick that is not the first the lamp of the tick before it is on. -/
theorem litAt_nextTick {tick : UInt16} (h : tick.toNat < cycle) (hne : nextTick tick ≠ 0) :
    (nextTick tick).toNat - 1 = tick.toNat := by
  have hpos : (nextTick tick).toNat ≠ 0 := fun hzero => hne (UInt16.toNat_inj.mp hzero)
  rw [toNat_nextTick h, cycle] at hpos ⊢
  rw [cycle] at h
  omega

/-- Every call keeps the state safe. -/
theorem Safe.step (h : Safe s) (hfile : file.Succeeds) (call : LoopLedCall) : Safe (s.step file call) := by
  cases call with
  | loopRefreshPerSecond =>
    rw [LoopLed.step]
    cases hrun : s.isLoopledRun with
    | true =>
      rw [h.refresh hfile hrun]
      constructor
      case tick =>
        dsimp only
        rw [toNat_nextTick h.tick]
        exact Nat.mod_lt _ (by decide)
      case stopped => exact fun hstop => nomatch hrun.symm.trans hstop
      case single => exact Lamps.only_atMostOne _
      case lit =>
        intro hne
        dsimp only
        rw [litAt_nextTick h.tick hne]
      case shown => exact h.shown_append h.shows.1
    | false =>
      rw [loopRefreshPerSecond_of_not_run hfile hrun, writeAll_eq, (along_off h.single).2, hrun]
      exact safe_of_stopped (by decide) (h.shown_append (along_off h.single).1)
  | setState state =>
    cases state with
    | true =>
      constructor
      case tick => exact h.tick
      case stopped => exact fun hstop => nomatch hstop
      case single => exact h.single
      case lit => exact h.lit
      case shown => exact h.shown
    | false => exact safe_of_stopped h.single h.shown

/-- Every state that calls of a new device lead to is safe. -/
theorem safe_run (hfile : file.Succeeds) (calls : List LoopLedCall) : Safe (init.run file calls) := by
  induction calls using List.reverseRecOn with
  | nil => exact safe_init
  | append_singleton before call ih =>
    rw [LoopLed.run, List.foldl_concat]
    exact Safe.step ih hfile call

/-- The device runs, and `last` is the lamp that was lit last, as far as the next one has to follow it. -/
structure Ready (s : LoopLed) (last : Led) : Prop where
  safe : Safe s
  running : s.isLoopledRun = true
  started : s.tick ≠ 0 → last = litBefore s.tick.toNat
  starting : s.tick = 0 → last ≠ .yellow ∧ (s.lamps.lit = none ∨ s.lamps.lit = some last)

/-- A refresh that is ready turns from the lamp lit last. -/
theorem Ready.turns {last : Led} (h : Ready s last) : Turns s.tick s.lamps last := by
  by_cases hzero : s.tick = 0
  · obtain ⟨hlast, hlit⟩ := h.starting hzero
    rw [hzero]
    exact turns_zero h.safe.single hlast hlit
  · rw [h.safe.lit hzero, h.started hzero]
    exact (turns_of_ne_zero h.safe.tick hzero).2.1

/-- A refresh leaves the device ready for the next one. -/
theorem Ready.refresh {last : Led} (h : Ready s last) (hfile : file.Succeeds) :
    Ready (s.loopRefreshPerSecond file)
      (((s.lamps.along (refreshWrites s.tick)).filterMap Lamps.lit).getLastD last) := by
  have hsafe := h.safe.step hfile .loopRefreshPerSecond
  rw [LoopLed.step] at hsafe
  rw [h.turns.2]
  rw [h.safe.refresh hfile h.running] at hsafe ⊢
  constructor
  case safe => exact hsafe
  case running => exact h.running
  case started =>
    intro _
    rw [toNat_nextTick h.safe.tick]
  case starting =>
    intro hzero
    have hend : (s.tick.toNat + 1) % cycle = 0 := by
      rw [← toNat_nextTick h.safe.tick]
      exact congrArg UInt16.toNat hzero
    have hlast : s.tick.toNat = 116 := by
      have hlt := h.safe.tick
      rw [cycle] at hlt hend
      omega
    dsimp only
    rw [hlast]
    exact ⟨by decide, .inl (by decide)⟩

/-- To enable a running device changes nothing. -/
theorem setState_of_running (hrun : s.isLoopledRun = true) : s.setState true = s := by
  rw [LoopLed.setState, if_neg (by decide), ← hrun]

/-- A call in a stretch in which the device stays enabled. -/
theorem eq_refresh_or_enable {call : LoopLedCall} (h : call ≠ .setState false) :
    call = .loopRefreshPerSecond ∨ call = .setState true := by
  cases call with
  | loopRefreshPerSecond => exact .inl rfl
  | setState state =>
    cases state with
    | true => exact .inr rfl
    | false => exact absurd rfl h

/-- Chains that meet at the last element of the first one. -/
theorem isChain_append_of_getLastD {last : Led} {before after : List Led}
    (hbefore : (last :: before).IsChain Follows) (hafter : (before.getLastD last :: after).IsChain Follows) :
    (last :: (before ++ after)).IsChain Follows := by
  induction before generalizing last with
  | nil => exact hafter
  | cons led rest ih =>
    obtain ⟨hfirst, hrest⟩ := List.isChain_cons_cons.mp hbefore
    rw [List.getLastD_cons] at hafter
    exact List.isChain_cons_cons.mpr ⟨hfirst, ih hrest hafter⟩

/-- While the device stays enabled the lamps are lit one after the other. -/
theorem Ready.run {last : Led} (h : Ready s last) (hfile : file.Succeeds) {stretch : List LoopLedCall}
    (hstretch : .setState false ∉ stretch) :
    ∃ new, (s.run file stretch).shown = s.shown ++ new ∧
      (last :: new.filterMap Lamps.lit).IsChain Follows := by
  induction stretch generalizing s last with
  | nil => exact ⟨[], (List.append_nil _).symm, List.isChain_singleton last⟩
  | cons call rest ih =>
    obtain ⟨hcall, hrest⟩ := List.ne_and_not_mem_of_not_mem_cons hstretch
    rw [LoopLed.run, List.foldl_cons]
    rcases eq_refresh_or_enable hcall.symm with rfl | rfl
    · obtain ⟨new, hshown, hchain⟩ := ih (h.refresh hfile) hrest
      refine ⟨s.lamps.along (refreshWrites s.tick) ++ new, ?_, ?_⟩
      · rw [LoopLed.step, ← LoopLed.run, hshown, h.safe.refresh hfile h.running, List.append_assoc]
      · rw [List.filterMap_append]
        exact isChain_append_of_getLastD h.turns.1 hchain
    · rw [LoopLed.step, setState_of_running h.running]
      exact ih h hrest

/-- The ticks count the refreshes of a stretch, and each refresh leaves on the lamp of its tick. -/
theorem Safe.run (h : Safe s) (hfile : file.Succeeds) (hrun : s.isLoopledRun = true)
    {stretch : List LoopLedCall} (hstretch : .setState false ∉ stretch) :
    Safe (s.run file stretch) ∧ (s.run file stretch).isLoopledRun = true ∧
      (s.run file stretch).tick.toNat =
        (s.tick.toNat + stretch.count .loopRefreshPerSecond) % cycle ∧
      (0 < stretch.count .loopRefreshPerSecond →
        (s.run file stretch).lamps =
          .only (litAt ((s.tick.toNat + stretch.count .loopRefreshPerSecond - 1) % cycle))) := by
  induction stretch using List.reverseRecOn with
  | nil =>
    refine ⟨h, hrun, (Nat.mod_eq_of_lt h.tick).symm, fun hpos => absurd hpos (by decide)⟩
  | append_singleton before call ih =>
    rw [List.mem_append, not_or] at hstretch
    obtain ⟨hsafe, hrunning, htick, hlamps⟩ := ih hstretch.1
    rw [LoopLed.run, List.foldl_concat, ← LoopLed.run, List.count_append]
    rcases eq_refresh_or_enable (fun heq => hstretch.2 (heq ▸ List.mem_singleton_self _)) with rfl | rfl
    · refine ⟨hsafe.step hfile _, ?_⟩
      rw [LoopLed.step, hsafe.refresh hfile hrunning]
      refine ⟨hrunning, ?_, fun _ => ?_⟩
      · dsimp only
        rw [toNat_nextTick hsafe.tick, htick, List.count_singleton_self, Nat.mod_add_mod, Nat.add_assoc]
      · dsimp only
        rw [htick, List.count_singleton_self, ← Nat.add_assoc, Nat.add_sub_cancel]
    · rw [LoopLed.step, setState_of_running hrunning]
      exact ⟨hsafe, hrunning, htick, hlamps⟩

/-- A running device is ready unless a yellow lamp is on at the start of the cycle. -/
theorem Safe.ready (h : Safe s) (hrun : s.isLoopledRun = true)
    (hyellow : ¬ (s.tick = 0 ∧ s.lamps.lit = some .yellow)) :
    Ready s (s.lamps.lit.getD (litBefore s.tick.toNat)) := by
  constructor
  case safe => exact h
  case running => exact hrun
  case started =>
    intro hne
    rw [h.lit hne, Lamps.lit_only]
    have hlast := (turns_of_ne_zero h.tick hne).2.2
    cases hlit : litAt (s.tick.toNat - 1) with
    | none => rfl
    | some led => exact hlast led hlit
  case starting =>
    intro hzero
    have hne : s.lamps.lit ≠ some .yellow := fun hlit => hyellow ⟨hzero, hlit⟩
    cases hlit : s.lamps.lit with
    | none =>
      rw [hzero]
      exact ⟨by decide, .inl rfl⟩
    | some led => exact ⟨fun hled => hne (hlit.trans (congrArg some hled)), .inr rfl⟩

/-- What a stretch of calls shows in which the device stays enabled. -/
structure Cycles (file : LedFile) (s : LoopLed) (stretch : List LoopLedCall) : Prop where
  /-- The lamps are lit in their order, unless a yellow lamp was left on when the device was enabled. -/
  order : s.tick = 0 ∧ s.lamps.lit = some .yellow ∨
    ((s.showing file stretch).filterMap Lamps.lit).IsChain Follows
  /-- The ticks count the refreshes. -/
  tick : (s.run file stretch).tick.toNat = (s.tick.toNat + stretch.count .loopRefreshPerSecond) % cycle
  /-- Each refresh leaves on the lamp of its tick, whichever lamp was on before. -/
  lamps : 0 < stretch.count .loopRefreshPerSecond →
    (s.run file stretch).lamps =
      .only (litAt ((s.tick.toNat + stretch.count .loopRefreshPerSecond - 1) % cycle))

/-- A safe state that runs goes through the cycle. -/
theorem Safe.cycles (h : Safe s) (hfile : file.Succeeds) (hrun : s.isLoopledRun = true)
    {stretch : List LoopLedCall} (hstretch : .setState false ∉ stretch) : Cycles file s stretch := by
  obtain ⟨-, -, htick, hlamps⟩ := h.run hfile hrun hstretch
  refine ⟨or_iff_not_imp_left.mpr fun hyellow => ?_, htick, hlamps⟩
  obtain ⟨new, hshown, hchain⟩ := (h.ready hrun hyellow).run hfile hstretch
  rw [showing, hshown, List.drop_left]
  cases hlit : s.lamps.lit with
  | none =>
    rw [List.filterMap_cons_none hlit]
    exact hchain.tail
  | some led =>
    rw [List.filterMap_cons_some hlit]
    rwa [hlit] at hchain

/-- With every write succeeding no two lamps are ever on, after any write of any calls; and in every stretch
in which the device stays enabled the lamps go through the cycle of 117 refreshes in the order green, yellow,
red, where a lamp left on by an earlier stretch gives way to green. -/
theorem run_safe_and_cycles (hfile : file.Succeeds) :
    (∀ calls, ∀ lamps ∈ (init.run file calls).shown, lamps.AtMostOne) ∧
      ∀ before stretch, (init.run file before).isLoopledRun = true → .setState false ∉ stretch →
        Cycles file (init.run file before) stretch :=
  ⟨fun calls => (safe_run hfile calls).shown,
    fun before _ hrun hstretch => (safe_run hfile before).cycles hfile hrun hstretch⟩

/-- A device file whose writes all take their two bytes. -/
def allWritten : LedFile := ⟨3, fun _ => 2⟩

/-- All its writes succeed. -/
theorem allWritten_succeeds : allWritten.Succeeds :=
  ⟨Int.natCast_nonneg 3, fun _ => Int.natCast_pos.mpr Nat.two_pos⟩

/-- The law at a file whose writes succeed, for a stretch that begins with red lamps. -/
theorem run_safe_and_cycles_allWritten :
    (∀ calls, ∀ lamps ∈ (init.run allWritten calls).shown, lamps.AtMostOne) ∧
      Cycles allWritten (init.run allWritten (.setState true :: .replicate 80 .loopRefreshPerSecond))
        [.loopRefreshPerSecond] := by
  have h := run_safe_and_cycles allWritten_succeeds
  exact ⟨h.1, h.2 _ _ (by decide +kernel) (by decide)⟩

/-- Stopped and enabled again while the yellow lamp is on, the device goes from yellow to green. -/
theorem not_forall_order : ¬ ∀ file : LedFile, file.Succeeds → ∀ before stretch,
    (init.run file before).isLoopledRun = true → .setState false ∉ stretch →
      (((init.run file before).showing file stretch).filterMap Lamps.lit).IsChain Follows := by
  intro h
  have hchain := h allWritten allWritten_succeeds
    (.setState true :: .replicate 71 .loopRefreshPerSecond ++ [.setState false, .setState true])
    [.loopRefreshPerSecond] (by decide +kernel) (by decide)
  revert hchain
  decide +kernel

end LoopLed

end RemoteManage.LocalDevice
