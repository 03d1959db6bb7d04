import Mathlib.Data.List.Basic

/-!
# Runs of a step that the environment schedules

A system of several parties moves by events: which thread writes, which byte arrives,
which operation completes. `step s e` is `none` when the event `e` cannot happen in the
state `s`. A run is a list of events all of which happen. An invariant is proved for one
step and holds along every run; `Along` carries a condition on the steps themselves,
for what is true of the runs that keep it.
-/

namespace RemoteManage.Foundation.Transition

variable {S E : Type*}

/-- The state after the events, if each of them can happen. -/
def run (step : S → E → Option S) : S → List E → Option S
  | s, [] => some s
  | s, e :: rest => (step s e).bind fun s' => run step s' rest

/-- Every step of the run from `s` meets the condition. -/
def Along (step : S → E → Option S) (cond : S → E → Prop) : S → List E → Prop
  | _, [] => True
  | s, e :: rest => cond s e ∧ ∀ s', step s e = some s' → Along step cond s' rest

variable {step : S → E → Option S}

/-- A run over a first event and the rest passes through the state after that event. -/
theorem run_cons_eq_some {s t : S} {e : E} {rest : List E} :
    run step s (e :: rest) = some t ↔ ∃ s', step s e = some s' ∧ run step s' rest = some t :=
  Option.bind_eq_some_iff

/-- A run over two lists of events goes through the state between them. -/
theorem run_append_eq_some {s m t : S} {before after : List E} (hbefore : run step s before = some m)
    (hafter : run step m after = some t) : run step s (before ++ after) = some t := by
  induction before generalizing s with
  | nil => exact Option.some.inj hbefore ▸ hafter
  | cons e rest ih =>
    obtain ⟨s', hfirst, hrest⟩ := run_cons_eq_some.mp hbefore
    exact run_cons_eq_some.mpr ⟨s', hfirst, ih hrest⟩

/-- A run over two lists of events is a run over the first and one over the second. -/
theorem run_append_iff {s t : S} {before after : List E} :
    run step s (before ++ after) = some t ↔ ∃ m, run step s before = some m ∧ run step m after = some t := by
  induction before generalizing s with
  | nil => exact ⟨fun h => ⟨s, rfl, h⟩, fun ⟨m, hm, h⟩ => Option.some.inj hm ▸ h⟩
  | cons e rest ih =>
    rw [List.cons_append, run_cons_eq_some]
    simp only [ih, run_cons_eq_some]
    grind

/-- A single step is a run. -/
theorem run_singleton {s t : S} {e : E} (h : step s e = some t) : run step s [e] = some t :=
  run_cons_eq_some.mpr ⟨t, h, rfl⟩

/-- Steps that meet a stronger condition meet a weaker one. -/
theorem Along.mono {cond weaker : S → E → Prop} (h : ∀ s e, cond s e → weaker s e) {s : S}
    {events : List E} (hcond : Along step cond s events) : Along step weaker s events := by
  induction events generalizing s with
  | nil => trivial
  | cons e rest ih => exact ⟨h s e hcond.1, fun s' hs' => ih (hcond.2 s' hs')⟩

/-- A condition that can be decided for each step can be decided along a run. -/
instance decidableAlong (cond : S → E → Prop) [∀ s e, Decidable (cond s e)] :
    ∀ (s : S) (events : List E), Decidable (Along step cond s events)
  | _, [] => isTrue trivial
  | s, e :: rest =>
    match h : step s e with
    | none => decidable_of_iff (cond s e) (by simp [Along, h])
    | some t =>
      have := decidableAlong cond t rest
      decidable_of_iff (cond s e ∧ Along step cond t rest) (by simp [Along, h])

/-- A step under a condition happens only when the condition holds. -/
theorem enabled_of_ite {p : Prop} [Decidable p] {s t : S}
    (h : (if p then some s else none) = some t) : p ∧ s = t := by
  obtain ⟨hp, heq⟩ := Option.ite_none_right_eq_some.mp h
  exact ⟨hp, Option.some.inj heq⟩

/-- What every step keeps holds after every run. -/
theorem run_invariant (inv : S → Prop)
    (hstep : ∀ s e s', inv s → step s e = some s' → inv s') {s t : S} {events : List E}
    (hrun : run step s events = some t) (hs : inv s) : inv t := by
  induction events generalizing s with
  | nil => exact Option.some.inj hrun ▸ hs
  | cons e rest ih =>
    obtain ⟨s', hfirst, hrest⟩ := run_cons_eq_some.mp hrun
    exact ih hrest (hstep s e s' hs hfirst)

/-- Two systems whose steps keep them related, and can happen in both or in neither, show the same after every
run of such steps. -/
theorem run_map_eq_of_bisimulation {T O : Type*} (other : T → E → Option T) (rel : S → T → Prop)
    (allowed : E → Prop) (obs : S → O) (otherObs : T → O) (hobs : ∀ s t, rel s t → obs s = otherObs t)
    (hstep : ∀ s t e, rel s t → allowed e → Option.Rel rel (step s e) (other t e)) {s : S} {t : T}
    (hrel : rel s t) {events : List E} (hevents : ∀ e ∈ events, allowed e) :
    (run step s events).map obs = (run other t events).map otherObs := by
  induction events generalizing s t with
  | nil => exact congrArg some (hobs s t hrel)
  | cons e rest ih =>
    rw [List.forall_mem_cons] at hevents
    have hnext := hstep s t e hrel hevents.1
    rw [run, run]
    cases hs : step s e with
    | none =>
      rw [hs] at hnext
      generalize other t e = next at hnext
      cases hnext
      rfl
    | some s' =>
      rw [hs] at hnext
      generalize other t e = next at hnext
      cases hnext with
      | some hrel' => exact ih hrel' hevents.2

/-- What every step keeps of the state and of the events so far holds after every run. -/
theorem run_history (inv : List E → S → Prop)
    (hstep : ∀ history s e s', inv history s → step s e = some s' → inv (history ++ [e]) s')
    {s t : S} {history events : List E} (hrun : run step s events = some t)
    (hs : inv history s) : inv (history ++ events) t := by
  induction events generalizing s history with
  | nil =>
    cases hrun
    simpa using hs
  | cons e rest ih =>
    obtain ⟨s', hfirst, hrest⟩ := run_cons_eq_some.mp hrun
    have h := ih hrest (hstep history s e s' hs hfirst)
    rwa [List.append_assoc, List.singleton_append] at h

/-- What the steps that meet a condition keep holds after every run of such steps. -/
theorem run_invariant_along (cond : S → E → Prop) (inv : S → Prop)
    (hstep : ∀ s e s', inv s → cond s e → step s e = some s' → inv s') {s t : S}
    {events : List E} (hrun : run step s events = some t) (hcond : Along step cond s events)
    (hs : inv s) : inv t := by
  induction events generalizing s with
  | nil => exact Option.some.inj hrun ▸ hs
  | cons e rest ih =>
    obtain ⟨s', hfirst, hrest⟩ := run_cons_eq_some.mp hrun
    exact ih hrest (hcond.2 s' hfirst) (hstep s e s' hs hcond.1 hfirst)

/-- When the condition on a step is both enough and necessary to keep an invariant, the runs of such
steps are those in which every state reached satisfies it. -/
theorem along_iff_reached (cond : S → E → Prop) (inv : S → Prop)
    (hkeep : ∀ s e s', inv s → cond s e → step s e = some s' → inv s')
    (hneed : ∀ s e s', inv s → step s e = some s' → inv s' → cond s e) {s t : S} {events : List E}
    (hrun : run step s events = some t) (hs : inv s) :
    Along step cond s events ↔
      ∀ before after, events = before ++ after → ∀ s', run step s before = some s' → inv s' := by
  induction events generalizing s with
  | nil =>
    refine ⟨?_, fun _ => trivial⟩
    intro _ before after hsplit s' hs'
    rw [(List.append_eq_nil_iff.mp hsplit.symm).1] at hs'
    exact Option.some.inj hs' ▸ hs
  | cons e rest ih =>
    obtain ⟨s₁, hfirst, hrest⟩ := run_cons_eq_some.mp hrun
    constructor
    · rintro ⟨hcond, hnext⟩ before after hsplit s' hs'
      have hs₁ := hkeep s e s₁ hs hcond hfirst
      cases before with
      | nil => exact Option.some.inj hs' ▸ hs
      | cons e' before =>
        obtain ⟨rfl, htail⟩ := List.cons.inj hsplit
        rw [run, hfirst] at hs'
        exact (ih hrest hs₁).mp (hnext s₁ hfirst) before after htail s' hs'
    · intro hreached
      have hs₁ : inv s₁ := by
        apply hreached [e] rest rfl
        rw [run, hfirst]
        rfl
      refine ⟨hneed s e s₁ hs hfirst hs₁, ?_⟩
      intro s' hs'
      obtain rfl : s₁ = s' := Option.some.inj (hfirst.symm.trans hs')
      refine (ih hrest hs₁).mpr ?_
      intro before after hsplit s'' hs''
      apply hreached (e :: before) after (by rw [hsplit, List.cons_append])
      rw [run, hfirst]
      exact hs''

end RemoteManage.Foundation.Transition
