import Mathlib.Data.List.Basic

/-!
# Machines that answer every input

A deterministic machine reads its inputs one at a time and gives one output for each. A
program that is fed from a stream is such a machine: its state is the object's fields,
its output what the caller can see after the input. The lemmas say how runs compose, how
an invariant is carried along a run, possibly together with the inputs read so far, and
that a simulation relates all outputs of two machines.
-/

namespace RemoteManage.Foundation.Mealy

variable {S T I J O P : Type*}

/-- The state after a list of inputs. -/
def after (step : S → I → S × O) : S → List I → S
  | s, [] => s
  | s, i :: rest => after step (step s i).1 rest

/-- The outputs for a list of inputs, one for each. -/
def outputs (step : S → I → S × O) : S → List I → List O
  | _, [] => []
  | s, i :: rest => (step s i).2 :: outputs step (step s i).1 rest

variable (step : S → I → S × O)

@[simp] theorem after_nil (s : S) : after step s [] = s := rfl

@[simp] theorem outputs_nil (s : S) : outputs step s [] = [] := rfl

/-- Reading two lists one after the other is reading their concatenation. -/
theorem after_append (s : S) (left right : List I) :
    after step s (left ++ right) = after step (after step s left) right := by
  induction left generalizing s with
  | nil => rfl
  | cons i rest ih => exact ih _

/-- The outputs for a concatenation are those of its parts, the second part read in the
state the first one leaves. -/
theorem outputs_append (s : S) (left right : List I) :
    outputs step s (left ++ right) = outputs step s left ++ outputs step (after step s left) right := by
  induction left generalizing s with
  | nil => rfl
  | cons i rest ih => simp only [List.cons_append, outputs, after, ih]

/-- There is one output for each input. -/
@[simp] theorem outputs_length (s : S) (inputs : List I) :
    (outputs step s inputs).length = inputs.length := by
  induction inputs generalizing s with
  | nil => rfl
  | cons i rest ih => simp only [outputs, List.length_cons, ih]

/-- The output at a position is given in the state that the inputs before it leave. -/
theorem outputs_getElem? (s : S) (inputs : List I) (k : ℕ) :
    (outputs step s inputs)[k]? =
      inputs[k]?.map fun i => (step (after step s (inputs.take k)) i).2 := by
  induction inputs generalizing s k with
  | nil => simp
  | cons i rest ih =>
    cases k with
    | zero => rfl
    | succ k => simpa only [outputs, after, List.getElem?_cons_succ, List.take_succ_cons] using ih _ k

/-- An output of a run is the answer to one of its inputs. -/
theorem mem_outputs_iff (s : S) (inputs : List I) (o : O) :
    o ∈ outputs step s inputs ↔
      ∃ before i rest, inputs = before ++ i :: rest ∧ o = (step (after step s before) i).2 := by
  constructor
  · intro h
    obtain ⟨k, hk⟩ := List.mem_iff_getElem?.mp h
    rw [outputs_getElem?] at hk
    obtain ⟨i, hi, rfl⟩ := Option.map_eq_some_iff.mp hk
    obtain ⟨hlt, rfl⟩ := List.getElem?_eq_some_iff.mp hi
    exact ⟨inputs.take k, inputs[k], inputs.drop (k + 1), by simp, rfl⟩
  · rintro ⟨before, i, rest, rfl, rfl⟩
    rw [outputs_append]
    exact List.mem_append_right _ List.mem_cons_self

/-- What every step keeps holds after every run. -/
theorem after_invariant (inv : S → Prop) (hstep : ∀ s i, inv s → inv (step s i).1) (s : S)
    (hs : inv s) (inputs : List I) : inv (after step s inputs) := by
  induction inputs generalizing s with
  | nil => exact hs
  | cons i rest ih => exact ih _ (hstep s i hs)

/-- What every step keeps of the state and the inputs read so far holds after every run. -/
theorem after_history (inv : List I → S → Prop)
    (hstep : ∀ history s i, inv history s → inv (history ++ [i]) (step s i).1) (s : S)
    (history : List I) (hs : inv history s) (inputs : List I) :
    inv (history ++ inputs) (after step s inputs) := by
  induction inputs generalizing s history with
  | nil => simpa using hs
  | cons i rest ih =>
    have h := ih _ _ (hstep history s i hs)
    rwa [List.append_assoc, List.singleton_append] at h

/-- The outputs for a first part of the inputs are the first outputs. -/
theorem outputs_take (s : S) (inputs : List I) (k : ℕ) :
    outputs step s (inputs.take k) = (outputs step s inputs).take k := by
  induction inputs generalizing s k with
  | nil => simp
  | cons i rest ih =>
    cases k with
    | zero => rfl
    | succ k => simp only [List.take_succ_cons, outputs, ih]

/-- The outputs behind a first part of the inputs are given from the state it leaves. -/
theorem outputs_drop (s : S) (inputs : List I) (k : ℕ) :
    (outputs step s inputs).drop k = outputs step (after step s (inputs.take k)) (inputs.drop k) := by
  induction inputs generalizing s k with
  | nil => simp
  | cons i rest ih =>
    cases k with
    | zero => rfl
    | succ k => simp only [outputs, after, List.drop_succ_cons, List.take_succ_cons, ih]

/-- A machine related to another that sees less of every input stays related along every run. -/
theorem after_simulation (other : T → J → T × P) (view : I → J) (rel : S → T → Prop)
    (hstep : ∀ s t i, rel s t → rel (step s i).1 (other t (view i)).1) (s : S) (t : T) (h : rel s t)
    (inputs : List I) : rel (after step s inputs) (after other t (inputs.map view)) := by
  induction inputs generalizing s t with
  | nil => exact h
  | cons i rest ih => exact ih _ _ (hstep s t i h)

/-- Related machines give the same answers along every run, as far as they are observed. -/
theorem outputs_simulation (other : T → J → T × P) (view : I → J) (observe : O → P)
    (rel : S → T → Prop)
    (hstep : ∀ s t i, rel s t →
      rel (step s i).1 (other t (view i)).1 ∧ observe (step s i).2 = (other t (view i)).2)
    (s : S) (t : T) (h : rel s t) (inputs : List I) :
    (outputs step s inputs).map observe = outputs other t (inputs.map view) := by
  induction inputs generalizing s t with
  | nil => rfl
  | cons i rest ih =>
    obtain ⟨hrel, hout⟩ := hstep s t i h
    simp only [outputs, List.map_cons, hout, ih _ _ hrel]

end RemoteManage.Foundation.Mealy
