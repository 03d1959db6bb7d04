import Mathlib.Logic.Function.Basic
import Mathlib.Data.List.Infix

/-!
# Trees of values with named members

A value is null, a leaf, or an object with members under keys. A member that has not been set
is null, and a null value becomes an object when a member of it is set. Members of a leaf can
be neither read nor set.

A tree is written one path at a time. Where no path that is written leads through another one,
every write is possible and each path reads back what was written there (`setAll_null`).
-/

namespace RemoteManage.Foundation

/-- A tree whose leaves are values of `α` and whose members have keys in `κ`. -/
inductive ValueTree (κ α : Type*) where
  | null
  | leaf (value : α)
  | object (members : κ → ValueTree κ α)

namespace ValueTree

variable {κ α : Type*}

/-- All the members of a value that may have members. -/
def members : ValueTree κ α → Option (κ → ValueTree κ α)
  | null => some fun _ => null
  | leaf _ => none
  | object members => some members

/-- The value at the end of a path. -/
def get : List κ → ValueTree κ α → Option (ValueTree κ α)
  | [], t => some t
  | key :: path, t => t.members.bind fun members => get path (members key)

/-- The tree with another value at the end of a path. -/
def set [DecidableEq κ] : List κ → ValueTree κ α → ValueTree κ α → Option (ValueTree κ α)
  | [], value, _ => some value
  | key :: path, value, t => t.members.bind fun members =>
    (set path value (members key)).map fun child => object (Function.update members key child)

/-- The tree after several values have been set one after the other. -/
def setAll [DecidableEq κ] : List (List κ × ValueTree κ α) → ValueTree κ α → Option (ValueTree κ α)
  | [], t => some t
  | (path, value) :: rest, t => (set path value t).bind (setAll rest)

/-- Neither path leads through the other one. -/
def Apart (p q : List κ) : Prop := ¬ p <+: q ∧ ¬ q <+: p

instance [DecidableEq κ] (p q : List κ) : Decidable (Apart p q) := inferInstanceAs (Decidable (_ ∧ _))

/-- Being apart does not depend on the order. -/
theorem Apart.symm {p q : List κ} (h : Apart p q) : Apart q p := ⟨h.2, h.1⟩

/-- Everything under a null value is null. -/
theorem get_null (path : List κ) : get path (null : ValueTree κ α) = some null := by
  induction path with
  | nil => rfl
  | cons key path ih => exact ih

section Set

variable [DecidableEq κ] {path q : List κ} {value t t' : ValueTree κ α}

/-- A path can be set exactly where it can be read. -/
theorem set_isSome (path : List κ) (value t : ValueTree κ α) :
    (set path value t).isSome = (get path t).isSome := by
  induction path generalizing t with
  | nil => rfl
  | cons key path ih =>
    rw [set, get]
    cases t.members with
    | none => rfl
    | some members => rw [Option.bind_some, Option.bind_some, Option.isSome_map, ih]

/-- What has been set is read back. -/
theorem get_set (h : set path value t = some t') : get path t' = some value := by
  induction path generalizing t t' with
  | nil => exact h.symm
  | cons key path ih =>
    obtain ⟨members, -, hset⟩ := Option.bind_eq_some_iff.mp h
    obtain ⟨child, hchild, rfl⟩ := Option.map_eq_some_iff.mp hset
    rw [get, ValueTree.members, Option.bind_some, Function.update_self]
    exact ih hchild

/-- What lies apart from the path that is set is left as it was. -/
theorem get_set_of_apart (h : set path value t = some t') (hapart : Apart path q) :
    get q t' = get q t := by
  induction path generalizing t t' q with
  | nil => exact absurd List.nil_prefix hapart.1
  | cons key path ih =>
    obtain ⟨members, hmembers, hset⟩ := Option.bind_eq_some_iff.mp h
    obtain ⟨child, hchild, rfl⟩ := Option.map_eq_some_iff.mp hset
    cases q with
    | nil => exact absurd List.nil_prefix hapart.2
    | cons other q =>
      rw [get, get, hmembers, ValueTree.members, Option.bind_some, Option.bind_some]
      by_cases hkey : other = key
      · subst hkey
        rw [Function.update_self]
        refine ih hchild ⟨fun hle => hapart.1 ?_, fun hle => hapart.2 ?_⟩
        · exact List.cons_prefix_cons.mpr ⟨rfl, hle⟩
        · exact List.cons_prefix_cons.mpr ⟨rfl, hle⟩
      · rw [Function.update_of_ne hkey]

/-- What lies apart from all the paths that are set is left as it was. -/
theorem get_setAll_of_apart {entries : List (List κ × ValueTree κ α)} (h : setAll entries t = some t')
    (hapart : ∀ entry ∈ entries, Apart entry.1 q) : get q t' = get q t := by
  induction entries generalizing t with
  | nil => exact Option.some.inj h ▸ rfl
  | cons entry rest ih =>
    obtain ⟨next, hset, hrest⟩ := Option.bind_eq_some_iff.mp h
    rw [ih hrest fun e he => hapart e (List.mem_cons_of_mem entry he)]
    exact get_set_of_apart hset (hapart entry List.mem_cons_self)

/-- Where the paths are apart and can be read, all of them can be set, and each reads back its value. -/
theorem setAll_of_apart {entries : List (List κ × ValueTree κ α)}
    (hapart : (entries.map Prod.fst).Pairwise Apart)
    (hget : ∀ entry ∈ entries, (get entry.1 t).isSome = true) :
    ∃ t', setAll entries t = some t' ∧ ∀ entry ∈ entries, get entry.1 t' = some entry.2 := by
  induction entries generalizing t with
  | nil => exact ⟨t, rfl, fun _ h => absurd h List.not_mem_nil⟩
  | cons entry rest ih =>
    obtain ⟨hfirst, hrest⟩ := List.pairwise_cons.mp hapart
    have hentry (e : List κ × ValueTree κ α) (he : e ∈ rest) : Apart entry.1 e.1 :=
      hfirst e.1 (List.mem_map_of_mem he)
    obtain ⟨next, hset⟩ := Option.isSome_iff_exists.mp
      ((set_isSome entry.1 entry.2 t).trans (hget entry List.mem_cons_self))
    obtain ⟨t', hsetAll, hvalues⟩ := ih (t := next) hrest fun e he => by
      rw [get_set_of_apart hset (hentry e he)]
      exact hget e (List.mem_cons_of_mem entry he)
    refine ⟨t', Option.bind_eq_some_iff.mpr ⟨next, hset, hsetAll⟩, fun e he => ?_⟩
    rcases List.mem_cons.mp he with rfl | he
    · rw [get_setAll_of_apart hsetAll fun e he => (hentry e he).symm]
      exact get_set hset
    · exact hvalues e he

/-- Of paths that are apart a tree can be written, which holds their values and nothing else. -/
theorem setAll_null (entries : List (List κ × ValueTree κ α))
    (hapart : (entries.map Prod.fst).Pairwise Apart) :
    ∃ t, setAll entries null = some t ∧ (∀ entry ∈ entries, get entry.1 t = some entry.2) ∧
      ∀ q, (∀ path ∈ entries.map Prod.fst, Apart path q) → get q t = some null := by
  obtain ⟨t, hsetAll, hvalues⟩ := setAll_of_apart (t := null) hapart fun entry _ => by
    rw [get_null]
    rfl
  refine ⟨t, hsetAll, hvalues, fun q hq => ?_⟩
  rw [get_setAll_of_apart hsetAll fun entry hentry => hq entry.1 (List.mem_map_of_mem hentry), get_null]

end Set

end ValueTree

end RemoteManage.Foundation
