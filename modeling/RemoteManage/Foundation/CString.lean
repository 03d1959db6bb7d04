import Mathlib.Data.List.Infix

/-!
# Texts as C sees them

A text is a list of bytes; behind its end there is a zero. Only what the programs ask of a
text is modelled: whether a known text is found at its beginning, what a table lists under
it, where it ends in memory, and which tokens a separator makes of it.
-/

namespace RemoteManage.Foundation.CString

/-- The bytes of a text that consists of ASCII characters. -/
def bytes (text : String) : List UInt8 := text.toList.map fun c => c.toNat.toUInt8

/-- `strncmp(left, right, n) == 0`: the texts agree up to a zero or for `n` bytes. -/
def strncmpEq : ℕ → List UInt8 → List UInt8 → Bool
  | 0, _, _ => true
  | n + 1, left, right =>
    left.headD 0 = right.headD 0 && (left.headD 0 = 0 || strncmpEq n left.tail right.tail)

/-- What a table lists under a text. -/
def lookup {α : Type*} (table : List (String × α)) (text : List UInt8) : Option α :=
  (table.find? fun entry => bytes entry.1 = text).map Prod.snd

/-- The text at the beginning of memory, if there is a zero behind it. -/
def textAt (memory : List UInt8) : Option (List UInt8) :=
  if 0 ∈ memory then some (memory.takeWhile (· ≠ 0)) else none

/-- The tokens that calls of `getline` find up to the end of the text. Behind a separator that ends the
text there is no further token. -/
def split (delimiter : UInt8) : List UInt8 → List (List UInt8)
  | [] => []
  | c :: text =>
    if c = delimiter then [] :: split delimiter text
    else
      match split delimiter text with
      | [] => [[c]]
      | token :: tokens => (c :: token) :: tokens

/-- What stops a scan ends it where it stands at the latest. -/
theorem takeWhile_append_stop {α : Type*} {p : α → Bool} {stop : α} (h : p stop = false) (l rest : List α) :
    (l ++ stop :: rest).takeWhile p = l.takeWhile p := by
  induction l with
  | nil => simp [h]
  | cons c l ih => rw [List.cons_append, List.takeWhile_cons, List.takeWhile_cons, ih]

/-- A text ends at the first zero. -/
theorem textAt_append_zero (text memory : List UInt8) :
    textAt (text ++ 0 :: memory) = some (text.takeWhile (· ≠ 0)) := by
  have hmem : (0 : UInt8) ∈ text ++ 0 :: memory := List.mem_append_right _ List.mem_cons_self
  rw [textAt, if_pos hmem, takeWhile_append_stop (by decide)]

/-- What is listed under a text is an entry of the table. -/
theorem mem_of_lookup {α : Type*} {table : List (String × α)} {text : List UInt8} {x : α}
    (h : lookup table text = some x) : ∃ name, (name, x) ∈ table ∧ bytes name = text := by
  obtain ⟨⟨name, y⟩, hfind, rfl⟩ := Option.map_eq_some_iff.mp h
  have hname := List.find?_some hfind
  exact ⟨name, List.mem_of_find?_eq_some hfind, of_decide_eq_true hname⟩

/-- One call of `getline` takes the characters up to the next separator and drops the separator. -/
theorem split_of_ne_nil (delimiter : UInt8) {text : List UInt8} (h : text ≠ []) :
    split delimiter text = text.takeWhile (· ≠ delimiter) ::
      split delimiter (text.dropWhile (· ≠ delimiter)).tail := by
  induction text with
  | nil => contradiction
  | cons c text ih =>
    by_cases hc : c = delimiter
    · simp [split, hc]
    · cases text with
      | nil => simp [split, hc]
      | cons d text =>
        rw [split, if_neg hc, ih (List.cons_ne_nil d text)]
        simp [hc]

/-- The first token is a known one where the text is that token or goes on behind it with a separator. -/
theorem takeWhile_ne_eq_iff {delimiter : UInt8} {token : List UInt8} (h : delimiter ∉ token)
    (text : List UInt8) :
    text.takeWhile (· ≠ delimiter) = token ↔ text = token ∨ token ++ [delimiter] <+: text := by
  induction text generalizing token with
  | nil => cases token <;> simp
  | cons c text ih =>
    by_cases hc : c = delimiter
    · subst hc
      rw [List.takeWhile_cons_of_neg (by simp)]
      cases token with
      | nil => simp
      | cons d token =>
        have hd : d ≠ c := fun heq => h (heq ▸ List.mem_cons_self)
        simp [hd, Ne.symm hd]
    · rw [List.takeWhile_cons_of_pos (by simpa using hc)]
      cases token with
      | nil => simp [Ne.symm hc]
      | cons d token =>
        have hrest := ih fun hmem => h (List.mem_cons_of_mem d hmem)
        by_cases hd : c = d
        · simp only [hd, List.cons.injEq, true_and, List.cons_append, List.cons_prefix_cons, hrest]
        · simp [hd, Ne.symm hd]

/-- A token holds no separator. -/
theorem not_mem_of_mem_split {delimiter : UInt8} {text token : List UInt8}
    (h : token ∈ split delimiter text) : delimiter ∉ token := by
  induction text generalizing token with
  | nil => contradiction
  | cons c text ih =>
    by_cases hc : c = delimiter
    · rw [split, if_pos hc] at h
      rcases List.mem_cons.mp h with rfl | h
      · exact List.not_mem_nil
      · exact ih h
    · have hne : delimiter ≠ c := Ne.symm hc
      rw [split, if_neg hc] at h
      cases htokens : split delimiter text with
      | nil =>
        rw [htokens] at h
        obtain rfl := List.mem_singleton.mp h
        exact fun hmem => hne (List.mem_singleton.mp hmem)
      | cons first rest =>
        rw [htokens] at h ih
        rcases List.mem_cons.mp h with rfl | h
        · exact fun hmem => (List.mem_cons.mp hmem).elim hne (ih List.mem_cons_self)
        · exact ih (List.mem_cons_of_mem first h)

/-- Comparing as many bytes as a text without zeros has finds out whether the other begins with it. -/
theorem strncmpEq_iff_prefix (left right : List UInt8) (h : 0 ∉ left) :
    strncmpEq left.length left right = true ↔ left <+: right := by
  induction left generalizing right with
  | nil => simp [strncmpEq]
  | cons c left ih =>
    obtain ⟨hc, hleft⟩ := not_or.mp (List.mem_cons.not.mp h)
    have hc' : c ≠ 0 := Ne.symm hc
    cases right with
    | nil => simp [strncmpEq, hc']
    | cons d right =>
      rw [List.length_cons, List.cons_prefix_cons, ← ih right hleft]
      simp [strncmpEq, hc']

end RemoteManage.Foundation.CString
