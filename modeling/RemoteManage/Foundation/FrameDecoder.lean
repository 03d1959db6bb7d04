import Mathlib.Data.List.ReduceOption
import RemoteManage.Foundation.Mealy

/-!
# Incremental frame decoders

A decoder is fed one symbol at a time and keeps the symbols of the frame in progress.
Each symbol extends or replaces what is held, discards it, or completes a frame. What a
decoder does with a stream is the list of its reports, one for each symbol: the frame
completed by that symbol, if any.

A sequence is *read* by a decoder when, fed from nothing held, it is held symbol by symbol
and completed by its last one. A concatenation of such sequences is reported frame by
frame, each at its last symbol and nowhere else, without any assumption on what the
symbols are.
-/

namespace RemoteManage.Foundation

variable {α : Type*}

/-- What one more symbol does to the symbols held for the frame in progress. -/
inductive Progress (α : Type*) where
  | hold (held : List α)
  | reject
  | frame (symbols : List α)

namespace Progress

/-- The symbols held afterwards; a completed frame is no longer held. -/
def held : Progress α → List α
  | hold l => l
  | reject => []
  | frame _ => []

/-- The frame completed, if any. -/
def completed : Progress α → Option (List α)
  | hold _ => none
  | reject => none
  | frame f => some f

end Progress

/-- A decoder says what a symbol does to the symbols held. -/
abbrev FrameDecoder (α : Type*) := List α → α → Progress α

namespace FrameDecoder

/-- The decoder as a machine: its state is what it holds, its output the completed frame. -/
def step (d : FrameDecoder α) (held : List α) (x : α) : List α × Option (List α) :=
  ((d held x).held, (d held x).completed)

/-- The symbols held after a stream. -/
def heldAfter (d : FrameDecoder α) : List α → List α → List α := Mealy.after d.step

/-- The frames completed by the symbols of a stream, symbol by symbol. -/
def reports (d : FrameDecoder α) : List α → List α → List (Option (List α)) := Mealy.outputs d.step

/-- The report list of a frame that is completed by its last symbol. -/
def marks (rest f : List α) : List (Option (List α)) :=
  List.replicate (rest.length - 1) none ++ [some f]

/-- Fed from nothing held, the sequence is held as it comes and completed by its last symbol. -/
structure Reads (d : FrameDecoder α) (f : List α) : Prop where
  ne_nil : f ≠ []
  hold : ∀ held x rest, f = held ++ x :: rest → rest ≠ [] → d held x = .hold (held ++ [x])
  complete : ∀ held x, f = held ++ [x] → d held x = .frame f

/-- The only frame of such a list. -/
theorem reduceOption_marks (rest f : List α) : (marks rest f).reduceOption = [f] := by
  rw [marks, List.reduceOption_append, List.reduceOption_replicate_none, List.nil_append,
    List.reduceOption_singleton]
  rfl

variable {d : FrameDecoder α}

/-- The rest of a frame of which a first part is held is reported once, at its end. -/
theorem reports_of_reads {f : List α} (h : Reads d f) (held rest : List α) (hf : f = held ++ rest)
    (hrest : rest ≠ []) :
    reports d held rest = marks rest f ∧ heldAfter d held rest = [] := by
  induction rest generalizing held with
  | nil => exact absurd rfl hrest
  | cons x rest ih =>
    by_cases hlast : rest = []
    · subst hlast
      have hx := h.complete held x hf
      simp [reports, heldAfter, Mealy.outputs, Mealy.after, step, hx, marks, Progress.held,
        Progress.completed]
    · have hx := h.hold held x rest hf hlast
      have hf' : f = (held ++ [x]) ++ rest := by rw [hf, List.append_assoc, List.singleton_append]
      obtain ⟨hreports, hheld⟩ := ih (held ++ [x]) hf' hlast
      have hlen : 1 ≤ rest.length := List.length_pos_iff.mpr hlast
      refine ⟨?_, ?_⟩
      · change (d held x).completed :: reports d (d held x).held rest = _
        rw [hx]
        change none :: reports d (held ++ [x]) rest = _
        rw [hreports, marks, marks, List.length_cons, Nat.add_sub_cancel,
          ← List.cons_append, ← List.replicate_succ, Nat.sub_add_cancel hlen]
      · change heldAfter d (d held x).held rest = []
        rw [hx]
        exact hheld

/-- A stream of frames is reported frame by frame, each at its last symbol and nowhere else. -/
theorem reports_flatten (frames : List (List α)) (h : ∀ f ∈ frames, Reads d f) :
    reports d [] frames.flatten = frames.flatMap (fun f => marks f f) ∧
      heldAfter d [] frames.flatten = [] := by
  induction frames with
  | nil => exact ⟨rfl, rfl⟩
  | cons f frames ih =>
    have hf := h f List.mem_cons_self
    obtain ⟨hreports, hheld⟩ := reports_of_reads hf [] f rfl hf.ne_nil
    obtain ⟨htail, hend⟩ := ih fun g hg => h g (List.mem_cons_of_mem f hg)
    simp only [reports, heldAfter] at hreports hheld htail hend ⊢
    rw [List.flatten_cons, List.flatMap_cons, Mealy.outputs_append, Mealy.after_append,
      hreports, hheld, htail, hend]
    exact ⟨rfl, rfl⟩

/-- Fed from nothing held, the sequence is held as it comes and given up with its last symbol. -/
structure Drops (d : FrameDecoder α) (f : List α) : Prop where
  ne_nil : f ≠ []
  hold : ∀ held x rest, f = held ++ x :: rest → rest ≠ [] → d held x = .hold (held ++ [x])
  giveUp : ∀ held x, f = held ++ [x] → d held x = .reject

/-- The rest of a sequence of which a first part is held reports nothing when it is given up. -/
theorem reports_of_drops {f : List α} (h : Drops d f) (held rest : List α) (hf : f = held ++ rest)
    (hrest : rest ≠ []) :
    (reports d held rest).reduceOption = [] ∧ heldAfter d held rest = [] := by
  induction rest generalizing held with
  | nil => exact absurd rfl hrest
  | cons x rest ih =>
    change ((d held x).completed :: reports d (d held x).held rest).reduceOption = [] ∧
      heldAfter d (d held x).held rest = []
    by_cases hlast : rest = []
    · subst hlast
      rw [h.giveUp held x hf]
      exact ⟨rfl, rfl⟩
    · rw [h.hold held x rest hf hlast]
      exact ih (held ++ [x]) (by rw [hf, List.append_assoc, List.singleton_append]) hlast

/-- Of sequences each of which is read or given up, those that are read are reported, in their order. -/
theorem reports_flatMap {β : Type*} (items : List β) (symbols : β → List α) (whole : β → Bool)
    (h : ∀ i ∈ items, if whole i then Reads d (symbols i) else Drops d (symbols i)) :
    (reports d [] (items.flatMap symbols)).reduceOption = (items.filter whole).map symbols ∧
      heldAfter d [] (items.flatMap symbols) = [] := by
  induction items with
  | nil => exact ⟨rfl, rfl⟩
  | cons i items ih =>
    have hi := h i List.mem_cons_self
    have hitem : (reports d [] (symbols i)).reduceOption = (if whole i then [symbols i] else []) ∧
        heldAfter d [] (symbols i) = [] := by
      split at hi
      · next hwhole =>
        obtain ⟨hreports, hheld⟩ := reports_of_reads hi [] (symbols i) rfl hi.ne_nil
        rw [hreports, reduceOption_marks, if_pos hwhole]
        exact ⟨rfl, hheld⟩
      · next hwhole =>
        rw [if_neg hwhole]
        exact reports_of_drops hi [] (symbols i) rfl hi.ne_nil
    obtain ⟨htail, hend⟩ := ih fun j hj => h j (List.mem_cons_of_mem i hj)
    simp only [reports, heldAfter] at hitem htail hend ⊢
    rw [List.flatMap_cons, Mealy.outputs_append, Mealy.after_append, List.reduceOption_append, hitem.1,
      hitem.2, htail, hend, List.filter_cons]
    refine ⟨?_, rfl⟩
    split <;> rfl

/-- As long as what is held satisfies `inv`, what the decoder keeps satisfies it again, and what
it keeps or reports is a suffix of what it held with the new symbol. -/
structure Suffixing (d : FrameDecoder α) (inv : List α → Prop) : Prop where
  nil : inv []
  hold : ∀ held x l, inv held → d held x = .hold l → inv l ∧ l <:+ held ++ [x]
  frame : ∀ held x f, inv held → d held x = .frame f → f <:+ held ++ [x]

variable {inv : List α → Prop}

/-- After a stream the invariant holds, and the symbols held are the last of the stream. -/
theorem heldAfter_suffix (hd : Suffixing d inv) (stream : List α) :
    inv (heldAfter d [] stream) ∧ heldAfter d [] stream <:+ stream := by
  refine Mealy.after_history d.step (fun history held => inv held ∧ held <:+ history) ?_ [] []
    ⟨hd.nil, List.suffix_refl _⟩ stream
  intro history held x ⟨hinv, hsuffix⟩
  unfold step
  cases hx : d held x with
  | hold l =>
    obtain ⟨hl, hkept⟩ := hd.hold held x l hinv hx
    obtain ⟨before, rfl⟩ := hsuffix
    exact ⟨hl, hkept.trans ⟨before, by rw [List.append_assoc]⟩⟩
  | reject => exact ⟨hd.nil, List.nil_suffix⟩
  | frame f => exact ⟨hd.nil, List.nil_suffix⟩

/-- A reported frame is the last symbols of the stream up to its report. -/
theorem reported_suffix (hd : Suffixing d inv) (stream : List α) (x : α) {f : List α}
    (h : d (heldAfter d [] stream) x = .frame f) : f <:+ stream ++ [x] := by
  obtain ⟨hinv, before, hbefore⟩ := heldAfter_suffix hd stream
  exact (hd.frame _ x f hinv h).trans ⟨before, by rw [← List.append_assoc, hbefore]⟩

/-- What a stream reports, it reports at one of its symbols. -/
theorem exists_of_mem_reports (hd : Suffixing d inv) {stream f : List α}
    (h : some f ∈ reports d [] stream) :
    ∃ before x rest, stream = before ++ x :: rest ∧ inv (heldAfter d [] before) ∧
      d (heldAfter d [] before) x = .frame f := by
  obtain ⟨before, x, rest, hstream, hf⟩ := (Mealy.mem_outputs_iff d.step _ _ _).mp h
  refine ⟨before, x, rest, hstream, (heldAfter_suffix hd before).1, ?_⟩
  change some f = (d (heldAfter d [] before) x).completed at hf
  cases hx : d (heldAfter d [] before) x with
  | hold l =>
    rw [hx] at hf
    contradiction
  | reject =>
    rw [hx] at hf
    contradiction
  | frame g =>
    rw [hx] at hf
    exact congrArg Progress.frame (Option.some.inj hf).symm

/-- A reported frame that is as long as the whole stream is the stream. -/
theorem eq_of_mem_reports (hd : Suffixing d inv) {stream f : List α} (h : some f ∈ reports d [] stream)
    (hlen : stream.length ≤ f.length) : f = stream := by
  obtain ⟨before, x, rest, rfl, -, hf⟩ := exists_of_mem_reports hd h
  have hsuffix := reported_suffix hd before x hf
  have hle := hsuffix.length_le
  simp only [List.length_append, List.length_cons, List.length_nil] at hle hlen
  obtain rfl : rest = [] := List.length_eq_zero_iff.mp (by omega)
  exact hsuffix.eq_of_length (by simp only [List.length_append, List.length_cons, List.length_nil]; omega)

/-- A decoder that holds one symbol more with every symbol, and always fewer than `bound`,
leaves the frame in progress before `bound` symbols are reached. -/
theorem exists_leaves {inv : List α → Prop} {bound : ℕ}
    (hgrow : ∀ held x l, inv held → d held x = .hold l → inv l ∧ l.length = held.length + 1)
    (hbound : ∀ held, inv held → held.length < bound) (held more : List α) (hinv : inv held)
    (hmore : bound ≤ held.length + more.length) :
    ∃ before x rest, more = before ++ x :: rest ∧ inv (heldAfter d held before) ∧
      ∀ l, d (heldAfter d held before) x ≠ .hold l := by
  induction more generalizing held with
  | nil =>
    have hlt := hbound held hinv
    simp only [List.length_nil] at hmore
    omega
  | cons x more ih =>
    by_cases hx : ∃ l, d held x = .hold l
    · obtain ⟨l, hl⟩ := hx
      obtain ⟨hinvl, hlen⟩ := hgrow held x l hinv hl
      obtain ⟨before, y, rest, rfl, hbefore, hleaves⟩ :=
        ih l hinvl (by rw [List.length_cons] at hmore; omega)
      have hheld : heldAfter d held (x :: before) = heldAfter d l before := by
        change heldAfter d (d held x).held before = _
        rw [hl]
        rfl
      exact ⟨x :: before, y, rest, rfl, hheld ▸ hbefore, hheld ▸ hleaves⟩
    · exact ⟨[], x, more, rfl, hinv, fun l hl => hx ⟨l, hl⟩⟩

/-- Between a sender and a decoder: the symbols held and those in transit are exactly the frames
that are still to be reported, and less than one frame is held. -/
structure Carries (d : FrameDecoder α) (held transit : List α) (pending : List (List α)) : Prop where
  flatten : held ++ transit = pending.flatten
  reads : ∀ f ∈ pending, d.Reads f
  short : ∀ f rest, pending = f :: rest → held.length < f.length

namespace Carries

variable {held transit : List α} {pending : List (List α)}

/-- Nothing is held, nothing is in transit, nothing is to be reported. -/
theorem nil (d : FrameDecoder α) : d.Carries [] [] [] where
  flatten := rfl
  reads _ hf := absurd hf List.not_mem_nil
  short f rest h := absurd h.symm (List.cons_ne_nil f rest)

/-- A frame put behind the symbols in transit is reported after those before it. -/
theorem append (h : d.Carries held transit pending) {f : List α} (hf : d.Reads f) :
    d.Carries held (transit ++ f) (pending ++ [f]) where
  flatten := by
    rw [← List.append_assoc, h.flatten, List.flatten_append, List.flatten_singleton]
  reads g hg := by
    rcases List.mem_append.mp hg with hg | hg
    · exact h.reads g hg
    · exact List.mem_singleton.mp hg ▸ hf
  short g rest hg := by
    cases pending with
    | nil =>
      have hheld : held = [] := (List.append_eq_nil_iff.mp h.flatten).1
      have hgf : f = g := (List.cons.inj hg).1
      rw [hheld, ← hgf]
      exact List.length_pos_iff.mpr hf.ne_nil
    | cons first others =>
      have hgf : first = g := (List.cons.inj hg).1
      exact hgf ▸ h.short first others rfl

/-- Frames put behind the symbols in transit are reported after those before them. -/
theorem appendAll (h : d.Carries held transit pending) (frames : List (List α))
    (hframes : ∀ f ∈ frames, d.Reads f) :
    d.Carries held (transit ++ frames.flatten) (pending ++ frames) := by
  induction frames generalizing transit pending with
  | nil => simpa using h
  | cons f frames ih =>
    have hf := h.append (hframes f List.mem_cons_self)
    have hrest := ih hf fun g hg => hframes g (List.mem_cons_of_mem f hg)
    rwa [List.append_assoc, List.append_assoc, List.singleton_append] at hrest

/-- Once nothing is in transit, every frame has been reported. -/
theorem pending_eq_nil (h : d.Carries held [] pending) : pending = [] := by
  cases pending with
  | nil => rfl
  | cons f rest =>
    have hlen := congrArg List.length h.flatten
    have hshort := h.short f rest rfl
    simp only [List.append_nil, List.flatten_cons, List.length_append] at hlen
    omega

/-- The next symbol either is held, or completes the first frame that is to be reported. -/
theorem step {x : α} (h : d.Carries held (x :: transit) pending) :
    (d held x = .hold (held ++ [x]) ∧ d.Carries (held ++ [x]) transit pending) ∨
      ∃ f rest, pending = f :: rest ∧ d held x = .frame f ∧ d.Carries [] transit rest := by
  cases pending with
  | nil =>
    have hnil : x :: transit = [] := (List.append_eq_nil_iff.mp h.flatten).2
    contradiction
  | cons f rest =>
    have hf := h.reads f List.mem_cons_self
    have hshort := h.short f rest rfl
    have hflatten := h.flatten
    rw [List.flatten_cons] at hflatten
    -- the first frame is what is held followed by a first part of what is in transit
    obtain ⟨part, rfl, htransit⟩ : ∃ part, f = held ++ part ∧ x :: transit = part ++ rest.flatten := by
      rcases List.append_eq_append_iff.mp hflatten with ⟨part, hpart, htail⟩ | ⟨part, hpart, -⟩
      · exact ⟨part, hpart, htail⟩
      · rw [hpart, List.length_append] at hshort
        omega
    cases part with
    | nil => simp at hshort
    | cons y part =>
      obtain ⟨rfl, rfl⟩ := List.cons.inj htransit
      by_cases hpart : part = []
      · subst hpart
        exact .inr ⟨_, rest, rfl, hf.complete held x rfl,
          ⟨rfl, fun g hg => h.reads g (List.mem_cons_of_mem _ hg), fun g others hg =>
            List.length_pos_iff.mpr (h.reads g (by rw [hg]; simp)).ne_nil⟩⟩
      · refine .inl ⟨hf.hold held x part rfl hpart, ?_, h.reads, ?_⟩
        · rw [List.append_assoc]
          exact h.flatten
        · intro g others hg
          have hlen := List.length_pos_iff.mpr hpart
          rw [← (List.cons.inj hg).1]
          simp only [List.length_append, List.length_cons, List.length_nil]
          omega

end Carries

end FrameDecoder

end RemoteManage.Foundation
