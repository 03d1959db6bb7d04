import Mathlib.Data.List.Basic
import Mathlib.Data.List.Infix

/-!
# Posix paths as Node reads them

`path.join`, `path.normalize` and `path.extname` on lists of characters, as Node documents them. A path
is a row of segments between slashes: empty segments and `.` are nothing, a name goes one directory down
and `..` one up. `climb` says of a relative path how far it climbs above where it starts, and by which
names it comes down again; joined to an absolute directory it drops so many of its names and
puts its own in their place.
-/

namespace RemoteManage.Foundation.PosixPath

/-- A part of a path between two slashes. -/
abbrev Segment := List Char

/-- The parts of a path between its slashes. -/
def segments (path : List Char) : List Segment := path.splitOn '/'

/-- The parts of a path that are not empty. -/
def components (path : List Char) : List Segment := (segments path).filter (· ≠ [])

/-- The segment names an entry of a directory. -/
def IsName (s : Segment) : Prop := s ≠ [] ∧ s ≠ ['.'] ∧ s ≠ ['.', '.'] ∧ '/' ∉ s

instance (s : Segment) : Decidable (IsName s) := inferInstanceAs (Decidable (_ ∧ _ ∧ _ ∧ _))

/-- One segment of a path, on the segments kept so far; the last one kept stands first. -/
def resolve (allowAboveRoot : Bool) (kept : List Segment) (s : Segment) : List Segment :=
  if s = [] ∨ s = ['.'] then kept
  else if s = ['.', '.'] then
    match kept with
    | [] => if allowAboveRoot then [s] else []
    | last :: rest =>
      if last = ['.', '.'] then (if allowAboveRoot then s :: kept else kept) else rest
  else s :: kept

/-- The slash at the end of a path, when it stays. -/
def trailingSlash (path : List Char) : List Char := if path.getLast? = some '/' then ['/'] else []

/-- `path.normalize`. -/
def normalize (path : List Char) : List Char :=
  let absolute := path.head? = some '/'
  let kept := ['/'].intercalate ((segments path).foldl (resolve !absolute) []).reverse
  if path = [] then ['.']
  else if kept = [] then
    if absolute then ['/'] else '.' :: trailingSlash path
  else (if absolute then ['/'] else []) ++ kept ++ trailingSlash path

/-- `path.join`. -/
def join (paths : List (List Char)) : List Char := normalize (['/'].intercalate (paths.filter (· ≠ [])))

/-- The extension of a file name, with its dot; a dot at the beginning does not count. -/
def nameExtension (base : Segment) : List Char :=
  let afterDot := base.reverse.takeWhile (· ≠ '.')
  let beforeDot := base.reverse.drop (afterDot.length + 1)
  if beforeDot = [] ∨ base = ['.', '.'] then [] else '.' :: afterDot.reverse

/-- `path.extname`. -/
def extname (path : List Char) : List Char :=
  match (components path).getLast? with
  | none => []
  | some base => nameExtension base

example : extname "/webpage/js/axios.js.map".toList = ".map".toList := by decide

example : extname "/home/.profile".toList = [] := by decide

/-- One segment of a relative path, on how far it has climbed and the names it has come down by since, the
last one first. -/
def climbStep (c : ℕ × List Segment) (s : Segment) : ℕ × List Segment :=
  if s = [] ∨ s = ['.'] then c
  else if s = ['.', '.'] then
    match c.2 with
    | [] => (c.1 + 1, [])
    | _ :: rest => (c.1, rest)
  else (c.1, s :: c.2)

/-- How far a relative path climbs above its start, and the names by which it then comes down. -/
def climb (path : List Char) : ℕ × List Segment :=
  let c := (segments path).foldl climbStep (0, [])
  (c.1, c.2.reverse)

/-- The path lies under the directory. -/
def Under (directory path : List Char) : Prop := components directory <+: components path

section Components

/-- A slash separates components. -/
theorem components_append_slash (left right : List Char) :
    components (left ++ '/' :: right) = components left ++ components right := by
  simp only [components, segments, List.splitOn_append_cons_self, List.filter_append]

@[simp] theorem components_nil : components [] = [] := rfl

/-- A slash in front adds no component. -/
@[simp] theorem components_slash_cons (path : List Char) : components ('/' :: path) = components path :=
  components_append_slash [] path

/-- A slash at the end adds no component. -/
@[simp] theorem components_append_slash_nil (path : List Char) :
    components (path ++ ['/']) = components path := by
  rw [components_append_slash, components_nil, List.append_nil]

/-- What stays of the slash at the end adds no component. -/
theorem components_append_trailingSlash (left path : List Char) :
    components (left ++ trailingSlash path) = components left := by
  unfold trailingSlash
  split
  · exact components_append_slash_nil left
  · rw [List.append_nil]

/-- A name is a path of one component. -/
theorem components_of_isName {s : Segment} (h : IsName s) : components s = [s] := by
  rw [components, segments, List.splitOn_eq_singleton h.2.2.2]
  simp [h.1]

/-- The components of names with slashes between them. -/
theorem components_intercalate {names : List Segment} (h : ∀ s ∈ names, IsName s) :
    components (['/'].intercalate names) = names := by
  induction names with
  | nil => rfl
  | cons s rest ih =>
    have hs := components_of_isName (h s List.mem_cons_self)
    have hrest := ih fun t ht => h t (List.mem_cons_of_mem s ht)
    cases rest with
    | nil => simpa using hs
    | cons t rest =>
      rw [List.intercalate_cons_cons, List.append_assoc, List.singleton_append, components_append_slash, hs,
        hrest, List.singleton_append]

end Components

section Resolve

variable {allowAboveRoot : Bool} {kept : List Segment}

/-- An empty segment changes nothing. -/
theorem resolve_nil : resolve allowAboveRoot kept [] = kept := if_pos (.inl rfl)

/-- A name is kept. -/
theorem resolve_of_isName {s : Segment} (h : IsName s) : resolve allowAboveRoot kept s = s :: kept := by
  simp [resolve, h.1, h.2.1, h.2.2.1]

/-- Empty segments can be left out. -/
theorem foldl_resolve_components (kept : List Segment) (path : List Char) :
    (segments path).foldl (resolve allowAboveRoot) kept =
      (components path).foldl (resolve allowAboveRoot) kept := by
  unfold components
  induction segments path generalizing kept with
  | nil => rfl
  | cons s rest ih =>
    by_cases h : s = []
    · simp [h, resolve_nil, ih]
    · simp [h, ih]

/-- Names are kept one after the other. -/
theorem foldl_resolve_of_isName {names : List Segment} (h : ∀ s ∈ names, IsName s) (kept : List Segment) :
    names.foldl (resolve allowAboveRoot) kept = names.reverse ++ kept := by
  induction names generalizing kept with
  | nil => rfl
  | cons s rest ih =>
    rw [List.foldl_cons, resolve_of_isName (h s List.mem_cons_self),
      ih fun t ht => h t (List.mem_cons_of_mem s ht), List.reverse_cons, List.append_assoc,
      List.singleton_append]

/-- The segments of a path never contain a slash. -/
theorem slash_not_mem_segments (path : List Char) : ∀ s ∈ segments path, '/' ∉ s := by
  unfold segments
  induction path with
  | nil => simp
  | cons x rest ih =>
    obtain ⟨first, others, hsplit⟩ := List.exists_cons_of_ne_nil (List.splitOn_ne_nil '/' rest)
    rw [List.splitOn_cons_eq_if_modifyHead]
    rw [hsplit] at ih ⊢
    by_cases hx : x = '/'
    · simpa [hx] using ih
    · simpa [hx, Ne.symm hx] using ih

/-- What a relative path comes down by are names. -/
theorem climbStep_isName {c : ℕ × List Segment} {s : Segment} (hc : ∀ t ∈ c.2, IsName t) (hs : '/' ∉ s) :
    ∀ t ∈ (climbStep c s).2, IsName t := by
  unfold climbStep
  split
  · exact hc
  · next hskip =>
    split
    · split
      · simp
      · next heq => exact fun t ht => hc t (heq ▸ List.mem_cons_of_mem _ ht)
    · next hup =>
      rw [not_or] at hskip
      exact List.forall_mem_cons.mpr ⟨⟨hskip.1, hskip.2, hup, hs⟩, hc⟩

/-- One segment below an absolute directory: what has been climbed is gone from it, and the names stand in
its place. -/
theorem resolve_climbStep {base : List Segment} (hbase : ∀ s ∈ base, IsName s) {c : ℕ × List Segment}
    (hc : ∀ s ∈ c.2, IsName s) (s : Segment) :
    resolve false (c.2 ++ base.drop c.1) s = (climbStep c s).2 ++ base.drop (climbStep c s).1 := by
  obtain ⟨ups, names⟩ := c
  unfold resolve climbStep
  split
  · rfl
  split
  · cases names with
    | nil =>
      rw [List.nil_append, List.nil_append, ← List.drop_drop]
      cases hdrop : base.drop ups with
      | nil => rfl
      | cons last rest =>
        have hlast := hbase last (List.mem_of_mem_drop (hdrop ▸ List.mem_cons_self))
        exact if_neg hlast.2.2.1
    | cons last rest => exact if_neg (hc last List.mem_cons_self).2.2.1
  · rfl

/-- A relative path below an absolute directory. -/
theorem foldl_resolve_climbStep {base : List Segment} (hbase : ∀ s ∈ base, IsName s) (segs : List Segment)
    (hsegs : ∀ s ∈ segs, '/' ∉ s) {c : ℕ × List Segment} (hc : ∀ s ∈ c.2, IsName s) :
    segs.foldl (resolve false) (c.2 ++ base.drop c.1) =
      (segs.foldl climbStep c).2 ++ base.drop (segs.foldl climbStep c).1 ∧
    ∀ s ∈ (segs.foldl climbStep c).2, IsName s := by
  induction segs generalizing c with
  | nil => exact ⟨rfl, hc⟩
  | cons s rest ih =>
    have hnext := climbStep_isName hc (hsegs s List.mem_cons_self)
    rw [List.foldl_cons, List.foldl_cons, resolve_climbStep hbase hc]
    exact ih (fun t ht => hsegs t (List.mem_cons_of_mem s ht)) hnext

/-- A directory that is an absolute path without dots. -/
structure IsDirectory (directory : List Char) : Prop where
  absolute : directory.head? = some '/'
  names : ∀ s ∈ components directory, IsName s

/-- What an absolute path keeps of its segments is found in its normal form. -/
theorem components_normalize {path : List Char} (habsolute : path.head? = some '/')
    (hnames : ∀ s ∈ (segments path).foldl (resolve false) [], IsName s) :
    components (normalize path) = ((segments path).foldl (resolve false) []).reverse := by
  have hnames' : ∀ s ∈ ((segments path).foldl (resolve false) []).reverse, IsName s := by simpa using hnames
  have hne : path ≠ [] := by
    rintro rfl
    contradiction
  simp only [normalize, habsolute, decide_true, Bool.not_true, hne, if_false, if_true]
  split
  · next hkept =>
    have hcomponents := components_intercalate hnames'
    rw [hkept] at hcomponents
    exact hcomponents
  · rw [components_append_trailingSlash, List.singleton_append, components_slash_cons,
      components_intercalate hnames']

/-- The segments of a path joined to a directory. -/
theorem foldl_resolve_join {directory : List Char} (h : IsDirectory directory) (path : List Char) :
    (segments (directory ++ '/' :: path)).foldl (resolve false) [] =
        (climb path).2.reverse ++ (components directory).reverse.drop (climb path).1 ∧
      ∀ s ∈ (climb path).2, IsName s := by
  have hbase : ∀ s ∈ (components directory).reverse, IsName s := by simpa using h.names
  obtain ⟨hfold, hnames⟩ := foldl_resolve_climbStep hbase (segments path) (slash_not_mem_segments path)
    (c := (0, [])) (by simp)
  refine ⟨?_, by simpa [climb] using hnames⟩
  rw [segments, List.splitOn_append_cons_self, List.foldl_append]
  change (segments path).foldl _ ((segments directory).foldl _ []) = _
  rw [foldl_resolve_components [] directory, foldl_resolve_of_isName h.names, List.append_nil]
  simpa [climb] using hfold

/-- A path joined to a directory drops the names it climbs over and puts its own in their place. -/
theorem components_join {directory path : List Char} (h : IsDirectory directory) :
    components (join [directory, path]) =
      (components directory).take ((components directory).length - (climb path).1) ++ (climb path).2 := by
  obtain ⟨hfold, hnames⟩ := foldl_resolve_join h path
  have hkept : ∀ s ∈ (climb path).2.reverse ++ (components directory).reverse.drop (climb path).1,
      IsName s := by
    intro s hs
    rcases List.mem_append.mp hs with hs | hs
    · exact hnames s (List.mem_reverse.mp hs)
    · exact h.names s (List.mem_reverse.mp (List.mem_of_mem_drop hs))
  obtain ⟨joined, hjoined, habsolute, hsegments⟩ : ∃ joined, join [directory, path] = normalize joined ∧
      joined.head? = some '/' ∧ (segments joined).foldl (resolve false) [] =
        (climb path).2.reverse ++ (components directory).reverse.drop (climb path).1 := by
    have hne : directory ≠ [] := by
      rintro rfl
      exact absurd h.absolute (by simp)
    cases path with
    | nil =>
      refine ⟨directory, by simp [join, hne], h.absolute, ?_⟩
      rw [← hfold, segments, segments, List.splitOn_append_cons_self, List.foldl_append]
      rfl
    | cons x rest =>
      refine ⟨directory ++ '/' :: x :: rest, by simp [join, hne], ?_, hfold⟩
      rw [List.head?_append_of_ne_nil _ hne, h.absolute]
  rw [hjoined, components_normalize habsolute (hsegments ▸ hkept), hsegments, List.reverse_append,
    List.reverse_reverse, List.drop_reverse, List.reverse_reverse]

/-- A path joined to a directory stays under it exactly when the names by which it comes down begin with
those it has climbed over. -/
theorem under_join_iff {directory path : List Char} (h : IsDirectory directory) :
    Under directory (join [directory, path]) ↔
      (components directory).drop ((components directory).length - (climb path).1) <+: (climb path).2 := by
  rw [Under, components_join h]
  nth_rewrite 1 [← List.take_append_drop ((components directory).length - (climb path).1)
    (components directory)]
  exact List.prefix_append_right_inj _

end Resolve

example : join ["/home/webpage/".toList, "/js/../index.html".toList] = "/home/webpage/index.html".toList := by
  decide

example : join ["/home/webpage/".toList, "/../main.js".toList] = "/home/main.js".toList := by decide

end RemoteManage.Foundation.PosixPath
