import RemoteManage.Foundation.PosixPath

/-!
# Static files of the node server

`static_engine.js`, which answers a request with a file of `webpage/` when the extension of its path is in a
table. `in` finds the members of `Object.prototype` in the table as well, and the path is only
joined to the directory, so that `..` segments of the URL lead out of it. Which URLs do is said
by how far they climb and by which names they come down again.

The file system is a parameter: what is found at a path is missing, a file that can be read, or something
that cannot, such as a directory.
-/

namespace RemoteManage.NodeServer

open RemoteManage.Foundation PosixPath

/-- A string of the source. -/
abbrev Text := List Char

/-- What is found at a path. -/
inductive FileStatus where
  | missing
  | regular (content : List UInt8)
  | unreadable
  deriving DecidableEq, Repr

/-- What `fs` finds, by path. -/
abbrev FileSystem := Text → FileStatus

/-- What is thrown: a member of `null` or `undefined` is used, a file cannot be read, or a URL is refused. -/
inductive Thrown where
  | typeError
  | readError
  | urlError
  deriving DecidableEq, Repr

/-- What a header is set to: a text, or the member of `Object.prototype` that a lookup has found. -/
inductive HeaderValue where
  | text (value : Text)
  | inherited (name : Text)
  deriving DecidableEq, Repr

/-- What `response.end` is called with. -/
inductive Body where
  | file (path : Text) (content : List UInt8)
  | text (value : Text)
  deriving DecidableEq, Repr

/-- A response, with every call of `response.end`. -/
structure Response where
  headers : List (Text × HeaderValue)
  statusCode : ℕ
  ended : List Body
  deriving DecidableEq, Repr

namespace Response

/-- The response to a new request. -/
def fresh : Response := ⟨[], 200, []⟩

/-- `response.setHeader`. -/
def setHeader (r : Response) (name : Text) (value : HeaderValue) : Response :=
  { r with headers := r.headers ++ [(name, value)] }

/-- `response.end`. -/
def finish (r : Response) (body : Body) : Response := { r with ended := r.ended ++ [body] }

end Response

/-- The members that every object inherits. -/
def objectPrototype : List Text :=
  ["constructor".toList, "hasOwnProperty".toList, "isPrototypeOf".toList, "propertyIsEnumerable".toList,
    "toLocaleString".toList, "toString".toList, "valueOf".toList, "__proto__".toList,
    "__defineGetter__".toList, "__defineSetter__".toList, "__lookupGetter__".toList,
    "__lookupSetter__".toList]

/-- `hasOwnKey`, which asks with `in`. -/
def hasOwnKey (obj : List (Text × Text)) (key : Text) : Bool :=
  (obj.lookup key).isSome || objectPrototype.contains key

/-- `obj[key]`, for a key that is in the object. -/
def member (obj : List (Text × Text)) (key : Text) : HeaderValue :=
  match obj.lookup key with
  | some value => .text value
  | none => .inherited key

/-- `contentTypeStatic`. -/
def contentTypeStatic : List (Text × Text) :=
  [("html".toList, "text/html".toList),
    ("xml".toList, "text/xml".toList),
    ("asp".toList, "text/asp".toList),
    ("css".toList, "text/css".toList),
    ("jpg".toList, "image/jpeg".toList),
    ("png".toList, "image/png".toList),
    ("ico".toList, "image/icon".toList),
    ("js".toList, "application/x-javascript".toList),
    ("map".toList, "text/map".toList)]

/-- `__dirname`: the directory of the program. -/
structure Dirname where
  path : Text
  isDirectory : IsDirectory path

/-- `localpath`. -/
def Dirname.localpath (d : Dirname) : Text := d.path ++ "/webpage/".toList

/-- `pathname`: the URL, or the index page. -/
def pathname (url : Text) : Text := if url = ['/'] then "index.html".toList else url

/-- `filepath`. -/
def Dirname.filepath (d : Dirname) (url : Text) : Text := join [d.localpath, pathname url]

/-- `ext`. -/
def Dirname.ext (d : Dirname) (url : Text) : Text := (extname (d.filepath url)).drop 1

/-- `engine_process` of `static_engine.js`. -/
def engineProcess (fs : FileSystem) (d : Dirname) (url : Text) (response : Response) :
    Except Thrown (Bool × Response) :=
  let filepath := d.filepath url
  let ext := d.ext url
  if hasOwnKey contentTypeStatic ext then
    let response := response.setHeader "content-type".toList (member contentTypeStatic ext)
    let response := response.setHeader "server".toList (.text "node".toList)
    match fs filepath with
    | .missing => .ok (true, { response with statusCode := 404 }.finish (.text "404 not found".toList))
    | .regular content => .ok (true, response.finish (.file filepath content))
    | .unreadable => .error .readError
  else .ok (false, response)

/-- `engine_process` answers the URL with the content of the file at a path. -/
def AnswersWithFile (fs : FileSystem) (d : Dirname) (url path : Text) (content : List UInt8) : Prop :=
  ∃ response, engineProcess fs d url .fresh = .ok (true, response) ∧ .file path content ∈ response.ended

/-- The URL does not lead out of `webpage/`, as far as it is answered with a file: it climbs over no name of
the directory that it does not come back by, or its extension is not listed, or there is no file. -/
def Confined (fs : FileSystem) (d : Dirname) (url : Text) : Prop :=
  (components d.localpath).drop ((components d.localpath).length - (climb (pathname url)).1) <+:
      (climb (pathname url)).2 ∨
    hasOwnKey contentTypeStatic (d.ext url) = false ∨ ∀ content, fs (d.filepath url) ≠ .regular content

/-- The directory of the pages is one directory below that of the program. -/
theorem components_localpath (d : Dirname) :
    components d.localpath = components d.path ++ ["webpage".toList] :=
  components_append_slash d.path "webpage/".toList

/-- The directory of the pages is an absolute path without dots. -/
theorem localpath_isDirectory (d : Dirname) : IsDirectory d.localpath where
  absolute := by
    have hne : d.path ≠ [] := by
      intro hnil
      have habsolute := d.isDirectory.absolute
      simp [hnil] at habsolute
    rw [Dirname.localpath, List.head?_append_of_ne_nil _ hne, d.isDirectory.absolute]
  names := by
    rw [components_localpath]
    intro s hs
    rcases List.mem_append.mp hs with hs | hs
    · exact d.isDirectory.names s hs
    · obtain rfl := List.mem_singleton.mp hs
      decide

/-- A URL without a listed extension is left to the other engine. -/
theorem engineProcess_of_not_listed (fs : FileSystem) {d : Dirname} {url : Text} (response : Response)
    (h : hasOwnKey contentTypeStatic (d.ext url) = false) :
    engineProcess fs d url response = .ok (false, response) := by
  rw [engineProcess, h]
  rfl

/-- A URL with a listed extension is answered once: with the file, if it can be read, or as not found. -/
theorem engineProcess_of_listed (fs : FileSystem) {d : Dirname} {url : Text} (response : Response)
    (h : hasOwnKey contentTypeStatic (d.ext url) = true) :
    ∃ headers, engineProcess fs d url response =
      match fs (d.filepath url) with
      | .missing => .ok (true, ⟨headers, 404, response.ended ++ [.text "404 not found".toList]⟩)
      | .regular content =>
        .ok (true, ⟨headers, response.statusCode, response.ended ++ [.file (d.filepath url) content]⟩)
      | .unreadable => .error .readError := by
  refine ⟨response.headers ++ [("content-type".toList, member contentTypeStatic (d.ext url))] ++
    [("server".toList, .text "node".toList)], ?_⟩
  rw [engineProcess, h]
  rfl

/-- A URL is answered with the file that its joined path names, when there is one and its extension is
listed. -/
theorem answersWithFile_iff (fs : FileSystem) (d : Dirname) (url path : Text) (content : List UInt8) :
    AnswersWithFile fs d url path content ↔
      hasOwnKey contentTypeStatic (d.ext url) = true ∧ fs (d.filepath url) = .regular content ∧
        path = d.filepath url := by
  rw [AnswersWithFile]
  cases hlisted : hasOwnKey contentTypeStatic (d.ext url) with
  | false =>
    rw [engineProcess_of_not_listed fs .fresh hlisted]
    simp
  | true =>
    obtain ⟨headers, hprocess⟩ := engineProcess_of_listed fs .fresh hlisted
    rw [hprocess]
    cases fs (d.filepath url) with
    | missing => simp [Response.fresh]
    | unreadable => simp
    | regular found =>
      simp only [Response.fresh, List.nil_append, Except.ok.injEq, Prod.mk.injEq, true_and,
        FileStatus.regular.injEq, exists_eq_left', List.mem_singleton, Body.file.injEq]
      rw [and_comm, eq_comm (a := content)]

/-- The server answers only with files under `webpage/` exactly for the URLs that are confined. -/
theorem answersWithFile_under_iff (fs : FileSystem) (d : Dirname) (url : Text) :
    (∀ path content, AnswersWithFile fs d url path content → Under d.localpath path) ↔
      Confined fs d url := by
  simp only [answersWithFile_iff, Confined, ← under_join_iff (localpath_isDirectory d)]
  constructor
  · intro h
    by_contra hleads
    simp only [not_or, Bool.not_eq_false, not_forall, not_not] at hleads
    obtain ⟨hout, hlisted, content, hfile⟩ := hleads
    exact hout (h _ content ⟨hlisted, hfile, rfl⟩)
  · rintro h path content ⟨hlisted, hfile, rfl⟩
    rcases h with hunder | hunlisted | hmissing
    · exact hunder
    · rw [hlisted] at hunlisted
      contradiction
    · exact absurd hfile (hmissing content)

/-- A directory of the program. -/
def exampleDirname : Dirname := ⟨"/home/node_server".toList, by decide, by decide⟩

/-- The file system that holds the program beside its pages. -/
def exampleFiles : FileSystem := fun path =>
  if path = "/home/node_server/main.js".toList then .regular [0x2f, 0x2a] else .missing

/-- The program itself is handed out. -/
theorem not_forall_answersWithFile_under : ¬ ∀ (fs : FileSystem) (d : Dirname) (url path : Text)
    (content : List UInt8), AnswersWithFile fs d url path content → Under d.localpath path := by
  intro h
  have hunder := h exampleFiles exampleDirname "/../main.js".toList "/home/node_server/main.js".toList
    [0x2f, 0x2a] ((answersWithFile_iff ..).mpr (by decide))
  revert hunder
  unfold Under
  decide

end RemoteManage.NodeServer
