import RemoteManage.NodeServer.StaticEngine

/-!
# Requests of the node server

`dynamic_engine.js` and the request handler of `main.js`. A request that the static engine leaves alone is
looked up by its path: setting a device takes the query apart without asking whether the parts are
there, and a path that is neither of the two actions is never answered. Which requests are answered is a
condition on the URL, on what `url.parse` finds in it and on what is found at its path.

`url.parse` is a parameter. A path of plain characters it cuts at the question mark; on other URLs it may
escape characters, take a host away, as in `//user@host/path`, or throw.
-/

namespace RemoteManage.NodeServer

open RemoteManage.Foundation PosixPath

/-- A path, with or without a query, of characters that `url.parse` leaves alone. -/
def PlainPath (url : Text) : Prop :=
  ∃ rest, url = '/' :: rest ∧ rest.head? ≠ some '/' ∧
    ∀ c ∈ rest, c.isAlphanum = true ∨ c ∈ "/?&=.-_".toList

/-- The path and the query of a plain path. -/
def cutUrl (url : Text) : Option Text × Option Text :=
  (some (url.takeWhile (· ≠ '?')),
    match url.dropWhile (· ≠ '?') with
    | [] => none
    | _ :: query => some query)

/-- `url.parse`: the fields `pathname` and `query` of what it returns, or what it throws. -/
structure UrlParse where
  parse : Text → Except Thrown (Option Text × Option Text)
  plain : ∀ url, PlainPath url → parse url = .ok (cutUrl url)

/-- `toLowerCase`, for comparison with words of ASCII letters. -/
def toLowerCase (s : Text) : Text := s.map Char.toLower

/-- `dev_num`, if the device is known. -/
def devNum (dev : Text) : Option ℕ :=
  if toLowerCase dev = "led".toList then some 0
  else if toLowerCase dev = "beep".toList then some 1
  else none

/-- `dev_status`, if the status is known; the status may be undefined. -/
def devStatus : Option Text → Except Thrown (Option ℕ)
  | none => .error .typeError
  | some status =>
    if toLowerCase status = "off".toList then .ok (some 0)
    else if toLowerCase status = "on".toList then .ok (some 1)
    else .ok none

/-- `part.split('=')[1]`. -/
def valueOf (part : Text) : Option Text := (part.splitOn '=')[1]?

/-- `device_set_process`. It returns false throughout, the command that it puts together is not sent. -/
def deviceSetProcess : Option Text → Except Thrown Bool
  | none => .error .typeError
  | some query =>
    match query.splitOn '&' with
    | first :: second :: _ =>
      match valueOf first with
      | none => .error .typeError
      | some dev =>
        match devNum dev with
        | none => .ok false
        | some _ => (devStatus (valueOf second)).map fun _ => false
    | _ => .error .typeError

/-- `dynamic_engine_process`; `devInfo` is `subscribe_info` as JSON. -/
def dynamicEngineProcess (urlParse : UrlParse) (devInfo url : Text) (response : Response) :
    Except Thrown Response :=
  match urlParse.parse url with
  | .error thrown => .error thrown
  | .ok (none, _) => .ok response
  | .ok (some [], _) => .ok response
  | .ok (some (_ :: action), query) =>
    let response := response.setHeader "Content-Type".toList (.text "application/json;charset=utf-8".toList)
    if action = "axiosDeviceSet".toList then
      (deviceSetProcess query).map fun isProcessOk =>
        response.finish (.text ("ack ".toList ++ if isProcessOk then "ok".toList else "false".toList))
    else if action = "axiosDeviceGet".toList then .ok (response.finish (.text devInfo))
    else .ok response

/-- The handler of the event `request` in `server_process`. -/
def onRequest (urlParse : UrlParse) (fs : FileSystem) (d : Dirname) (devInfo : Text) (url : Text)
    (response : Response) : Except Thrown Response :=
  match engineProcess fs d url response with
  | .error thrown => .error thrown
  | .ok (true, response) => .ok response
  | .ok (false, response) => dynamicEngineProcess urlParse devInfo url response

/-- The handler completes, and `response.end` has been called once. -/
def Answered (urlParse : UrlParse) (fs : FileSystem) (d : Dirname) (devInfo url : Text) : Prop :=
  ∃ response, onRequest urlParse fs d devInfo url .fresh = .ok response ∧ response.ended.length = 1

/-- The query has a second part, its first part has a value, and so has the second one if the first names
a device. -/
def SetQuery (query : Text) : Prop :=
  ∃ first second rest, query.splitOn '&' = first :: second :: rest ∧ '=' ∈ first ∧
    ∀ dev, valueOf first = some dev → devNum dev ≠ none → '=' ∈ second

/-- The URL is taken apart, and what stands behind the first character of its path is one of the two actions,
the setting of a device with a query for it. -/
def IsAction (urlParse : UrlParse) (url : Text) : Prop :=
  ∃ first action query, urlParse.parse url = .ok (some (first :: action), query) ∧
    (action = "axiosDeviceGet".toList ∨
      action = "axiosDeviceSet".toList ∧ ∃ q, query = some q ∧ SetQuery q)

/-- Nothing unreadable stands at a path with a listed extension, and any other request is for one of the two
actions. -/
def Answerable (urlParse : UrlParse) (fs : FileSystem) (d : Dirname) (url : Text) : Prop :=
  if hasOwnKey contentTypeStatic (d.ext url) then fs (d.filepath url) ≠ .unreadable
  else IsAction urlParse url

/-- A part has a value when there is an equals sign in it. -/
theorem valueOf_eq_none_iff (part : Text) : valueOf part = none ↔ '=' ∉ part := by
  rw [valueOf]
  constructor
  · intro hnone hmem
    obtain ⟨before, after, rfl⟩ := List.append_of_mem hmem
    rw [List.splitOn_append_cons_self, List.getElem?_eq_none_iff, List.length_append] at hnone
    have hbefore := List.length_pos_iff.mpr (List.splitOn_ne_nil '=' before)
    have hafter := List.length_pos_iff.mpr (List.splitOn_ne_nil '=' after)
    omega
  · intro hmem
    rw [List.splitOn_eq_singleton hmem]
    rfl

/-- A status is looked at without error when it is there. -/
theorem devStatus_isOk_iff (status : Option Text) : (∃ n, devStatus status = .ok n) ↔ status ≠ none := by
  cases status with
  | none => simp [devStatus]
  | some status =>
    refine iff_of_true ?_ (Option.some_ne_none _)
    rw [devStatus]
    split
    · exact ⟨_, rfl⟩
    · split <;> exact ⟨_, rfl⟩

/-- Two parts of a query are processed exactly when the first has a value, and the second too if the
first names a device. -/
theorem deviceSetProcess_parts {query first second : Text} {rest : List Text}
    (h : query.splitOn '&' = first :: second :: rest) :
    (∃ isProcessOk, deviceSetProcess (some query) = .ok isProcessOk) ↔
      '=' ∈ first ∧ ∀ dev, valueOf first = some dev → devNum dev ≠ none → '=' ∈ second := by
  rw [deviceSetProcess, h]
  dsimp only
  have hfirst := valueOf_eq_none_iff first
  have hsecond := valueOf_eq_none_iff second
  cases hdev : valueOf first with
  | none => simp [hfirst.mp hdev]
  | some dev =>
    rw [hdev] at hfirst
    have hmem : '=' ∈ first := by simpa using hfirst
    cases hnum : devNum dev with
    | none => simp [hmem, hnum]
    | some n =>
      have hstatus := (devStatus_isOk_iff (valueOf second)).trans (not_congr hsecond)
      simp only [hmem, true_and, Option.some.injEq, forall_eq', hnum, ne_eq, reduceCtorEq, not_false_eq_true,
        forall_const]
      rw [not_not] at hstatus
      rw [← hstatus]
      cases devStatus (valueOf second) with
      | error thrown => simp [Except.map]
      | ok n => simp [Except.map]

/-- The setting of a device completes exactly with a query for it. -/
theorem deviceSetProcess_isOk_iff (query : Option Text) :
    (∃ isProcessOk, deviceSetProcess query = .ok isProcessOk) ↔ ∃ q, query = some q ∧ SetQuery q := by
  cases query with
  | none => simp [deviceSetProcess]
  | some q =>
    simp only [Option.some.injEq, exists_eq_left', SetQuery]
    match hsplit : q.splitOn '&' with
    | [] => exact absurd hsplit (List.splitOn_ne_nil '&' q)
    | [only] => simp [deviceSetProcess, hsplit]
    | first :: second :: rest =>
      rw [deviceSetProcess_parts hsplit]
      simp only [List.cons.injEq]
      constructor
      · rintro ⟨hfirst, hsecond⟩
        exact ⟨first, second, rest, ⟨rfl, rfl, rfl⟩, hfirst, hsecond⟩
      · rintro ⟨_, _, _, ⟨rfl, rfl, rfl⟩, hfirst, hsecond⟩
        exact ⟨hfirst, hsecond⟩

/-- The action of a URL is what stands behind the first character of its path. -/
theorem isAction_iff {urlParse : UrlParse} {url : Text} {first : Char} {action : Text} {query : Option Text}
    (hparse : urlParse.parse url = .ok (some (first :: action), query)) :
    IsAction urlParse url ↔ action = "axiosDeviceGet".toList ∨
      action = "axiosDeviceSet".toList ∧ ∃ q, query = some q ∧ SetQuery q := by
  constructor
  · rintro ⟨first', action', query', hparse', h⟩
    rw [hparse] at hparse'
    obtain ⟨hpath, rfl⟩ := Prod.mk.inj (Except.ok.inj hparse')
    obtain ⟨-, rfl⟩ := List.cons.inj (Option.some.inj hpath)
    exact h
  · exact fun h => ⟨first, action, query, hparse, h⟩

/-- The dynamic engine answers exactly the two actions, the setting of a device with a query for it. -/
theorem dynamicEngineProcess_answers_iff (urlParse : UrlParse) (devInfo url : Text) :
    (∃ response, dynamicEngineProcess urlParse devInfo url .fresh = .ok response ∧
      response.ended.length = 1) ↔ IsAction urlParse url := by
  rw [dynamicEngineProcess]
  cases hparse : urlParse.parse url with
  | error thrown => simp [IsAction, hparse]
  | ok found =>
    obtain ⟨pathname, query⟩ := found
    cases pathname with
    | none => simp [IsAction, hparse, Response.fresh]
    | some pathname =>
      cases pathname with
      | nil => simp [IsAction, hparse, Response.fresh]
      | cons first action =>
        have hdistinct : "axiosDeviceSet".toList ≠ "axiosDeviceGet".toList := by decide
        rw [isAction_iff hparse, ← deviceSetProcess_isOk_iff]
        dsimp only
        by_cases hisSet : action = "axiosDeviceSet".toList
        · rw [if_pos hisSet, and_iff_right hisSet, hisSet, or_iff_right hdistinct]
          cases deviceSetProcess query with
          | error thrown => simp [Except.map]
          | ok isProcessOk => exact iff_of_true ⟨_, rfl, rfl⟩ ⟨_, rfl⟩
        · rw [if_neg hisSet, or_iff_left fun h => hisSet h.1]
          by_cases hisGet : action = "axiosDeviceGet".toList
          · rw [if_pos hisGet]
            exact iff_of_true ⟨_, rfl, rfl⟩ hisGet
          · rw [if_neg hisGet]
            refine iff_of_false ?_ hisGet
            rintro ⟨response, hresponse, hlength⟩
            rw [← Except.ok.inj hresponse] at hlength
            exact absurd hlength Nat.zero_ne_one

/-- A request is answered once, without an exception, exactly when it is answerable. -/
theorem answered_iff (urlParse : UrlParse) (fs : FileSystem) (d : Dirname) (devInfo url : Text) :
    Answered urlParse fs d devInfo url ↔ Answerable urlParse fs d url := by
  rw [Answered, Answerable, onRequest]
  cases hlisted : hasOwnKey contentTypeStatic (d.ext url) with
  | false =>
    rw [engineProcess_of_not_listed fs .fresh hlisted]
    exact dynamicEngineProcess_answers_iff urlParse devInfo url
  | true =>
    obtain ⟨headers, hprocess⟩ := engineProcess_of_listed fs .fresh hlisted
    rw [hprocess, if_pos rfl]
    cases fs (d.filepath url) with
    | missing => exact iff_of_true ⟨_, rfl, rfl⟩ FileStatus.noConfusion
    | regular content => exact iff_of_true ⟨_, rfl, rfl⟩ FileStatus.noConfusion
    | unreadable => simp

/-- The setting of a device without a query throws. -/
theorem onRequest_axiosDeviceSet (urlParse : UrlParse) :
    onRequest urlParse exampleFiles exampleDirname [] "/axiosDeviceSet".toList .fresh =
      .error .typeError := by
  have hlisted : hasOwnKey contentTypeStatic (exampleDirname.ext "/axiosDeviceSet".toList) = false := by
    decide +kernel
  have hletters : "axiosDeviceSet".toList.all Char.isAlphanum = true := by decide
  have hplain : PlainPath "/axiosDeviceSet".toList :=
    ⟨"axiosDeviceSet".toList, rfl, by decide, fun c hc => .inl (List.all_eq_true.mp hletters c hc)⟩
  rw [onRequest, engineProcess_of_not_listed _ _ hlisted]
  dsimp only
  unfold dynamicEngineProcess
  rw [urlParse.plain _ hplain]
  rfl

/-- A function that cuts every URL. -/
def cutEveryUrl : UrlParse := ⟨fun url => .ok (cutUrl url), fun _ _ => rfl⟩

/-- The setting of a device without a query is not answered. -/
theorem not_forall_answered : ¬ ∀ (urlParse : UrlParse) (fs : FileSystem) (d : Dirname) (devInfo url : Text),
    Answered urlParse fs d devInfo url := by
  intro h
  obtain ⟨response, hresponse, -⟩ := h cutEveryUrl exampleFiles exampleDirname [] "/axiosDeviceSet".toList
  rw [onRequest_axiosDeviceSet] at hresponse
  contradiction

end RemoteManage.NodeServer
