import TaskDesk.Text.Basic

/-!
# Endpoints

What the service can be asked for, each under a method and a path. A path is a
list of segments; one of them may stand for an id or a name. A line end behind
the last segment is passed over where the segment is fixed. Some pages tell about
the service itself.

Results:
* `mem_all`: `Endpoint.all` lists every endpoint.
-/

namespace TaskDesk

/-- The methods of requests that some endpoint answers. -/
inductive Method where
  | get | post | put | patch | delete
deriving DecidableEq, Repr

/-- The name of a method. -/
def Method.name : Method → Text
  | get => "GET".toText
  | post => "POST".toText
  | put => "PUT".toText
  | patch => "PATCH".toText
  | delete => "DELETE".toText

/-- What the service can be asked for. Each endpoint stands for the function that answers
    it, from `get_tasks` to `apply_secondary`. -/
inductive Endpoint where
  | allTasks | createTask | createTaskFromText | updateTask | deleteTask
  | toggleSubtask
  | allTags
  | allProjects | createProject | deleteProject
  | allFolders | createFolder | deleteFolder
  | getMode | setMode
  | parse | filters | search | suggest | applySuggestion | listOptions | applyOption
deriving DecidableEq, Repr

/-- A segment of a path. -/
inductive Segment where
  /-- A segment with this text. -/
  | fixed (t : Text)
  /-- Any segment but the empty one. -/
  | any
deriving DecidableEq, Repr

namespace Endpoint

/-- All endpoints, in the order in which a request is compared with them. -/
def all : List Endpoint :=
  [allTasks, createTask, createTaskFromText, updateTask, deleteTask, toggleSubtask, allTags,
    allProjects, createProject, deleteProject, allFolders, createFolder, deleteFolder, getMode,
    setMode, parse, filters, search, suggest, applySuggestion, listOptions, applyOption]

theorem mem_all (e : Endpoint) : e ∈ all := by cases e <;> decide

/-- The method of an endpoint. -/
def method : Endpoint → Method
  | allTasks | allTags | allProjects | allFolders | getMode | listOptions => .get
  | createTask | createTaskFromText | createProject | createFolder => .post
  | parse | filters | search | suggest | applySuggestion | applyOption => .post
  | setMode => .put
  | updateTask | toggleSubtask => .patch
  | deleteTask | deleteProject | deleteFolder => .delete

/-- A path of one fixed segment. -/
def one (name : String) : List Segment := [.fixed name.toText]

/-- A path of a fixed segment and another one. -/
def two (name : String) (second : Segment) : List Segment := [.fixed name.toText, second]

/-- The path of an endpoint. -/
def path : Endpoint → List Segment
  | allTasks | createTask => one "tasks"
  | createTaskFromText => two "tasks" (.fixed "from-text".toText)
  | updateTask | deleteTask => two "tasks" .any
  | toggleSubtask => two "subtasks" .any
  | allTags => one "tags"
  | allProjects | createProject => one "projects"
  | deleteProject => two "projects" .any
  | allFolders | createFolder => one "folders"
  | deleteFolder => two "folders" .any
  | getMode | setMode => two "settings" (.fixed "mode".toText)
  | parse => one "parse"
  | filters => one "filters"
  | search => one "search"
  | suggest => one "suggest"
  | applySuggestion => one "apply-suggestion"
  | listOptions => two "secondary-options" .any
  | applyOption => one "secondary-options"

/-- Compares segments with those of a request. The outcome is what stands for the
    variable segment, which is empty where there is none. -/
def bind? : List Segment → List Text → Option Text
  | [.fixed t], [s] => if s = t ∨ s = t ++ "\n".toText then some [] else none
  | .fixed t :: more, s :: rest => if s = t then bind? more rest else none
  | [.any], [s] => if s.isEmpty then none else some s
  | _, _ => none

/-- Compares segments with the path of a request. -/
def follows? (segments : List Segment) (path : Text) : Option Text :=
  match Text.split '/' path with
  | [] :: given => bind? segments given
  | _ => none

/-- Compares the path of an endpoint with the path of a request. -/
def matches? (e : Endpoint) (path : Text) : Option Text := follows? e.path path

/-- The paths of the pages about the service, which the framework adds. -/
def pages : List (List Segment) :=
  [one "openapi.json", one "docs", two "docs" (.fixed "oauth2-redirect".toText), one "redoc"]

/-- Whether a path leads to a page about the service. -/
def isPage (path : Text) : Bool := pages.any fun segments => (follows? segments path).isSome

end Endpoint

/-- What becomes of a request before it is looked at closely. -/
inductive Destination where
  /-- An endpoint answers, with the text of its variable segment. -/
  | endpoint (e : Endpoint) (segment : Text)
  /-- A page about the service is shown. -/
  | page
  /-- The path is known, but not with this method. -/
  | wrongMethod
  /-- The path is known without the strokes at its end. -/
  | elsewhere
  /-- The path is not known. -/
  | nowhere
deriving DecidableEq, Repr

namespace Destination

/-- The path without the strokes at its end. -/
def withoutStrokes (path : Text) : Text := (path.reverse.dropWhile (· == .char '/')).reverse

/-- A path as it is decoded. A half of a surrogate pair has no bytes that a path could
    hold, and reads as the replacement character. -/
def decoded (path : Text) : Text := path.map fun c => if c.isChar then c else .char '\ufffd'

/-- Where a request goes. -/
def ofRequest (method path : Text) : Destination :=
  let path := decoded path
  let known := Endpoint.all.filterMap fun e => (e.matches? path).map fun segment => (e, segment)
  match known.find? fun (e, _) => e.method.name == method with
  | some (e, segment) => .endpoint e segment
  | none =>
    if Endpoint.isPage path then
      if method = Method.get.name ∨ method = "HEAD".toText then .page else .wrongMethod
    else if !known.isEmpty then .wrongMethod
    else if path.getLast? = some (.char '/') ∧ (Endpoint.isPage (withoutStrokes path) ∨
        Endpoint.all.any fun e => (e.matches? (withoutStrokes path)).isSome) then .elsewhere
    else .nowhere

end Destination
end TaskDesk
