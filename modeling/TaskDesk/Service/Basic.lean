import TaskDesk.Desk.Projects
import TaskDesk.Desk.Tasks
import TaskDesk.Filter.Matching
import TaskDesk.Service.Body
import TaskDesk.Service.Endpoint
import TaskDesk.Service.Reply

/-!
# The service

Requests are answered at a desk. A request goes to an endpoint by its method and
path; what it sends along is checked; then the endpoint works at the desk.
Whatever fails there without a reply of its own is a failure of the service.
-/

namespace TaskDesk

/-- A request. The body is the bytes that were sent, if there were any. -/
structure Request where
  method : Text
  path : Text
  body : Option (List UInt8) := none
deriving DecidableEq, Repr

namespace Service

open Work

/-- An answer that an endpoint works out at a desk, if nothing fails. -/
abbrev Answering := Work Reply

/-- The reply, where what was sent along is as it has to be. -/
def checked {α : Type} (form : Checked α) (reply : α → Answering) : Answering :=
  match form with
  | .ok a => reply a
  | .refused issues => return .refused issues

/-- The reply, where the body is as it has to be. -/
def withBody {α : Type} (check : List (Text × Json) → Checked α) (body : Option (List UInt8))
    (reply : α → Answering) : Answering :=
  match Body.read check body with
  | some form => checked form reply
  | none => return .unreadable

/-- The reply, where a text can be read. -/
def withReading (today : Date) (input : Text) (reply : Reading → Answering) : Answering :=
  match Reading.ofText today input with
  | .ok r => reply r
  | .error _ => return .failed

/-- The id of a record in a path. -/
def idIn (name : String) (segment : Text) : Checked Int :=
  ((Check.int (.text segment)).under (.member name.toText)).under (.member "path".toText)

/-- The mode that is asked for, or the one that is set. -/
def modeOr (mode : Option Mode) : Work Mode :=
  match mode with
  | some m => return m
  | none => Desk.inputMode

/-- The names of all projects. -/
def projectNames : Work (List Text) := return (← query Store.allProjects).map (·.name)

/-- A reply that something was deleted, or that it was not there. -/
def deletedOr (detail : String) (found : Bool) : Reply :=
  if found then .ok .deleted else .notFound detail

/-- What an endpoint does at a desk on the day `today`. -/
def answer (source : Source) (today : Date) (segment : Text) (body : Option (List UInt8)) :
    Endpoint → Answering
  | .allTasks => return .ok (.tasks (← query Store.allTasks))
  | .createTask =>
    withBody Body.taskForm body fun form => do
      let id ← newId source
      let task ← Desk.createTask source {
        id := some id, title := some form.title, description := some form.description,
        dueDate := form.dueDate, priority := some form.priority.name,
        projectId := form.projectId, tags := form.tags.map some, subtasks := form.subtasks.map some }
      return .ok (.task task)
  | .createTaskFromText =>
    withBody Body.textTaskForm body fun form =>
      withReading today form.input fun reading => do
        if reading.draft.title.isEmpty then return .noTitle
        let id ← newId source
        let task ← Desk.createTask source {
          id := some id, title := some reading.draft.title, description := some form.description,
          dueDate := reading.draft.due.map (·.toIso),
          priority := some (reading.draft.priority.getD .medium).name,
          projectId := form.projectId, tags := form.tags.map some }
        return .ok (.task task)
  | .updateTask =>
    withBody Body.taskChange body fun change => do
      match ← Desk.updateTask source (some segment) change with
      | some task => return .ok (.task task)
      | none => return .notFound "Task not found"
  | .deleteTask => return deletedOr "Task not found" (← Desk.deleteTask (some segment))
  | .toggleSubtask =>
    withBody Body.completedForm body fun completed => do
      match ← Desk.toggleSubtask (some segment) (if completed then 1 else 0) with
      | some subtask => return .ok (.subtask subtask)
      | none => return .notFound "Subtask not found"
  | .allTags => return .ok (.texts (← query Store.allTags))
  | .allProjects => return .ok (.projects (← query Store.allProjects))
  | .createProject =>
    withBody Body.projectForm body fun form => do
      let project ← Desk.createProject (some form.name) (some form.color) form.description
        form.folderId
      return .ok (.project project)
  | .deleteProject =>
    checked (idIn "project_id" segment) fun id =>
      return deletedOr "Project not found" (← Desk.deleteProject (some id))
  | .allFolders => return .ok (.folders (← query Store.allFolders))
  | .createFolder =>
    withBody Body.folderForm body fun form => do
      let folder ← Desk.createFolder (some form.name) (some form.color) form.description
      return .ok (.folder folder)
  | .deleteFolder =>
    checked (idIn "folder_id" segment) fun id =>
      return deletedOr "Folder not found" (← Desk.deleteFolder (some id))
  | .getMode => return .ok (.mode (← Desk.inputMode))
  | .setMode =>
    withBody Body.modeForm body fun mode => do
      Desk.setInputMode (some mode.name)
      return .ok (.mode mode)
  | .parse =>
    withBody Body.inputForm body fun input =>
      withReading today input fun reading => return .ok (.reading reading)
  | .filters =>
    withBody Body.queryForm body fun query => return .ok (.filters (Filters.parse query))
  | .search =>
    withBody Body.queryForm body fun text => do
      let tasks ← query Store.allTasks
      let projects ← query Store.allProjects
      return .ok (.tasks ((Filters.parse text).select today projects tasks))
  | .suggest =>
    withBody Body.suggestForm body fun form => do
      let mode ← modeOr form.mode
      let _ ← projectNames
      return .ok (.texts (Completion.suggest mode form.input (← query Store.allTags)))
  | .applySuggestion =>
    withBody Body.applyForm body fun form => do
      let mode ← modeOr form.mode
      let names ← if mode = .search then projectNames else pure []
      return .ok (.applied (Completion.apply mode form.input form.chosen names))
  | .listOptions => do
    let names ← if segment = FilterField.project.name then projectNames else pure []
    return .ok (.texts (Completion.optionsFor segment names))
  | .applyOption =>
    withBody Body.optionForm body fun form =>
      return .ok (.line (Completion.applyOption form.input form.field form.value))

/-- The reply that is worked out. Where the work fails the service fails, and also
    where the reply cannot be written; work that is done stays done. -/
def settle (a : Answering) (d : Desk) : Reply × Desk :=
  match a.on d with
  | (.ok reply, d) => (reply.sent, d)
  | (.error _, d) => (.failed, d)

/-- The reply to a request, and the desk after it. -/
def respond (source : Source) (today : Date) (request : Request) (d : Desk) : Reply × Desk :=
  match Destination.ofRequest request.method request.path with
  | .endpoint e segment => settle (answer source today segment request.body e) d
  | .page => (.page, d)
  | .wrongMethod => (.wrongMethod, d)
  | .elsewhere => (.elsewhere, d)
  | .nowhere => (.notFound "Not Found", d)

end Service
end TaskDesk
