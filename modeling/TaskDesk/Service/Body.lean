import TaskDesk.Desk.Tasks
import TaskDesk.Form.Records
import TaskDesk.Json.Reader
import TaskDesk.Text.Encoding

/-!
# Bodies of requests

What clients send with their requests, and how it is checked. A body is JSON and
has to be an object. It may hold members that nobody asks for. Bytes that are no
text in their encoding, and JSON beyond the limits of the reader, cannot be
checked at all.
-/

namespace TaskDesk
namespace Body

/-- A new task (`TaskCreate`). -/
structure TaskForm where
  title : Text
  description : Text
  dueDate : Option Text
  priority : Priority
  projectId : Option Int
  tags : List Text
  subtasks : List Text

/-- A new task given by a text (`TaskFromText`). -/
structure TextTaskForm where
  input : Text
  description : Text
  projectId : Option Int
  tags : List Text

/-- A new project (`ProjectCreate`). -/
structure ProjectForm where
  name : Text
  color : Text
  description : Option Text
  folderId : Option Int

/-- A new folder (`FolderCreate`). -/
structure FolderForm where
  name : Text
  color : Text
  description : Option Text

/-- An input line for which completions are wanted (`SuggestRequest`). -/
structure SuggestForm where
  input : Text
  mode : Option Mode

/-- An input line and the completion that was chosen (`ApplySuggestionRequest`). -/
structure ApplyForm where
  input : Text
  chosen : Text
  mode : Option Mode

/-- An input line, a field, and the value that was chosen for it
    (`SecondaryOptionRequest`). -/
structure OptionForm where
  input : Text
  field : Text
  value : Text

/-! ## Reading -/

/-- The outcome for the bytes of a body that is there: what is no JSON is refused
    as a whole, and so is JSON that is no object. -/
def readBytes {α : Type} (check : List (Text × Json) → Checked α) (bytes : List UInt8) :
    Option (Checked α) := do
  match Json.parse (← Text.ofBytes? bytes) with
  | .ok j => return Check.object .objectExpected check j
  | .error .malformed => return .fail .notJson
  | .error _ => none

/-- The outcome for a body, if it can be checked. An empty body counts as none. -/
def read {α : Type} (check : List (Text × Json) → Checked α) (body : Option (List UInt8)) :
    Option (Checked α) :=
  let outcome := match body.getD [] with
    | [] => some (Checked.fail .missing)
    | bytes => readBytes check bytes
  outcome.map (Checked.under (.member "body".toText))

/-! ## Forms -/

variable (m : List (Text × Json))

/-- A text with a name that has to be there. -/
def text (name : String) : Checked Text := Field.required name Check.text m

/-- A mode that may be left out. -/
def optionalMode : Checked (Option Mode) :=
  Field.withDefault "mode" none (Check.nullable (Check.option Mode.ofName?)) m

/-- The form of a new task. -/
def taskForm : Checked TaskForm :=
  TaskForm.mk <$> text m "title"
    <*> Field.withDefault "description" [] Check.text m
    <*> Field.withDefault "due_date" none (Check.nullable Check.text) m
    <*> Field.withDefault "priority" .medium (Check.option Priority.ofName?) m
    <*> Field.withDefault "project_id" none (Check.nullable Check.int) m
    <*> Field.withDefault "tags" [] (Check.list Check.text) m
    <*> Field.withDefault "subtasks" [] (Check.list Check.text) m

/-- The form of a new task given by a text. -/
def textTaskForm : Checked TextTaskForm :=
  TextTaskForm.mk <$> text m "input"
    <*> Field.withDefault "description" [] Check.text m
    <*> Field.withDefault "project_id" none (Check.nullable Check.int) m
    <*> Field.withDefault "tags" [] (Check.list Check.text) m

/-- A change to one column: a member that is left out keeps the column, and null
    clears it. -/
def edit {α : Type} (name : String) (check : Check α) : Checked (Edit α) :=
  (fun
    | none => Edit.keep
    | some none => Edit.clear
    | some (some a) => Edit.set a) <$> Field.given name (Check.nullable check) m

/-- The form of a change to a task (`TaskUpdate`). -/
def taskChange : Checked TaskChange :=
  (fun title description dueDate priority completed projectId tags subtasks =>
    { title, description, dueDate, priority, completed, projectId
      tags := tags.map (·.map some)
      subtasks := subtasks.map (·.map some) })
    <$> edit m "title" Check.text
    <*> edit m "description" Check.text
    <*> edit m "due_date" Check.text
    <*> edit m "priority" (fun j => Priority.name <$> Check.option Priority.ofName? j)
    <*> edit m "completed" (fun j => (fun b => if b then (1 : Int) else 0) <$> Check.bool j)
    <*> edit m "project_id" Check.int
    <*> Field.withDefault "tags" none (Check.nullable (Check.list Check.text)) m
    <*> Field.withDefault "subtasks" none (Check.nullable (Check.list Check.text)) m

/-- The form of a new project. -/
def projectForm : Checked ProjectForm :=
  ProjectForm.mk <$> text m "name"
    <*> Field.withDefault "color" "#3b82f6".toText Check.text m
    <*> Field.withDefault "description" none (Check.nullable Check.text) m
    <*> Field.withDefault "folder_id" none (Check.nullable Check.int) m

/-- The form of a new folder. -/
def folderForm : Checked FolderForm :=
  FolderForm.mk <$> text m "name"
    <*> Field.withDefault "color" "#6b7280".toText Check.text m
    <*> Field.withDefault "description" none (Check.nullable Check.text) m

/-- The form that says whether something is done (`SubtaskToggle`). -/
def completedForm : Checked Bool := Field.required "completed" Check.bool m

/-- The form of a mode (`ModeUpdate`). -/
def modeForm : Checked Mode := Field.required "mode" (Check.option Mode.ofName?) m

/-- The form of an input line (`ParseRequest`). -/
def inputForm : Checked Text := text m "input"

/-- The form of a query (`QueryRequest`). -/
def queryForm : Checked Text := text m "query"

/-- The form of an input line for which completions are wanted. -/
def suggestForm : Checked SuggestForm := SuggestForm.mk <$> text m "input" <*> optionalMode m

/-- The form of an input line and the completion that was chosen. -/
def applyForm : Checked ApplyForm :=
  ApplyForm.mk <$> text m "input" <*> text m "suggestion" <*> optionalMode m

/-- The form of an input line, a field, and a value for it. -/
def optionForm : Checked OptionForm :=
  OptionForm.mk <$> text m "input" <*> text m "prefix" <*> text m "option"

end Body
end TaskDesk
