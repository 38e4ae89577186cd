import TaskDesk.Text.Basic

/-!
# Records

The things a to-do list holds: tasks with tags and subtasks, projects that
tasks belong to, and folders that projects lie in. Texts of these records are
arbitrary; a due date in particular is whatever text was given.
-/

namespace TaskDesk

/-- How urgent a task is. -/
inductive Priority where
  | low | medium | high
deriving DecidableEq, Repr

namespace Priority

/-- The name of a priority. -/
def name : Priority → Text
  | low => "low".toText
  | medium => "medium".toText
  | high => "high".toText

/-- The priority with a given name. -/
def ofName? (t : Text) : Option Priority := [low, medium, high].find? (·.name == t)

theorem ofName?_name (p : Priority) : ofName? p.name = some p := by cases p <;> decide

theorem name_of_ofName? {t : Text} {p : Priority} (h : ofName? t = some p) : p.name = t := by
  simpa using List.find?_some h

end Priority

/-- A step of a task that can be ticked off on its own. -/
structure Subtask where
  id : Text
  text : Text
  completed : Bool := false
deriving DecidableEq, Repr

/-- A task of the list. -/
structure Task where
  id : Text
  title : Text
  description : Text := []
  dueDate : Option Text := none
  priority : Priority := .medium
  completed : Bool := false
  projectId : Option Int := none
  tags : List Text := []
  subtasks : List Subtask := []
  createdAt : Text
  updatedAt : Text
deriving DecidableEq, Repr

/-- A folder of projects. -/
structure Folder where
  id : Int
  name : Text
  color : Text
  description : Option Text := none
deriving DecidableEq, Repr

/-- A project that tasks can belong to. -/
structure Project where
  id : Int
  name : Text
  color : Text
  description : Option Text := none
  folderId : Option Int := none
deriving DecidableEq, Repr

/-- What the input line is used for: searching tasks or creating one. -/
inductive Mode where
  | search | create
deriving DecidableEq, Repr

namespace Mode

/-- The name of a mode. -/
def name : Mode → Text
  | search => "search".toText
  | create => "create".toText

/-- The mode with a given name. -/
def ofName? (t : Text) : Option Mode := [search, create].find? (·.name == t)

theorem ofName?_name (m : Mode) : ofName? m.name = some m := by cases m <;> decide

end Mode

end TaskDesk
