import TaskDesk.Filter.Basic
import TaskDesk.Form.Basic

/-!
# Records as forms

How tasks, projects and filters are read from JSON, and how all records are
written as JSON. Members that a record does not have are passed over.
-/

namespace TaskDesk

/-- A text or null. -/
def Json.ofText? (t : Option Text) : Json := (t.map Json.text).getD .null

/-- A number or null. -/
def Json.ofInt? (n : Option Int) : Json := (n.map Json.int).getD .null

/-- A list of texts. -/
def Json.ofTexts (ts : List Text) : Json := .list (ts.map .text)

/-- An object with the given members. -/
def Json.record (members : List (String × Json)) : Json :=
  .object (members.map fun (name, value) => (name.toText, value))

/-- The form of a subtask. -/
def Subtask.check : Check Subtask :=
  Check.object .recordExpected fun m =>
    Subtask.mk <$> Field.required "id" Check.text m
      <*> Field.required "text" Check.text m
      <*> Field.withDefault "completed" false Check.bool m

/-- A subtask as JSON. -/
def Subtask.toJson (s : Subtask) : Json :=
  .record [("id", .text s.id), ("text", .text s.text), ("completed", .bool s.completed)]

/-- The form of a task. -/
def Task.check : Check Task :=
  Check.object .recordExpected fun m =>
    Task.mk <$> Field.required "id" Check.text m
      <*> Field.required "title" Check.text m
      <*> Field.withDefault "description" [] Check.text m
      <*> Field.withDefault "due_date" none (Check.nullable Check.text) m
      <*> Field.withDefault "priority" .medium (Check.option Priority.ofName?) m
      <*> Field.withDefault "completed" false Check.bool m
      <*> Field.withDefault "project_id" none (Check.nullable Check.int) m
      <*> Field.withDefault "tags" [] (Check.list Check.text) m
      <*> Field.withDefault "subtasks" [] (Check.list Subtask.check) m
      <*> Field.required "created_at" Check.text m
      <*> Field.required "updated_at" Check.text m

/-- A task as JSON. -/
def Task.toJson (t : Task) : Json :=
  .record [
    ("id", .text t.id), ("title", .text t.title), ("description", .text t.description),
    ("due_date", .ofText? t.dueDate), ("priority", .text t.priority.name),
    ("completed", .bool t.completed), ("project_id", .ofInt? t.projectId),
    ("tags", .ofTexts t.tags), ("subtasks", .list (t.subtasks.map (·.toJson))),
    ("created_at", .text t.createdAt), ("updated_at", .text t.updatedAt)]

/-- The form of a project. -/
def Project.check : Check Project :=
  Check.object .recordExpected fun m =>
    Project.mk <$> Field.required "id" Check.int m
      <*> Field.required "name" Check.text m
      <*> Field.required "color" Check.text m
      <*> Field.withDefault "description" none (Check.nullable Check.text) m
      <*> Field.withDefault "folder_id" none (Check.nullable Check.int) m

/-- A project as JSON. -/
def Project.toJson (p : Project) : Json :=
  .record [
    ("id", .int p.id), ("name", .text p.name), ("color", .text p.color),
    ("description", .ofText? p.description), ("folder_id", .ofInt? p.folderId)]

/-- A folder as JSON. -/
def Folder.toJson (f : Folder) : Json :=
  .record [
    ("id", .int f.id), ("name", .text f.name), ("color", .text f.color),
    ("description", .ofText? f.description)]

/-- The form of filters. -/
def Filters.check : Check Filters :=
  Check.object .recordExpected fun m =>
    Filters.mk <$> Field.withDefault "text" [] Check.text m
      <*> Field.withDefault "tags" [] (Check.list Check.text) m
      <*> Field.withDefault "priority" none (Check.nullable (Check.option Priority.ofName?)) m
      <*> Field.withDefault "project_name" none (Check.nullable Check.text) m
      <*> Field.withDefault "status" none (Check.nullable (Check.option Status.ofName?)) m
      <*> Field.withDefault "due" none (Check.nullable (Check.option DueBucket.ofName?)) m

/-- Filters as JSON. -/
def Filters.toJson (f : Filters) : Json :=
  .record [
    ("text", .text f.text), ("tags", .ofTexts f.tags),
    ("priority", .ofText? (f.priority.map (·.name))), ("project_name", .ofText? f.project),
    ("status", .ofText? (f.status.map (·.name))), ("due", .ofText? (f.due.map (·.name)))]

/-- An issue as JSON: its kind and the path to the place it concerns. -/
def Issue.toJson (i : Issue) : Json :=
  .record [
    ("type", .text i.kind.name),
    ("loc", .list (i.path.map fun
      | .member name => .text name
      | .item place => .int place))]

end TaskDesk
