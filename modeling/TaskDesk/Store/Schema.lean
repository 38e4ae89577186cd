import TaskDesk.Text.Basic

/-!
# The shape of the tables

What the tables of a store look like from outside: their columns, the references
between them, and their indexes. The shapes are those that the scripts of all
revisions together (`upgrade`) give to the tables.
-/

namespace TaskDesk

/-- The tables by name. -/
inductive TableName where
  | folders | projects | tasks | tags | settings | subtasks
deriving DecidableEq, Repr

/-- The types of columns. -/
inductive ColumnType where
  | integer | text
deriving DecidableEq, Repr

/-- The name of a type. -/
def ColumnType.name : ColumnType → Text
  | integer => "INTEGER".toText
  | text => "TEXT".toText

/-- A column. Its place in the key of the table counts from 1; columns outside
    the key have 0. -/
structure Column where
  name : Text
  type : ColumnType
  needed : Bool := false
  default : Option Text := none
  keyPlace : Nat := 0
deriving DecidableEq, Repr

/-- What happens to rows that refer to a row that is deleted. -/
inductive OnDelete where
  | noAction | cascade
deriving DecidableEq, Repr

/-- The name of a rule for deletions. -/
def OnDelete.name : OnDelete → Text
  | noAction => "NO ACTION".toText
  | cascade => "CASCADE".toText

/-- A column that refers to the column `target` of another table. -/
structure Reference where
  column : Text
  table : TableName
  target : Text
  onDelete : OnDelete
deriving DecidableEq, Repr

/-- The shape of a table. -/
structure TableShape where
  columns : List Column
  references : List Reference := []
  indexes : List Text := []
deriving DecidableEq, Repr

namespace TableName

/-- The name of a table. -/
def text : TableName → Text
  | folders => "folders".toText
  | projects => "projects".toText
  | tasks => "tasks".toText
  | tags => "tags".toText
  | settings => "settings".toText
  | subtasks => "subtasks".toText

/-- The column with the id of a table with ids that are counted up. -/
def countedId : Column := { name := "id".toText, type := .integer, keyPlace := 1 }

/-- The column with the id of a table with ids that are texts. -/
def textId : Column := { name := "id".toText, type := .text, keyPlace := 1 }

/-- A column of texts that needs a value. -/
def textColumn (name : String) : Column := { name := name.toText, type := .text, needed := true }

/-- A column of texts that may be missing. -/
def optionalText (name : String) : Column := { name := name.toText, type := .text }

/-- A column that says whether something is done, at first that it is not. -/
def completedColumn : Column :=
  { name := "completed".toText, type := .integer, needed := true, default := some "0".toText }

/-- The reference of a part to its task, with which it goes. -/
def partOfTask : Reference :=
  { column := "task_id".toText, table := .tasks, target := "id".toText, onDelete := .cascade }

/-- The shape of each table. -/
def shape : TableName → TableShape
  | folders =>
    { columns := [countedId, textColumn "name", textColumn "color", optionalText "description"] }
  | projects =>
    { columns := [countedId, textColumn "name", textColumn "color", optionalText "description",
        { name := "folder_id".toText, type := .integer }]
      references := [⟨"folder_id".toText, .folders, "id".toText, .noAction⟩] }
  | tasks =>
    { columns := [textId, textColumn "title", optionalText "description", optionalText "due_date",
        { textColumn "priority" with default := some "'medium'".toText }, completedColumn,
        { name := "project_id".toText, type := .integer }, textColumn "created_at",
        textColumn "updated_at"]
      references := [⟨"project_id".toText, .projects, "id".toText, .noAction⟩]
      indexes := ["idx_tasks_project_id".toText, "idx_tasks_due_date".toText] }
  | tags =>
    { columns :=
        [{ textColumn "task_id" with keyPlace := 1 }, { textColumn "tag" with keyPlace := 2 }]
      references := [partOfTask]
      indexes := ["idx_tags_task_id".toText] }
  | settings =>
    { columns := [{ optionalText "key" with keyPlace := 1 }, textColumn "value"] }
  | subtasks =>
    { columns := [textId, textColumn "task_id", textColumn "text", completedColumn]
      references := [partOfTask]
      indexes := ["idx_subtasks_task_id".toText] }

end TableName

/-- A table as it is listed. -/
structure TableEntry where
  name : TableName
  shape : TableShape
deriving DecidableEq, Repr

/-- The name of a table that is listed. -/
def TableEntry.text (entry : TableEntry) : Text := entry.name.text

end TaskDesk
