import TaskDesk.Store.Query

/-!
# Changing the store

Single changes of the tables, each of which stands for one statement that a call
executes. Each keeps the conditions of the store or is refused: numbers and texts
can be stored, columns that need a value have one, ids and pairs of task and tag
occur once, and references lead to rows. What cannot be stored is refused first,
before any row is looked at, then what is missing, then what occurs twice, and
broken references last. Rows that belong to a task go with it.
-/

namespace TaskDesk

/-- A change to one column of a row. -/
inductive Edit (α : Type) where
  /-- The column is left alone. -/
  | keep
  /-- The value is taken away. -/
  | clear
  /-- The column gets a value. -/
  | set (value : α)
deriving DecidableEq, Repr

namespace Edit

variable {α : Type}

/-- The value of a column after the change. -/
def apply (e : Edit α) (old : Option α) : Option α :=
  match e with
  | keep => old
  | clear => none
  | set a => some a

/-- Whether the change makes a difference. -/
def changes [DecidableEq α] (e : Edit α) (old : Option α) : Bool := e.apply old ≠ old

end Edit

/-- A change to the columns of a task. -/
structure TaskEdit where
  id : Edit Text := .keep
  title : Edit Text := .keep
  description : Edit Text := .keep
  dueDate : Edit Text := .keep
  priority : Edit Text := .keep
  completed : Edit Int := .keep
  projectId : Edit Int := .keep
  createdAt : Edit Text := .keep
  updatedAt : Edit Text := .keep
deriving DecidableEq, Repr

/-- The texts of a stored task. -/
def TaskRow.texts (row : TaskRow) : List Text :=
  row.id.toList ++ row.description.toList ++ row.dueDate.toList ++
    [row.title, row.priority, row.createdAt, row.updatedAt]

namespace TaskEdit

/-- Whether the change makes a difference to a row (the comparison in `update_task_db`). -/
def changes (e : TaskEdit) (row : TaskRow) : Bool :=
  e.id.changes row.id || e.title.changes (some row.title) ||
  e.description.changes row.description || e.dueDate.changes row.dueDate ||
  e.priority.changes (some row.priority) || e.completed.changes (some row.completed) ||
  e.projectId.changes row.projectId || e.createdAt.changes (some row.createdAt) ||
  e.updatedAt.changes (some row.updatedAt)

/-- The row after the change, at the time `now`. The time of the last change is
    never taken from the change itself. Columns that stay hold what was bound when
    they were written, so they are bound again without effect. -/
def apply (e : TaskEdit) (now : Text) (row : TaskRow) : Except Fault TaskRow := do
  let id := e.id.apply row.id
  let title := e.title.apply (some row.title)
  let description := e.description.apply row.description
  let dueDate := e.dueDate.apply row.dueDate
  let priority := e.priority.apply (some row.priority)
  let completed := e.completed.apply (some row.completed)
  let projectId := e.projectId.apply row.projectId
  let createdAt := e.createdAt.apply (some row.createdAt)
  bindAll [.text id, .text title, .text description, .text dueDate, .text priority,
    .number completed, .number projectId, .text createdAt, .text (some now)]
  let title ← present .tasks "title" title
  let priority ← present .tasks "priority" priority
  let completed ← present .tasks "completed" completed
  let createdAt ← present .tasks "created_at" createdAt
  return {
    id, title, description, dueDate, priority, completed, projectId, createdAt, updatedAt := now }

end TaskEdit

namespace Ledger

/-- Whether a task with the id exists. -/
def hasTask (id : Option Text) (l : Ledger) : Bool := l.tasks.any fun row => sameId id row.id

/-- Whether a reference to a project is missing or leads to one. -/
def projectExists (id : Option Int) (l : Ledger) : Bool :=
  id.all fun id => l.projects.rows.any (·.id == id)

/-- Whether a reference to a folder is missing or leads to one. -/
def folderExists (id : Option Int) (l : Ledger) : Bool :=
  id.all fun id => l.folders.rows.any (·.id == id)

end Ledger

/-- The columns of a new task as they are given. -/
structure NewTaskRow where
  id : Option Text
  title : Option Text
  description : Option Text
  dueDate : Option Text
  priority : Option Text
  projectId : Option Int

/-- The values that are bound where a new task is inserted at the time `now`. -/
def NewTaskRow.parameters (new : NewTaskRow) (now : Text) : List Parameter :=
  [.text new.id, .text new.title, .text new.description, .text new.dueDate, .text new.priority,
    .number new.projectId, .text (some now), .text (some now)]

namespace Store

/-! ## Tasks -/

/-- A new, open task, created at the time `now` (the insertion in `create_task_db`). -/
def insertTask (new : NewTaskRow) (now : Text) (s : Store) : Except Fault Store := do
  let l ← s.ledgerFor .tasks
  bindAll (new.parameters now)
  let title ← present .tasks "title" new.title
  let priority ← present .tasks "priority" new.priority
  let row : TaskRow := {
    title, priority
    id := new.id
    description := new.description
    dueDate := new.dueDate
    completed := 0
    projectId := new.projectId
    createdAt := now
    updatedAt := now }
  holds (!l.hasTask new.id) (.notUnique .tasks ["id".toText])
  holds (l.projectExists new.projectId) .brokenReference
  return s.setLedger { l with tasks := l.tasks ++ [row] }

/-- Whether rows of other tables belong to the task. -/
def hasParts (id : Option Text) (l : Ledger) (s : Store) : Bool :=
  l.tags.any (fun row => sameId id (some row.taskId)) ||
    (s.subtasks.getD []).any fun row => sameId id (some row.taskId)

/-- The task in `row` with changed columns (the update in `update_task_db`). Its id can
    change only where nothing belongs to the task. -/
def updateTask (edit : TaskEdit) (now : Text) (row : TaskRow) (s : Store) : Except Fault Store := do
  let l ← s.ledgerFor .tasks
  let new ← edit.apply now row
  let moved := new.id ≠ row.id
  holds (!(moved && l.hasTask new.id)) (.notUnique .tasks ["id".toText])
  holds (l.projectExists new.projectId && !(moved && s.hasParts row.id l)) .brokenReference
  let tasks := l.tasks.map fun old => if sameId row.id old.id then new else old
  return s.setLedger { l with tasks }

/-- The store without a task and all that belongs to it, and whether there was one
    (the deletion in `delete_task_db`). -/
def deleteTask (id : Option Text) (s : Store) : Except Fault (Bool × Store) := do
  let l ← s.ledgerFor .tasks
  bindAll [.text id]
  let ledger := { l with
    tasks := l.tasks.filter fun row => !sameId id row.id
    tags := l.tags.filter fun row => !sameId id (some row.taskId) }
  let subtasks := s.subtasks.map fun rows => rows.filter fun row => !sameId id (some row.taskId)
  return (l.hasTask id, { s.setLedger ledger with subtasks })

/-! ## Tags and subtasks -/

/-- The store without the tags of a task (the deletion in `_save_tags`). -/
def deleteTagsOf (taskId : Option Text) (s : Store) : Except Fault Store := do
  let l ← s.ledgerFor .tags
  bindAll [.text taskId]
  let tags := l.tags.filter fun row => !sameId taskId (some row.taskId)
  return s.setLedger { l with tags }

/-- A new tag of a task (the insertion in `_save_tags`). -/
def insertTag (taskId tag : Option Text) (s : Store) : Except Fault Store := do
  let l ← s.ledgerFor .tags
  bindAll [.text taskId, .text tag]
  let id ← present .tags "task_id" taskId
  let tag ← present .tags "tag" tag
  holds (!(l.tags.contains ⟨id, tag⟩)) (.notUnique .tags ["task_id".toText, "tag".toText])
  holds (l.hasTask taskId) .brokenReference
  return s.setLedger { l with tags := l.tags ++ [⟨id, tag⟩] }

/-- The store without the subtasks of a task (the deletion in `_save_subtasks`). -/
def deleteSubtasksOf (taskId : Option Text) (s : Store) : Except Fault Store := do
  let rows ← s.subtaskRows
  bindAll [.text taskId]
  return { s with subtasks := some (rows.filter fun row => !sameId taskId (some row.taskId)) }

/-- A new, open subtask of a task (the insertion in `_save_subtasks`). -/
def insertSubtask (id : Text) (taskId text : Option Text) (s : Store) :
    Except Fault Store := do
  let rows ← s.subtaskRows
  bindAll [.text (some id), .text taskId, .text text]
  let task ← present .subtasks "task_id" taskId
  let text ← present .subtasks "text" text
  holds (!rows.any (·.id == id)) (.notUnique .subtasks ["id".toText])
  let l ← s.ledgerFor .tasks
  holds (l.hasTask taskId) .brokenReference
  return { s with subtasks := some (rows ++ [⟨id, task, text, false⟩]) }

/-- The store with a subtask done, or open if the mark is zero, and whether there was
    one (the update in `toggle_subtask_db`). -/
def markSubtask (id : Option Text) (mark : Int) (s : Store) : Except Fault (Bool × Store) := do
  let rows ← s.subtaskRows
  bindAll [.number (some mark), .text id]
  let completed := mark ≠ 0
  let marked := rows.map fun row => if sameId id (some row.id) then { row with completed } else row
  return (rows.any fun row => sameId id (some row.id), { s with subtasks := some marked })

/-! ## Projects and folders -/

/-- A new project, and its record (the insertion in `create_project_db`). -/
def insertProject (name color description : Option Text) (folderId : Option Int) (s : Store) :
    Except Fault (Project × Store) := do
  let l ← s.ledgerFor .projects
  bindAll [.text name, .text color, .text description, .number folderId]
  let name ← present .projects "name" name
  let color ← present .projects "color" color
  holds (l.folderExists folderId) .brokenReference
  let id := l.projects.last + 1
  let project : Project := { id := id, name, color, description, folderId }
  let projects := { rows := l.projects.rows ++ [project], last := id }
  return (project, s.setLedger { l with projects })

/-- The store where no task belongs to the project (the update in `delete_project_db`). -/
def leaveProject (id : Option Int) (s : Store) : Except Fault Store := do
  let l ← s.ledgerFor .tasks
  bindAll [.number id]
  let tasks := l.tasks.map fun row =>
    if id.isSome && row.projectId == id then { row with projectId := none } else row
  return s.setLedger { l with tasks }

/-- The store without a project, and whether there was one (the deletion in
    `delete_project_db`). A project that has tasks stays. -/
def deleteProject (id : Option Int) (s : Store) : Except Fault (Bool × Store) := do
  let l ← s.ledgerFor .projects
  bindAll [.number id]
  let found := l.projects.rows.any fun p => id == some p.id
  holds (!(found && l.tasks.any fun row => row.projectId == id)) .brokenReference
  let projects := { l.projects with rows := l.projects.rows.filter fun p => id != some p.id }
  return (found, s.setLedger { l with projects })

/-- A new folder, and its record (the insertion in `create_folder_db`). -/
def insertFolder (name color description : Option Text) (s : Store) :
    Except Fault (Folder × Store) := do
  let l ← s.ledgerFor .folders
  bindAll [.text name, .text color, .text description]
  let name ← present .folders "name" name
  let color ← present .folders "color" color
  let id := l.folders.last + 1
  let folder : Folder := { id := id, name, color, description }
  let folders := { rows := l.folders.rows ++ [folder], last := id }
  return (folder, s.setLedger { l with folders })

/-- The store where no project lies in the folder (the update in `delete_folder_db`). -/
def leaveFolder (id : Option Int) (s : Store) : Except Fault Store := do
  let l ← s.ledgerFor .projects
  bindAll [.number id]
  let rows := l.projects.rows.map fun p =>
    if id.isSome && p.folderId == id then { p with folderId := none } else p
  return s.setLedger { l with projects := { l.projects with rows } }

/-- The store without a folder, and whether there was one (the deletion in
    `delete_folder_db`). A folder that has projects stays. -/
def deleteFolder (id : Option Int) (s : Store) : Except Fault (Bool × Store) := do
  let l ← s.ledgerFor .folders
  bindAll [.number id]
  let found := l.folders.rows.any fun f => id == some f.id
  holds (!(found && l.projects.rows.any fun p => p.folderId == id)) .brokenReference
  let folders := { l.folders with rows := l.folders.rows.filter fun f => id != some f.id }
  return (found, s.setLedger { l with folders })

/-! ## Settings -/

/-- The store with a value for a setting (`save_setting`). -/
def saveSetting (key value : Option Text) (s : Store) : Except Fault Store := do
  let rows ← s.settingRows
  bindAll [.text key, .text value]
  let value ← present .settings "value" value
  if rows.any fun row => sameId key row.key then
    let saved := rows.map fun row => if sameId key row.key then { row with value } else row
    return { s with settings := some saved }
  else return { s with settings := some (rows ++ [⟨key, value⟩]) }

end Store
end TaskDesk
