import TaskDesk.Store.Basic

/-!
# Reading the store

Queries for rows, and the records that rows make together with the tags and
subtasks that belong to them. A stored task makes a record only if it has an id
and a known priority.

Results:
* `TaskRow.issues_eq_nil_iff`: the condition under which a row makes a record.
-/

namespace TaskDesk

/-- A value is the given one. Where a value is missing on either side the two
    are not the same. -/
def sameId (wanted actual : Option Text) : Bool := wanted.isSome && wanted == actual

namespace TaskRow

/-- What keeps a row from being a record. -/
def issues (row : TaskRow) : List Issue :=
  (if row.id.isSome then [] else [{ kind := .textExpected, path := [.member "id".toText] }]) ++
  (if (Priority.ofName? row.priority).isSome then []
    else [{ kind := .notAnOption, path := [.member "priority".toText] }])

theorem issues_eq_nil_iff (row : TaskRow) :
    row.issues = [] ↔ row.id.isSome ∧ (Priority.ofName? row.priority).isSome := by
  unfold issues
  cases row.id <;> cases Priority.ofName? row.priority <;>
    simp only [Option.isSome_none, Option.isSome_some, Bool.false_eq_true, if_false, if_true,
      List.nil_append, List.cons_append, reduceCtorEq, and_self, and_true, and_false]

/-- The record that a row makes with its tags and subtasks. A missing
    description reads as an empty one. -/
def toTask (row : TaskRow) (tags : List Text) (subtasks : List Subtask) : Except Fault Task :=
  match row.id, Priority.ofName? row.priority with
  | some id, some priority =>
    .ok {
      id, priority, tags, subtasks
      title := row.title
      description := row.description.getD []
      dueDate := row.dueDate
      completed := row.completed ≠ 0
      projectId := row.projectId
      createdAt := row.createdAt
      updatedAt := row.updatedAt }
  | _, _ => .error (.unreadable row.issues)

/-- Whether a row is listed before another one or has the same rank: by due date,
    missing ones last, and then by the time of creation. Texts are ordered by
    code point. -/
def ranksBefore (r s : TaskRow) : Bool :=
  match r.dueDate, s.dueDate with
  | some d, some e => if d = e then Text.precedes r.createdAt s.createdAt else Text.precedes d e
  | some _, none => true
  | none, some _ => false
  | none, none => Text.precedes r.createdAt s.createdAt

end TaskRow

/-- The record of a stored subtask. -/
def SubtaskRow.toSubtask (row : SubtaskRow) : Subtask := ⟨row.id, row.text, row.completed⟩

namespace Store

/-! ## Tasks -/

/-- The stored task with a given id. -/
def taskRow? (id : Option Text) (s : Store) : Except Fault (Option TaskRow) := do
  let l ← s.ledgerFor .tasks
  bindAll [.text id]
  return l.tasks.find? fun row => sameId id row.id

/-- The tags of a task, in the order in which they were given (`_tags_for_task`). -/
def tagsOf (taskId : Option Text) (s : Store) : Except Fault (List Text) := do
  let l ← s.ledgerFor .tags
  bindAll [.text taskId]
  return (l.tags.filter fun row => sameId taskId (some row.taskId)).map (·.tag)

/-- The subtasks of a task, in the order in which they were given (`_subtasks_for_task`). -/
def subtasksOf (taskId : Option Text) (s : Store) : Except Fault (List Subtask) := do
  let rows ← s.subtaskRows
  bindAll [.text taskId]
  return (rows.filter fun row => sameId taskId (some row.taskId)).map (·.toSubtask)

/-- The record of a stored task (`_row_to_task`). -/
def taskOfRow (s : Store) (row : TaskRow) : Except Fault Task := do
  let tags ← s.tagsOf row.id
  let subtasks ← s.subtasksOf row.id
  row.toTask tags subtasks

/-- The task with a given id (`get_task_db`). -/
def task? (id : Option Text) (s : Store) : Except Fault (Option Task) := do
  match ← s.taskRow? id with
  | some row => return some (← s.taskOfRow row)
  | none => return none

/-- All tasks, by due date and time of creation (`get_all_tasks`). -/
def allTasks (s : Store) : Except Fault (List Task) := do
  let l ← s.ledgerFor .tasks
  (l.tasks.mergeSort TaskRow.ranksBefore).mapM s.taskOfRow

/-- All tags in use, each once, by code point (`get_all_tags`). -/
def allTags (s : Store) : Except Fault (List Text) := do
  let l ← s.ledgerFor .tags
  return (Text.distinct (l.tags.map (·.tag))).mergeSort Text.precedes

/-- The subtask with a given id. -/
def subtask? (id : Option Text) (s : Store) : Except Fault (Option Subtask) := do
  let rows ← s.subtaskRows
  bindAll [.text id]
  return (rows.find? fun row => sameId id (some row.id)).map (·.toSubtask)

/-! ## Projects, folders and settings -/

/-- All projects, oldest first (`get_all_projects`). -/
def allProjects (s : Store) : Except Fault (List Project) := do
  let l ← s.ledgerFor .projects
  return l.projects.rows

/-- All folders, oldest first (`get_all_folders`). -/
def allFolders (s : Store) : Except Fault (List Folder) := do
  let l ← s.ledgerFor .folders
  return l.folders.rows

/-- The value of a setting (`get_setting`). -/
def setting? (key : Option Text) (s : Store) : Except Fault (Option Text) := do
  let rows ← s.settingRows
  bindAll [.text key]
  return (rows.find? fun row => sameId key row.key).map (·.value)

end Store
end TaskDesk
