import TaskDesk.Desk.Basic

/-!
# Working on tasks

Tasks are created, changed and deleted together with their tags and subtasks,
each as one transaction. What was written is then read back; where that is not
possible the change stays nevertheless.
-/

namespace TaskDesk

/-- What a new task is made of. -/
structure NewTask where
  id : Option Text
  title : Option Text
  description : Option Text := some []
  dueDate : Option Text := none
  priority : Option Text := some Priority.medium.name
  projectId : Option Int := none
  tags : List (Option Text) := []
  subtasks : List (Option Text) := []
deriving DecidableEq, Repr

/-- A change to a task. New tags or subtasks replace all that there are. -/
structure TaskChange extends TaskEdit where
  tags : Option (List (Option Text)) := none
  subtasks : Option (List (Option Text)) := none
deriving DecidableEq, Repr

namespace Desk

open Work

/-- One tag of a task after the other. -/
def insertTags (taskId : Option Text) : List (Option Text) → Work Unit
  | [] => pure ()
  | tag :: more => do
    execute (Store.insertTag taskId tag)
    insertTags taskId more

/-- The tags of a task are replaced (`_save_tags`). Repetitions are dropped. -/
def saveTags (taskId : Option Text) (tags : List (Option Text)) : Work Unit := do
  execute (Store.deleteTagsOf taskId)
  insertTags taskId (Text.distinct tags)

/-- One subtask of a task after the other, each with a new id. -/
def insertSubtasks (source : Source) (taskId : Option Text) : List (Option Text) → Work Unit
  | [] => pure ()
  | text :: more => do
    let id ← newId source
    execute (Store.insertSubtask id taskId text)
    insertSubtasks source taskId more

/-- The subtasks of a task are replaced by open ones (`_save_subtasks`). -/
def saveSubtasks (source : Source) (taskId : Option Text) (texts : List (Option Text)) :
    Work Unit := do
  execute (Store.deleteSubtasksOf taskId)
  insertSubtasks source taskId texts

/-- The task that has just been written. -/
def readBack (id : Option Text) : Work Task := do
  match ← query (Store.task? id) with
  | some task => return task
  | none => throw .vanished

/-- A new task (`create_task_db`). -/
def createTask (source : Source) (new : NewTask) : Work Task := do
  let time ← now source
  transaction do
    execute (Store.insertTask
      { id := new.id, title := new.title, description := new.description, dueDate := new.dueDate,
        priority := new.priority, projectId := new.projectId } time)
    saveTags new.id new.tags
    saveSubtasks source new.id new.subtasks
  readBack new.id

/-- The tags of a task are replaced, if they are not the given ones in the given
    order. The outcome tells whether they were. -/
def changeTags (taskId : Option Text) (tags : Option (List (Option Text))) : Work Bool := do
  match tags with
  | none => return false
  | some tags =>
    let old ← query (Store.tagsOf taskId)
    if tags = old.map some then return false
    saveTags taskId tags
    return true

/-- The subtasks of a task are replaced, if their texts are not the given ones in
    the given order. The outcome tells whether they were. -/
def changeSubtasks (source : Source) (taskId : Option Text)
    (texts : Option (List (Option Text))) : Work Bool := do
  let old ← query (Store.subtasksOf taskId)
  match texts with
  | none => return false
  | some texts =>
    if texts = old.map (some ·.text) then return false
    saveSubtasks source taskId texts
    return true

/-- A change to a task, if there is such a task (`update_task_db`). Tags are changed
    first, then subtasks, then the columns of the task. Where nothing makes a difference
    the time of the last change stays too. -/
def updateTask (source : Source) (id : Option Text) (change : TaskChange) : Work (Option Task) := do
  match ← query (Store.taskRow? id) with
  | none => return none
  | some row =>
    transaction do
      let tags ← changeTags id change.tags
      let subtasks ← changeSubtasks source id change.subtasks
      if change.changes row || tags || subtasks then
        let time ← now source
        execute (Store.updateTask change.toTaskEdit time row)
    return some (← readBack id)

/-- A task goes with all that belongs to it (`delete_task_db`). The outcome tells
    whether there was one. -/
def deleteTask (id : Option Text) : Work Bool := change (Store.deleteTask id)

/-- A subtask is marked as done, or as open if the mark is zero, if there is such a
    subtask (`toggle_subtask_db`). -/
def toggleSubtask (id : Option Text) (mark : Int) : Work (Option Subtask) := do
  if ← change (Store.markSubtask id mark) then query (Store.subtask? id)
  else return none

end Desk
end TaskDesk
