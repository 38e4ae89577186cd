import TaskDesk.Desk.Projects
import TaskDesk.Desk.Tasks
import TaskDesk.Form.Records

/-!
# Commands

All calls that a store answers, as one type, with what they answer.
-/

namespace TaskDesk

/-- A call of the store. -/
inductive Command where
  | allTasks
  | task (id : Option Text)
  | createTask (new : NewTask)
  | updateTask (id : Option Text) (change : TaskChange)
  | deleteTask (id : Option Text)
  | toggleSubtask (id : Option Text) (mark : Int)
  | allTags
  | allProjects
  | createProject (name color description : Option Text) (folderId : Option Int)
  | deleteProject (id : Option Int)
  | allFolders
  | createFolder (name color description : Option Text)
  | deleteFolder (id : Option Int)
  | setting (key : Option Text)
  | saveSetting (key value : Option Text)
  | inputMode
  | setInputMode (mode : Option Text)
deriving DecidableEq, Repr

/-- What a call answers. -/
inductive Answer where
  | nothing
  | tasks (ts : List Task)
  | task (t : Option Task)
  | subtask (s : Option Subtask)
  | texts (ts : List Text)
  | text (t : Option Text)
  | projects (ps : List Project)
  | project (p : Project)
  | folders (fs : List Folder)
  | folder (f : Folder)
  | found (b : Bool)
  | mode (m : Mode)
deriving DecidableEq, Repr

namespace Command

open Work

/-- A call at a desk. -/
def perform (source : Source) : Command → Work Answer
  | allTasks => return .tasks (← query Store.allTasks)
  | task id => return .task (← query (Store.task? id))
  | createTask new => return .task (some (← Desk.createTask source new))
  | updateTask id change => return .task (← Desk.updateTask source id change)
  | deleteTask id => return .found (← Desk.deleteTask id)
  | toggleSubtask id mark => return .subtask (← Desk.toggleSubtask id mark)
  | allTags => return .texts (← query Store.allTags)
  | allProjects => return .projects (← query Store.allProjects)
  | createProject name color description folderId =>
    return .project (← Desk.createProject name color description folderId)
  | deleteProject id => return .found (← Desk.deleteProject id)
  | allFolders => return .folders (← query Store.allFolders)
  | createFolder name color description =>
    return .folder (← Desk.createFolder name color description)
  | deleteFolder id => return .found (← Desk.deleteFolder id)
  | setting key => return .text (← query (Store.setting? key))
  | saveSetting key value => do execute (Store.saveSetting key value); return .nothing
  | inputMode => return .mode (← Desk.inputMode)
  | setInputMode mode => do Desk.setInputMode mode; return .nothing

end Command

/-- What a call answers, as JSON. -/
def Answer.toJson : Answer → Json
  | nothing => .null
  | tasks ts => .list (ts.map (·.toJson))
  | task t => (t.map (·.toJson)).getD .null
  | subtask s => (s.map (·.toJson)).getD .null
  | texts ts => .ofTexts ts
  | text t => .ofText? t
  | projects ps => .list (ps.map (·.toJson))
  | project p => p.toJson
  | folders fs => .list (fs.map (·.toJson))
  | folder f => f.toJson
  | found b => .bool b
  | mode m => .text m.name

end TaskDesk
