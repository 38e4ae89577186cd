import TaskDesk.Desk.Command
import TaskDesk.Proofs.Store.Step

/-!
# Orderly work

Work is orderly where all that it does to the store is a run of statements that
succeed. It may fail after any of them; a transaction then takes all of them back,
which is a run of no statement at all.

Results:
* `Work.Orderly.bind`, `Work.Orderly.transaction` and companions: orderly parts make
  orderly work.
* `Work.Orderly.sameTables`: orderly work neither creates nor drops a table.
* `Command.orderly`: every call is orderly.
-/

namespace TaskDesk
namespace Work

open Store (Step Steps)

variable {α β : Type}

/-- What the work does to the store is a run of statements. -/
def Orderly (a : Work α) : Prop := ∀ d, Steps d.store (a.on d).2.store

namespace Orderly

/-! ## Parts of work -/

theorem pure (a : α) : Orderly (pure a) := fun _ => .refl

theorem throw (fault : Fault) : Orderly (throw fault : Work α) := fun _ => .refl

theorem query (read : Store → Except Fault α) : Orderly (query read) := fun _ => .refl

theorem newId (source : Source) : Orderly (newId source) := fun _ => .refl

theorem now (source : Source) : Orderly (now source) := fun _ => .refl

theorem bind {a : Work α} {f : α → Work β} (ha : Orderly a) (hf : ∀ x, Orderly (f x)) :
    Orderly (a >>= f) := by
  intro d
  have first := ha d
  rw [on_bind]
  split
  · rename_i x after hx
    rw [hx] at first
    exact first.trans (hf x after)
  · rename_i fault after hx
    rw [hx] at first
    exact first

theorem change {write : Store → Except Fault (α × Store)}
    (h : ∀ {s s' x}, write s = .ok (x, s') → Step s s') : Orderly (change write) := by
  intro d
  rw [on_change]
  split
  · rename_i hw
    exact .single (h hw)
  · exact .refl

theorem execute {write : Store → Except Fault Store} (h : ∀ {s s'}, write s = .ok s' → Step s s') :
    Orderly (execute write) := by
  intro d
  rw [on_execute]
  split
  · rename_i hw
    exact .single (h hw)
  · exact .refl

theorem transaction {a : Work α} (ha : Orderly a) : Orderly (transaction a) := by
  intro d
  have whole := ha d
  rw [on_transaction]
  split
  · rename_i hx
    rw [hx] at whole
    exact whole
  · exact .refl

theorem sameTables {a : Work α} (ha : Orderly a) {r : Except Fault α} {d d' : Desk}
    (h : a.on d = (r, d')) : Store.SameTables d.store d'.store := by
  have steps := ha d
  rw [h] at steps
  exact Store.Steps.sameTables steps

end Orderly
end Work

namespace Desk

open Work

variable {source : Source}

/-! ## Tasks -/

theorem orderly_insertTags (taskId : Option Text) (tags : List (Option Text)) :
    Orderly (insertTags taskId tags) := by
  induction tags with
  | nil => exact .pure ()
  | cons tag more ih => exact .bind (.execute (.insertTag taskId tag)) fun _ => ih

theorem orderly_saveTags (taskId : Option Text) (tags : List (Option Text)) :
    Orderly (saveTags taskId tags) :=
  .bind (.execute (.deleteTagsOf taskId)) fun _ => orderly_insertTags _ _

theorem orderly_insertSubtasks (taskId : Option Text) (texts : List (Option Text)) :
    Orderly (insertSubtasks source taskId texts) := by
  induction texts with
  | nil => exact .pure ()
  | cons text more ih =>
    refine .bind (.newId source) fun id => ?_
    exact .bind (.execute (.insertSubtask id taskId text)) fun _ => ih

theorem orderly_saveSubtasks (taskId : Option Text) (texts : List (Option Text)) :
    Orderly (saveSubtasks source taskId texts) :=
  .bind (.execute (.deleteSubtasksOf taskId)) fun _ => orderly_insertSubtasks _ _

theorem orderly_readBack (id : Option Text) : Orderly (readBack id) := by
  refine .bind (.query _) fun found => ?_
  cases found with
  | some task => exact .pure task
  | none => exact .throw _

theorem orderly_createTask (new : NewTask) : Orderly (createTask source new) := by
  refine .bind (.now source) fun time => ?_
  refine .bind (.transaction ?_) fun _ => orderly_readBack _
  refine .bind (.execute (.insertTask _ time)) fun _ => ?_
  exact .bind (orderly_saveTags _ _) fun _ => orderly_saveSubtasks _ _

theorem orderly_changeTags (taskId : Option Text) (tags : Option (List (Option Text))) :
    Orderly (changeTags taskId tags) := by
  cases tags with
  | none => exact .pure false
  | some tags =>
    refine .bind (.query _) fun old => ?_
    split
    · exact .pure false
    · exact .bind (orderly_saveTags _ _) fun _ => .pure true

theorem orderly_changeSubtasks (taskId : Option Text) (texts : Option (List (Option Text))) :
    Orderly (changeSubtasks source taskId texts) := by
  refine .bind (.query _) fun old => ?_
  cases texts with
  | none => exact .pure false
  | some texts =>
    dsimp only
    split
    · exact .pure false
    · exact .bind (orderly_saveSubtasks _ _) fun _ => .pure true

theorem orderly_updateTask (id : Option Text) (change : TaskChange) :
    Orderly (updateTask source id change) := by
  refine .bind (.query _) fun found => ?_
  cases found with
  | none => exact .pure none
  | some row =>
    refine .bind (.transaction ?_) fun _ => .bind (orderly_readBack id) fun task => .pure _
    refine .bind (orderly_changeTags _ _) fun tags => ?_
    refine .bind (orderly_changeSubtasks _ _) fun subtasks => ?_
    split
    · exact .bind (.now source) fun time => .execute (.updateTask _ time row)
    · exact .pure ()

theorem orderly_deleteTask (id : Option Text) : Orderly (deleteTask id) :=
  .change (.deleteTask id _)

theorem orderly_toggleSubtask (id : Option Text) (mark : Int) :
    Orderly (toggleSubtask id mark) := by
  refine .bind (.change (.markSubtask id mark _)) fun found => ?_
  cases found with
  | true => exact .query _
  | false => exact .pure none

/-! ## Projects, folders and settings -/

theorem orderly_createProject (name color description : Option Text) (folderId : Option Int) :
    Orderly (createProject name color description folderId) :=
  .change (.insertProject name color description folderId _)

theorem orderly_deleteProject (id : Option Int) : Orderly (deleteProject id) :=
  .transaction (.bind (.execute (.leaveProject id)) fun _ => .change (.deleteProject id _))

theorem orderly_createFolder (name color description : Option Text) :
    Orderly (createFolder name color description) :=
  .change (.insertFolder name color description _)

theorem orderly_deleteFolder (id : Option Int) : Orderly (deleteFolder id) :=
  .transaction (.bind (.execute (.leaveFolder id)) fun _ => .change (.deleteFolder id _))

theorem orderly_inputMode : Orderly inputMode := .bind (.query _) fun _ => .pure _

theorem orderly_setInputMode (mode : Option Text) : Orderly (setInputMode mode) :=
  .execute (.saveSetting _ mode)

end Desk

open Work Desk in
/-- **Calls are orderly.** Whatever a call does to the store, and whether it fails or
    not, is a run of statements that succeed. -/
theorem Command.orderly (source : Source) (c : Command) : Orderly (c.perform source) := by
  cases c with
  | allTasks => exact .bind (.query _) fun _ => .pure _
  | task id => exact .bind (.query _) fun _ => .pure _
  | createTask new => exact .bind (orderly_createTask new) fun _ => .pure _
  | updateTask id change => exact .bind (orderly_updateTask id change) fun _ => .pure _
  | deleteTask id => exact .bind (orderly_deleteTask id) fun _ => .pure _
  | toggleSubtask id mark => exact .bind (orderly_toggleSubtask id mark) fun _ => .pure _
  | allTags => exact .bind (.query _) fun _ => .pure _
  | allProjects => exact .bind (.query _) fun _ => .pure _
  | createProject name color description folderId =>
    exact .bind (orderly_createProject name color description folderId) fun _ => .pure _
  | deleteProject id => exact .bind (orderly_deleteProject id) fun _ => .pure _
  | allFolders => exact .bind (.query _) fun _ => .pure _
  | createFolder name color description =>
    exact .bind (orderly_createFolder name color description) fun _ => .pure _
  | deleteFolder id => exact .bind (orderly_deleteFolder id) fun _ => .pure _
  | setting key => exact .bind (.query _) fun _ => .pure _
  | saveSetting key value => exact .bind (.execute (.saveSetting key value)) fun _ => .pure _
  | inputMode => exact .bind orderly_inputMode fun _ => .pure _
  | setInputMode mode => exact .bind (orderly_setInputMode mode) fun _ => .pure _

end TaskDesk
