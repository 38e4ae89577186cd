import TaskDesk.Desk.Projects
import TaskDesk.Desk.Tasks
import TaskDesk.Proofs.Desk.Outcome
import TaskDesk.Proofs.Store.Presentable

/-!
# What work keeps

Work keeps a property of stores if the store has it after the work wherever it had it
before, whether the work is done or fails. What the statements on tags and subtasks
keep is kept where these are replaced. Two such properties matter for tasks that are
written: the store stays presentable, and the task stays where it is.

Results:
* `Work.Keeps.bind`, `Work.Keeps.transaction` and companions: parts that keep a property
  make work that keeps it.
* `Work.Keeps.saveTags`, `Work.Keeps.saveSubtasks`: tags and subtasks that are replaced.
* `Desk.keeps_createTask`, `Desk.keeps_updateTask` and companions: what is done to
  tasks, projects, folders and settings keeps the store presentable.
-/

namespace TaskDesk
namespace Work

variable {α β : Type} {P : Store → Prop}

/-- Where the store has the property, it has it after the work, done or failed. -/
def Keeps (P : Store → Prop) (a : Work α) : Prop := ∀ d, P d.store → P (a.on d).2.store

namespace Keeps

theorem pure (a : α) : Keeps P (pure a) := fun _ h => h

theorem throw (fault : Fault) : Keeps P (throw fault : Work α) := fun _ h => h

theorem query (read : Store → Except Fault α) : Keeps P (query read) := fun _ h => h

theorem newId (source : Source) : Keeps P (newId source) := fun _ h => h

theorem now (source : Source) : Keeps P (now source) := fun _ h => h

theorem bind {a : Work α} {f : α → Work β} (ha : Keeps P a) (hf : ∀ x, Keeps P (f x)) :
    Keeps P (a >>= f) := by
  intro d h
  have first := ha d h
  rw [on_bind]
  split
  · rename_i x after hx
    rw [hx] at first
    exact hf x after first
  · rename_i fault after hx
    rw [hx] at first
    exact first

/-- What is done after a look at the store may depend on what was seen there. -/
theorem query_bind {read : Store → Except Fault α} {f : α → Work β}
    (hf : ∀ s x, P s → read s = .ok x → Keeps P (f x)) : Keeps P (Work.query read >>= f) := by
  intro d h
  rw [on_bind, on_query]
  cases hread : read d.store with
  | ok x => exact hf d.store x h hread d h
  | error fault => exact h

theorem change {write : Store → Except Fault (α × Store)}
    (hwrite : ∀ {s s' x}, P s → write s = .ok (x, s') → P s') : Keeps P (change write) := by
  intro d h
  rw [on_change]
  split
  · rename_i hw
    exact hwrite h hw
  · exact h

theorem execute {write : Store → Except Fault Store}
    (hwrite : ∀ {s s'}, P s → write s = .ok s' → P s') : Keeps P (execute write) := by
  intro d h
  rw [on_execute]
  split
  · rename_i hw
    exact hwrite h hw
  · exact h

theorem transaction {a : Work α} (ha : Keeps P a) : Keeps P (transaction a) := by
  intro d h
  have whole := ha d h
  rw [on_transaction]
  split
  · rename_i hx
    rw [hx] at whole
    exact whole
  · exact h

theorem of_on {a : Work α} (ha : Keeps P a) {r : Except Fault α} {d d' : Desk} (h : P d.store)
    (hon : a.on d = (r, d')) : P d'.store := by
  have whole := ha d h
  rw [hon] at whole
  exact whole

end Keeps

/-! ## Tags and subtasks -/

/-- The statements on tags and subtasks of a task keep the property. -/
structure KeptByParts (P : Store → Prop) : Prop where
  deleteTagsOf : ∀ {s s' : Store} {taskId}, P s → s.deleteTagsOf taskId = .ok s' → P s'
  insertTag : ∀ {s s' : Store} {taskId tag}, P s → s.insertTag taskId tag = .ok s' → P s'
  deleteSubtasksOf : ∀ {s s' : Store} {taskId}, P s → s.deleteSubtasksOf taskId = .ok s' → P s'
  insertSubtask : ∀ {s s' : Store} {id taskId text}, P s →
    s.insertSubtask id taskId text = .ok s' → P s'

namespace Keeps

variable {source : Source}

theorem insertTags (hP : KeptByParts P) (taskId : Option Text) (tags : List (Option Text)) :
    Keeps P (Desk.insertTags taskId tags) := by
  induction tags with
  | nil => exact .pure ()
  | cons tag more ih => exact .bind (.execute hP.insertTag) fun _ => ih

theorem saveTags (hP : KeptByParts P) (taskId : Option Text) (tags : List (Option Text)) :
    Keeps P (Desk.saveTags taskId tags) :=
  .bind (.execute hP.deleteTagsOf) fun _ => insertTags hP _ _

theorem insertSubtasks (hP : KeptByParts P) (taskId : Option Text) (texts : List (Option Text)) :
    Keeps P (Desk.insertSubtasks source taskId texts) := by
  induction texts with
  | nil => exact .pure ()
  | cons text more ih =>
    exact .bind (.newId source) fun id => .bind (.execute hP.insertSubtask) fun _ => ih

theorem saveSubtasks (hP : KeptByParts P) (taskId : Option Text) (texts : List (Option Text)) :
    Keeps P (Desk.saveSubtasks source taskId texts) :=
  .bind (.execute hP.deleteSubtasksOf) fun _ => insertSubtasks hP _ _

theorem changeTags (hP : KeptByParts P) (taskId : Option Text)
    (tags : Option (List (Option Text))) : Keeps P (Desk.changeTags taskId tags) := by
  cases tags with
  | none => exact .pure false
  | some tags =>
    refine .bind (.query _) fun old => ?_
    split
    · exact .pure false
    · exact .bind (saveTags hP _ _) fun _ => .pure true

theorem changeSubtasks (hP : KeptByParts P) (taskId : Option Text)
    (texts : Option (List (Option Text))) :
    Keeps P (Desk.changeSubtasks source taskId texts) := by
  refine .bind (.query _) fun old => ?_
  cases texts with
  | none => exact .pure false
  | some texts =>
    dsimp only
    split
    · exact .pure false
    · exact .bind (saveSubtasks hP _ _) fun _ => .pure true

end Keeps
end Work

/-! ## A task that stays -/

/-- A task with the id is stored. -/
def Store.HasTask (id : Option Text) (s : Store) : Prop :=
  ∃ l, s.ledger = some l ∧ l.hasTask id = true

namespace Store

variable {s s' : Store} {id : Option Text}

theorem hasTask_of_insertTask {new : NewTaskRow} {now : Text} (hid : new.id.isSome)
    (h : s.insertTask new now = .ok s') : s'.HasTask new.id := by
  obtain ⟨l, hl, -, title, -, priority, -, -, -, -, rfl⟩ := insertTask_eq_ok.1 h
  refine ⟨_, rfl, List.any_eq_true.2 ⟨new.toRow title priority now, by simp, ?_⟩⟩
  exact sameId_iff.2 ⟨hid, rfl⟩

/-- A change to a task leaves all tasks where they are, if it keeps the id. -/
theorem HasTask.updateTask (hs : s.HasTask id) {edit : TaskEdit} {now : Text} {row : TaskRow}
    (hedit : edit.IsPresentable) (h : s.updateTask edit now row = .ok s') : s'.HasTask id := by
  obtain ⟨l, hl, hid⟩ := hs
  obtain ⟨k, hk, new, hnew, -, -, rfl⟩ := updateTask_eq_ok.1 h
  cases hl.symm.trans hk
  obtain ⟨old, hold, hsame⟩ := List.any_eq_true.1 hid
  refine ⟨_, rfl, List.any_eq_true.2 ⟨_, List.mem_map_of_mem hold, ?_⟩⟩
  split
  · rename_i hrow
    have hkeep := hedit.apply_id hnew
    rwa [hkeep, (sameId_iff.1 hrow).2]
  · exact hsame

end Store

namespace Work

theorem keptByParts_hasTask (id : Option Text) : KeptByParts (Store.HasTask id) where
  deleteTagsOf := by
    rintro s s' taskId ⟨l, hl, hid⟩ h
    obtain ⟨k, hk, -, rfl⟩ := Store.deleteTagsOf_eq_ok.1 h
    cases hl.symm.trans hk
    exact ⟨_, rfl, hid⟩
  insertTag := by
    rintro s s' taskId tag ⟨l, hl, hid⟩ h
    obtain ⟨k, hk, _, -, _, -, -, -, -, rfl⟩ := Store.insertTag_eq_ok.1 h
    cases hl.symm.trans hk
    exact ⟨_, rfl, hid⟩
  deleteSubtasksOf := by
    rintro s s' taskId ⟨l, hl, hid⟩ h
    obtain ⟨_, _, _, rfl⟩ := Store.deleteSubtasksOf_eq_ok.1 h
    exact ⟨l, hl, hid⟩
  insertSubtask := by
    rintro s s' _ taskId text ⟨l, hl, hid⟩ h
    obtain ⟨_, _, _, -, _, -, -, -, _, -, -, rfl⟩ := Store.insertSubtask_eq_ok.1 h
    exact ⟨l, hl, hid⟩

theorem keptByParts_isPresentable : KeptByParts Store.IsPresentable where
  deleteTagsOf hs h := hs.deleteTagsOf h
  insertTag hs h := hs.insertTag h
  deleteSubtasksOf hs h := hs.deleteSubtasksOf h
  insertSubtask hs h := hs.insertSubtask h

end Work

/-! ## Work that keeps the store presentable -/

namespace Desk

open Work Store

variable {source : Source}

theorem keeps_readBack {P : Store → Prop} (id : Option Text) : Keeps P (readBack id) := by
  refine .bind (.query _) fun found => ?_
  cases found with
  | some task => exact .pure task
  | none => exact .throw _

/-- What is done in the transaction of a new task. -/
def writeTask (source : Source) (new : NewTask) (time : Text) : Work Unit := do
  execute (Store.insertTask
    { id := new.id, title := new.title, description := new.description, dueDate := new.dueDate,
      priority := new.priority, projectId := new.projectId } time)
  saveTags new.id new.tags
  saveSubtasks source new.id new.subtasks

/-- What is done in the transaction of a change to the task in `row`. -/
def rewriteTask (source : Source) (id : Option Text) (change : TaskChange) (row : TaskRow) :
    Work Unit := do
  let tags ← changeTags id change.tags
  let subtasks ← changeSubtasks source id change.subtasks
  if change.changes row || tags || subtasks then
    let time ← now source
    execute (Store.updateTask change.toTaskEdit time row)

theorem createTask_eq (new : NewTask) :
    createTask source new =
      now source >>= fun time => transaction (writeTask source new time) >>= fun _ =>
        readBack new.id := rfl

theorem updateTask_eq (id : Option Text) (change : TaskChange) :
    updateTask source id change = query (Store.taskRow? id) >>= fun found =>
      match found with
      | none => pure none
      | some row => (transaction (rewriteTask source id change row) >>= fun _ => readBack id) >>=
          fun task => pure (some task) := by
  refine bind_congr fun found => ?_
  cases found with
  | none => rfl
  | some row =>
    exact (bind_assoc (transaction (rewriteTask source id change row)) (fun _ => readBack id) _).symm

theorem keeps_writeTask {new : NewTask} {time : Text} (hid : new.id.isSome)
    (hpriority : ∀ p ∈ new.priority, (Priority.ofName? p).isSome) :
    Keeps IsPresentable (writeTask source new time) := by
  refine .bind (.execute fun hs h => hs.insertTask hid hpriority h) fun _ => ?_
  exact .bind (.saveTags keptByParts_isPresentable _ _) fun _ =>
    .saveSubtasks keptByParts_isPresentable _ _

theorem keeps_createTask {new : NewTask} (hid : new.id.isSome)
    (hpriority : ∀ p ∈ new.priority, (Priority.ofName? p).isSome) :
    Keeps IsPresentable (createTask source new) := by
  rw [createTask_eq]
  exact .bind (.now source) fun time => .bind (.transaction (keeps_writeTask hid hpriority))
    fun _ => keeps_readBack _

theorem taskRow?_isPresentable {s : Store} {id : Option Text} {row : TaskRow}
    (hs : s.IsPresentable) (h : s.taskRow? id = .ok (some row)) : row.IsPresentable := by
  obtain ⟨l, hl, -, hrow⟩ := taskRow?_eq_ok.1 h
  exact (hs.ledger_of_eq hl).tasks row (List.mem_of_find?_eq_some hrow)

/-- What the changes of tags and subtasks keep, and the change of the columns too. -/
theorem keeps_rewriteTask {P : Store → Prop} (hP : KeptByParts P) {id : Option Text}
    {change : TaskChange} {row : TaskRow}
    (hupdate : ∀ {s s' time}, P s → s.updateTask change.toTaskEdit time row = .ok s' → P s') :
    Keeps P (rewriteTask source id change row) := by
  refine .bind (.changeTags hP _ _) fun tags => .bind (.changeSubtasks hP _ _) fun subtasks => ?_
  split
  · exact .bind (.now source) fun time => .execute hupdate
  · exact .pure ()

theorem keeps_updateTask (id : Option Text) {change : TaskChange}
    (hchange : change.toTaskEdit.IsPresentable) :
    Keeps IsPresentable (updateTask source id change) := by
  rw [updateTask_eq]
  refine .query_bind fun s found hs hfound => ?_
  cases found with
  | none => exact .pure none
  | some row =>
    have hrow := taskRow?_isPresentable hs hfound
    refine .bind (.bind (.transaction ?_) fun _ => keeps_readBack id) fun task => .pure _
    exact keeps_rewriteTask keptByParts_isPresentable fun hs h => hs.updateTask hchange hrow h

theorem keeps_deleteTask (id : Option Text) : Keeps IsPresentable (deleteTask id) :=
  .change fun hs h => hs.deleteTask h

theorem keeps_toggleSubtask (id : Option Text) (mark : Int) :
    Keeps IsPresentable (toggleSubtask id mark) := by
  refine .bind (.change fun hs h => hs.markSubtask h) fun found => ?_
  cases found with
  | true => exact .query _
  | false => exact .pure none

theorem keeps_createProject (name color description : Option Text) (folderId : Option Int) :
    Keeps IsPresentable (createProject name color description folderId) :=
  .change fun hs h => (hs.insertProject h).1

theorem keeps_deleteProject (id : Option Int) : Keeps IsPresentable (deleteProject id) :=
  .transaction (.bind (.execute fun hs h => hs.leaveProject h) fun _ =>
    .change fun hs h => hs.deleteProject h)

theorem keeps_createFolder (name color description : Option Text) :
    Keeps IsPresentable (createFolder name color description) :=
  .change fun hs h => (hs.insertFolder h).1

theorem keeps_deleteFolder (id : Option Int) : Keeps IsPresentable (deleteFolder id) :=
  .transaction (.bind (.execute fun hs h => hs.leaveFolder h) fun _ =>
    .change fun hs h => hs.deleteFolder h)

theorem keeps_setInputMode (mode : Option Text) : Keeps IsPresentable (setInputMode mode) :=
  .execute fun hs h => hs.saveSetting h

end Desk
end TaskDesk
