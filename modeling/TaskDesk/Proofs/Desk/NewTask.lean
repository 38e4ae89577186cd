import TaskDesk.Proofs.Desk.Kept
import TaskDesk.Proofs.Store.Listing

/-!
# New tasks

A task that was created has a row of its own behind all rows that there were before,
and this row is what was read back. Its tags and subtasks are written after it and
touch no row of a task.

Results:
* `Work.keptByParts_hasRows`: tags and subtasks are written without a change to tasks.
* `Desk.createTask_on_ok`: what is stored, and answered, when a task was created.
-/

namespace TaskDesk

/-- The rows of the stored tasks, in the order in which they were inserted. -/
def Store.HasRows (rows : List TaskRow) (s : Store) : Prop :=
  ∃ l, s.ledger = some l ∧ l.tasks = rows

/-- The columns of a new task. -/
def NewTask.columns (new : NewTask) : NewTaskRow where
  id := new.id
  title := new.title
  description := new.description
  dueDate := new.dueDate
  priority := new.priority
  projectId := new.projectId

theorem Work.keptByParts_hasRows (rows : List TaskRow) : KeptByParts (Store.HasRows rows) where
  deleteTagsOf := by
    rintro s s' taskId ⟨l, hl, hrows⟩ h
    obtain ⟨k, hk, -, rfl⟩ := Store.deleteTagsOf_eq_ok.1 h
    cases hl.symm.trans hk
    exact ⟨_, rfl, hrows⟩
  insertTag := by
    rintro s s' taskId tag ⟨l, hl, hrows⟩ h
    obtain ⟨k, hk, _, -, _, -, -, -, -, rfl⟩ := Store.insertTag_eq_ok.1 h
    cases hl.symm.trans hk
    exact ⟨_, rfl, hrows⟩
  deleteSubtasksOf := by
    rintro s s' taskId ⟨l, hl, hrows⟩ h
    obtain ⟨_, _, _, rfl⟩ := Store.deleteSubtasksOf_eq_ok.1 h
    exact ⟨l, hl, hrows⟩
  insertSubtask := by
    rintro s s' _ taskId text ⟨l, hl, hrows⟩ h
    obtain ⟨_, _, _, -, _, -, -, -, _, -, -, rfl⟩ := Store.insertSubtask_eq_ok.1 h
    exact ⟨l, hl, hrows⟩

namespace Store

variable {s : Store} {id : Option Text} {task : Task}

/-- A record is made with a look at the tags, for which the id has to be bound. -/
theorem isEncodable_of_taskOfRow {row : TaskRow} (h : s.taskOfRow row = .ok task) :
    IsEncodable row.id := by
  obtain ⟨tags, htags, -⟩ := bind_eq_ok.1 h
  obtain ⟨_, _, hid, _⟩ := tagsOf_eq_ok.1 htags
  exact hid

theorem task?_eq_ok_some :
    s.task? id = .ok (some task) ↔
      ∃ l, s.ledger = some l ∧ ∃ row, (l.tasks.find? fun row => sameId id row.id) = some row ∧
        s.taskOfRow row = .ok task := by
  simp only [task?, bind_eq_ok, taskRow?_eq_ok]
  constructor
  · rintro ⟨found, ⟨l, hl, -, hfound⟩, h⟩
    cases found with
    | none => cases h
    | some row =>
      obtain ⟨task', htask', heq⟩ := bind_eq_ok.1 h
      cases heq
      exact ⟨l, hl, row, hfound, htask'⟩
  · rintro ⟨l, hl, row, hfound, htask⟩
    have hsame := List.find?_some hfound
    have hid : IsEncodable id := (sameId_iff.1 hsame).2 ▸ isEncodable_of_taskOfRow htask
    exact ⟨some row, ⟨l, hl, hid, hfound⟩, bind_eq_ok.2 ⟨task, htask, rfl⟩⟩

theorem task?_eq_none {l : Ledger} (hl : s.ledger = some l) (hid : IsEncodable id)
    (h : l.hasTask id = false) : s.task? id = .ok none := by
  have hfind : (l.tasks.find? fun row => sameId id row.id) = none := by
    simpa [Ledger.hasTask] using h
  exact bind_eq_ok.2 ⟨none, taskRow?_eq_ok.2 ⟨l, hl, hid, hfind⟩, rfl⟩

end Store

namespace Desk

open Work

variable {source : Source} {d d' : Desk} {task : Task}

theorem readBack_on_ok {id : Option Text} (h : (readBack id).on d = (.ok task, d')) :
    d.store.task? id = .ok (some task) ∧ d' = d := by
  obtain ⟨found, mid, hquery, h⟩ := bind_on_ok h
  obtain ⟨hfound, rfl⟩ := query_on_ok hquery
  cases found with
  | none => cases h
  | some t =>
    cases h
    exact ⟨hfound, rfl⟩

/-- **A task that was created** had no row before. It has the last one now, with the columns
    that were given, and the record of this row is answered. -/
theorem createTask_on_ok {new : NewTask} {id : Text} (hid : new.id = some id)
    (h : (createTask source new).on d = (.ok task, d')) :
    ∃ l, d.store.ledger = some l ∧ l.hasTask (some id) = false ∧
    ∃ title, new.title = some title ∧
    ∃ priority, new.priority = some priority ∧
    ∃ time, (∀ t ∈ (new.columns.toRow title priority time).texts, t.isEncodable = true) ∧
      d'.store.HasRows (l.tasks ++ [new.columns.toRow title priority time]) ∧
      d'.store.taskOfRow (new.columns.toRow title priority time) = .ok task ∧
      d'.store.task? (some id) = .ok (some task) := by
  rw [createTask_eq] at h
  obtain ⟨time, begun, htime, h⟩ := bind_on_ok h
  cases htime
  obtain ⟨_, written, hwritten, hread⟩ := bind_on_ok h
  obtain ⟨_, inserted, hinsert, hparts⟩ := bind_on_ok (transaction_on_ok hwritten)
  obtain ⟨l, hl, -, title, htitle, priority, hpriority, htexts, hnew, -, hstore⟩ :=
    Store.insertTask_eq_ok.1 (execute_on_ok hinsert)
  let row : TaskRow := new.columns.toRow title priority (source.time d.timesUsed)
  have hrows : written.store.HasRows (l.tasks ++ [row]) := by
    have hkept : Keeps (Store.HasRows (l.tasks ++ [row]))
        (saveTags new.id new.tags >>= fun _ => saveSubtasks source new.id new.subtasks) :=
      .bind (.saveTags (keptByParts_hasRows _) _ _) fun _ =>
        .saveSubtasks (keptByParts_hasRows _) _ _
    exact hkept.of_on ⟨_, congrArg Store.ledger hstore.symm, rfl⟩ hparts
  obtain ⟨htask, rfl⟩ := readBack_on_ok hread
  obtain ⟨m, hm, found, hfind, hfound⟩ := Store.task?_eq_ok_some.1 htask
  have hsame : found = row := by
    obtain ⟨k, hk, hks⟩ := hrows
    cases hm.symm.trans hk
    have hold : (l.tasks.find? fun row => sameId new.id row.id) = none := by
      simpa [Ledger.hasTask] using hnew
    have hlast : sameId new.id row.id = true := sameId_iff.2 ⟨by rw [hid]; rfl, rfl⟩
    rw [hks, List.find?_append, hold, Option.none_or, List.find?_singleton, if_pos hlast] at hfind
    exact (Option.some.inj hfind).symm
  rw [hsame] at hfound
  rw [hid] at hnew htask
  exact ⟨l, hl, hnew, title, htitle, priority, hpriority, _, htexts, hrows, hfound, htask⟩

end Desk
end TaskDesk
