import TaskDesk.Proofs.Desk.NewTask
import TaskDesk.Proofs.Desk.Rewrite

/-!
# Records and their rows

A record of a task is made of its row and of the tags and subtasks that belong to the id of the
row, and shows all of them. Ids of tasks are unique, so a row is found by its id, and the record
that is read by an id is the one that its row makes.

Results:
* `TaskRow.gives_of_toTask`, `Store.gives_of_taskOfRow`: what a record shows.
* `Store.task?_of_taskOfRow`: the record of a row is read by its id.
* `Store.exists_gives_of_task?`: what is read by an id is told by the row with the id.
* `Store.filter_not_sameId`: the rows that belong to other tasks.
-/

namespace TaskDesk

/-- The record shows the row, the tags and the subtasks, and nothing else. -/
structure TaskRow.Gives (row : TaskRow) (tags : List Text) (subtasks : List Subtask)
    (task : Task) : Prop extends row.Shows task where
  projectId : row.projectId = task.projectId
  createdAt : row.createdAt = task.createdAt
  updatedAt : row.updatedAt = task.updatedAt
  tags : tags = task.tags
  subtasks : subtasks = task.subtasks

theorem TaskRow.gives_of_toTask {row : TaskRow} {tags : List Text} {subtasks : List Subtask}
    {task : Task} (h : row.toTask tags subtasks = .ok task) : row.Gives tags subtasks task := by
  have hshows := shows_of_toTask h
  unfold toTask at h
  split at h
  · cases h
    exact ⟨hshows, rfl, rfl, rfl, rfl, rfl⟩
  · cases h

namespace Store

variable {s : Store} {row : TaskRow} {task : Task} {a : Text}

theorem gives_of_taskOfRow (h : s.taskOfRow row = .ok task) :
    row.Gives (s.tagsFor task.id) ((s.subtasksFor task.id).map (·.toSubtask)) task := by
  have hid := (shows_of_taskOfRow h).id
  obtain ⟨tags, htags, h⟩ := bind_eq_ok.1 h
  obtain ⟨subtasks, hsubtasks, h⟩ := bind_eq_ok.1 h
  obtain ⟨l, hl, hencodable, -⟩ := tagsOf_eq_ok.1 htags
  obtain ⟨rows, hrows, -⟩ := subtasksOf_eq_ok.1 hsubtasks
  rw [hid, isEncodable_some] at hencodable
  rw [hid, tagsOf_eq hl hencodable] at htags
  rw [hid, subtasksOf_eq hrows hencodable] at hsubtasks
  cases htags
  cases hsubtasks
  exact TaskRow.gives_of_toTask h

/-- A row is found by its id. -/
theorem find?_of_id {l : Ledger} (hsound : l.IsSound) (hrow : row ∈ l.tasks) {a : Text}
    (ha : row.id = some a) : (l.tasks.find? fun row => sameId (some a) row.id) = some row := by
  cases hfound : l.tasks.find? fun row => sameId (some a) row.id with
  | none => exact absurd (sameId_some.2 ha) (List.find?_eq_none.1 hfound row hrow)
  | some found =>
    have hid : found.id = some a := sameId_some.1 (by simpa using List.find?_some hfound)
    rw [eq_of_id hsound hrow (List.mem_of_find?_eq_some hfound) ha hid]

/-- The record of a row is read by its id. -/
theorem task?_of_taskOfRow (hs : s.IsSound) {l : Ledger} (hl : s.ledger = some l)
    (hrow : row ∈ l.tasks) (h : s.taskOfRow row = .ok task) :
    s.task? (some task.id) = .ok (some task) :=
  task?_eq_ok_some.2 ⟨l, hl, row,
    find?_of_id (hs.ledger l hl) hrow (shows_of_taskOfRow h).id, h⟩

/-- What is read by an id is told by the row with the id. -/
theorem exists_gives_of_task? (h : s.task? (some a) = .ok (some task)) :
    ∃ l row, s.ledger = some l ∧ row ∈ l.tasks ∧ row.id = some a ∧ task.id = a ∧
      row.Gives (s.tagsFor a) ((s.subtasksFor a).map (·.toSubtask)) task := by
  obtain ⟨l, hl, row, hfound, htask⟩ := task?_eq_ok_some.1 h
  have hrow : row.id = some a := sameId_some.1 (by simpa using List.find?_some hfound)
  have hgives := gives_of_taskOfRow htask
  obtain rfl : task.id = a := Option.some.inj (hgives.id.symm.trans hrow)
  exact ⟨l, row, hl, List.mem_of_find?_eq_some hfound, hrow, rfl, hgives⟩

/-- The task that is located can be read. -/
theorem Locates.exists_task? {l : Ledger} (h : s.Locates a l row) (hs : s.IsHealthy) :
    ∃ task, s.task? (some a) = .ok (some task) := by
  obtain ⟨task, htask, -⟩ := hs.presentable.taskOfRow h.stored.toIsPresentable
  have hid : task.id = a := Option.some.inj ((shows_of_taskOfRow htask).id.symm.trans h.id)
  exact ⟨task, hid ▸ task?_of_taskOfRow hs.sound h.ledger h.mem htask⟩

/-- The subtasks of a task have different ids. -/
theorem IsSound.nodup_subtasksFor (hs : s.IsSound) (a : Text) :
    (((s.subtasksFor a).map (·.toSubtask)).map (·.id)).Nodup := by
  have hids : (s.subtaskList.map (·.id)).Nodup := by
    cases hrows : s.subtasks with
    | none =>
      rw [subtaskList, hrows]
      exact .nil
    | some rows =>
      rw [subtaskList_eq hrows]
      exact hs.subtask_ids rows hrows
  rw [List.map_map]
  exact hids.sublist (List.filter_sublist.map _)

/-! ## Rows that belong to other tasks -/

theorem not_sameId_iff {a : Text} {id : Option Text} :
    (!sameId (some a) id) = true ↔ ¬ id = some a := by
  rw [Bool.not_eq_true', ← Bool.not_eq_true, sameId_some]

/-- The rows that do not belong to a task. -/
theorem filter_not_sameId {α : Type} (taskId : α → Text) (a : Text) (rows : List α) :
    (rows.filter fun row => !sameId (some a) (some (taskId row))) =
      rows.filter (taskId · ≠ a) := by
  refine List.filter_congr fun row _ => Bool.eq_iff_iff.2 ?_
  rw [not_sameId_iff, decide_eq_true_iff, Option.some.injEq]

end Store
end TaskDesk
