import TaskDesk.Proofs.Store.Integrity

/-!
# Statements that find nothing

A statement that takes away or marks a row tells whether it has found one. Where it
has not, the store is as it was. For tasks, projects and folders this rests on the
integrity of the store: what would go with the row, or would be told to leave it,
cannot be there without the row.

Results:
* `IsSound.deleteTask_absent`: nothing belongs to a task that is not there.
* `markSubtask_absent`: no subtask is marked where none has the id.
* `IsSound.leave_deleteProject_absent`, `IsSound.leave_deleteFolder_absent`: nothing is
  told to leave a project or a folder that is not there.
-/

namespace TaskDesk
namespace Store

variable {s s' : Store}

theorem IsSound.deleteTask_absent (hs : s.IsSound) {id : Option Text}
    (h : s.deleteTask id = .ok (false, s')) : s' = s := by
  obtain ⟨l, hl, -, habsent, rfl⟩ := deleteTask_eq_ok.1 h
  have hother : ∀ row ∈ l.tasks, (!sameId id row.id) = true := fun row hrow => by
    rw [Bool.not_eq_true', ← Bool.not_eq_true]
    exact List.any_eq_false.1 habsent row hrow
  have hparts : ∀ taskId, (∃ task ∈ l.tasks, task.id = some taskId) →
      (!sameId id (some taskId)) = true := by
    rintro taskId ⟨task, htask, hid⟩
    exact hid ▸ hother task htask
  have htasks : (l.tasks.filter fun row => !sameId id row.id) = l.tasks :=
    List.filter_eq_self.2 hother
  have htags : (l.tags.filter fun row => !sameId id (some row.taskId)) = l.tags :=
    List.filter_eq_self.2 fun row hrow => hparts _ ((hs.ledger l hl).tag_task row hrow)
  have hsubtasks : (s.subtasks.map fun rows =>
      rows.filter fun row => !sameId id (some row.taskId)) = s.subtasks := by
    refine (Option.map_congr fun rows hrows => ?_).trans Option.map_id'
    refine List.filter_eq_self.2 fun row hrow => hparts _ ?_
    obtain ⟨k, hk, htask⟩ := hs.subtask_task rows hrows row hrow
    cases hl.symm.trans hk
    exact htask
  rw [htasks, htags, hsubtasks, setLedger_self hl]

theorem markSubtask_absent {id : Option Text} {mark : Int}
    (h : s.markSubtask id mark = .ok (false, s')) : s' = s := by
  obtain ⟨rows, hrows, -, -, habsent, rfl⟩ := markSubtask_eq_ok.1 h
  rw [List.any_eq_false] at habsent
  have hsame : (rows.map fun row =>
      if sameId id (some row.id) then { row with completed := mark ≠ 0 } else row) = rows :=
    (List.map_congr_left fun row hrow => if_neg (habsent row hrow)).trans (List.map_id' rows)
  rw [hsame, ← hrows]

theorem deleteProject_absent {id : Option Int} (h : s.deleteProject id = .ok (false, s')) :
    s' = s ∧ ∃ l, s.ledger = some l ∧ ∀ p ∈ l.projects.rows, id ≠ some p.id := by
  obtain ⟨l, hl, -, -, habsent, rfl⟩ := deleteProject_eq_ok.1 h
  have hno : ∀ p ∈ l.projects.rows, id ≠ some p.id := by simpa using habsent
  have hsame : (l.projects.rows.filter fun p => id != some p.id) = l.projects.rows :=
    List.filter_eq_self.2 fun p hp => bne_iff_ne.2 (hno p hp)
  exact ⟨by rw [hsame, setLedger_self hl], l, hl, hno⟩

theorem deleteFolder_absent {id : Option Int} (h : s.deleteFolder id = .ok (false, s')) :
    s' = s ∧ ∃ l, s.ledger = some l ∧ ∀ f ∈ l.folders.rows, id ≠ some f.id := by
  obtain ⟨l, hl, -, -, habsent, rfl⟩ := deleteFolder_eq_ok.1 h
  have hno : ∀ f ∈ l.folders.rows, id ≠ some f.id := by simpa using habsent
  have hsame : (l.folders.rows.filter fun f => id != some f.id) = l.folders.rows :=
    List.filter_eq_self.2 fun f hf => bne_iff_ne.2 (hno f hf)
  exact ⟨by rw [hsame, setLedger_self hl], l, hl, hno⟩

/-- Rows that refer elsewhere are not told to leave. -/
theorem map_leave_eq_self {α : Type} {rows : List α} {reference : α → Option Int} {leave : α → α}
    {id : Option Int} (h : ∀ row ∈ rows, ∀ i ∈ reference row, id ≠ some i) :
    (rows.map fun row => if id.isSome && reference row == id then leave row else row) = rows := by
  refine (List.map_congr_left fun row hrow => if_neg fun hrefers => ?_).trans (List.map_id' rows)
  rw [Bool.and_eq_true, beq_iff_eq] at hrefers
  obtain ⟨i, hi⟩ := Option.isSome_iff_exists.1 hrefers.1
  exact h row hrow i (hrefers.2.trans hi) hi

/-- Tasks lie only in projects that are there, so none has to leave one that is not. -/
theorem IsSound.leave_deleteProject_absent (hs : s.IsSound) {id : Option Int} {left : Store}
    (hleave : s.leaveProject id = .ok left) (h : left.deleteProject id = .ok (false, s')) :
    s' = s := by
  obtain ⟨rfl, k, hk, hno⟩ := deleteProject_absent h
  obtain ⟨l, hl, -, rfl⟩ := leaveProject_eq_ok.1 hleave
  cases hk
  have helsewhere : ∀ row ∈ l.tasks, ∀ i ∈ row.projectId, id ≠ some i := by
    intro row hrow i hi
    obtain ⟨p, hp, rfl⟩ := (hs.ledger l hl).task_project row hrow i hi
    exact hno p hp
  rw [map_leave_eq_self helsewhere, setLedger_self hl]

/-- Projects lie only in folders that are there, so none has to leave one that is not. -/
theorem IsSound.leave_deleteFolder_absent (hs : s.IsSound) {id : Option Int} {left : Store}
    (hleave : s.leaveFolder id = .ok left) (h : left.deleteFolder id = .ok (false, s')) :
    s' = s := by
  obtain ⟨rfl, k, hk, hno⟩ := deleteFolder_absent h
  obtain ⟨l, hl, -, rfl⟩ := leaveFolder_eq_ok.1 hleave
  cases hk
  have helsewhere : ∀ p ∈ l.projects.rows, ∀ i ∈ p.folderId, id ≠ some i := by
    intro p hp i hi
    obtain ⟨f, hf, rfl⟩ := (hs.ledger l hl).project_folder p hp i hi
    exact hno f hf
  rw [map_leave_eq_self helsewhere, setLedger_self hl]

end Store
end TaskDesk
