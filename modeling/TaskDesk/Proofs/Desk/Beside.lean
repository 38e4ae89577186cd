import TaskDesk.Proofs.Desk.Creation
import TaskDesk.Proofs.Store.Record

/-!
# What a change to a task leaves alone

A change to a task replaces rows of this task: its tags, its subtasks and its own row. All rows
that do not belong to it stay as they are and in their order, so every other task is read as it
was, and so are projects, folders and settings.

Results:
* `Store.SameBeside`: what it means that stores differ in a single task at most.
* `Store.SameBeside.task?_eq`: other tasks are read as before.
* `Desk.sameBeside_rewriteTask`: a change to a task leaves all others alone.
-/

namespace TaskDesk

/-- Where the rows of a task are replaced by others of it, those of other tasks stay. -/
theorem filter_ne_replaced {α : Type} (key : α → Text) {a : Text} (rows : List α) {new : List α}
    (hnew : ∀ row ∈ new, key row = a) :
    ((rows.filter fun row => !sameId (some a) (some (key row))) ++ new).filter (key · ≠ a) =
      rows.filter (key · ≠ a) := by
  have hnone : new.filter (key · ≠ a) = [] :=
    List.filter_eq_nil_iff.2 fun row hrow => by simp [hnew row hrow]
  rw [List.filter_append, hnone, List.append_nil, Store.filter_not_sameId, List.filter_filter]
  exact List.filter_congr fun row _ => Bool.and_self _

namespace Store

/-- The stores differ at most in what belongs to a task. -/
structure SameBeside (a : Text) (s s' : Store) : Prop where
  version : s'.version = s.version
  tasks : s'.firstTables.tasks.filter (·.id ≠ some a) = s.firstTables.tasks.filter (·.id ≠ some a)
  tags : s'.firstTables.tags.filter (·.taskId ≠ a) = s.firstTables.tags.filter (·.taskId ≠ a)
  subtasks : s'.subtaskList.filter (·.taskId ≠ a) = s.subtaskList.filter (·.taskId ≠ a)
  projects : s'.firstTables.projects = s.firstTables.projects
  folders : s'.firstTables.folders = s.firstTables.folders
  settings : s'.settings = s.settings

namespace SameBeside

variable {s s' s'' : Store} {a b : Text} {l : Ledger}

theorem refl (s : Store) : SameBeside a s s := ⟨rfl, rfl, rfl, rfl, rfl, rfl, rfl⟩

theorem trans (h : SameBeside a s s') (h' : SameBeside a s' s'') : SameBeside a s s'' where
  version := h'.version.trans h.version
  tasks := h'.tasks.trans h.tasks
  tags := h'.tags.trans h.tags
  subtasks := h'.subtasks.trans h.subtasks
  projects := h'.projects.trans h.projects
  folders := h'.folders.trans h.folders
  settings := h'.settings.trans h.settings

/-! ## Rows that are replaced -/

theorem of_ledger (hl : s.ledger = some l) {l' : Ledger}
    (htasks : l'.tasks.filter (·.id ≠ some a) = l.tasks.filter (·.id ≠ some a))
    (htags : l'.tags.filter (·.taskId ≠ a) = l.tags.filter (·.taskId ≠ a))
    (hprojects : l'.projects = l.projects) (hfolders : l'.folders = l.folders) :
    SameBeside a s (s.setLedger l') where
  version := rfl
  tasks := by rwa [firstTables_eq hl]
  tags := by rwa [firstTables_eq hl]
  subtasks := rfl
  projects := by rwa [firstTables_eq hl]
  folders := by rwa [firstTables_eq hl]
  settings := rfl

theorem retag (hl : s.ledger = some l) (tags : List Text) :
    SameBeside a s (s.setLedger (l.retag a tags)) :=
  .of_ledger hl rfl (filter_ne_replaced TagRow.taskId l.tags (List.forall_mem_map.2 fun _ _ => rfl))
    rfl rfl

theorem renew {rows : List SubtaskRow} (hrows : s.subtasks = some rows) {new : List SubtaskRow}
    (hnew : ∀ row ∈ new, row.taskId = a) :
    SameBeside a s { s with
      subtasks := some ((rows.filter fun row => !sameId (some a) (some row.taskId)) ++ new) } where
  version := rfl
  tasks := rfl
  tags := rfl
  subtasks := by
    rw [subtaskList_eq hrows]
    exact filter_ne_replaced SubtaskRow.taskId rows hnew
  projects := rfl
  folders := rfl
  settings := rfl

/-- The row of the task is another one. -/
theorem withTask (hl : s.ledger = some l) {new : TaskRow} (hnew : new.id = some a) :
    SameBeside a s (s.setLedger { l with
      tasks := l.tasks.map fun old => if sameId (some a) old.id then new else old }) := by
  refine .of_ledger hl ?_ rfl rfl rfl
  have hothers (old : TaskRow) :
      decide ((if sameId (some a) old.id then new else old).id ≠ some a) =
        decide (old.id ≠ some a) := by
    split
    · rename_i hsame
      rw [hnew, sameId_some.1 hsame]
    · rfl
  rw [List.filter_map]
  simp only [Function.comp_def, hothers]
  refine (List.map_congr_left fun old hold => if_neg fun hsame => ?_).trans (List.map_id' _)
  exact absurd (sameId_some.1 hsame) (of_decide_eq_true (List.mem_filter.1 hold).2)

/-! ## What is read of other tasks -/

/-- The rows of another task are among those that do not belong to the task. -/
theorem filter_sameId_of_ne {α : Type} {key : α → Text} {rows rows' : List α}
    (h : rows'.filter (key · ≠ a) = rows.filter (key · ≠ a)) (hb : b ≠ a) :
    (rows'.filter fun row => sameId (some b) (some (key row))) =
      rows.filter fun row => sameId (some b) (some (key row)) := by
  have hamong (rows : List α) : (rows.filter fun row => sameId (some b) (some (key row))) =
      (rows.filter (key · ≠ a)).filter fun row => sameId (some b) (some (key row)) := by
    rw [List.filter_filter]
    refine List.filter_congr fun row _ => ?_
    by_cases hrow : key row = b
    · simp [hrow, hb]
    · simp [sameId, Ne.symm hrow]
  rw [hamong, h, ← hamong]

theorem tagsFor_eq (h : SameBeside a s s') (hb : b ≠ a) : s'.tagsFor b = s.tagsFor b :=
  congrArg (List.map TagRow.tag) (filter_sameId_of_ne h.tags hb)

theorem subtasksFor_eq (h : SameBeside a s s') (hb : b ≠ a) :
    s'.subtasksFor b = s.subtasksFor b :=
  filter_sameId_of_ne h.subtasks hb

/-- **Every other task is read as before.** -/
theorem task?_eq (h : SameBeside a s s') {l' : Ledger} {rows rows' : List SubtaskRow}
    (hl : s.ledger = some l) (hl' : s'.ledger = some l') (hrows : s.subtasks = some rows)
    (hrows' : s'.subtasks = some rows') (hb : b ≠ a) : s'.task? (some b) = s.task? (some b) := by
  have hfind (rows : List TaskRow) : (rows.find? fun row => sameId (some b) row.id) =
      (rows.filter (·.id ≠ some a)).find? fun row => sameId (some b) row.id := by
    rw [List.find?_filter]
    refine congrArg (List.find? · rows) (funext fun row => ?_)
    by_cases hrow : row.id = some b
    · simp [hrow, hb]
    · simp [sameId, Ne.symm hrow]
  have hsame : (l'.tasks.find? fun row => sameId (some b) row.id) =
      l.tasks.find? fun row => sameId (some b) row.id := by
    have htasks := h.tasks
    rw [firstTables_eq hl, firstTables_eq hl'] at htasks
    rw [hfind, htasks, ← hfind]
  refine task?_congr hl hl' hrows hrows' hsame ?_
  rintro _ ⟨⟩
  exact ⟨h.tagsFor_eq hb, h.subtasksFor_eq hb⟩

end SameBeside
end Store

/-! ## Changes to a task -/

namespace Desk

open Work

variable {source : Source} {d d' : Desk} {a : Text} {c : TaskChange} {row : TaskRow}

theorem sameBeside_changeTags {l : Ledger} (hl : d.store.ledger = some l) (hc : c.IsPlain)
    {b : Bool} (h : (changeTags (some a) c.tags).on d = (.ok b, d')) :
    d.store.SameBeside a d'.store := by
  obtain ⟨rfl, -⟩ | ⟨tags, -, -, -, rfl⟩ := changeTags_cases hl hc h
  · exact .refl _
  · exact .retag hl _

theorem sameBeside_changeSubtasks {rows : List SubtaskRow} (hrows : d.store.subtasks = some rows)
    (hc : c.IsPlain) {b : Bool}
    (h : (changeSubtasks source (some a) c.subtasks).on d = (.ok b, d')) :
    d.store.SameBeside a d'.store := by
  obtain ⟨rfl, -⟩ | ⟨texts, -, -, -, rfl⟩ := changeSubtasks_cases hrows hc h
  · exact .refl _
  · exact .renew hrows task_of_mem_newSubtasks

/-- **A change to a task** leaves all others alone. -/
theorem sameBeside_rewriteTask (hs : d.store.IsRegular) {l : Ledger}
    (hrow : d.store.Locates a l row) (hc : c.IsPlain) {u : Unit}
    (h : (rewriteTask source (some a) c row).on d = (.ok u, d')) :
    d.store.SameBeside a d'.store := by
  obtain ⟨tags, tagged, htags, h⟩ := bind_on_ok h
  obtain ⟨subtasks, changed, hsubtasks, hcolumns⟩ := bind_on_ok h
  obtain ⟨rows, hrows, -⟩ := (isRegular_changeTags htags hs).presentable.subtasks
  have hparts := (sameBeside_changeTags hrow.ledger hc htags).trans
    (sameBeside_changeSubtasks hrows hc hsubtasks)
  split at hcolumns
  · obtain ⟨_, htagged⟩ := hrow.of_hasLedger (hasLedger_changeTags htags hrow.ledger)
    obtain ⟨_, hrow'⟩ := htagged.of_hasLedger (hasLedger_changeSubtasks hsubtasks htagged.ledger)
    obtain ⟨time, begun, htime, hupdate⟩ := bind_on_ok hcolumns
    cases htime
    obtain ⟨s, hwrite, rfl⟩ := exists_of_execute_on_ok hupdate
    obtain ⟨-, -, rfl⟩ := (Store.updateTask_eq_ok_of_isPlain hc.toIsPlain hrow'.stored
      hrow'.ledger hrow'.project).1 hwrite
    rw [hrow'.id]
    exact hparts.trans (.withTask hrow'.ledger hrow'.id)
  · cases hcolumns
    exact hparts

end Desk
end TaskDesk
