import TaskDesk.Proofs.Json.Sendable
import TaskDesk.Proofs.Store.Success

/-!
# Stores that can be shown

A store can be shown if every row in it makes a record, and every record can be part
of a reply. This asks more than the conditions of the store do: a task may be stored
without an id or with a priority that nobody knows. Statements that write tasks keep
stores presentable where they are given an id and a known priority; all other
statements keep them so in any case.

Results:
* `Store.IsPresentable`: all tables exist, and what is in them can be shown.
* `allTasks_of_isPresentable` and companions: every query has an outcome that can be sent.
* `IsPresentable.insertTask` and one lemma for every other statement.
-/

namespace TaskDesk

/-- A row that makes a record, which can be sent. -/
structure TaskRow.IsPresentable (row : TaskRow) : Prop where
  id : row.id.isSome
  priority : (Priority.ofName? row.priority).isSome
  texts : ∀ t ∈ row.texts, t.isEncodable = true

/-- What is in the first tables can be shown. -/
structure Ledger.IsPresentable (l : Ledger) : Prop where
  tasks : ∀ row ∈ l.tasks, row.IsPresentable
  tags : ∀ row ∈ l.tags, row.tag.isEncodable = true
  projects : ∀ p ∈ l.projects.rows, ∀ t ∈ p.texts, t.isEncodable = true
  folders : ∀ f ∈ l.folders.rows, ∀ t ∈ f.texts, t.isEncodable = true

/-- All tables exist, and what is in them can be shown. -/
structure Store.IsPresentable (s : Store) : Prop where
  ledger : ∃ l, s.ledger = some l ∧ l.IsPresentable
  settings : s.settings.isSome
  subtasks : ∃ rows, s.subtasks = some rows ∧
    ∀ row ∈ rows, ∀ t ∈ row.toSubtask.texts, t.isEncodable = true

/-- A change to a task that keeps its id and sets no unknown priority. -/
structure TaskEdit.IsPresentable (e : TaskEdit) : Prop where
  id : e.id = .keep
  priority : ∀ p, e.priority = .set p → (Priority.ofName? p).isSome

/-! ## Queries -/

theorem mapM_eq_ok {α β : Type} {P : β → Prop} {f : α → Except Fault β} {xs : List α}
    (h : ∀ x ∈ xs, ∃ y, f x = .ok y ∧ P y) : ∃ ys, xs.mapM f = .ok ys ∧ ∀ y ∈ ys, P y := by
  induction xs with
  | nil => exact ⟨[], rfl, by simp⟩
  | cons x xs ih =>
    obtain ⟨y, hy, hPy⟩ := h x (by simp)
    obtain ⟨ys, hys, hPys⟩ := ih fun z hz => h z (by simp [hz])
    refine ⟨y :: ys, ?_, List.forall_mem_cons.2 ⟨hPy, hPys⟩⟩
    rw [List.mapM_cons, hy, hys]
    rfl

namespace TaskRow

/-- The record of a row is there, and its texts are those of the row and of the tags and
    subtasks that it is made with. -/
theorem IsPresentable.toTask {row : TaskRow} (h : row.IsPresentable) {tags : List Text}
    {subtasks : List Subtask} (htags : ∀ t ∈ tags, t.isEncodable = true)
    (hsubtasks : ∀ s ∈ subtasks, ∀ t ∈ s.texts, t.isEncodable = true) :
    ∃ task, row.toTask tags subtasks = .ok task ∧ ∀ t ∈ task.texts, t.isEncodable = true := by
  obtain ⟨hid, hpriority, htexts⟩ := h
  obtain ⟨id, hid⟩ := Option.isSome_iff_exists.1 hid
  obtain ⟨priority, hpriority⟩ := Option.isSome_iff_exists.1 hpriority
  simp only [TaskRow.texts, hid, List.forall_mem_append, List.forall_mem_cons,
    Option.toList_some] at htexts
  obtain ⟨⟨⟨⟨hid', -⟩, hdescription⟩, hdue⟩, htitle, -, hcreated, hupdated, -⟩ := htexts
  have hdescription' : (row.description.getD []).isEncodable = true := by
    cases hrow : row.description with
    | none => rfl
    | some t => exact hdescription t (by simp [hrow])
  refine ⟨_, by rw [TaskRow.toTask, hid, hpriority], ?_⟩
  simp only [Task.texts, List.forall_mem_append, List.forall_mem_cons, List.mem_flatMap]
  refine ⟨⟨⟨⟨hid', htitle, hdescription', hcreated, hupdated, by simp⟩, hdue⟩, htags⟩, ?_⟩
  rintro t ⟨s, hs, ht⟩
  exact hsubtasks s hs t ht

end TaskRow

namespace TaskEdit.IsPresentable

variable {e : TaskEdit} {now : Text} {row new : TaskRow}

/-- A presentable change keeps the id. -/
theorem apply_id (he : e.IsPresentable) (h : e.apply now row = .ok new) : new.id = row.id := by
  obtain ⟨-, -, _, -, _, -, _, -, _, -, -, rfl⟩ := apply_eq_ok.1 h
  rw [he.id]
  rfl

/-- A presentable change makes a presentable row. -/
theorem apply (he : e.IsPresentable) (hrow : row.IsPresentable) (h : e.apply now row = .ok new) :
    new.IsPresentable := by
  have hid : new.id.isSome := by
    rw [he.apply_id h]
    exact hrow.id
  obtain ⟨-, -, _, -, priority, hpriority, _, -, _, -, htexts, rfl⟩ := apply_eq_ok.1 h
  refine ⟨hid, ?_, htexts⟩
  cases hedit : e.priority with
  | keep =>
    rw [hedit] at hpriority
    exact Option.some.inj hpriority ▸ hrow.priority
  | clear =>
    rw [hedit] at hpriority
    cases hpriority
  | set p =>
    rw [hedit] at hpriority
    exact Option.some.inj hpriority ▸ he.priority p hedit

end TaskEdit.IsPresentable

namespace Store

variable {s s' : Store}

namespace IsPresentable

theorem tagsOf (hs : s.IsPresentable) {taskId : Option Text} (hid : IsEncodable taskId) :
    ∃ tags, s.tagsOf taskId = .ok tags ∧ ∀ t ∈ tags, t.isEncodable = true := by
  obtain ⟨l, hl, hledger⟩ := hs.ledger
  refine ⟨_, tagsOf_eq_ok.2 ⟨l, hl, hid, rfl⟩, fun t ht => ?_⟩
  obtain ⟨row, hrow, rfl⟩ := List.mem_map.1 ht
  exact hledger.tags row (List.mem_filter.1 hrow).1

theorem subtasksOf (hs : s.IsPresentable) {taskId : Option Text}
    (hid : IsEncodable taskId) :
    ∃ subtasks, s.subtasksOf taskId = .ok subtasks ∧
      ∀ s ∈ subtasks, ∀ t ∈ s.texts, t.isEncodable = true := by
  obtain ⟨rows, hrows, htexts⟩ := hs.subtasks
  refine ⟨_, subtasksOf_eq_ok.2 ⟨rows, hrows, hid, rfl⟩, fun t ht => ?_⟩
  obtain ⟨row, hrow, rfl⟩ := List.mem_map.1 ht
  exact htexts row (List.mem_filter.1 hrow).1

theorem taskOfRow (hs : s.IsPresentable) {row : TaskRow} (hrow : row.IsPresentable) :
    ∃ task, s.taskOfRow row = .ok task ∧ ∀ t ∈ task.texts, t.isEncodable = true := by
  obtain ⟨tags, htags, htags'⟩ := hs.tagsOf (TaskRow.isEncodable_id hrow.texts)
  obtain ⟨subtasks, hsubtasks, hsubtasks'⟩ := hs.subtasksOf (TaskRow.isEncodable_id hrow.texts)
  obtain ⟨task, htask, htexts⟩ := hrow.toTask htags' hsubtasks'
  exact ⟨task, bind_eq_ok.2 ⟨tags, htags, bind_eq_ok.2 ⟨subtasks, hsubtasks, htask⟩⟩, htexts⟩

theorem allTasks (hs : s.IsPresentable) :
    ∃ tasks, s.allTasks = .ok tasks ∧ ∀ task ∈ tasks, ∀ t ∈ task.texts, t.isEncodable = true := by
  obtain ⟨l, hl, hledger⟩ := hs.ledger
  have hrows : ∀ row ∈ l.tasks.mergeSort TaskRow.ranksBefore, ∃ task, s.taskOfRow row = .ok task ∧
      ∀ t ∈ task.texts, t.isEncodable = true := fun row hrow =>
    hs.taskOfRow (hledger.tasks row (List.mem_mergeSort.1 hrow))
  obtain ⟨tasks, htasks, htexts⟩ := mapM_eq_ok hrows
  exact ⟨tasks, bind_eq_ok.2 ⟨l, ledgerFor_eq_ok.2 hl, htasks⟩, htexts⟩

/-- A task that is stored can be read by its id. -/
theorem task? (hs : s.IsPresentable) {id : Option Text} {l : Ledger} (hl : s.ledger = some l)
    (hid : l.hasTask id = true) :
    ∃ task, s.task? id = .ok (some task) ∧ ∀ t ∈ task.texts, t.isEncodable = true := by
  obtain ⟨k, hk, hledger⟩ := hs.ledger
  cases hl.symm.trans hk
  obtain ⟨row, hrow⟩ := Option.isSome_iff_exists.1 (List.find?_isSome.2 (List.any_eq_true.1 hid))
  have hshown := hledger.tasks row (List.mem_of_find?_eq_some hrow)
  obtain ⟨task, htask, htexts⟩ := hs.taskOfRow hshown
  refine ⟨task, bind_eq_ok.2 ⟨some row, ?_, bind_eq_ok.2 ⟨task, htask, rfl⟩⟩, htexts⟩
  have hsame := List.find?_some hrow
  exact taskRow?_eq_ok.2 ⟨l, hl, (sameId_iff.1 hsame).2 ▸ TaskRow.isEncodable_id hshown.texts, hrow⟩

/-- A subtask that is stored can be read by its id. -/
theorem subtask? (hs : s.IsPresentable) {id : Option Text} {rows : List SubtaskRow}
    (hrows : s.subtasks = some rows) (hid : (rows.any fun row => sameId id (some row.id)) = true) :
    ∃ subtask, s.subtask? id = .ok (some subtask) ∧ ∀ t ∈ subtask.texts, t.isEncodable = true := by
  obtain ⟨k, hk, htexts⟩ := hs.subtasks
  cases hrows.symm.trans hk
  obtain ⟨row, hrow⟩ := Option.isSome_iff_exists.1 (List.find?_isSome.2 (List.any_eq_true.1 hid))
  have hshown := htexts row (List.mem_of_find?_eq_some hrow)
  have hsame := List.find?_some hrow
  refine ⟨row.toSubtask, subtask?_eq_ok.2 ⟨rows, hrows, ?_, by rw [hrow, Option.map_some]⟩, hshown⟩
  rw [(sameId_iff.1 hsame).2, isEncodable_some]
  exact hshown row.id List.mem_cons_self

theorem allTags (hs : s.IsPresentable) :
    ∃ tags, s.allTags = .ok tags ∧ ∀ t ∈ tags, t.isEncodable = true := by
  obtain ⟨l, hl, hledger⟩ := hs.ledger
  refine ⟨_, bind_eq_ok.2 ⟨l, ledgerFor_eq_ok.2 hl, rfl⟩, fun t ht => ?_⟩
  rw [List.mem_mergeSort, Text.mem_distinct] at ht
  obtain ⟨row, hrow, rfl⟩ := List.mem_map.1 ht
  exact hledger.tags row hrow

theorem allProjects (hs : s.IsPresentable) :
    ∃ ps, s.allProjects = .ok ps ∧ ∀ p ∈ ps, ∀ t ∈ p.texts, t.isEncodable = true := by
  obtain ⟨l, hl, hledger⟩ := hs.ledger
  exact ⟨_, bind_eq_ok.2 ⟨l, ledgerFor_eq_ok.2 hl, rfl⟩, hledger.projects⟩

theorem allFolders (hs : s.IsPresentable) :
    ∃ fs, s.allFolders = .ok fs ∧ ∀ f ∈ fs, ∀ t ∈ f.texts, t.isEncodable = true := by
  obtain ⟨l, hl, hledger⟩ := hs.ledger
  exact ⟨_, bind_eq_ok.2 ⟨l, ledgerFor_eq_ok.2 hl, rfl⟩, hledger.folders⟩

theorem setting? (hs : s.IsPresentable) {key : Option Text} (hkey : IsEncodable key) :
    ∃ value, s.setting? key = .ok value := by
  obtain ⟨rows, hrows⟩ := Option.isSome_iff_exists.1 hs.settings
  exact ⟨_, setting?_eq_ok.2 ⟨rows, hrows, hkey, rfl⟩⟩

/-! ## Statements -/

theorem withLedger (hs : s.IsPresentable) {l : Ledger} (hl : l.IsPresentable) :
    (s.setLedger l).IsPresentable where
  ledger := ⟨l, rfl, hl⟩
  settings := hs.settings
  subtasks := hs.subtasks

theorem withSubtasks (hs : s.IsPresentable) {rows : List SubtaskRow}
    (hrows : ∀ row ∈ rows, ∀ t ∈ row.toSubtask.texts, t.isEncodable = true) :
    IsPresentable { s with subtasks := some rows } where
  ledger := hs.ledger
  settings := hs.settings
  subtasks := ⟨rows, rfl, hrows⟩

theorem ledger_of_eq (hs : s.IsPresentable) {l : Ledger} (hl : s.ledger = some l) :
    l.IsPresentable := by
  obtain ⟨k, hk, hledger⟩ := hs.ledger
  cases hl.symm.trans hk
  exact hledger

theorem subtasks_of_eq (hs : s.IsPresentable) {rows : List SubtaskRow}
    (hrows : s.subtasks = some rows) :
    ∀ row ∈ rows, ∀ t ∈ row.toSubtask.texts, t.isEncodable = true := by
  obtain ⟨rows', hrows', htexts⟩ := hs.subtasks
  cases hrows.symm.trans hrows'
  exact htexts

/-- A new task that has an id and a known priority. -/
theorem insertTask (hs : s.IsPresentable) {new : NewTaskRow} {now : Text} (hid : new.id.isSome)
    (hpriority : ∀ p ∈ new.priority, (Priority.ofName? p).isSome)
    (h : s.insertTask new now = .ok s') : s'.IsPresentable := by
  obtain ⟨l, hl, -, title, -, priority, hnew, htexts, -, -, rfl⟩ := insertTask_eq_ok.1 h
  have hledger := hs.ledger_of_eq hl
  refine hs.withLedger { hledger with tasks := List.forall_mem_append.2 ⟨hledger.tasks, ?_⟩ }
  exact List.forall_mem_singleton.2 ⟨hid, hpriority priority hnew, htexts⟩

theorem updateTask (hs : s.IsPresentable) {edit : TaskEdit} {now : Text} {row : TaskRow}
    (hedit : edit.IsPresentable) (hrow : row.IsPresentable)
    (h : s.updateTask edit now row = .ok s') : s'.IsPresentable := by
  obtain ⟨l, hl, new, hnew, -, -, rfl⟩ := updateTask_eq_ok.1 h
  have hledger := hs.ledger_of_eq hl
  refine hs.withLedger { hledger with tasks := List.forall_mem_map.2 fun old hold => ?_ }
  split
  · exact hedit.apply hrow hnew
  · exact hledger.tasks old hold

theorem deleteTask (hs : s.IsPresentable) {id : Option Text} {found : Bool}
    (h : s.deleteTask id = .ok (found, s')) : s'.IsPresentable := by
  obtain ⟨l, hl, -, -, rfl⟩ := deleteTask_eq_ok.1 h
  have hledger := hs.ledger_of_eq hl
  obtain ⟨rows, hrows, htexts⟩ := hs.subtasks
  refine ⟨⟨_, rfl, { hledger with
    tasks := fun row hrow => hledger.tasks row (List.mem_filter.1 hrow).1
    tags := fun row hrow => hledger.tags row (List.mem_filter.1 hrow).1 }⟩, hs.settings, ?_⟩
  exact ⟨_, by rw [hrows, Option.map_some],
    fun row hrow => htexts row (List.mem_filter.1 hrow).1⟩

theorem deleteTagsOf (hs : s.IsPresentable) {taskId : Option Text}
    (h : s.deleteTagsOf taskId = .ok s') : s'.IsPresentable := by
  obtain ⟨l, hl, -, rfl⟩ := deleteTagsOf_eq_ok.1 h
  have hledger := hs.ledger_of_eq hl
  exact hs.withLedger
    { hledger with tags := fun row hrow => hledger.tags row (List.mem_filter.1 hrow).1 }

theorem insertTag (hs : s.IsPresentable) {taskId tag : Option Text}
    (h : s.insertTag taskId tag = .ok s') : s'.IsPresentable := by
  obtain ⟨l, hl, id, -, name, -, htexts, -, -, rfl⟩ := insertTag_eq_ok.1 h
  have hledger := hs.ledger_of_eq hl
  refine hs.withLedger { hledger with tags := List.forall_mem_append.2 ⟨hledger.tags, ?_⟩ }
  exact List.forall_mem_singleton.2 (htexts name (by simp))

theorem deleteSubtasksOf (hs : s.IsPresentable) {taskId : Option Text}
    (h : s.deleteSubtasksOf taskId = .ok s') : s'.IsPresentable := by
  obtain ⟨rows, hrows, -, rfl⟩ := deleteSubtasksOf_eq_ok.1 h
  exact hs.withSubtasks fun row hrow => hs.subtasks_of_eq hrows row (List.mem_filter.1 hrow).1

theorem insertSubtask (hs : s.IsPresentable) {id : Text} {taskId text : Option Text}
    (h : s.insertSubtask id taskId text = .ok s') : s'.IsPresentable := by
  obtain ⟨rows, hrows, task, -, words, -, htexts, -, l, -, -, rfl⟩ := insertSubtask_eq_ok.1 h
  refine hs.withSubtasks (List.forall_mem_append.2 ⟨hs.subtasks_of_eq hrows, ?_⟩)
  simp only [List.forall_mem_cons] at htexts
  refine List.forall_mem_singleton.2 (List.forall_mem_cons.2 ⟨htexts.1, ?_⟩)
  exact List.forall_mem_singleton.2 htexts.2.2.1

theorem markSubtask (hs : s.IsPresentable) {id : Option Text} {mark : Int} {found : Bool}
    (h : s.markSubtask id mark = .ok (found, s')) : s'.IsPresentable := by
  obtain ⟨rows, hrows, -, -, -, rfl⟩ := markSubtask_eq_ok.1 h
  refine hs.withSubtasks (List.forall_mem_map.2 fun old hold => ?_)
  have htexts := hs.subtasks_of_eq hrows old hold
  split <;> exact htexts

theorem insertProject (hs : s.IsPresentable) {name color description : Option Text}
    {folderId : Option Int} {p : Project}
    (h : s.insertProject name color description folderId = .ok (p, s')) :
    s'.IsPresentable ∧ ∀ t ∈ p.texts, t.isEncodable = true := by
  obtain ⟨l, hl, -, n, -, c, -, htexts, -, rfl, rfl⟩ := insertProject_eq_ok.1 h
  have hledger := hs.ledger_of_eq hl
  refine ⟨hs.withLedger { hledger with projects := ?_ }, htexts⟩
  exact List.forall_mem_append.2 ⟨hledger.projects, List.forall_mem_singleton.2 htexts⟩

theorem leaveProject (hs : s.IsPresentable) {id : Option Int}
    (h : s.leaveProject id = .ok s') : s'.IsPresentable := by
  obtain ⟨l, hl, -, rfl⟩ := leaveProject_eq_ok.1 h
  have hledger := hs.ledger_of_eq hl
  refine hs.withLedger { hledger with tasks := List.forall_mem_map.2 fun old hold => ?_ }
  have hrow := hledger.tasks old hold
  split
  · exact ⟨hrow.id, hrow.priority, hrow.texts⟩
  · exact hrow

theorem deleteProject (hs : s.IsPresentable) {id : Option Int} {found : Bool}
    (h : s.deleteProject id = .ok (found, s')) : s'.IsPresentable := by
  obtain ⟨l, hl, -, -, -, rfl⟩ := deleteProject_eq_ok.1 h
  have hledger := hs.ledger_of_eq hl
  exact hs.withLedger
    { hledger with projects := fun p hp => hledger.projects p (List.mem_filter.1 hp).1 }

theorem insertFolder (hs : s.IsPresentable) {name color description : Option Text} {f : Folder}
    (h : s.insertFolder name color description = .ok (f, s')) :
    s'.IsPresentable ∧ ∀ t ∈ f.texts, t.isEncodable = true := by
  obtain ⟨l, hl, n, -, c, -, htexts, rfl, rfl⟩ := insertFolder_eq_ok.1 h
  have hledger := hs.ledger_of_eq hl
  refine ⟨hs.withLedger { hledger with folders := ?_ }, htexts⟩
  exact List.forall_mem_append.2 ⟨hledger.folders, List.forall_mem_singleton.2 htexts⟩

theorem leaveFolder (hs : s.IsPresentable) {id : Option Int}
    (h : s.leaveFolder id = .ok s') : s'.IsPresentable := by
  obtain ⟨l, hl, -, rfl⟩ := leaveFolder_eq_ok.1 h
  have hledger := hs.ledger_of_eq hl
  refine hs.withLedger { hledger with projects := List.forall_mem_map.2 fun old hold => ?_ }
  have htexts := hledger.projects old hold
  split <;> exact htexts

theorem deleteFolder (hs : s.IsPresentable) {id : Option Int} {found : Bool}
    (h : s.deleteFolder id = .ok (found, s')) : s'.IsPresentable := by
  obtain ⟨l, hl, -, -, -, rfl⟩ := deleteFolder_eq_ok.1 h
  have hledger := hs.ledger_of_eq hl
  exact hs.withLedger
    { hledger with folders := fun f hf => hledger.folders f (List.mem_filter.1 hf).1 }

theorem saveSetting (hs : s.IsPresentable) {key value : Option Text}
    (h : s.saveSetting key value = .ok s') : s'.IsPresentable := by
  obtain ⟨rows, -, v, -, -, h⟩ := saveSetting_eq_ok.1 h
  split at h <;> subst h <;> exact ⟨hs.ledger, rfl, hs.subtasks⟩

end IsPresentable

end Store
end TaskDesk
