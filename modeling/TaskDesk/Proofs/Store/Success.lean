import TaskDesk.Store.Statement

/-!
# When statements succeed

Each statement succeeds under certain conditions, and then leaves a certain store.
The lemmas here say both at once, for every statement, so that later arguments
need not look into the statements again.

Results:
* `Store.taskRow?_eq_ok` and one lemma for every other query with a parameter.
* `bind_eq_ok`, `holds_eq_ok` and their companions: when the parts of a statement
  succeed.
* `bindAll_eq_ok`: all values that a statement is given have to fit.
* `Store.insertTask_eq_ok` and one lemma for every other statement.
-/

namespace TaskDesk

variable {α β : Type}

/-! ## Parts of statements -/

theorem bind_eq_ok {x : Except Fault α} {f : α → Except Fault β} {b : β} :
    (x >>= f) = .ok b ↔ ∃ a, x = .ok a ∧ f a = .ok b := by
  cases x with
  | ok a => simp [bind, Except.bind]
  | error fault => simp [bind, Except.bind]

theorem bind_eq_error {x : Except Fault α} {f : α → Except Fault β} {fault : Fault} :
    (x >>= f) = .error fault ↔ x = .error fault ∨ ∃ a, x = .ok a ∧ f a = .error fault := by
  cases x with
  | ok a => simp [bind, Except.bind]
  | error fault => simp [bind, Except.bind]

theorem pure_eq_ok {a b : α} : (pure a : Except Fault α) = .ok b ↔ a = b := by
  simp [pure, Except.pure]

theorem holds_eq_ok {condition : Bool} {fault : Fault} {u : Unit} :
    holds condition fault = .ok u ↔ condition = true := by
  cases condition <;> simp [holds]

theorem present_eq_ok {table : TableName} {column : String} {value : Option α} {a : α} :
    present table column value = .ok a ↔ value = some a := by
  cases value <;> simp [present]

/-- A number fits into 64 bits, or there is none. -/
def InRange (n : Option Int) : Prop :=
  ∀ i ∈ n, -9223372036854775808 ≤ i ∧ i ≤ 9223372036854775807

theorem inRange_eq_ok {n : Option Int} {u : Unit} : inRange n = .ok u ↔ InRange n := by
  have hall : (n.all fun n => -9223372036854775808 ≤ n ∧ n ≤ 9223372036854775807) = true ↔
      InRange n := by
    cases n with
    | none => exact iff_of_true rfl (fun _ h => by cases h)
    | some i =>
      refine decide_eq_true_iff.trans ⟨fun h j hj => ?_, fun h => h i rfl⟩
      cases hj
      exact h
  rw [inRange, ← hall]
  split
  · exact iff_of_true rfl ‹_›
  · exact iff_of_false (fun h => by cases h) ‹_›

/-- A text can be written in UTF-8, or there is none. -/
def IsEncodable (t : Option Text) : Prop := ∀ s ∈ t, s.isEncodable = true

theorem isEncodable_none : IsEncodable none := fun _ h => by cases h

theorem isEncodable_some {t : Text} : IsEncodable (some t) ↔ t.isEncodable = true := by
  simp [IsEncodable]

theorem encodable_eq_ok {t : Option Text} {u : Unit} : encodable t = .ok u ↔ IsEncodable t := by
  cases t with
  | none => exact iff_of_true rfl isEncodable_none
  | some t => simp [encodable, isEncodable_some]

/-- A value can be stored. -/
def Parameter.Fits : Parameter → Prop
  | number n => InRange n
  | text t => IsEncodable t

theorem Parameter.bind_eq_ok {p : Parameter} {u : Unit} : p.bind = .ok u ↔ p.Fits := by
  cases p with
  | number n => exact inRange_eq_ok
  | text t => exact encodable_eq_ok

theorem bindAll_eq_ok {ps : List Parameter} {u : Unit} :
    bindAll ps = .ok u ↔ ∀ p ∈ ps, p.Fits := by
  induction ps with
  | nil => simp [bindAll]
  | cons p ps ih =>
    rw [bindAll, bind_eq_ok, List.forall_mem_cons]
    simp only [Parameter.bind_eq_ok, ih, exists_const]

theorem bindAll_text_eq_ok {t : Option Text} {u : Unit} :
    bindAll [.text t] = .ok u ↔ IsEncodable t := by
  rw [bindAll_eq_ok, List.forall_mem_singleton, Parameter.Fits]

theorem bindAll_text_of_not {t : Text} (h : ¬ IsEncodable (some t)) :
    bindAll [.text (some t)] = .error (.notEncodable (t := t)) := by
  have hfails : ¬ t.isEncodable = true := mt isEncodable_some.2 h
  simp only [bindAll, Parameter.bind, encodable, if_neg hfails]
  rfl

theorem bindAll_number_eq_ok {n : Option Int} {u : Unit} :
    bindAll [.number n] = .ok u ↔ InRange n := by
  rw [bindAll_eq_ok, List.forall_mem_singleton, Parameter.Fits]

theorem sameId_iff {wanted actual : Option Text} :
    sameId wanted actual = true ↔ wanted.isSome ∧ wanted = actual := by
  simp [sameId]

theorem sameId_some {id : Text} {actual : Option Text} :
    sameId (some id) actual = true ↔ actual = some id := by
  rw [sameId_iff, Option.isSome_some, eq_self, true_and, eq_comm]

namespace Store

variable {s s' : Store} {l : Ledger} {table : TableName}

theorem ledgerFor_eq_ok : s.ledgerFor table = .ok l ↔ s.ledger = some l := by
  unfold ledgerFor
  split <;> simp_all

theorem ledgerFor_eq_error {fault : Fault} :
    s.ledgerFor table = .error fault ↔ s.ledger = none ∧ .noTable table = fault := by
  unfold ledgerFor
  split <;> simp_all

theorem settingRows_eq_ok {rows : List SettingRow} :
    s.settingRows = .ok rows ↔ s.settings = some rows := by
  unfold settingRows
  split <;> simp_all

theorem subtaskRows_eq_ok {rows : List SubtaskRow} :
    s.subtaskRows = .ok rows ↔ s.subtasks = some rows := by
  unfold subtaskRows
  split <;> simp_all

theorem subtaskRows_eq_error {fault : Fault} :
    s.subtaskRows = .error fault ↔ s.subtasks = none ∧ .noTable .subtasks = fault := by
  unfold subtaskRows
  split <;> simp_all

end Store

/-! ## Queries -/

namespace Store

variable {s : Store}

theorem taskRow?_eq_ok {id : Option Text} {row : Option TaskRow} :
    s.taskRow? id = .ok row ↔
      ∃ l, s.ledger = some l ∧ IsEncodable id ∧
        (l.tasks.find? fun row => sameId id row.id) = row := by
  simp only [taskRow?, bind_eq_ok, pure_eq_ok, ledgerFor_eq_ok, bindAll_text_eq_ok, exists_const]

theorem tagsOf_eq_ok {taskId : Option Text} {tags : List Text} :
    s.tagsOf taskId = .ok tags ↔
      ∃ l, s.ledger = some l ∧ IsEncodable taskId ∧
        (l.tags.filter fun row => sameId taskId (some row.taskId)).map (·.tag) = tags := by
  simp only [tagsOf, bind_eq_ok, pure_eq_ok, ledgerFor_eq_ok, bindAll_text_eq_ok, exists_const]

theorem subtasksOf_eq_ok {taskId : Option Text} {subtasks : List Subtask} :
    s.subtasksOf taskId = .ok subtasks ↔
      ∃ rows, s.subtasks = some rows ∧ IsEncodable taskId ∧
        (rows.filter fun row => sameId taskId (some row.taskId)).map (·.toSubtask) = subtasks := by
  simp only [subtasksOf, bind_eq_ok, pure_eq_ok, subtaskRows_eq_ok, bindAll_text_eq_ok,
    exists_const]

theorem subtask?_eq_ok {id : Option Text} {subtask : Option Subtask} :
    s.subtask? id = .ok subtask ↔
      ∃ rows, s.subtasks = some rows ∧ IsEncodable id ∧
        (rows.find? fun row => sameId id (some row.id)).map (·.toSubtask) = subtask := by
  simp only [subtask?, bind_eq_ok, pure_eq_ok, subtaskRows_eq_ok, bindAll_text_eq_ok, exists_const]

theorem setting?_eq_ok {key value : Option Text} :
    s.setting? key = .ok value ↔
      ∃ rows, s.settings = some rows ∧ IsEncodable key ∧
        (rows.find? fun row => sameId key row.key).map (·.value) = value := by
  simp only [setting?, bind_eq_ok, pure_eq_ok, settingRows_eq_ok, bindAll_text_eq_ok, exists_const]

end Store

/-! ## Statements -/

/-- A new task as it is stored, with the values of the columns that need one. -/
def NewTaskRow.toRow (new : NewTaskRow) (title priority now : Text) : TaskRow where
  id := new.id
  title := title
  description := new.description
  dueDate := new.dueDate
  priority := priority
  completed := 0
  projectId := new.projectId
  createdAt := now
  updatedAt := now

theorem TaskRow.isEncodable_id {row : TaskRow} (h : ∀ t ∈ row.texts, t.isEncodable = true) :
    IsEncodable row.id :=
  fun id hid => h id (by simp [TaskRow.texts, Option.mem_def.1 hid])

/-- What is bound where a new task is inserted is what its row holds. -/
theorem NewTaskRow.forall_fits (new : NewTaskRow) {title priority : Text}
    (htitle : new.title = some title) (hpriority : new.priority = some priority) (now : Text) :
    (∀ p ∈ new.parameters now, p.Fits) ↔ InRange new.projectId ∧
      ∀ t ∈ (new.toRow title priority now).texts, t.isEncodable = true := by
  simp only [parameters, htitle, hpriority, toRow, TaskRow.texts, List.forall_mem_cons,
    List.forall_mem_append, Option.mem_toList, Parameter.Fits, IsEncodable, Option.mem_def,
    Option.some.injEq, forall_eq']
  grind

/-- What is bound where the columns of a task are changed is what the row then holds. -/
theorem TaskEdit.apply_eq_ok {e : TaskEdit} {now : Text} {row new : TaskRow} :
    e.apply now row = .ok new ↔
      InRange (e.completed.apply (some row.completed)) ∧
      InRange (e.projectId.apply row.projectId) ∧
      ∃ title, e.title.apply (some row.title) = some title ∧
      ∃ priority, e.priority.apply (some row.priority) = some priority ∧
      ∃ completed, e.completed.apply (some row.completed) = some completed ∧
      ∃ createdAt, e.createdAt.apply (some row.createdAt) = some createdAt ∧
        (∀ t ∈ new.texts, t.isEncodable = true) ∧
        { id := e.id.apply row.id, title, description := e.description.apply row.description,
          dueDate := e.dueDate.apply row.dueDate, priority, completed,
          projectId := e.projectId.apply row.projectId, createdAt, updatedAt := now } = new := by
  simp only [apply, bind_eq_ok, pure_eq_ok, bindAll_eq_ok, present_eq_ok, exists_const]
  constructor
  · rintro ⟨hfits, title, htitle, priority, hpriority, completed, hcompleted, created, hcreated, rfl⟩
    simp only [List.forall_mem_cons, Parameter.Fits, htitle, hpriority, hcreated,
      isEncodable_some] at hfits
    obtain ⟨hid, htitle', hdescription, hdue, hpriority', hdone, hproject, hcreated', hnow, -⟩ :=
      hfits
    refine ⟨hdone, hproject, title, htitle, priority, hpriority, completed, hcompleted, created,
      hcreated, ?_, rfl⟩
    simp only [TaskRow.texts, List.forall_mem_append, List.forall_mem_cons, Option.mem_toList]
    exact ⟨⟨⟨hid, hdescription⟩, hdue⟩, htitle', hpriority', hcreated', hnow, by simp⟩
  · rintro ⟨hdone, hproject, title, htitle, priority, hpriority, completed, hcompleted, created,
      hcreated, htexts, rfl⟩
    simp only [TaskRow.texts, List.forall_mem_append, List.forall_mem_cons,
      Option.mem_toList] at htexts
    obtain ⟨⟨⟨hid, hdescription⟩, hdue⟩, htitle', hpriority', hcreated', hnow, -⟩ := htexts
    refine ⟨?_, title, htitle, priority, hpriority, completed, hcompleted, created, hcreated, rfl⟩
    simp only [List.forall_mem_cons, Parameter.Fits, htitle, hpriority, hcreated,
      isEncodable_some]
    exact ⟨hid, htitle', hdescription, hdue, hpriority', hdone, hproject, hcreated', hnow, by simp⟩

/-- What is bound where a folder is inserted, and a project but for its folder. -/
theorem forall_fits_label {n c : Text} {description : Option Text} :
    (∀ p ∈ [Parameter.text (some n), .text (some c), .text description], p.Fits) ↔
      ∀ t ∈ [n, c] ++ description.toList, t.isEncodable = true := by
  simp [Parameter.Fits, IsEncodable]

namespace Store

variable {s s' : Store}

/-! ## Tasks -/

theorem insertTask_eq_ok {new : NewTaskRow} {now : Text} :
    s.insertTask new now = .ok s' ↔
      ∃ l, s.ledger = some l ∧ InRange new.projectId ∧
      ∃ title, new.title = some title ∧
      ∃ priority, new.priority = some priority ∧
        (∀ t ∈ (new.toRow title priority now).texts, t.isEncodable = true) ∧
        l.hasTask new.id = false ∧ l.projectExists new.projectId = true ∧
        s.setLedger { l with tasks := l.tasks ++ [new.toRow title priority now] } = s' := by
  simp only [insertTask, bind_eq_ok, pure_eq_ok, ledgerFor_eq_ok, bindAll_eq_ok, present_eq_ok,
    holds_eq_ok, exists_const, Bool.not_eq_true']
  refine exists_congr fun l => and_congr_right fun _ => ?_
  constructor
  · rintro ⟨hfits, title, htitle, priority, hpriority, h⟩
    have hparts := (new.forall_fits htitle hpriority now).1 hfits
    exact ⟨hparts.1, title, htitle, priority, hpriority, hparts.2, h⟩
  · rintro ⟨hrange, title, htitle, priority, hpriority, htexts, h⟩
    have hfits := (new.forall_fits htitle hpriority now).2 ⟨hrange, htexts⟩
    exact ⟨hfits, title, htitle, priority, hpriority, h⟩

theorem updateTask_eq_ok {edit : TaskEdit} {now : Text} {row : TaskRow} :
    s.updateTask edit now row = .ok s' ↔
      ∃ l, s.ledger = some l ∧
      ∃ new, edit.apply now row = .ok new ∧
        (new.id ≠ row.id → l.hasTask new.id = false) ∧
        (l.projectExists new.projectId = true ∧ (new.id ≠ row.id → s.hasParts row.id l = false)) ∧
        s.setLedger { l with
          tasks := l.tasks.map fun old => if sameId row.id old.id then new else old } = s' := by
  simp only [updateTask, bind_eq_ok, pure_eq_ok, ledgerFor_eq_ok, holds_eq_ok, exists_const,
    Bool.not_eq_true', Bool.and_eq_true, Bool.and_eq_false_imp, decide_eq_true_eq]

theorem deleteTask_eq_ok {id : Option Text} {found : Bool} :
    s.deleteTask id = .ok (found, s') ↔
      ∃ l, s.ledger = some l ∧ IsEncodable id ∧ l.hasTask id = found ∧
        { s.setLedger { l with
            tasks := l.tasks.filter fun row => !sameId id row.id
            tags := l.tags.filter fun row => !sameId id (some row.taskId) } with
          subtasks := s.subtasks.map fun rows =>
            (rows.filter fun row => !sameId id (some row.taskId)) } = s' := by
  simp only [deleteTask, bind_eq_ok, pure_eq_ok, ledgerFor_eq_ok, bindAll_text_eq_ok, exists_const,
    Prod.mk.injEq]

/-! ## Tags and subtasks -/

theorem deleteTagsOf_eq_ok {taskId : Option Text} :
    s.deleteTagsOf taskId = .ok s' ↔
      ∃ l, s.ledger = some l ∧ IsEncodable taskId ∧
        s.setLedger { l with
          tags := l.tags.filter fun row => !sameId taskId (some row.taskId) } = s' := by
  simp only [deleteTagsOf, bind_eq_ok, pure_eq_ok, ledgerFor_eq_ok, bindAll_text_eq_ok,
    exists_const]

theorem insertTag_eq_ok {taskId tag : Option Text} :
    s.insertTag taskId tag = .ok s' ↔
      ∃ l, s.ledger = some l ∧
      ∃ id, taskId = some id ∧
      ∃ name, tag = some name ∧
        (∀ t ∈ [id, name], t.isEncodable = true) ∧
        ⟨id, name⟩ ∉ l.tags ∧ l.hasTask taskId = true ∧
        s.setLedger { l with tags := l.tags ++ [⟨id, name⟩] } = s' := by
  simp only [insertTag, bind_eq_ok, pure_eq_ok, ledgerFor_eq_ok, bindAll_eq_ok, present_eq_ok,
    holds_eq_ok, exists_const, Bool.not_eq_true', ← Bool.not_eq_true, List.contains_iff_mem]
  refine exists_congr fun l => and_congr_right fun _ => ?_
  cases taskId <;> cases tag <;> simp [Parameter.Fits, isEncodable_some]

theorem deleteSubtasksOf_eq_ok {taskId : Option Text} :
    s.deleteSubtasksOf taskId = .ok s' ↔
      ∃ rows, s.subtasks = some rows ∧ IsEncodable taskId ∧
        { s with
          subtasks := some (rows.filter fun row => !sameId taskId (some row.taskId)) } = s' := by
  simp only [deleteSubtasksOf, bind_eq_ok, pure_eq_ok, subtaskRows_eq_ok, bindAll_text_eq_ok,
    exists_const]

theorem insertSubtask_eq_ok {id : Text} {taskId text : Option Text} :
    s.insertSubtask id taskId text = .ok s' ↔
      ∃ rows, s.subtasks = some rows ∧
      ∃ task, taskId = some task ∧
      ∃ words, text = some words ∧
        (∀ t ∈ [id, task, words], t.isEncodable = true) ∧
        (∀ row ∈ rows, row.id ≠ id) ∧
      ∃ l, s.ledger = some l ∧ l.hasTask taskId = true ∧
        { s with subtasks := some (rows ++ [⟨id, task, words, false⟩]) } = s' := by
  simp only [insertSubtask, bind_eq_ok, pure_eq_ok, ledgerFor_eq_ok, subtaskRows_eq_ok,
    bindAll_eq_ok, present_eq_ok, holds_eq_ok, exists_const, Bool.not_eq_true',
    List.any_eq_false, beq_iff_eq, ne_eq]
  refine exists_congr fun rows => and_congr_right fun _ => ?_
  cases taskId <;> cases text <;> simp [Parameter.Fits, isEncodable_some]

theorem markSubtask_eq_ok {id : Option Text} {mark : Int} {found : Bool} :
    s.markSubtask id mark = .ok (found, s') ↔
      ∃ rows, s.subtasks = some rows ∧ InRange (some mark) ∧ IsEncodable id ∧
        (rows.any fun row => sameId id (some row.id)) = found ∧
        { s with subtasks := some (rows.map fun row =>
          if sameId id (some row.id) then { row with completed := mark ≠ 0 } else row) } = s' := by
  simp only [markSubtask, bind_eq_ok, pure_eq_ok, subtaskRows_eq_ok, bindAll_eq_ok,
    List.forall_mem_cons, List.not_mem_nil, false_imp_iff, implies_true, true_and,
    Parameter.Fits, exists_const, Prod.mk.injEq, and_assoc]

/-! ## Projects and folders -/

theorem insertProject_eq_ok {name color description : Option Text} {folderId : Option Int}
    {p : Project} :
    s.insertProject name color description folderId = .ok (p, s') ↔
      ∃ l, s.ledger = some l ∧ InRange folderId ∧
      ∃ n, name = some n ∧
      ∃ c, color = some c ∧
        (∀ t ∈ [n, c] ++ description.toList, t.isEncodable = true) ∧
        l.folderExists folderId = true ∧
        ⟨(l.projects.last + 1 : Nat), n, c, description, folderId⟩ = p ∧
        s.setLedger { l with
          projects := ⟨l.projects.rows ++
            [⟨(l.projects.last + 1 : Nat), n, c, description, folderId⟩],
            l.projects.last + 1⟩ } = s' := by
  simp only [insertProject, bind_eq_ok, pure_eq_ok, ledgerFor_eq_ok, bindAll_eq_ok, present_eq_ok,
    holds_eq_ok, exists_const, Prod.mk.injEq]
  have hsplit (n c : Text) :
      (∀ p ∈ [Parameter.text (some n), .text (some c), .text description, .number folderId],
        p.Fits) ↔ InRange folderId ∧ ∀ t ∈ [n, c] ++ description.toList, t.isEncodable = true := by
    show (∀ p ∈ [_, _, _] ++ [_], Parameter.Fits p) ↔ _
    rw [List.forall_mem_append, List.forall_mem_singleton, forall_fits_label, and_comm]
    exact Iff.rfl
  refine exists_congr fun l => and_congr_right fun _ => ?_
  constructor
  · rintro ⟨hfits, n, rfl, c, rfl, h⟩
    exact ⟨((hsplit n c).1 hfits).1, n, rfl, c, rfl, ((hsplit n c).1 hfits).2, h⟩
  · rintro ⟨hrange, n, rfl, c, rfl, htexts, h⟩
    exact ⟨(hsplit n c).2 ⟨hrange, htexts⟩, n, rfl, c, rfl, h⟩

theorem leaveProject_eq_ok {id : Option Int} :
    s.leaveProject id = .ok s' ↔
      ∃ l, s.ledger = some l ∧ InRange id ∧
        s.setLedger { l with tasks := l.tasks.map fun row =>
          if id.isSome && row.projectId == id then { row with projectId := none } else row } =
          s' := by
  simp only [leaveProject, bind_eq_ok, pure_eq_ok, ledgerFor_eq_ok, bindAll_number_eq_ok,
    exists_const]

theorem deleteProject_eq_ok {id : Option Int} {found : Bool} :
    s.deleteProject id = .ok (found, s') ↔
      ∃ l, s.ledger = some l ∧ InRange id ∧
        ((l.projects.rows.any fun p => id == some p.id) = true →
          (l.tasks.any fun row => row.projectId == id) = false) ∧
        (l.projects.rows.any fun p => id == some p.id) = found ∧
        s.setLedger { l with projects := { l.projects with
          rows := l.projects.rows.filter fun p => id != some p.id } } = s' := by
  simp only [deleteProject, bind_eq_ok, pure_eq_ok, ledgerFor_eq_ok, bindAll_number_eq_ok,
    holds_eq_ok, exists_const, Prod.mk.injEq, Bool.not_eq_true', Bool.and_eq_false_imp]

theorem insertFolder_eq_ok {name color description : Option Text} {f : Folder} :
    s.insertFolder name color description = .ok (f, s') ↔
      ∃ l, s.ledger = some l ∧
      ∃ n, name = some n ∧
      ∃ c, color = some c ∧
        (∀ t ∈ [n, c] ++ description.toList, t.isEncodable = true) ∧
        ⟨(l.folders.last + 1 : Nat), n, c, description⟩ = f ∧
        s.setLedger { l with
          folders := ⟨l.folders.rows ++ [⟨(l.folders.last + 1 : Nat), n, c, description⟩],
            l.folders.last + 1⟩ } = s' := by
  simp only [insertFolder, bind_eq_ok, pure_eq_ok, ledgerFor_eq_ok, bindAll_eq_ok, present_eq_ok,
    exists_const, Prod.mk.injEq]
  refine exists_congr fun l => and_congr_right fun _ => ?_
  constructor
  · rintro ⟨hfits, n, rfl, c, rfl, h⟩
    exact ⟨n, rfl, c, rfl, forall_fits_label.1 hfits, h⟩
  · rintro ⟨n, rfl, c, rfl, htexts, h⟩
    exact ⟨forall_fits_label.2 htexts, n, rfl, c, rfl, h⟩

theorem leaveFolder_eq_ok {id : Option Int} :
    s.leaveFolder id = .ok s' ↔
      ∃ l, s.ledger = some l ∧ InRange id ∧
        s.setLedger { l with projects := { l.projects with
          rows := l.projects.rows.map fun p =>
            if id.isSome && p.folderId == id then { p with folderId := none } else p } } = s' := by
  simp only [leaveFolder, bind_eq_ok, pure_eq_ok, ledgerFor_eq_ok, bindAll_number_eq_ok,
    exists_const]

theorem deleteFolder_eq_ok {id : Option Int} {found : Bool} :
    s.deleteFolder id = .ok (found, s') ↔
      ∃ l, s.ledger = some l ∧ InRange id ∧
        ((l.folders.rows.any fun f => id == some f.id) = true →
          (l.projects.rows.any fun p => p.folderId == id) = false) ∧
        (l.folders.rows.any fun f => id == some f.id) = found ∧
        s.setLedger { l with folders := { l.folders with
          rows := l.folders.rows.filter fun f => id != some f.id } } = s' := by
  simp only [deleteFolder, bind_eq_ok, pure_eq_ok, ledgerFor_eq_ok, bindAll_number_eq_ok,
    holds_eq_ok, exists_const, Prod.mk.injEq, Bool.not_eq_true', Bool.and_eq_false_imp]

/-! ## Settings -/

theorem saveSetting_eq_ok {key value : Option Text} :
    s.saveSetting key value = .ok s' ↔
      ∃ rows, s.settings = some rows ∧
      ∃ v, value = some v ∧ (∀ t ∈ v :: key.toList, t.isEncodable = true) ∧
        (if rows.any fun row => sameId key row.key then
          { s with settings := some (rows.map fun row =>
            if sameId key row.key then { row with value := v } else row) }
        else { s with settings := some (rows ++ [⟨key, v⟩]) }) = s' := by
  simp only [saveSetting, bind_eq_ok, settingRows_eq_ok, bindAll_eq_ok, present_eq_ok,
    exists_const, ← apply_ite (pure : Store → Except Fault Store), pure_eq_ok]
  have hfits (v : Text) : (∀ p ∈ [Parameter.text key, .text (some v)], p.Fits) ↔
      ∀ t ∈ v :: key.toList, t.isEncodable = true := by
    simp [Parameter.Fits, IsEncodable, and_comm]
  refine exists_congr fun rows => and_congr_right fun _ => ?_
  constructor
  · rintro ⟨h, v, rfl, hsaved⟩
    exact ⟨v, rfl, (hfits v).1 h, hsaved⟩
  · rintro ⟨v, rfl, htexts, hsaved⟩
    exact ⟨(hfits v).2 htexts, v, rfl, hsaved⟩

end Store
end TaskDesk
