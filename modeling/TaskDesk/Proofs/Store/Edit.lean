import TaskDesk.Proofs.Store.Integrity
import TaskDesk.Proofs.Store.Presentable

/-!
# Changes to the columns of a task

A change that a client can send leaves the id and the times of a task alone. Apart from
the time of the last change, the row after it is a plain function of the row before it,
whatever else the store refuses; and the store refuses it just where a column that needs
a value is cleared, a project is given that is not there, or a text cannot be encoded.
Where the change makes no difference the row is as it was.

Results:
* `TaskEdit.IsPlain.apply_eq_ok`: when a change goes through, and the row after it.
* `TaskEdit.IsPlain.changes_eq_false`: a change that makes no difference.
* `TaskEdit.Apart.rewritten_comm`: changes to different columns in either order.
* `Store.updateTask_eq_ok_of_isPlain`: when the store accepts a change.
* `Store.Step.isBounded`: the numbers of all stored tasks fit into 64 bits.
-/

namespace TaskDesk

/-! ## Single columns -/

namespace Edit

variable {α : Type} {e f : Edit α}

/-- The value that a column is given. -/
def value? : Edit α → Option α
  | set a => some a
  | _ => none

/-- The value of a column that needs one. Where it is cleared the old one is taken, though
    such a change is refused. -/
def applyTo (e : Edit α) (old : α) : α := (e.apply (some old)).getD old

theorem keep_ne_clear : (keep : Edit α) ≠ clear := by
  rintro ⟨⟩

theorem apply_some_eq {old a : α} :
    e.apply (some old) = some a ↔ e ≠ .clear ∧ e.applyTo old = a := by
  cases e <;> simp [apply, applyTo]

theorem changes_eq_false [DecidableEq α] {old : Option α} :
    e.changes old = false ↔ e.apply old = old := by
  simp [changes]

theorem changes_some_eq_false [DecidableEq α] {old : α} :
    e.changes (some old) = false ↔ e ≠ .clear ∧ e.applyTo old = old := by
  rw [changes_eq_false, apply_some_eq]

/-- What holds of the old value holds of the new one if it holds of the one that is given. -/
theorem forall_apply {P : α → Prop} {old : Option α} (hold : ∀ a ∈ old, P a) :
    (∀ a ∈ e.apply old, P a) ↔ ∀ a ∈ e.value?, P a := by
  cases e with
  | keep => exact iff_of_true hold (fun _ h => nomatch h)
  | clear => exact Iff.rfl
  | set a => exact Iff.rfl

theorem applyTo_of_forall {P : α → Prop} {old : α} (hold : P old) :
    P (e.applyTo old) ↔ ∀ a ∈ e.value?, P a := by
  cases e <;> simp [applyTo, apply, value?, hold]

theorem apply_apply (e : Edit α) (old : Option α) : e.apply (e.apply old) = e.apply old := by
  cases e <;> rfl

theorem applyTo_applyTo (e : Edit α) (old : α) : e.applyTo (e.applyTo old) = e.applyTo old := by
  cases e <;> rfl

/-- One of the two changes keeps the column. -/
def Apart (e f : Edit α) : Prop := e = .keep ∨ f = .keep

theorem Apart.apply_comm (h : e.Apart f) (old : Option α) :
    f.apply (e.apply old) = e.apply (f.apply old) := by
  rcases h with rfl | rfl <;> rfl

theorem Apart.applyTo_comm (h : e.Apart f) (old : α) :
    f.applyTo (e.applyTo old) = e.applyTo (f.applyTo old) := by
  rcases h with rfl | rfl <;> rfl

end Edit

/-! ## Rows -/

/-- A row that can be shown, with numbers that fit into 64 bits. -/
structure TaskRow.IsStored (row : TaskRow) : Prop extends row.IsPresentable where
  completed : InRange (some row.completed)
  projectId : InRange row.projectId

/-- A reference to a project that can be stored: it fits into 64 bits and leads to a
    project, or there is none. -/
def Ledger.AcceptsProject (l : Ledger) (id : Option Int) : Prop :=
  InRange id ∧ l.projectExists id = true

theorem Ledger.acceptsProject_apply {l : Ledger} {e : Edit Int} {old : Option Int}
    (hold : l.AcceptsProject old) :
    l.AcceptsProject (e.apply old) ↔ l.AcceptsProject e.value? := by
  have hexists := Ledger.projectExists_iff.1 hold.2
  rw [AcceptsProject, AcceptsProject, Ledger.projectExists_iff, Ledger.projectExists_iff,
    Edit.forall_apply hexists]
  exact and_congr_left fun _ => Edit.forall_apply hold.1

namespace TaskEdit

/-- A change as a client can send it: it keeps the id and the times, and sets no unknown
    priority and no mark that is not a truth value. -/
structure IsPlain (e : TaskEdit) : Prop extends e.IsPresentable where
  createdAt : e.createdAt = .keep
  updatedAt : e.updatedAt = .keep
  completed : ∀ n ∈ e.completed.value?, InRange (some n)

/-- The texts that are given. -/
def texts (e : TaskEdit) : List Text :=
  e.title.value?.toList ++ e.description.value?.toList ++ e.dueDate.value?.toList

/-- The row after the change, apart from the times. -/
def rewritten (e : TaskEdit) (row : TaskRow) : TaskRow :=
  { row with
    title := e.title.applyTo row.title
    description := e.description.apply row.description
    dueDate := e.dueDate.apply row.dueDate
    priority := e.priority.applyTo row.priority
    completed := e.completed.applyTo row.completed
    projectId := e.projectId.apply row.projectId }

/-- The same change once more makes no difference to the row. -/
theorem rewritten_rewritten (e : TaskEdit) (row : TaskRow) :
    e.rewritten (e.rewritten row) = e.rewritten row := by
  simp only [rewritten, Edit.applyTo_applyTo, Edit.apply_apply]

/-- No column that needs a value is cleared. -/
structure ClearsNone (e : TaskEdit) : Prop where
  title : e.title ≠ .clear
  priority : e.priority ≠ .clear
  completed : e.completed ≠ .clear

/-- The store has room for what the change gives. -/
structure IsStorable (e : TaskEdit) (l : Ledger) : Prop extends e.ClearsNone where
  project : l.AcceptsProject e.projectId.value?
  texts : ∀ t ∈ e.texts, t.isEncodable = true

theorem isEncodable_of_mem_priority {e : TaskEdit} (he : e.IsPlain) :
    ∀ p ∈ e.priority.value?, Text.isEncodable p = true := by
  intro p hp
  have hset : e.priority = .set p := by
    cases hedit : e.priority with
    | set q => rw [hedit] at hp; cases hp; rfl
    | _ => rw [hedit] at hp; cases hp
  obtain ⟨known, hknown⟩ := Option.isSome_iff_exists.1 (he.priority p hset)
  rw [← Priority.name_of_ofName? hknown]
  cases known <;> decide

theorem texts_rewritten {e : TaskEdit} (he : e.IsPlain) {row : TaskRow} (hrow : row.IsStored)
    (now : Text) :
    (∀ t ∈ { e.rewritten row with updatedAt := now }.texts, Text.isEncodable t = true) ↔
      (∀ t ∈ e.texts, t.isEncodable = true) ∧ now.isEncodable = true := by
  have hold := hrow.texts
  simp only [TaskRow.texts, rewritten, texts, List.forall_mem_append, List.forall_mem_cons,
    Option.mem_toList] at hold ⊢
  obtain ⟨⟨⟨hid, hdescription⟩, hdue⟩, htitle, hpriority, hcreated, -, -⟩ := hold
  have hpriority := (Edit.applyTo_of_forall (P := fun t => Text.isEncodable t = true) hpriority).2
    (isEncodable_of_mem_priority he)
  have hdescription := Edit.forall_apply (e := e.description) hdescription
  have hdue := Edit.forall_apply (e := e.dueDate) hdue
  have htitle := Edit.applyTo_of_forall (e := e.title) (P := fun t => Text.isEncodable t = true)
    htitle
  constructor
  · rintro ⟨⟨⟨-, hd⟩, hu⟩, ht, -, -, hnow, -⟩
    exact ⟨⟨⟨htitle.1 ht, hdescription.1 hd⟩, hdue.1 hu⟩, hnow⟩
  · rintro ⟨⟨⟨ht, hd⟩, hu⟩, hnow⟩
    exact ⟨⟨⟨hid, hdescription.2 hd⟩, hdue.2 hu⟩, htitle.2 ht, hpriority, hcreated, hnow, by simp⟩

namespace IsPlain

variable {e : TaskEdit} {row new : TaskRow} {now : Text}

/-- **When a change goes through**, and the row after it. -/
theorem apply_eq_ok (he : e.IsPlain) (hrow : row.IsStored) :
    e.apply now row = .ok new ↔
      e.ClearsNone ∧ InRange e.projectId.value? ∧ (∀ t ∈ e.texts, t.isEncodable = true) ∧
        now.isEncodable = true ∧ { e.rewritten row with updatedAt := now } = new := by
  have hcompleted : InRange (e.completed.apply (some row.completed)) :=
    (Edit.forall_apply hrow.completed).2 fun n hn => he.completed n hn n rfl
  have hproject : InRange (e.projectId.apply row.projectId) ↔ InRange e.projectId.value? :=
    Edit.forall_apply hrow.projectId
  simp only [TaskEdit.apply_eq_ok, he.id, he.createdAt, Edit.apply_some_eq, hproject]
  constructor
  · rintro ⟨-, hin, _, ⟨htitle, rfl⟩, _, ⟨hpriority, rfl⟩, _, ⟨hdone, rfl⟩, _, ⟨-, rfl⟩, htexts, rfl⟩
    obtain ⟨htexts, hnow⟩ := (texts_rewritten he hrow now).1 htexts
    exact ⟨⟨htitle, hpriority, hdone⟩, hin, htexts, hnow, rfl⟩
  · rintro ⟨⟨htitle, hpriority, hdone⟩, hin, htexts, hnow, rfl⟩
    exact ⟨hcompleted, hin, _, ⟨htitle, rfl⟩, _, ⟨hpriority, rfl⟩, _, ⟨hdone, rfl⟩, _,
      ⟨Edit.keep_ne_clear, rfl⟩, (texts_rewritten he hrow now).2 ⟨htexts, hnow⟩, rfl⟩

/-- **A change that makes no difference** clears no column that needs a value, and leaves the
    row as it is. -/
theorem changes_eq_false (he : e.IsPlain) :
    e.changes row = false ↔ e.ClearsNone ∧ e.rewritten row = row := by
  simp only [changes, Bool.or_eq_false_iff, Edit.changes_some_eq_false, he.id, he.createdAt,
    he.updatedAt]
  simp only [Edit.changes_eq_false]
  constructor
  · rintro ⟨⟨⟨⟨⟨⟨⟨⟨-, htitle, ht⟩, hdescription⟩, hdue⟩, hpriority, hp⟩, hdone, hd⟩, hproject⟩, -⟩, -⟩
    refine ⟨⟨htitle, hpriority, hdone⟩, ?_⟩
    rw [rewritten, ht, hdescription, hdue, hp, hd, hproject]
  · rintro ⟨hnone, hsame⟩
    exact ⟨⟨⟨⟨⟨⟨⟨⟨rfl, hnone.title, congrArg TaskRow.title hsame⟩,
      congrArg TaskRow.description hsame⟩, congrArg TaskRow.dueDate hsame⟩,
      hnone.priority, congrArg TaskRow.priority hsame⟩, hnone.completed,
      congrArg TaskRow.completed hsame⟩, congrArg TaskRow.projectId hsame⟩,
      Edit.keep_ne_clear, rfl⟩, Edit.keep_ne_clear, rfl⟩

/-- There is room for a change that makes no difference. -/
theorem isStorable_of_unchanged (he : e.IsPlain) (hrow : row.IsStored) {l : Ledger}
    (hproject : l.projectExists row.projectId = true) (hnone : e.ClearsNone)
    (hsame : e.rewritten row = row) : e.IsStorable l where
  toClearsNone := hnone
  project := by
    have hold : l.AcceptsProject row.projectId := ⟨hrow.projectId, hproject⟩
    have hkept : e.projectId.apply row.projectId = row.projectId :=
      congrArg TaskRow.projectId hsame
    rw [← Ledger.acceptsProject_apply hold, hkept]
    exact hold
  texts := ((texts_rewritten he hrow row.updatedAt).1 (by rw [hsame]; exact hrow.texts)).1

end IsPlain

/-- One of the two changes keeps each column. -/
structure Apart (e f : TaskEdit) : Prop where
  title : e.title.Apart f.title
  description : e.description.Apart f.description
  dueDate : e.dueDate.Apart f.dueDate
  priority : e.priority.Apart f.priority
  completed : e.completed.Apart f.completed
  projectId : e.projectId.Apart f.projectId

/-- **Changes to different columns** can be made in either order. -/
theorem Apart.rewritten_comm {e f : TaskEdit} (h : e.Apart f) (row : TaskRow) :
    f.rewritten (e.rewritten row) = e.rewritten (f.rewritten row) := by
  simp only [rewritten, h.title.applyTo_comm, h.description.apply_comm, h.dueDate.apply_comm,
    h.priority.applyTo_comm, h.completed.applyTo_comm, h.projectId.apply_comm]

end TaskEdit

/-! ## The store -/

namespace Store

variable {s s' : Store}

/-- The numbers of all stored tasks fit into 64 bits. -/
def IsBounded (s : Store) : Prop :=
  ∀ l ∈ s.ledger, ∀ row ∈ l.tasks, InRange (some row.completed) ∧ InRange row.projectId

/-- Statements that leave the tasks alone. -/
theorem IsBounded.of_tasks (hs : s.IsBounded)
    (h : ∀ l' ∈ s'.ledger, ∃ l ∈ s.ledger, ∀ row ∈ l'.tasks, row ∈ l.tasks) : s'.IsBounded := by
  intro l' hl' row hrow
  obtain ⟨l, hl, hsub⟩ := h l' hl'
  exact hs l hl row (hsub row hrow)

theorem inRange_of_apply {e : TaskEdit} {now : Text} {row new : TaskRow}
    (h : e.apply now row = .ok new) : InRange (some new.completed) ∧ InRange new.projectId := by
  obtain ⟨hcompleted, hproject, _, -, _, -, done, hdone, _, -, -, rfl⟩ := TaskEdit.apply_eq_ok.1 h
  exact ⟨hdone ▸ hcompleted, hproject⟩

/-- **Stored numbers fit into 64 bits.** One case for each statement. -/
theorem Step.isBounded (h : Step s s') (hs : s.IsBounded) : s'.IsBounded := by
  cases h with
  | insertTask new now h =>
    obtain ⟨l, hl, hproject, title, -, priority, -, -, -, -, rfl⟩ := insertTask_eq_ok.1 h
    rintro _ ⟨⟩
    refine List.forall_mem_append.2 ⟨hs l hl, List.forall_mem_singleton.2 ⟨?_, hproject⟩⟩
    rintro _ ⟨⟩
    show -9223372036854775808 ≤ (0 : Int) ∧ (0 : Int) ≤ 9223372036854775807
    decide
  | updateTask edit now row h =>
    obtain ⟨l, hl, new, hnew, -, -, rfl⟩ := updateTask_eq_ok.1 h
    rintro _ ⟨⟩
    refine List.forall_mem_map.2 fun old hold => ?_
    split
    · exact inRange_of_apply hnew
    · exact hs l hl old hold
  | deleteTask id found h =>
    obtain ⟨l, hl, -, -, rfl⟩ := deleteTask_eq_ok.1 h
    refine hs.of_tasks ?_
    rintro _ ⟨⟩
    exact ⟨l, hl, fun row hrow => (List.mem_filter.1 hrow).1⟩
  | deleteTagsOf taskId h =>
    obtain ⟨l, hl, -, rfl⟩ := deleteTagsOf_eq_ok.1 h
    exact hs.of_tasks (by rintro _ ⟨⟩; exact ⟨l, hl, fun _ h => h⟩)
  | insertTag taskId tag h =>
    obtain ⟨l, hl, -, -, -, -, -, -, -, rfl⟩ := insertTag_eq_ok.1 h
    exact hs.of_tasks (by rintro _ ⟨⟩; exact ⟨l, hl, fun _ h => h⟩)
  | deleteSubtasksOf taskId h =>
    obtain ⟨rows, -, -, rfl⟩ := deleteSubtasksOf_eq_ok.1 h
    exact hs
  | insertSubtask id taskId text h =>
    obtain ⟨rows, -, -, -, -, -, -, -, -, -, -, rfl⟩ := insertSubtask_eq_ok.1 h
    exact hs
  | markSubtask id mark found h =>
    obtain ⟨rows, -, -, -, -, rfl⟩ := markSubtask_eq_ok.1 h
    exact hs
  | insertProject name color description folderId p h =>
    obtain ⟨l, hl, -, -, -, -, -, -, -, -, rfl⟩ := insertProject_eq_ok.1 h
    exact hs.of_tasks (by rintro _ ⟨⟩; exact ⟨l, hl, fun _ h => h⟩)
  | leaveProject id h =>
    obtain ⟨l, hl, -, rfl⟩ := leaveProject_eq_ok.1 h
    rintro _ ⟨⟩
    refine List.forall_mem_map.2 fun old hold => ?_
    obtain ⟨hcompleted, hproject⟩ := hs l hl old hold
    split
    · exact ⟨hcompleted, fun _ h => nomatch h⟩
    · exact ⟨hcompleted, hproject⟩
  | deleteProject id found h =>
    obtain ⟨l, hl, -, -, -, rfl⟩ := deleteProject_eq_ok.1 h
    exact hs.of_tasks (by rintro _ ⟨⟩; exact ⟨l, hl, fun _ h => h⟩)
  | insertFolder name color description f h =>
    obtain ⟨l, hl, -, -, -, -, -, -, rfl⟩ := insertFolder_eq_ok.1 h
    exact hs.of_tasks (by rintro _ ⟨⟩; exact ⟨l, hl, fun _ h => h⟩)
  | leaveFolder id h =>
    obtain ⟨l, hl, -, rfl⟩ := leaveFolder_eq_ok.1 h
    exact hs.of_tasks (by rintro _ ⟨⟩; exact ⟨l, hl, fun _ h => h⟩)
  | deleteFolder id found h =>
    obtain ⟨l, hl, -, -, -, rfl⟩ := deleteFolder_eq_ok.1 h
    exact hs.of_tasks (by rintro _ ⟨⟩; exact ⟨l, hl, fun _ h => h⟩)
  | saveSetting key value h =>
    obtain ⟨rows, _, _, _, _, h⟩ := saveSetting_eq_ok.1 h
    split at h <;> subst h <;> exact hs

/-- A stored task of a sound store that is bounded and can be shown. -/
theorem IsBounded.isStored (hs : s.IsBounded) (hshown : s.IsPresentable) {l : Ledger}
    (hl : s.ledger = some l) {row : TaskRow} (hrow : row ∈ l.tasks) : row.IsStored where
  toIsPresentable := (hshown.ledger_of_eq hl).tasks row hrow
  completed := (hs l hl row hrow).1
  projectId := (hs l hl row hrow).2

/-- **When the store accepts a change** to one of its tasks, and the store after it. -/
theorem updateTask_eq_ok_of_isPlain {e : TaskEdit} (he : e.IsPlain) {row : TaskRow}
    (hrow : row.IsStored) {l : Ledger} (hl : s.ledger = some l)
    (hproject : l.projectExists row.projectId = true) {now : Text} :
    s.updateTask e now row = .ok s' ↔
      e.IsStorable l ∧ now.isEncodable = true ∧
        s.setLedger { l with
          tasks := l.tasks.map fun old =>
            if sameId row.id old.id then { e.rewritten row with updatedAt := now } else old } =
          s' := by
  have haccepts := Ledger.acceptsProject_apply (e := e.projectId) ⟨hrow.projectId, hproject⟩
  have hin : InRange (e.projectId.apply row.projectId) ↔ InRange e.projectId.value? :=
    Edit.forall_apply hrow.projectId
  rw [updateTask_eq_ok]
  constructor
  · rintro ⟨k, hk, new, hnew, -, ⟨hnewProject, -⟩, rfl⟩
    cases hl.symm.trans hk
    obtain ⟨hnone, hnewIn, htexts, hnow, rfl⟩ := (he.apply_eq_ok hrow).1 hnew
    exact ⟨⟨hnone, haccepts.1 ⟨hin.2 hnewIn, hnewProject⟩, htexts⟩, hnow, rfl⟩
  · rintro ⟨⟨hnone, hnewProject, htexts⟩, hnow, rfl⟩
    exact ⟨l, hl, _, (he.apply_eq_ok hrow).2 ⟨hnone, hnewProject.1, htexts, hnow, rfl⟩,
      fun h => absurd rfl h, ⟨(haccepts.2 hnewProject).2, fun h => absurd rfl h⟩, rfl⟩

end Store
end TaskDesk
