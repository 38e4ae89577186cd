import TaskDesk.Proofs.Desk.Success

/-!
# The time of the last change

A task carries the time of its creation and the time of its last change. The latter stands
for the columns of the task that its owner edits, for its tags, and for the texts of its
subtasks: work that changes any of these stamps the task with a time that was read during
the work. What else may change leaves the time alone: the project of a task, and whether
its subtasks are done.

Results:
* `Store.face`: what the time of the last change stands for.
* `Desk.Ages.trans`: what happens to the tasks goes on from desk to desk.
* `Desk.ages_createTask`, `Desk.ages_updateTask` and companions: what calls do to the tasks.
-/

namespace TaskDesk

/-- What the time of the last change of a task stands for. -/
structure Face where
  title : Text
  description : Option Text
  dueDate : Option Text
  priority : Text
  tags : List Text
  steps : List Text
deriving DecidableEq, Repr

/-- A task without its project. -/
def TaskRow.unfiled (row : TaskRow) : TaskRow := { row with projectId := none }

namespace Store

/-- The face of a stored task. -/
def face (s : Store) (row : TaskRow) : Face where
  title := row.title
  description := row.description
  dueDate := row.dueDate
  priority := row.priority
  tags := row.id.elim [] s.tagsFor
  steps := row.id.elim [] fun id => (s.subtasksFor id).map (·.text)

/-- Two stores agree in all that faces are taken from, and in the times of the tasks. -/
structure SameSheet (s s' : Store) : Prop where
  tasks : s'.firstTables.tasks.map (·.unfiled) = s.firstTables.tasks.map (·.unfiled)
  tags : s'.firstTables.tags = s.firstTables.tags
  steps : (s'.subtaskList.map fun row => (row.taskId, row.text)) =
    s.subtaskList.map fun row => (row.taskId, row.text)

variable {s s' : Store} {row new : TaskRow}

/-- A face is made of the columns, and of what the store shows of the tags and subtasks. -/
theorem face_of_view (hid : new.id = row.id) (htitle : new.title = row.title)
    (hdescription : new.description = row.description) (hdue : new.dueDate = row.dueDate)
    (hpriority : new.priority = row.priority)
    (hparts : ∀ a ∈ row.id, (s'.view []).tags a = (s.view []).tags a ∧
      (s'.view []).subtasks a = (s.view []).subtasks a) : s'.face new = s.face row := by
  have htexts (s : Store) (a : Text) :
      (s.subtasksFor a).map (·.text) = ((s.view []).subtasks a).map (·.text) := by
    rw [view, List.map_map]
    rfl
  rw [face, face, hid, htitle, hdescription, hdue, hpriority, Face.mk.injEq]
  refine ⟨rfl, rfl, rfl, rfl, ?_⟩
  cases ha : row.id with
  | none => exact ⟨rfl, rfl⟩
  | some a =>
    obtain ⟨htags, hsteps⟩ := hparts a ha
    refine ⟨htags, ?_⟩
    rw [Option.elim_some, Option.elim_some, htexts, htexts, hsteps]

namespace SameSheet

theorem refl (s : Store) : SameSheet s s := ⟨rfl, rfl, rfl⟩

theorem trans {s'' : Store} (h : SameSheet s s') (h' : SameSheet s' s'') : SameSheet s s'' :=
  ⟨h'.tasks.trans h.tasks, h'.tags.trans h.tags, h'.steps.trans h.steps⟩

/-- Only the subtasks are others, with the same texts. -/
theorem of_subtasks (hledger : s'.ledger = s.ledger)
    (hsteps : (s'.subtaskList.map fun row => (row.taskId, row.text)) =
      s.subtaskList.map fun row => (row.taskId, row.text)) : SameSheet s s' := by
  refine ⟨?_, ?_, hsteps⟩ <;> rw [firstTables, firstTables, hledger]

/-- Only projects, folders and the projects of tasks are others. -/
theorem of_ledger {l l' : Ledger} (hl : s.ledger = some l) (hl' : s'.ledger = some l')
    (htasks : l'.tasks.map (·.unfiled) = l.tasks.map (·.unfiled)) (htags : l'.tags = l.tags)
    (hsubtasks : s'.subtasks = s.subtasks) : SameSheet s s' := by
  refine ⟨?_, ?_, ?_⟩
  · rw [firstTables_eq hl, firstTables_eq hl', htasks]
  · rw [firstTables_eq hl, firstTables_eq hl', htags]
  · rw [subtaskList, subtaskList, hsubtasks]

theorem face_eq (h : SameSheet s s') (hrow : new.unfiled = row.unfiled) :
    s'.face new = s.face row := by
  have hcolumns := TaskRow.mk.inj hrow
  have htexts (s : Store) (a : Text) : (s.subtasksFor a).map (·.text) =
      ((s.subtaskList.map fun row => (row.taskId, row.text)).filter fun step =>
        sameId (some a) (some step.1)).map (·.2) := by
    rw [List.filter_map, List.map_map]
    rfl
  have htags (a : Text) : s'.tagsFor a = s.tagsFor a := by rw [tagsFor, tagsFor, h.tags]
  have hsteps (a : Text) :
      (s'.subtasksFor a).map (·.text) = (s.subtasksFor a).map (·.text) := by
    rw [htexts, htexts, h.steps]
  obtain ⟨hid, htitle, hdescription, hdue, hpriority, -⟩ := hcolumns
  simp only [face, hid, htitle, hdescription, hdue, hpriority, funext htags, hsteps]

end SameSheet
end Store

namespace Desk

open Work

variable {source : Source} {d e f : Desk} {row new : TaskRow} {gone gone' : Option Text → Prop}

/-- The stored tasks. -/
def tasks (d : Desk) : List TaskRow := d.store.firstTables.tasks

/-- A task has its id and the time of its creation still. It looks as it did, with the same
    time of the last change, or it has a time that was read in between. -/
structure Continues (source : Source) (d e : Desk) (row new : TaskRow) : Prop where
  id : new.id = row.id
  createdAt : new.createdAt = row.createdAt
  stamp : (new.updatedAt = row.updatedAt ∧ e.store.face new = d.store.face row) ∨
    ∃ n, d.timesUsed ≤ n ∧ n < e.timesUsed ∧ new.updatedAt = source.time n

/-- A task was created in between, and its times were read then. -/
def IsRecent (source : Source) (d e : Desk) (new : TaskRow) : Prop :=
  ∃ m n, d.timesUsed ≤ m ∧ m ≤ n ∧ n < e.timesUsed ∧
    new.createdAt = source.time m ∧ new.updatedAt = source.time n

/-- What happens to the tasks from one desk to the next: each one there is was there before
    or was created in between, and each one that was there is there still, unless its id is
    one of those that may go. -/
structure Ages (source : Source) (gone : Option Text → Prop) (d e : Desk) : Prop where
  times : d.timesUsed ≤ e.timesUsed
  back : ∀ new ∈ e.tasks, (∃ row ∈ d.tasks, Continues source d e row new) ∨ IsRecent source d e new
  forth : ∀ row ∈ d.tasks, ¬ gone row.id → ∃ new ∈ e.tasks, Continues source d e row new

theorem Continues.trans {last : TaskRow} (h : Continues source d e row new)
    (h' : Continues source e f new last) (hde : d.timesUsed ≤ e.timesUsed)
    (hef : e.timesUsed ≤ f.timesUsed) : Continues source d f row last where
  id := h'.id.trans h.id
  createdAt := h'.createdAt.trans h.createdAt
  stamp := by
    rcases h'.stamp with ⟨htime, hface⟩ | ⟨n, hfrom, hto, htime⟩
    · rcases h.stamp with ⟨htime', hface'⟩ | ⟨n, hfrom, hto, htime'⟩
      · exact .inl ⟨htime.trans htime', hface.trans hface'⟩
      · exact .inr ⟨n, hfrom, Nat.lt_of_lt_of_le hto hef, htime.trans htime'⟩
    · exact .inr ⟨n, Nat.le_trans hde hfrom, hto, htime⟩

theorem IsRecent.continued {last : TaskRow} (h : IsRecent source d e new)
    (h' : Continues source e f new last) (hef : e.timesUsed ≤ f.timesUsed) :
    IsRecent source d f last := by
  obtain ⟨m, n, hfrom, hmn, hto, hcreated, hupdated⟩ := h
  rcases h'.stamp with ⟨htime, -⟩ | ⟨k, hfrom', hto', htime⟩
  · exact ⟨m, n, hfrom, hmn, Nat.lt_of_lt_of_le hto hef, h'.createdAt.trans hcreated,
      htime.trans hupdated⟩
  · exact ⟨m, k, hfrom, by omega, hto', h'.createdAt.trans hcreated, htime⟩

namespace Ages

/-- **What happens to the tasks goes on from desk to desk.** -/
theorem trans (h : Ages source gone d e) (h' : Ages source gone' e f) :
    Ages source (fun id => gone id ∨ gone' id) d f where
  times := Nat.le_trans h.times h'.times
  back last hlast := by
    rcases h'.back last hlast with ⟨new, hnew, hlater⟩ | ⟨m, n, hfrom, hmn, hto, htimes⟩
    · rcases h.back new hnew with ⟨row, hrow, hearlier⟩ | hrecent
      · exact .inl ⟨row, hrow, hearlier.trans hlater h.times h'.times⟩
      · exact .inr (hrecent.continued hlater h'.times)
    · exact .inr ⟨m, n, Nat.le_trans h.times hfrom, hmn, hto, htimes⟩
  forth row hrow hstays := by
    obtain ⟨new, hnew, hearlier⟩ := h.forth row hrow fun hgone => hstays (.inl hgone)
    obtain ⟨last, hlast, hlater⟩ := h'.forth new hnew fun hgone =>
      hstays (.inr (hearlier.id ▸ hgone))
    exact ⟨last, hlast, hearlier.trans hlater h.times h'.times⟩

/-- Each task has become one task. -/
theorem of_map (next : TaskRow → TaskRow) (htimes : d.timesUsed ≤ e.timesUsed)
    (htasks : e.tasks = d.tasks.map next)
    (h : ∀ row ∈ d.tasks, Continues source d e row (next row)) : Ages source gone d e where
  times := htimes
  back new hnew := by
    rw [htasks] at hnew
    obtain ⟨row, hrow, rfl⟩ := List.mem_map.1 hnew
    exact .inl ⟨row, hrow, h row hrow⟩
  forth row hrow _ := by
    rw [htasks]
    exact ⟨next row, List.mem_map_of_mem hrow, h row hrow⟩

theorem of_sheet (htimes : d.timesUsed ≤ e.timesUsed)
    (hsheet : Store.SameSheet d.store e.store) : Ages source gone d e := by
  have hcontinues {row new : TaskRow} (hrow : new.unfiled = row.unfiled) :
      Continues source d e row new := by
    obtain ⟨hid, -, -, -, -, -, -, hcreated, hupdated⟩ := TaskRow.mk.inj hrow
    exact ⟨hid, hcreated, .inl ⟨hupdated, hsheet.face_eq hrow⟩⟩
  refine ⟨htimes, fun new hnew => ?_, fun row hrow _ => ?_⟩
  · have hmem : new.unfiled ∈ d.tasks.map (·.unfiled) := by
      rw [tasks, ← hsheet.tasks]
      exact List.mem_map_of_mem hnew
    obtain ⟨row, hrow, hsame⟩ := List.mem_map.1 hmem
    exact .inl ⟨row, hrow, hcontinues hsame.symm⟩
  · have hmem : row.unfiled ∈ e.tasks.map (·.unfiled) := by
      rw [tasks, hsheet.tasks]
      exact List.mem_map_of_mem hrow
    obtain ⟨new, hnew, hsame⟩ := List.mem_map.1 hmem
    exact ⟨new, hnew, hcontinues hsame⟩

theorem of_store (htimes : d.timesUsed ≤ e.timesUsed) (hstore : e.store = d.store) :
    Ages source gone d e :=
  of_sheet htimes (hstore ▸ .refl d.store)

theorem refl (d : Desk) : Ages source gone d d := of_store (Nat.le_refl _) rfl

/-- What may go can be said more generously. -/
theorem mono (h : Ages source gone d e) (hgone : ∀ row ∈ d.tasks, gone row.id → gone' row.id) :
    Ages source gone' d e where
  times := h.times
  back := h.back
  forth row hrow hstays := h.forth row hrow fun hgoes => hstays (hgone row hrow hgoes)

end Ages

/-! ## Readings of the clock -/

/-- The clock is only read on. -/
def ReadsOn (d e : Desk) : Prop := d.timesUsed ≤ e.timesUsed

theorem isMeter_readsOn : IsMeter ReadsOn where
  refl _ := Nat.le_refl _
  trans h h' := Nat.le_trans h h'
  read_clock d := Nat.le_succ d.timesUsed
  take_back h := h
  take_id _ := Nat.le_refl _
  write _ _ := Nat.le_refl _

/-! ## Projects, folders, settings and marks -/

/-- Faces and times are left alone. -/
structure KeepsFaces (d e : Desk) : Prop where
  times : ReadsOn d e
  sheet : Store.SameSheet d.store e.store

theorem KeepsFaces.ages (h : KeepsFaces d e) : Ages source gone d e := .of_sheet h.times h.sheet

theorem isTrace_keepsFaces : IsTrace KeepsFaces where
  refl d := ⟨Nat.le_refl _, .refl d.store⟩
  trans h h' := ⟨Nat.le_trans h.times h'.times, h.sheet.trans h'.sheet⟩
  read_clock d := ⟨Nat.le_succ d.timesUsed, .refl d.store⟩
  take_back {d _} h := ⟨h.times, .refl d.store⟩

theorem keepsFaces_toggleSubtask (id : Option Text) (mark : Int) :
    Within KeepsFaces (toggleSubtask id mark) := by
  refine .bind isTrace_keepsFaces (.change isTrace_keepsFaces fun h => ?_) fun found => ?_
  · obtain ⟨rows, hrows, -, -, -, rfl⟩ := Store.markSubtask_eq_ok.1 h
    refine ⟨Nat.le_refl _, .of_subtasks rfl ?_⟩
    rw [Store.subtaskList_eq hrows, Store.subtaskList, Option.getD_some, List.map_map]
    refine List.map_congr_left fun row _ => ?_
    rw [Function.comp_apply]
    split <;> rfl
  · cases found with
    | true => exact .query isTrace_keepsFaces _
    | false => exact .pure isTrace_keepsFaces none

theorem keepsFaces_createProject (name color description : Option Text) (folderId : Option Int) :
    Within KeepsFaces (createProject name color description folderId) := by
  refine .change isTrace_keepsFaces fun h => ?_
  obtain ⟨l, hl, _, _, _, _, _, _, _, _, rfl⟩ := Store.insertProject_eq_ok.1 h
  exact ⟨Nat.le_refl _, .of_ledger hl rfl rfl rfl rfl⟩

theorem keepsFaces_deleteProject (id : Option Int) : Within KeepsFaces (deleteProject id) := by
  refine .transaction isTrace_keepsFaces (.bind isTrace_keepsFaces
    (.execute isTrace_keepsFaces fun h => ?_) fun _ => .change isTrace_keepsFaces fun h => ?_)
  · obtain ⟨l, hl, _, rfl⟩ := Store.leaveProject_eq_ok.1 h
    refine ⟨Nat.le_refl _, .of_ledger hl rfl ?_ rfl rfl⟩
    rw [List.map_map]
    refine List.map_congr_left fun row _ => ?_
    rw [Function.comp_apply]
    split <;> rfl
  · obtain ⟨l, hl, _, _, _, rfl⟩ := Store.deleteProject_eq_ok.1 h
    exact ⟨Nat.le_refl _, .of_ledger hl rfl rfl rfl rfl⟩

theorem keepsFaces_createFolder (name color description : Option Text) :
    Within KeepsFaces (createFolder name color description) := by
  refine .change isTrace_keepsFaces fun h => ?_
  obtain ⟨l, hl, _, _, _, _, _, _, rfl⟩ := Store.insertFolder_eq_ok.1 h
  exact ⟨Nat.le_refl _, .of_ledger hl rfl rfl rfl rfl⟩

theorem keepsFaces_deleteFolder (id : Option Int) : Within KeepsFaces (deleteFolder id) := by
  refine .transaction isTrace_keepsFaces (.bind isTrace_keepsFaces
    (.execute isTrace_keepsFaces fun h => ?_) fun _ => .change isTrace_keepsFaces fun h => ?_)
  · obtain ⟨l, hl, _, rfl⟩ := Store.leaveFolder_eq_ok.1 h
    exact ⟨Nat.le_refl _, .of_ledger hl rfl rfl rfl rfl⟩
  · obtain ⟨l, hl, _, _, _, rfl⟩ := Store.deleteFolder_eq_ok.1 h
    exact ⟨Nat.le_refl _, .of_ledger hl rfl rfl rfl rfl⟩

theorem keepsFaces_setInputMode (mode : Option Text) : Within KeepsFaces (setInputMode mode) := by
  refine .execute isTrace_keepsFaces fun h => ?_
  obtain ⟨_, _, _, _, _, h⟩ := Store.saveSetting_eq_ok.1 h
  split at h <;> subst h <;> exact ⟨Nat.le_refl _, .of_subtasks rfl rfl⟩

/-! ## Tasks -/

/-- What a transaction takes back has not happened to the tasks. -/
theorem ages_transaction {a : Work Unit} (htimes : Within ReadsOn a)
    (hdone : ∀ {u e}, a.on d = (.ok u, e) → Ages source gone d e) :
    Ages source gone d ((transaction a).on d).2 := by
  rw [on_transaction]
  cases hon : a.on d with
  | mk outcome after =>
    cases outcome with
    | ok u => exact hdone hon
    | error fault =>
      have hused : ReadsOn d after := htimes.of_on hon
      exact .of_store hused rfl

/-- A task of which nothing is changed, and nothing that belongs to it. -/
theorem Continues.self (hparts : ∀ a ∈ row.id, (e.store.view []).tags a = (d.store.view []).tags a ∧
    (e.store.view []).subtasks a = (d.store.view []).subtasks a) : Continues source d e row row :=
  ⟨rfl, rfl, .inl ⟨rfl, Store.face_of_view rfl rfl rfl rfl rfl hparts⟩⟩

/-- Where the rows of a task go, those of other tasks stay. -/
theorem filter_kept {α : Type} (key : α → Text) (rows : List α) {a b : Text} (hb : b ≠ a) :
    (rows.filter fun row => !sameId (some a) (some (key row))).filter
        (fun row => sameId (some b) (some (key row))) =
      rows.filter fun row => sameId (some b) (some (key row)) := by
  rw [← List.append_nil (rows.filter _), filter_replaced key (List.forall_mem_nil _), if_neg hb]

theorem parts_deleteTask {s s' : Store} {a b : Text} {found : Bool}
    (h : s.deleteTask (some a) = .ok (found, s')) (hb : b ≠ a) :
    (s'.view []).tags b = (s.view []).tags b ∧ (s'.view []).subtasks b = (s.view []).subtasks b := by
  obtain ⟨l, hl, -, -, rfl⟩ := Store.deleteTask_eq_ok.1 h
  simp only [Store.view]
  constructor
  · rw [Store.tagsFor, Store.tagsFor, Store.firstTables_eq hl]
    exact congrArg (List.map TagRow.tag) (filter_kept TagRow.taskId l.tags hb)
  · rw [Store.subtasksFor, Store.subtasksFor, Store.subtaskList, Store.subtaskList]
    cases s.subtasks with
    | none => rfl
    | some rows => rw [Option.map_some, Option.getD_some, Option.getD_some,
        filter_kept SubtaskRow.taskId rows hb]

/-- A task that goes with all that belongs to it. -/
theorem ages_deleteTask (a : Text) :
    Ages source (· = some a) d ((deleteTask (some a)).on d).2 := by
  rw [deleteTask, on_change]
  split
  · rename_i found s h
    let e : Desk := { d with store := s }
    have hstays {row : TaskRow} (hother : row.id ≠ some a) : Continues source d e row row :=
      .self fun b hb => parts_deleteTask h fun hsame => hother (hsame ▸ hb)
    have htasks : e.tasks = d.tasks.filter fun row => !sameId (some a) row.id := by
      obtain ⟨l, hl, -, -, rfl⟩ := Store.deleteTask_eq_ok.1 h
      rw [tasks, tasks, Store.firstTables_eq hl]
      rfl
    have hmem (row : TaskRow) : row ∈ e.tasks ↔ row ∈ d.tasks ∧ row.id ≠ some a := by
      rw [htasks, List.mem_filter, Bool.not_eq_true', Bool.eq_false_iff, Ne, sameId_some]
    refine ⟨Nat.le_refl _, fun row hrow => ?_, fun row hrow hother => ?_⟩
    · obtain ⟨hold, hother⟩ := (hmem row).1 hrow
      exact .inl ⟨row, hold, hstays hother⟩
    · exact ⟨row, (hmem row).2 ⟨hrow, hother⟩, hstays hother⟩
  · exact .refl d

/-- A new task comes last, with the time at which it is written. What belongs to other
    tasks stays. -/
theorem writeTask_done {rows : List SubtaskRow} (hrows : d.store.subtasks = some rows)
    {new : NewTask} {a time : Text} {tags texts : List Text} (hid : new.id = some a)
    (htags : new.tags = tags.map some) (htexts : new.subtasks = texts.map some) {u : Unit}
    (h : (writeTask source new time).on d = (.ok u, e)) :
    ∃ row, e.tasks = d.tasks ++ [row] ∧ row.createdAt = time ∧ row.updatedAt = time ∧
      (∀ old ∈ d.tasks, old.id ≠ some a) ∧
      ∀ b, b ≠ a → (e.store.view []).tags b = (d.store.view []).tags b ∧
        (e.store.view []).subtasks b = (d.store.view []).subtasks b := by
  obtain ⟨l, hl, -, hfree, -, title, -, priority, -, -, rfl⟩ :=
    writeTask_on_ok hrows hid htags htexts h
  refine ⟨new.columns.toRow title priority time, ?_, rfl, rfl, ?_, fun b hb => ?_⟩
  · rw [tasks, tasks, Store.firstTables_eq hl]
    rfl
  · rw [tasks, Store.firstTables_eq hl]
    exact fun old hold => Ledger.hasTask_eq_false.1 hfree old hold rfl
  · simp only [Store.view]
    constructor
    · refine (Store.tagsFor_retag (Store.ledger_setLedger _ d.store) b).trans ?_
      rw [if_neg hb, Store.tagsFor, Store.firstTables_eq hl]
    · rw [Store.subtasksFor_renew rfl, if_neg hb, Store.subtasksFor, Store.subtaskList_eq hrows]

theorem ages_createTask {rows : List SubtaskRow} (hrows : d.store.subtasks = some rows)
    {new : NewTask} {a : Text} {tags texts : List Text} (hid : new.id = some a)
    (htags : new.tags = tags.map some) (htexts : new.subtasks = texts.map some) :
    Ages source gone d ((createTask source new).on d).2 := by
  have hbegun : Ages source (fun _ => False) d { d with timesUsed := d.timesUsed + 1 } :=
    .of_store (Nat.le_succ _) rfl
  rw [createTask_eq, bind_on_of_ok (on_now source d), bind_readBack_desk, on_transaction]
  cases hon : (writeTask source new (source.time d.timesUsed)).on
      { d with timesUsed := d.timesUsed + 1 } with
  | mk outcome after =>
    have hused : d.timesUsed + 1 ≤ after.timesUsed := (isMeter_readsOn.writeTask _ _).of_on hon
    cases outcome with
    | error fault => exact .of_store (Nat.le_of_succ_le hused) rfl
    | ok u =>
      obtain ⟨row, htasks, hcreated, hupdated, hfree, hparts⟩ :=
        writeTask_done (by exact hrows) hid htags htexts hon
      have hstays {old : TaskRow} (hold : old ∈ d.tasks) : Continues source d after old old :=
        .self fun b hb => hparts b fun hsame => hfree old hold (hsame ▸ hb)
      dsimp only
      refine ⟨Nat.le_of_succ_le hused, fun new hnew => ?_, fun old hold _ => ?_⟩
      · rw [htasks] at hnew
        rcases List.mem_append.1 hnew with hold | hlast
        · exact .inl ⟨new, hold, hstays hold⟩
        · rw [List.mem_singleton.1 hlast]
          exact .inr ⟨_, _, Nat.le_refl _, Nat.le_refl _, hused, hcreated, hupdated⟩
      · refine ⟨old, ?_, hstays hold⟩
        rw [htasks]
        exact List.mem_append_left _ hold

/-- Tags that are kept are compared only. -/
theorem changeTags_kept {id : Option Text} {tags : Option (List (Option Text))}
    (h : (changeTags id tags).on d = (.ok false, e)) : e = d := by
  cases tags with
  | none =>
    cases h
    rfl
  | some tags =>
    obtain ⟨old, begun, hquery, hrest⟩ := bind_on_ok h
    obtain ⟨-, rfl⟩ := query_on_ok hquery
    split at hrest
    · cases hrest
      rfl
    · obtain ⟨_, saved, -, hdone⟩ := bind_on_ok hrest
      cases hdone

theorem changeSubtasks_kept {id : Option Text} {texts : Option (List (Option Text))}
    (h : (changeSubtasks source id texts).on d = (.ok false, e)) : e = d := by
  obtain ⟨old, begun, hquery, hrest⟩ := bind_on_ok h
  obtain ⟨-, rfl⟩ := query_on_ok hquery
  cases texts with
  | none =>
    cases hrest
    rfl
  | some texts =>
    dsimp only at hrest
    split at hrest
    · cases hrest
      rfl
    · obtain ⟨_, saved, -, hdone⟩ := bind_on_ok hrest
      cases hdone

/-- **A change that is written** stamps its task, or nothing is changed at all. -/
theorem ages_rewriteTask (hs : d.store.IsRegular) {l : Ledger} {a : Text}
    (hrow : d.store.Locates a l row) {c : TaskChange} (hc : c.IsPlain) {u : Unit}
    (h : (rewriteTask source (some a) c row).on d = (.ok u, e)) : Ages source gone d e := by
  have hview := (rewriteTask_done hs hrow hc [] h fun _ _ _ => List.not_mem_nil).2
  obtain ⟨tags, tagged, htags, h⟩ := bind_on_ok h
  obtain ⟨subtasks, changed, hsubtasks, hcolumns⟩ := bind_on_ok h
  have hused : d.timesUsed ≤ changed.timesUsed :=
    Nat.le_trans ((isMeter_readsOn.changeTags _ _).of_on htags)
      ((isMeter_readsOn.changeSubtasks _ _).of_on hsubtasks)
  obtain ⟨_, htagged⟩ := hrow.of_hasLedger (hasLedger_changeTags htags hrow.ledger)
  obtain ⟨_, hrow'⟩ := htagged.of_hasLedger (hasLedger_changeSubtasks hsubtasks htagged.ledger)
  split at hcolumns
  · obtain ⟨time, begun, htime, hupdate⟩ := bind_on_ok hcolumns
    cases htime
    obtain ⟨s, hwrite, rfl⟩ := exists_of_execute_on_ok hupdate
    obtain ⟨-, -, rfl⟩ := (Store.updateTask_eq_ok_of_isPlain hc.toIsPlain hrow'.stored
      hrow'.ledger hrow'.project).1 hwrite
    refine .of_map (fun old => if sameId row.id old.id then
      { c.rewritten row with updatedAt := source.time changed.timesUsed } else old) ?_ ?_ ?_
    · exact Nat.le_succ_of_le hused
    · rw [tasks, tasks, Store.firstTables_eq hrow.ledger]
      rfl
    · intro old hold
      dsimp only
      split
      · rename_i hsame
        rw [tasks, Store.firstTables_eq hrow.ledger] at hold
        rw [Store.eq_of_id (hs.sound.ledger l hrow.ledger) hrow.mem hold hrow.id
          ((sameId_iff.1 hsame).2.symm.trans hrow.id)]
        exact ⟨rfl, rfl, .inr ⟨changed.timesUsed, hused, Nat.lt_succ_self _, rfl⟩⟩
      · rename_i hother
        refine .self fun b hb => ?_
        have hne : b ≠ a := by
          rintro rfl
          exact hother (sameId_iff.2 ⟨by rw [hrow.id]; rfl, hrow.id.trans hb.symm⟩)
        rw [hview]
        exact ⟨Function.update_of_ne hne _ _, Function.update_of_ne hne _ _⟩
  · rename_i hsame
    simp only [Bool.or_eq_true, not_or, Bool.not_eq_true] at hsame
    obtain ⟨⟨-, rfl⟩, rfl⟩ := hsame
    cases hcolumns
    rw [changeSubtasks_kept hsubtasks, changeTags_kept htags]
    exact .refl d

theorem ages_updateTask (hs : d.store.IsRegular) (a : Text) {c : TaskChange} (hc : c.IsPlain) :
    Ages source gone d ((updateTask source (some a) c).on d).2 := by
  obtain ⟨l, hl, -⟩ := hs.presentable.ledger
  rw [updateTask_eq, on_bind, on_query]
  cases hfound : d.store.taskRow? (some a) with
  | error fault => exact .refl d
  | ok found =>
    cases found with
    | none => exact .refl d
    | some row =>
      dsimp only
      rw [map_desk, bind_readBack_desk]
      exact ages_transaction (isMeter_readsOn.rewriteTask _ _ _) fun h =>
        ages_rewriteTask hs (hs.locates hl hfound) hc h

end Desk
end TaskDesk
