import TaskDesk.Proofs.Desk.NewTask
import TaskDesk.Proofs.Desk.Rewrite

/-!
# When work succeeds

In a regular store, work on tasks, projects, folders and settings succeeds unless a reference
that is given leads nowhere, or a text that is given cannot be encoded. Each lemma states the
exact condition. Work that only removes rows or sets marks needs no more than that the numbers
and texts it is given can be stored.

Results:
* `Desk.writeTask_on_ok`: what a new task leaves, where it is written.
* `Desk.createTask_succeeds_iff`: when a new task is stored and read back.
* `Desk.createProject_succeeds_iff`, `Desk.createFolder_succeeds_iff`: new projects and folders.
* `Desk.deleteTask_succeeds_iff`, `Desk.deleteProject_succeeds_iff` and
  `Desk.deleteFolder_succeeds_iff`: tasks, projects and folders that go.
* `Desk.on_toggleSubtask`, `Desk.setInputMode_succeeds`: subtasks that are marked, and the mode.
-/

namespace TaskDesk

/-- A reference to a folder that can be stored: it fits into 64 bits and leads to a folder, or
    there is none. -/
def Ledger.AcceptsFolder (l : Ledger) (id : Option Int) : Prop :=
  InRange id ∧ l.folderExists id = true

namespace NewTask

/-- The tags that are given. -/
def newTags (new : NewTask) : List Text := new.tags.reduceOption

/-- The texts of the subtasks that are given. -/
def newSubtasks (new : NewTask) : List Text := new.subtasks.reduceOption

/-- The texts that are given. -/
def texts (new : NewTask) : List Text :=
  new.title.toList ++ new.description.toList ++ new.dueDate.toList ++ new.newTags ++
    new.newSubtasks

/-- A new task as a client can send it: it has a title and a known priority, and its tags and
    subtasks have texts. -/
structure IsPlain (new : NewTask) : Prop where
  title : new.title.isSome
  priority : ∃ p : Priority, new.priority = some p.name
  tags : new.tags = new.newTags.map some
  subtasks : new.subtasks = new.newSubtasks.map some

theorem IsPlain.known_priority {new : NewTask} (h : new.IsPlain) :
    ∀ p ∈ new.priority, (Priority.ofName? p).isSome := by
  obtain ⟨p, hpriority⟩ := h.priority
  rw [hpriority]
  rintro _ ⟨⟩
  rw [Priority.ofName?_name, Option.isSome_some]

/-- The store has room for a new task. -/
structure IsStorable (new : NewTask) (l : Ledger) : Prop where
  project : l.AcceptsProject new.projectId
  texts : ∀ t ∈ new.texts, t.isEncodable = true

end NewTask

namespace Desk

open Work

variable {source : Source} {d : Desk} {l : Ledger}

/-! ## Tasks -/

section Create

variable {new : NewTask} (hs : d.store.IsPresentable) (hid : new.id.isSome)
  (hpriority : ∀ p ∈ new.priority, (Priority.ofName? p).isSome)

include hs hid hpriority

/-- A task that is written can be read back. -/
theorem createTask_on_of_write {u : Unit} {after : Desk}
    (hwrite : (writeTask source new (source.time d.timesUsed)).on
      { d with timesUsed := d.timesUsed + 1 } = (.ok u, after)) :
    ∃ task, (createTask source new).on d = (.ok task, after) ∧
      ∀ t ∈ task.texts, t.isEncodable = true := by
  have hkeeps : Keeps Store.IsPresentable (writeTask source new (source.time d.timesUsed)) :=
    keeps_writeTask hid hpriority
  have hafter := hkeeps.of_on (d := { d with timesUsed := d.timesUsed + 1 }) hs hwrite
  obtain ⟨_, inserted, hinsert, hparts⟩ := bind_on_ok hwrite
  have hkept : Keeps (Store.HasTask new.id)
      (saveTags new.id new.tags >>= fun _ => saveSubtasks source new.id new.subtasks) :=
    .bind (.saveTags (keptByParts_hasTask _) _ _) fun _ =>
      .saveSubtasks (keptByParts_hasTask _) _ _
  have htask := hkept.of_on (Store.hasTask_of_insertTask hid (execute_on_ok hinsert)) hparts
  obtain ⟨task, hread, htexts⟩ := on_readBack hafter htask
  refine ⟨task, ?_, htexts⟩
  rw [createTask_eq, bind_on_of_ok (on_now source d), bind_on_of_ok (transaction_on_of_ok hwrite)]
  exact hread

omit hs hid hpriority in
theorem write_of_createTask {task : Task} {d' : Desk}
    (h : (createTask source new).on d = (.ok task, d')) :
    (writeTask source new (source.time d.timesUsed)).Succeeds
      { d with timesUsed := d.timesUsed + 1 } := by
  rw [createTask_eq, bind_on_of_ok (on_now source d)] at h
  obtain ⟨u, written, hwritten, -⟩ := bind_on_ok h
  exact succeeds_of_on (transaction_on_ok hwritten)

/-- The texts of a task that was created can be encoded. -/
theorem texts_of_createTask {task : Task} {d' : Desk}
    (h : (createTask source new).on d = (.ok task, d')) : ∀ t ∈ task.texts, t.isEncodable = true := by
  obtain ⟨u, after, hwrite⟩ := write_of_createTask h
  obtain ⟨task', htask', htexts⟩ := createTask_on_of_write hs hid hpriority hwrite
  rw [htask'] at h
  cases h
  exact htexts

end Create

/-- The texts in the row of a new task are those that are given, but for its tags and
    subtasks, and those that are known. -/
theorem texts_toRow {new : NewTask} {a title priority time : Text} (hid : new.id = some a)
    (ha : a.isEncodable = true) (htitle : new.title = some title)
    (hpriority : priority.isEncodable = true) (htime : time.isEncodable = true) :
    (∀ t ∈ (new.columns.toRow title priority time).texts, t.isEncodable = true) ↔
      ∀ t ∈ new.title.toList ++ new.description.toList ++ new.dueDate.toList,
        t.isEncodable = true := by
  simp only [NewTaskRow.toRow, NewTask.columns, TaskRow.texts, hid, htitle, Option.toList_some,
    List.forall_mem_append, List.forall_mem_singleton, List.forall_mem_cons, ha, hpriority, htime,
    true_and]
  exact ⟨fun h => ⟨⟨h.2.1, h.1.1⟩, h.1.2⟩, fun h => ⟨⟨h.1.2, h.2⟩, h.1.1, trivial⟩⟩

theorem writeTask_eq (new : NewTask) (time : Text) :
    writeTask source new time = execute (Store.insertTask new.columns time) >>= fun _ =>
      saveTags new.id new.tags >>= fun _ => saveSubtasks source new.id new.subtasks := rfl

/-- **What a new task leaves**, where it is written: its row comes last, and the tags and
    subtasks that are given take the place of all that the store has for its id. -/
theorem writeTask_on_ok {rows : List SubtaskRow} (hrows : d.store.subtasks = some rows)
    {new : NewTask} {a time : Text} {tags texts : List Text} (hid : new.id = some a)
    (htags : new.tags = tags.map some) (hsubtasks : new.subtasks = texts.map some) {u : Unit}
    {d' : Desk} (h : (writeTask source new time).on d = (.ok u, d')) :
    ∃ l, d.store.ledger = some l ∧ l.AcceptsProject new.projectId ∧ l.hasTask (some a) = false ∧
    (∀ t ∈ tags ++ texts, t.isEncodable = true) ∧
    ∃ title, new.title = some title ∧ ∃ priority, new.priority = some priority ∧
      (∀ t ∈ (new.columns.toRow title priority time).texts, t.isEncodable = true) ∧
      d' = { d with
        store := { d.store.setLedger (Ledger.retag a (Text.distinct tags)
            { l with tasks := l.tasks ++ [new.columns.toRow title priority time] }) with
          subtasks := some ((rows.filter fun row => !sameId (some a) (some row.taskId)) ++
            newSubtasks source a d.idsUsed texts) }
        idsUsed := d.idsUsed + texts.length } := by
  rw [writeTask_eq, hid, htags, hsubtasks] at h
  obtain ⟨_, inserted, hinsert, h⟩ := bind_on_ok h
  obtain ⟨_, tagged, hsaveTags, hsaveTexts⟩ := bind_on_ok h
  obtain ⟨s, hwrite, rfl⟩ := exists_of_execute_on_ok hinsert
  obtain ⟨l, hl, hin, title, htitle, priority, hpriority, hrow, hfree, hproject, rfl⟩ :=
    Store.insertTask_eq_ok.1 hwrite
  obtain ⟨htagTexts, rfl⟩ := saveTags_done rfl hsaveTags
  obtain ⟨hsubtaskTexts, rfl⟩ := saveSubtasks_done (by exact hrows) hsaveTexts
  have hfree' : l.hasTask (some a) = false := (congrArg l.hasTask hid).symm.trans hfree
  exact ⟨l, hl, ⟨hin, hproject⟩, hfree', List.forall_mem_append.2 ⟨htagTexts, hsubtaskTexts⟩,
    title, htitle, priority, hpriority, hrow, rfl⟩

/-- **When a new task is written**: the store has room for it. -/
theorem writeTask_succeeds_iff (hsource : source.IsReliable) (hs : d.store.IsSound)
    (hl : d.store.ledger = some l) {rows : List SubtaskRow} (hrows : d.store.subtasks = some rows)
    (hfresh : ∀ n, d.idsUsed ≤ n → ∀ row ∈ d.store.subtaskList, row.id ≠ source.id n)
    {new : NewTask} (hnew : new.IsPlain) {a time : Text} (hid : new.id = some a)
    (ha : a.isEncodable = true) (hfree : l.hasTask (some a) = false)
    (htime : time.isEncodable = true) :
    (writeTask source new time).Succeeds d ↔ new.IsStorable l := by
  obtain ⟨title, htitle⟩ := Option.isSome_iff_exists.1 hnew.title
  obtain ⟨p, hpriority⟩ := hnew.priority
  have hpriority' : p.name.isEncodable = true := by cases p <;> decide
  have htexts := texts_toRow hid ha htitle hpriority' htime
  constructor
  · rintro ⟨u, d', h⟩
    obtain ⟨k, hk, hproject, -, hparts, title', htitle', name, hname, hrow, -⟩ :=
      writeTask_on_ok hrows hid hnew.tags hnew.subtasks h
    cases hl.symm.trans hk
    cases htitle.symm.trans htitle'
    cases hpriority.symm.trans hname
    refine ⟨hproject, ?_⟩
    rw [NewTask.texts, List.append_assoc]
    exact List.forall_mem_append.2 ⟨htexts.1 hrow, hparts⟩
  · rintro ⟨⟨hin, hproject⟩, hgiven⟩
    obtain ⟨hgiven, hsubtaskTexts⟩ := List.forall_mem_append.1 hgiven
    obtain ⟨hcolumns, htagTexts⟩ := List.forall_mem_append.1 hgiven
    have hinsert := Store.insertTask_eq_ok.2 ⟨l, hl, hin, title, htitle, p.name, hpriority,
      htexts.2 hcolumns, (congrArg l.hasTask hid).trans hfree, hproject, rfl⟩
    have htask : Ledger.hasTask (some a)
        { l with tasks := l.tasks ++ [new.columns.toRow title p.name time] } = true :=
      Ledger.hasTask_some.2 ⟨_, List.mem_append_right _ (List.mem_singleton_self _), hid⟩
    have hsound : Ledger.IsSound
        { l with tasks := l.tasks ++ [new.columns.toRow title p.name time] } :=
      (hs.ledger l hl).insertTask ((congrArg l.hasTask hid).trans hfree) hproject
        (TaskRow.isEncodable_id (htexts.2 hcolumns))
    rw [writeTask_eq, hid, hnew.tags, hnew.subtasks]
    rw [Store.subtaskList_eq hrows] at hfresh
    refine (succeeds_bind_of_ok (execute_on_of_ok hinsert)).2 ?_
    refine (saveTags_succeeds rfl hsound htask ha htagTexts).bind fun {_ tagged} hon => ?_
    obtain ⟨-, rfl⟩ := saveTags_done rfl hon
    exact saveSubtasks_succeeds hsource hrows hfresh rfl htask ha hsubtaskTexts

/-- **When a new task is stored**: the store has room for it. -/
theorem createTask_succeeds_iff (hsource : source.IsReliable) (hs : d.store.IsRegular)
    (hl : d.store.ledger = some l)
    (hfresh : ∀ n, d.idsUsed ≤ n → ∀ row ∈ d.store.subtaskList, row.id ≠ source.id n)
    {new : NewTask} (hnew : new.IsPlain) {a : Text} (hid : new.id = some a)
    (ha : a.isEncodable = true) (hfree : l.hasTask (some a) = false) :
    (createTask source new).Succeeds d ↔ new.IsStorable l := by
  obtain ⟨rows, hrows, -⟩ := hs.presentable.subtasks
  have hwrite := writeTask_succeeds_iff (d := { d with timesUsed := d.timesUsed + 1 }) hsource
    hs.sound hl hrows hfresh hnew hid ha hfree (hsource.time d.timesUsed)
  rw [← hwrite]
  constructor
  · rintro ⟨task, d', h⟩
    exact write_of_createTask h
  · rintro ⟨u, after, h⟩
    obtain ⟨task, htask, -⟩ := createTask_on_of_write hs.presentable (by rw [hid]; rfl)
      hnew.known_priority h
    exact succeeds_of_on htask

/-- A task goes, or is not there, so only its id matters. -/
theorem deleteTask_succeeds_iff (hl : d.store.ledger = some l) (id : Option Text) :
    (deleteTask id).Succeeds d ↔ IsEncodable id := by
  constructor
  · rintro ⟨found, d', h⟩
    obtain ⟨k, -, hid, -⟩ := Store.deleteTask_eq_ok.1 (change_on_ok h)
    exact hid
  · exact fun hid => succeeds_change (Store.deleteTask_eq_ok.2 ⟨l, hl, hid, rfl, rfl⟩)

/-- A subtask that is marked can be read back. -/
theorem on_toggleSubtask (hs : d.store.IsPresentable) {id : Option Text} (hid : IsEncodable id)
    {mark : Int} (hmark : InRange (some mark)) :
    ∃ found after, (toggleSubtask id mark).on d = (.ok found, after) ∧
      ∀ subtask ∈ found, ∀ t ∈ subtask.texts, t.isEncodable = true := by
  obtain ⟨rows, hrows, -⟩ := hs.subtasks
  have hmarked : d.store.markSubtask id mark = .ok (_, _) :=
    Store.markSubtask_eq_ok.2 ⟨rows, hrows, hmark, hid, rfl, rfl⟩
  obtain ⟨found, after, hon⟩ := succeeds_change hmarked
  rw [toggleSubtask, bind_on_of_ok hon]
  cases found with
  | false => exact ⟨none, after, rfl, fun _ h => absurd h (Option.not_mem_none _)⟩
  | true =>
    have hwrite := change_on_ok hon
    obtain ⟨rows', hrows', hid⟩ := any_of_markSubtask hwrite
    obtain ⟨subtask, hread, htexts⟩ := (hs.markSubtask hwrite).subtask? hrows' hid
    refine ⟨some subtask, after, congrArg (·, after) hread, ?_⟩
    rintro _ ⟨⟩
    exact htexts

/-! ## Projects, folders and settings -/

theorem createProject_succeeds_iff (hl : d.store.ledger = some l) (name color : Text)
    (description : Option Text) (folderId : Option Int) :
    (createProject (some name) (some color) description folderId).Succeeds d ↔
      l.AcceptsFolder folderId ∧
        ∀ t ∈ [name, color] ++ description.toList, t.isEncodable = true := by
  constructor
  · rintro ⟨p, d', h⟩
    obtain ⟨k, hk, hin, _, ⟨⟩, _, ⟨⟩, htexts, hfolder, -⟩ :=
      Store.insertProject_eq_ok.1 (change_on_ok h)
    cases hl.symm.trans hk
    exact ⟨⟨hin, hfolder⟩, htexts⟩
  · rintro ⟨⟨hin, hfolder⟩, htexts⟩
    exact succeeds_change (Store.insertProject_eq_ok.2
      ⟨l, hl, hin, name, rfl, color, rfl, htexts, hfolder, rfl, rfl⟩)

theorem createFolder_succeeds_iff (hl : d.store.ledger = some l) (name color : Text)
    (description : Option Text) :
    (createFolder (some name) (some color) description).Succeeds d ↔
      ∀ t ∈ [name, color] ++ description.toList, t.isEncodable = true := by
  constructor
  · rintro ⟨f, d', h⟩
    obtain ⟨k, hk, _, ⟨⟩, _, ⟨⟩, htexts, -⟩ := Store.insertFolder_eq_ok.1 (change_on_ok h)
    exact htexts
  · intro htexts
    exact succeeds_change (Store.insertFolder_eq_ok.2
      ⟨l, hl, name, rfl, color, rfl, htexts, rfl, rfl⟩)

/-- A project goes once its tasks have left it, so only its number matters. -/
theorem deleteProject_succeeds_iff (hl : d.store.ledger = some l) (id : Int) :
    (deleteProject (some id)).Succeeds d ↔ InRange (some id) := by
  constructor
  · rintro ⟨found, d', h⟩
    obtain ⟨_, left, hleave, -⟩ := bind_on_ok (transaction_on_ok h)
    obtain ⟨k, -, hin, -⟩ := Store.leaveProject_eq_ok.1 (execute_on_ok hleave)
    exact hin
  · intro hin
    have hleave := Store.leaveProject_eq_ok.2 ⟨l, hl, hin, rfl⟩
    refine ((succeeds_bind_of_ok (execute_on_of_ok hleave)).2 ?_).transaction
    refine succeeds_change (Store.deleteProject_eq_ok.2 ⟨_, rfl, hin, fun _ => ?_, rfl, rfl⟩)
    refine List.any_eq_false.2 (List.forall_mem_map.2 fun row _ => ?_)
    split
    · exact Bool.false_ne_true
    · rename_i hother
      exact hother

/-- A folder goes once its projects have left it, so only its number matters. -/
theorem deleteFolder_succeeds_iff (hl : d.store.ledger = some l) (id : Int) :
    (deleteFolder (some id)).Succeeds d ↔ InRange (some id) := by
  constructor
  · rintro ⟨found, d', h⟩
    obtain ⟨_, left, hleave, -⟩ := bind_on_ok (transaction_on_ok h)
    obtain ⟨k, -, hin, -⟩ := Store.leaveFolder_eq_ok.1 (execute_on_ok hleave)
    exact hin
  · intro hin
    have hleave := Store.leaveFolder_eq_ok.2 ⟨l, hl, hin, rfl⟩
    refine ((succeeds_bind_of_ok (execute_on_of_ok hleave)).2 ?_).transaction
    refine succeeds_change (Store.deleteFolder_eq_ok.2 ⟨_, rfl, hin, fun _ => ?_, rfl, rfl⟩)
    refine List.any_eq_false.2 (List.forall_mem_map.2 fun p _ => ?_)
    split
    · exact Bool.false_ne_true
    · rename_i hother
      exact hother

theorem setInputMode_succeeds (hs : d.store.IsPresentable) (mode : Mode) :
    (setInputMode (some mode.name)).Succeeds d := by
  obtain ⟨rows, hrows⟩ := Option.isSome_iff_exists.1 hs.settings
  have htexts : ∀ t ∈ mode.name :: (some modeSetting).toList, t.isEncodable = true := by
    cases mode <;> decide
  exact succeeds_execute (Store.saveSetting_eq_ok.2 ⟨rows, hrows, mode.name, rfl, htexts, rfl⟩)

end Desk
end TaskDesk
