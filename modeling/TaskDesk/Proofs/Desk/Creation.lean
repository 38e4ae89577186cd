import TaskDesk.Proofs.Desk.Success

/-!
# Tasks that are created

A task of which all fields are given is created just if the store has room for it: no task has
its id yet, its project exists, and its texts can be encoded. What was stored before stays where
it is, and the new rows come behind it. So the tags and subtasks that are read back, which are
those of the task in the order in which all rows were inserted, are the given ones in their
order, and all other tasks read as before. This needs no more of the store than its integrity:
rows that cannot be shown may be there.

Results:
* `Text.distinct_eq_eraseDups`: how repetitions are dropped.
* `Store.task?_congr`: what the record that is read by an id depends on.
* `Store.task?_extend`, `Store.task?_extend_of_ne`: what is read behind new rows.
* `Desk.createTask_given_iff`: when a task that is given is created.
* `Desk.created_of_createTask`: what a task that is created looks like, and what stays.
-/

namespace TaskDesk

/-- Of each text only the first occurrence is kept. -/
theorem Text.distinct_eq_eraseDups {α : Type} [DecidableEq α] [BEq α] [LawfulBEq α]
    (ts : List α) : distinct ts = ts.eraseDups := by
  have hfrom (seen ts : List α) :
      distinctFrom seen ts = (ts.filter fun t => decide (t ∉ seen)).eraseDups := by
    induction ts generalizing seen with
    | nil => rfl
    | cons t more ih =>
      rw [distinctFrom, List.filter_cons]
      by_cases ht : t ∈ seen
      · rw [if_pos ht, ih, if_neg (by simpa using ht)]
      · rw [if_neg ht, ih, if_pos (by simpa using ht), List.eraseDups_cons, List.filter_filter]
        refine congrArg (fun us => t :: List.eraseDups us) (List.filter_congr fun u _ => ?_)
        simp [Bool.beq_eq_decide_eq]
  rw [distinct, hfrom, List.filter_eq_self.2 fun _ _ => by simp]

/-! ## Tasks that are given -/

/-- A new task of which all fields are given. -/
structure GivenTask where
  id : Text
  title : Text
  description : Text := []
  dueDate : Option Text := none
  priority : Priority := .medium
  projectId : Option Int := none
  tags : List Text := []
  subtasks : List Text := []

namespace GivenTask

variable (g : GivenTask)

/-- The task as it is handed over. -/
def toNew : NewTask where
  id := some g.id
  title := some g.title
  description := some g.description
  dueDate := g.dueDate
  priority := some g.priority.name
  projectId := g.projectId
  tags := g.tags.map some
  subtasks := g.subtasks.map some

/-- The texts that are given. -/
def texts : List Text :=
  [g.id, g.title, g.description] ++ g.dueDate.toList ++ g.tags ++ g.subtasks

/-- The row of the task, where it is created at some time. -/
def row (time : Text) : TaskRow where
  id := some g.id
  title := g.title
  description := some g.description
  dueDate := g.dueDate
  priority := g.priority.name
  completed := 0
  projectId := g.projectId
  createdAt := time
  updatedAt := time

/-- The open task with the given fields, where it is created at some time and has some
    subtasks. Repeated tags are dropped. -/
def record (time : Text) (subtasks : List Subtask) : Task where
  id := g.id
  title := g.title
  description := g.description
  dueDate := g.dueDate
  priority := g.priority
  completed := false
  projectId := g.projectId
  tags := g.tags.eraseDups
  subtasks := subtasks
  createdAt := time
  updatedAt := time

/-- A store has room for the task: its id is free, it belongs to a project that exists or to
    none, and its texts can be encoded. -/
structure FitsInto (s : Store) : Prop where
  id : ∀ row ∈ s.firstTables.tasks, row.id ≠ some g.id
  project : s.firstTables.AcceptsProject g.projectId
  texts : ∀ t ∈ g.texts, t.isEncodable = true

variable {g}

theorem newTags_toNew : g.toNew.newTags = g.tags := reduceOption_map_some g.tags

theorem newSubtasks_toNew : g.toNew.newSubtasks = g.subtasks := reduceOption_map_some g.subtasks

theorem isPlain_toNew : g.toNew.IsPlain where
  title := rfl
  priority := ⟨g.priority, rfl⟩
  tags := congrArg (List.map some) newTags_toNew.symm
  subtasks := congrArg (List.map some) newSubtasks_toNew.symm

theorem texts_eq : g.texts = g.id :: g.toNew.texts := by
  rw [NewTask.texts, newTags_toNew, newSubtasks_toNew]
  rfl

theorem mem_texts_row (time : Text) {t : Text}
    (ht : t ∈ [g.id, g.title, g.description] ++ g.dueDate.toList) : t ∈ (g.row time).texts := by
  simp only [TaskRow.texts, row, Option.toList_some, List.mem_append, List.mem_cons,
    List.not_mem_nil, or_false] at ht ⊢
  tauto

theorem toTask_row (time : Text) (subtasks : List Subtask) :
    (g.row time).toTask g.tags.eraseDups subtasks = .ok (g.record time subtasks) := by
  simp [TaskRow.toTask, row, record, Priority.ofName?_name]

end GivenTask

/-- The row of a subtask of a task. -/
def Subtask.toRow (taskId : Text) (subtask : Subtask) : SubtaskRow :=
  ⟨subtask.id, taskId, subtask.text, subtask.completed⟩

theorem SubtaskRow.toRow_toSubtask (row : SubtaskRow) : row.toSubtask.toRow row.taskId = row := rfl

section NewSubtasks

variable {source : Source} {a : Text} {n : Nat}

theorem map_text_newSubtasks (texts : List Text) :
    (newSubtasks source a n texts).map (·.text) = texts := by
  induction texts generalizing n with
  | nil => rfl
  | cons text more ih => rw [newSubtasks, List.map_cons, ih]

theorem open_of_mem_newSubtasks {texts : List Text} :
    ∀ row ∈ newSubtasks source a n texts, row.completed = false := by
  induction texts generalizing n with
  | nil => exact fun row hrow => nomatch hrow
  | cons text more ih => exact List.forall_mem_cons.2 ⟨rfl, ih⟩

end NewSubtasks

/-! ## New rows behind the others -/

namespace Store

/-- The store with a new task and with tags and subtasks for its id, behind all rows that
    there are. -/
def extend (s : Store) (a : Text) (task : TaskRow) (tags : List Text) (subtasks : List Subtask) :
    Store :=
  { s with
    tasks := s.tasks.map (· ++ [task])
    tags := s.tags.map (· ++ tags.map (TagRow.mk a))
    subtasks := s.subtasks.map (· ++ subtasks.map (·.toRow a)) }

variable {s : Store} {l : Ledger} {rows : List SubtaskRow} {a b : Text} {id : Option Text}
  {row task : TaskRow} {tags : List Text} {subtasks : List Subtask}

theorem ledger_extend (hl : s.ledger = some l) :
    (s.extend a task tags subtasks).ledger =
      some { l with tasks := l.tasks ++ [task], tags := l.tags ++ tags.map (TagRow.mk a) } := by
  obtain ⟨hfolders, hprojects, htasks, htags⟩ := ledger_eq_some.1 hl
  exact ledger_eq_some.2 ⟨hfolders, hprojects, congrArg (Option.map _) htasks,
    congrArg (Option.map _) htags⟩

theorem tagsFor_extend (hl : s.ledger = some l) (b : Text) :
    (s.extend a task tags subtasks).tagsFor b = s.tagsFor b ++ if b = a then tags else [] := by
  have hnew : ∀ row ∈ tags.map (TagRow.mk a), row.taskId = a :=
    List.forall_mem_map.2 fun _ _ => rfl
  rw [tagsFor, firstTables_eq (ledger_extend hl)]
  dsimp only
  rw [filter_appended TagRow.taskId l.tags hnew, List.map_append, tagsFor, firstTables_eq hl]
  split
  · rw [List.map_map]
    exact congrArg _ (List.map_id tags)
  · rfl

theorem subtasksFor_extend (hrows : s.subtasks = some rows) (b : Text) :
    (s.extend a task tags subtasks).subtasksFor b =
      s.subtasksFor b ++ if b = a then subtasks.map (·.toRow a) else [] := by
  have hnew : ∀ row ∈ subtasks.map (·.toRow a), row.taskId = a :=
    List.forall_mem_map.2 fun _ _ => rfl
  rw [subtasksFor, subtaskList_eq (congrArg (Option.map _) hrows),
    filter_appended SubtaskRow.taskId rows hnew, subtasksFor, subtaskList_eq hrows]

/-- What is read of the task that has an id. -/
theorem task?_of_find (hl : s.ledger = some l) (hrows : s.subtasks = some rows)
    (hb : b.isEncodable = true)
    (hfound : (l.tasks.find? fun row => sameId (some b) row.id) = some row) :
    s.task? (some b) =
      (row.toTask (s.tagsFor b) ((s.subtasksFor b).map (·.toSubtask))).map some := by
  have hid : row.id = some b := sameId_some.1 (by simpa using List.find?_some hfound)
  have htask : s.taskOfRow row =
      row.toTask (s.tagsFor b) ((s.subtasksFor b).map (·.toSubtask)) := by
    rw [taskOfRow, hid, tagsOf_eq hl hb, subtasksOf_eq hrows hb]
    rfl
  rw [task?, taskRow?_eq hl (isEncodable_some.2 hb), hfound, ← htask]
  show (s.taskOfRow row >>= fun task => pure (some task)) = _
  cases s.taskOfRow row <;> rfl

/-- The same is read by an id where it leads to the same row, with the same tags and subtasks. -/
theorem task?_congr {s' : Store} {l' : Ledger} {rows' : List SubtaskRow}
    (hl : s.ledger = some l) (hl' : s'.ledger = some l') (hrows : s.subtasks = some rows)
    (hrows' : s'.subtasks = some rows') {id : Option Text}
    (hfind : (l'.tasks.find? fun row => sameId id row.id) =
      l.tasks.find? fun row => sameId id row.id)
    (hparts : ∀ b ∈ id, s'.tagsFor b = s.tagsFor b ∧ s'.subtasksFor b = s.subtasksFor b) :
    s'.task? id = s.task? id := by
  by_cases hencodable : IsEncodable id
  · cases hfound : l.tasks.find? fun row => sameId id row.id with
    | none =>
      rw [task?, taskRow?_eq hl' hencodable, task?, taskRow?_eq hl hencodable, hfind, hfound]
      rfl
    | some row =>
      obtain ⟨hsome, -⟩ := sameId_iff.1 (by simpa using List.find?_some hfound)
      obtain ⟨b, rfl⟩ := Option.isSome_iff_exists.1 hsome
      obtain ⟨htags, hsubtasks⟩ := hparts b rfl
      have hb := isEncodable_some.1 hencodable
      rw [task?_of_find hl' hrows' hb (hfind.trans hfound), task?_of_find hl hrows hb hfound,
        htags, hsubtasks]
  · cases id with
    | none => exact absurd isEncodable_none hencodable
    | some b => rw [task?_of_not_encodable hl' hencodable, task?_of_not_encodable hl hencodable]

/-- **The new task is read with its own tags and subtasks**, where nothing had its id. -/
theorem task?_extend (hl : s.ledger = some l) (hrows : s.subtasks = some rows)
    (hfree : l.hasTask (some a) = false) (htags : s.tagsFor a = []) (hsubtasks : s.subtasksFor a = [])
    (ha : a.isEncodable = true) (htask : task.id = some a) :
    (s.extend a task tags subtasks).task? (some a) = (task.toTask tags subtasks).map some := by
  have hfound : ((l.tasks ++ [task]).find? fun row => sameId (some a) row.id) = some task := by
    have hold : (l.tasks.find? fun row => sameId (some a) row.id) = none := by
      simpa [Ledger.hasTask] using hfree
    rw [List.find?_append, hold, Option.none_or, List.find?_singleton,
      if_pos (sameId_some.2 htask)]
  have hrecords : (subtasks.map (·.toRow a)).map (·.toSubtask) = subtasks := by
    rw [List.map_map]
    exact List.map_id subtasks
  rw [task?_of_find (ledger_extend hl) (congrArg (Option.map _) hrows) ha hfound,
    tagsFor_extend hl, subtasksFor_extend hrows, htags, hsubtasks, if_pos rfl, if_pos rfl,
    List.nil_append, List.nil_append, hrecords]

/-- **Other tasks are read as before.** -/
theorem task?_extend_of_ne (hl : s.ledger = some l) (hrows : s.subtasks = some rows)
    (htask : task.id = some a) (hid : id ≠ some a) :
    (s.extend a task tags subtasks).task? id = s.task? id := by
  have hl' : (s.extend a task tags subtasks).ledger = some _ := ledger_extend hl
  have hrows' : (s.extend a task tags subtasks).subtasks = some _ :=
    congrArg (Option.map _) hrows
  have hfind : ((l.tasks ++ [task]).find? fun row => sameId id row.id) =
      l.tasks.find? fun row => sameId id row.id := by
    have hlast : ¬ sameId id task.id = true := fun h => hid ((sameId_iff.1 h).2.trans htask)
    rw [List.find?_append, List.find?_singleton, if_neg hlast, Option.or_none]
  refine task?_congr hl hl' hrows hrows' hfind fun b hb => ?_
  have hne : b ≠ a := fun h => hid (hb.trans (congrArg some h))
  rw [tagsFor_extend hl, subtasksFor_extend hrows, if_neg hne, if_neg hne, List.append_nil,
    List.append_nil]
  exact ⟨rfl, rfl⟩

/-! ### Ids without a task -/

section Free

variable (hs : s.IsSound) (hl : s.ledger = some l) (hfree : l.hasTask (some a) = false)

include hs hl hfree

/-- No tag belongs to an id without a task. -/
theorem IsSound.tag_of_free : ∀ row ∈ l.tags, sameId (some a) (some row.taskId) = false := by
  intro row hrow
  obtain ⟨task, htask, hid⟩ := (hs.ledger l hl).tag_task row hrow
  rw [← hid]
  exact Ledger.sameId_eq_false hfree htask

/-- No subtask belongs to an id without a task. -/
theorem IsSound.subtask_of_free :
    ∀ row ∈ s.subtaskList, sameId (some a) (some row.taskId) = false := by
  intro row hrow
  obtain ⟨task, htask, hid⟩ := hs.task_of_mem hl hrow
  rw [← hid]
  exact Ledger.sameId_eq_false hfree htask

theorem IsSound.tagsFor_of_free : s.tagsFor a = [] := by
  rw [tagsFor, firstTables_eq hl, List.filter_eq_nil_iff.2 fun row hrow h =>
    Bool.false_ne_true ((hs.tag_of_free hl hfree row hrow).symm.trans h), List.map_nil]

theorem IsSound.subtasksFor_of_free : s.subtasksFor a = [] :=
  List.filter_eq_nil_iff.2 fun row hrow h =>
    Bool.false_ne_true ((hs.subtask_of_free hl hfree row hrow).symm.trans h)

/-- Where nothing has the id of a new task, nothing is replaced by its tags and subtasks. -/
theorem IsSound.extend_eq (hrows : s.subtasks = some rows) (task : TaskRow) (tags : List Text)
    {new : List SubtaskRow} (hnew : ∀ row ∈ new, row.taskId = a) :
    { s.setLedger (Ledger.retag a tags { l with tasks := l.tasks ++ [task] }) with
      subtasks := some ((rows.filter fun row => !sameId (some a) (some row.taskId)) ++ new) } =
      s.extend a task tags (new.map (·.toSubtask)) := by
  have htags : (l.tags.filter fun row => !sameId (some a) (some row.taskId)) = l.tags :=
    List.filter_eq_self.2 fun row hrow => by rw [hs.tag_of_free hl hfree row hrow]; rfl
  have hold : (rows.filter fun row => !sameId (some a) (some row.taskId)) = rows := by
    have hothers := hs.subtask_of_free hl hfree
    rw [subtaskList_eq hrows] at hothers
    exact List.filter_eq_self.2 fun row hrow => by rw [hothers row hrow]; rfl
  have hsame : (new.map (·.toSubtask)).map (·.toRow a) = new := by
    rw [List.map_map]
    refine (List.map_congr_left fun row hrow => ?_).trans (List.map_id new)
    rw [Function.comp_apply, ← hnew row hrow, SubtaskRow.toRow_toSubtask, id_eq]
  obtain ⟨hfolders, hprojects, htasks, htags'⟩ := ledger_eq_some.1 hl
  simp only [extend, setLedger, Ledger.retag, hfolders, hprojects, htasks, htags', hrows, htags,
    hold, hsame, Option.map_some]

end Free

end Store

/-! ## Creating the task -/

namespace Desk

open Work

variable {source : Source} {d after : Desk} {g : GivenTask} {task : Task}

/-- The task has been created: it has the given fields, its tags are the given ones without
    repetitions, and it has an open subtask for every given text, in the given order, with an
    id that is its own. It is stored behind all that there was, it is read as it was answered,
    and other tasks are read as before. -/
structure Created (source : Source) (g : GivenTask) (d : Desk) (task : Task) (after : Desk) :
    Prop where
  fields : task = g.record (source.time d.timesUsed) task.subtasks
  texts : task.subtasks.map (·.text) = g.subtasks
  is_open : ∀ subtask ∈ task.subtasks, subtask.completed = false
  ids : (after.store.subtaskList.map (·.id)).Nodup
  store : after.store =
    d.store.extend g.id (g.row (source.time d.timesUsed)) task.tags task.subtasks
  read : after.store.task? (some g.id) = .ok (some task)
  others : ∀ id, id ≠ some g.id → after.store.task? id = d.store.task? id

section

variable (hs : d.store.IsSound) (hrows : d.store.subtasks.isSome)

include hs hrows

/-- What is stored, and read, when the task has been written. -/
theorem writeTask_given {time : Text} {u : Unit}
    (h : (writeTask source g.toNew time).on d = (.ok u, after)) :
    let subtasks := (newSubtasks source g.id d.idsUsed g.subtasks).map (·.toSubtask)
    g.FitsInto d.store ∧
      after.store = d.store.extend g.id (g.row time) g.tags.eraseDups subtasks ∧
      after.store.task? (some g.id) = .ok (some (g.record time subtasks)) ∧
      ∀ id, id ≠ some g.id → after.store.task? id = d.store.task? id := by
  intro subtasks
  obtain ⟨rows, hrows⟩ := Option.isSome_iff_exists.1 hrows
  obtain ⟨l, hl, hproject, hfree, hparts, _, ⟨⟩, _, ⟨⟩, hrow, hafter⟩ :=
    writeTask_on_ok hrows rfl rfl rfl h
  have hnew : ∀ row ∈ newSubtasks source g.id d.idsUsed g.subtasks, row.taskId = g.id :=
    task_of_mem_newSubtasks
  have hstore : after.store = d.store.extend g.id (g.row time) g.tags.eraseDups subtasks := by
    rw [hafter, Text.distinct_eq_eraseDups]
    exact hs.extend_eq hl hfree hrows (g.row time) g.tags.eraseDups hnew
  have htexts : ∀ t ∈ g.texts, t.isEncodable = true := by
    intro t ht
    rw [GivenTask.texts, List.append_assoc] at ht
    rcases List.mem_append.1 ht with ht | ht
    · exact hrow t (GivenTask.mem_texts_row time ht)
    · exact hparts t ht
  have hid : g.id.isEncodable = true := by
    rw [GivenTask.texts_eq, List.forall_mem_cons] at htexts
    exact htexts.1
  refine ⟨⟨?_, ?_, htexts⟩, hstore, ?_, fun id hid => ?_⟩
  · rw [Store.firstTables_eq hl]
    exact fun row hmem => Ledger.hasTask_eq_false.1 hfree row hmem rfl
  · rw [Store.firstTables_eq hl]
    exact hproject
  · rw [hstore, Store.task?_extend hl hrows hfree (hs.tagsFor_of_free hl hfree)
      (hs.subtasksFor_of_free hl hfree) hid rfl, GivenTask.toTask_row]
    rfl
  · rw [hstore]
    exact Store.task?_extend_of_ne hl hrows rfl hid

/-- **When a task that is given is created**: the store has room for it. -/
theorem createTask_given_iff (hsource : source.IsReliable)
    (hfresh : ∀ n, d.idsUsed ≤ n → ∀ row ∈ d.store.subtaskList, row.id ≠ source.id n) :
    (createTask source g.toNew).Succeeds d ↔ g.FitsInto d.store := by
  constructor
  · rintro ⟨task, after, h⟩
    obtain ⟨u, written, hwrite⟩ := write_of_createTask h
    exact (writeTask_given (d := { d with timesUsed := d.timesUsed + 1 }) hs hrows hwrite).1
  · intro hroom
    obtain ⟨l, hl⟩ := hs.tables.ledger_of_subtasks hrows
    obtain ⟨rows, hrows'⟩ := Option.isSome_iff_exists.1 hrows
    obtain ⟨hid, hproject, htexts⟩ := hroom
    rw [Store.firstTables_eq hl] at hid hproject
    rw [GivenTask.texts_eq, List.forall_mem_cons] at htexts
    have hfree : l.hasTask (some g.id) = false :=
      Ledger.hasTask_eq_false.2 fun row hrow _ => hid row hrow
    obtain ⟨u, after, hwrite⟩ := (writeTask_succeeds_iff
      (d := { d with timesUsed := d.timesUsed + 1 }) hsource hs hl hrows' hfresh
      GivenTask.isPlain_toNew rfl htexts.1 hfree (hsource.time d.timesUsed)).2
      ⟨hproject, htexts.2⟩
    have hread :=
      (writeTask_given (d := { d with timesUsed := d.timesUsed + 1 }) hs hrows hwrite).2.2.1
    rw [createTask_eq, succeeds_bind_of_ok (on_now source d),
      succeeds_bind_of_ok (transaction_on_of_ok hwrite)]
    exact succeeds_of_on (readBack_on_of_ok hread)

/-- **A task that was created** looks as it was given. -/
theorem created_of_createTask (h : (createTask source g.toNew).on d = (.ok task, after)) :
    Created source g d task after := by
  have hsteps : Store.Steps d.store ((createTask source g.toNew).on d).2.store :=
    orderly_createTask g.toNew d
  rw [h] at hsteps
  have hsound : after.store.IsSound := Store.keeps_run hsteps (fun _ _ h => h.isSound) hs
  obtain ⟨rows, hrows'⟩ : ∃ rows, after.store.subtasks = some rows :=
    Option.isSome_iff_exists.1 ((Store.Steps.sameTables hsteps).subtasks.trans hrows)
  rw [createTask_eq, bind_on_of_ok (on_now source d)] at h
  obtain ⟨u, written, hwritten, hread⟩ := bind_on_ok h
  obtain ⟨hread, rfl⟩ := readBack_on_ok hread
  obtain ⟨hroom, hstore, htask, hothers⟩ := writeTask_given
    (d := { d with timesUsed := d.timesUsed + 1 }) hs hrows (transaction_on_ok hwritten)
  obtain rfl : g.record (source.time d.timesUsed) _ = task :=
    Option.some.inj (Except.ok.inj (htask.symm.trans hread))
  exact {
    fields := rfl
    texts := by
      rw [GivenTask.record, List.map_map]
      exact map_text_newSubtasks g.subtasks
    is_open := List.forall_mem_map.2 open_of_mem_newSubtasks
    -- The store itself refuses ids that are in use, so nothing is asked of the source here.
    ids := by
      rw [Store.subtaskList_eq hrows']
      exact hsound.subtask_ids rows hrows'
    store := hstore
    read := hread
    others := hothers }

end

end Desk
end TaskDesk
