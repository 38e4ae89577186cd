import TaskDesk.Proofs.Store.Revisions

/-!
# Integrity of the store

References lead to rows, and what has to be unique is unique. This holds of the
empty store, every statement that succeeds keeps it, and so does every single move
between revisions. Moves need that the tables that exist are those of the
revisions up to the present one, so that no table is dropped before those that
refer to it.

Results:
* `Ledger.IsSound`, `Store.IsSound`: integrity of the first tables and of all tables.
* `Store.Step.isSound`: statements keep integrity.
* `Store.Move.isSound`: single moves keep it.
-/

namespace TaskDesk

/-! ## Integrity -/

/-- The references in the tables of the first revision lead to rows of them. Ids of
    tasks are unique where there are any, and can be bound, and no task has the same tag
    twice. -/
structure Ledger.IsSound (l : Ledger) : Prop where
  tag_task : ∀ tag ∈ l.tags, ∃ task ∈ l.tasks, task.id = some tag.taskId
  task_project : ∀ task ∈ l.tasks, ∀ id ∈ task.projectId, ∃ p ∈ l.projects.rows, p.id = id
  project_folder : ∀ p ∈ l.projects.rows, ∀ id ∈ p.folderId, ∃ f ∈ l.folders.rows, f.id = id
  task_ids : l.tasks.Pairwise fun t u => t.id.isSome → t.id ≠ u.id
  task_encodable : ∀ task ∈ l.tasks, IsEncodable task.id
  tags : l.tags.Nodup

namespace Store

/-- The first tables are sound, every subtask belongs to a task, and ids of subtasks
    are unique. -/
structure IsSound (s : Store) : Prop where
  tables : s.TablesMatch
  ledger : ∀ l ∈ s.ledger, l.IsSound
  subtask_task : ∀ rows ∈ s.subtasks, ∀ row ∈ rows,
    ∃ l ∈ s.ledger, ∃ task ∈ l.tasks, task.id = some row.taskId
  subtask_ids : ∀ rows ∈ s.subtasks, (rows.map (·.id)).Nodup

end Store

/-! ## What statements look up -/

namespace Ledger

variable {l : Ledger}

theorem hasTask_some {id : Text} :
    l.hasTask (some id) = true ↔ ∃ task ∈ l.tasks, task.id = some id := by
  simp only [hasTask, List.any_eq_true, sameId_some]

theorem hasTask_eq_false {id : Option Text} :
    l.hasTask id = false ↔ ∀ task ∈ l.tasks, id.isSome → task.id ≠ id := by
  simp only [hasTask, List.any_eq_false, sameId_iff, not_and, ne_eq, @eq_comm _ id]

theorem sameId_eq_false {id : Option Text} (hfree : l.hasTask id = false) {task : TaskRow}
    (htask : task ∈ l.tasks) : sameId id task.id = false :=
  Bool.eq_false_iff.2 (List.any_eq_false.1 hfree task htask)

theorem projectExists_iff {id : Option Int} :
    l.projectExists id = true ↔ ∀ i ∈ id, ∃ p ∈ l.projects.rows, p.id = i := by
  cases id <;> simp [projectExists]

theorem folderExists_iff {id : Option Int} :
    l.folderExists id = true ↔ ∀ i ∈ id, ∃ f ∈ l.folders.rows, f.id = i := by
  cases id <;> simp [folderExists]

end Ledger

theorem Store.hasParts_eq_false {id : Option Text} {l : Ledger} {s : Store} :
    s.hasParts id l = false ↔
      (∀ tag ∈ l.tags, id ≠ some tag.taskId) ∧
        ∀ rows ∈ s.subtasks, ∀ row ∈ rows, id ≠ some row.taskId := by
  have hsame (taskId : Text) : sameId id (some taskId) = false ↔ id ≠ some taskId := by
    cases id <;> simp [sameId]
  simp only [hasParts, Bool.or_eq_false_iff, List.any_eq_false, Bool.not_eq_true, hsame]
  cases s.subtasks <;> simp

/-! ## Statements on the first tables -/

namespace Ledger

variable {l : Ledger}

theorem isSound_empty : IsSound {} where
  tag_task _ h := by cases h
  task_project _ h := by cases h
  project_folder _ h := by cases h
  task_ids := .nil
  task_encodable _ h := by cases h
  tags := .nil

theorem IsSound.insertTask (hl : l.IsSound) {row : TaskRow} (hid : l.hasTask row.id = false)
    (hproject : l.projectExists row.projectId = true) (hencodable : IsEncodable row.id) :
    IsSound { l with tasks := l.tasks ++ [row] } where
  tag_task tag htag := by
    obtain ⟨task, htask, h⟩ := hl.tag_task tag htag
    exact ⟨task, List.mem_append_left _ htask, h⟩
  task_project task htask := by
    rcases List.mem_append.1 htask with htask | htask
    · exact hl.task_project task htask
    · rw [List.mem_singleton.1 htask]
      exact projectExists_iff.1 hproject
  project_folder := hl.project_folder
  task_ids := by
    refine List.pairwise_append.2 ⟨hl.task_ids, List.pairwise_singleton _ _, ?_⟩
    intro t ht u hu hsome heq
    rw [List.mem_singleton.1 hu] at heq
    exact hasTask_eq_false.1 hid t ht (heq ▸ hsome) heq
  task_encodable :=
    List.forall_mem_append.2 ⟨hl.task_encodable, List.forall_mem_singleton.2 hencodable⟩
  tags := hl.tags

/-- The task with the id of `row` is replaced. A new id must be free, and then nothing
    may refer to the old one. -/
theorem IsSound.replaceTask (hl : l.IsSound) {row new : TaskRow}
    (hid : new.id ≠ row.id → l.hasTask new.id = false ∧ ∀ tag ∈ l.tags, row.id ≠ some tag.taskId)
    (hproject : l.projectExists new.projectId = true) (hencodable : IsEncodable new.id) :
    IsSound { l with
      tasks := l.tasks.map fun old => if sameId row.id old.id then new else old } where
  tag_task tag htag := by
    obtain ⟨task, htask, h⟩ := hl.tag_task tag htag
    refine ⟨_, List.mem_map_of_mem htask, ?_⟩
    split
    · rename_i hsame
      have hrow := (sameId_iff.1 hsame).2
      by_cases hmoved : new.id = row.id
      · rw [hmoved, hrow, h]
      · exact absurd (hrow.trans h) ((hid hmoved).2 tag htag)
    · exact h
  task_project task htask := by
    obtain ⟨old, hold, rfl⟩ := List.mem_map.1 htask
    split
    · exact projectExists_iff.1 hproject
    · exact hl.task_project old hold
  project_folder := hl.project_folder
  task_ids := by
    -- Whether the id is new or not, no task that stays has it.
    have hfree : ∀ t ∈ l.tasks, sameId row.id t.id ≠ true → new.id.isSome → t.id ≠ new.id := by
      intro t ht hother hsome heq
      by_cases hmoved : new.id = row.id
      · exact hother (sameId_iff.2 ⟨hmoved ▸ hsome, (heq.trans hmoved).symm⟩)
      · exact hasTask_eq_false.1 (hid hmoved).1 t ht hsome heq
    refine List.pairwise_map.2 (hl.task_ids.imp_of_mem fun {t u} ht hu htu => ?_)
    split <;> split
    · rename_i hst hsu
      obtain ⟨hsome, hrow⟩ := sameId_iff.1 hst
      exact absurd (hrow.symm.trans (sameId_iff.1 hsu).2) (htu (hrow ▸ hsome))
    · rename_i hsu
      exact fun hsome heq => hfree u hu hsu hsome heq.symm
    · rename_i hst _
      exact fun hsome heq => hfree t ht hst (heq ▸ hsome) heq
    · exact htu
  task_encodable := List.forall_mem_map.2 fun old hold => by
    split
    · exact hencodable
    · exact hl.task_encodable old hold
  tags := hl.tags

theorem IsSound.deleteTask (hl : l.IsSound) (id : Option Text) :
    IsSound { l with
      tasks := l.tasks.filter fun row => !sameId id row.id
      tags := l.tags.filter fun row => !sameId id (some row.taskId) } where
  tag_task tag htag := by
    obtain ⟨htag, hother⟩ := List.mem_filter.1 htag
    obtain ⟨task, htask, h⟩ := hl.tag_task tag htag
    exact ⟨task, List.mem_filter.2 ⟨htask, by rw [h]; exact hother⟩, h⟩
  task_project task htask := hl.task_project task (List.mem_filter.1 htask).1
  project_folder := hl.project_folder
  task_ids := hl.task_ids.filter _
  task_encodable task htask := hl.task_encodable task (List.mem_filter.1 htask).1
  tags := hl.tags.filter _

theorem IsSound.deleteTagsOf (hl : l.IsSound) (taskId : Option Text) :
    IsSound { l with tags := l.tags.filter fun row => !sameId taskId (some row.taskId) } where
  tag_task tag htag := hl.tag_task tag (List.mem_filter.1 htag).1
  task_project := hl.task_project
  project_folder := hl.project_folder
  task_ids := hl.task_ids
  task_encodable := hl.task_encodable
  tags := hl.tags.filter _

theorem IsSound.insertTag (hl : l.IsSound) {id name : Text} (hnew : ⟨id, name⟩ ∉ l.tags)
    (htask : l.hasTask (some id) = true) :
    IsSound { l with tags := l.tags ++ [⟨id, name⟩] } where
  tag_task tag htag := by
    rcases List.mem_append.1 htag with htag | htag
    · exact hl.tag_task tag htag
    · rw [List.mem_singleton.1 htag]
      exact hasTask_some.1 htask
  task_project := hl.task_project
  project_folder := hl.project_folder
  task_ids := hl.task_ids
  task_encodable := hl.task_encodable
  tags := by
    refine List.nodup_append.2 ⟨hl.tags, List.pairwise_singleton _ _, ?_⟩
    intro tag htag new hnew' heq
    rw [List.mem_singleton.1 hnew'] at heq
    exact hnew (heq ▸ htag)

theorem IsSound.insertProject (hl : l.IsSound) {p : Project} (last : Nat)
    (hfolder : l.folderExists p.folderId = true) :
    IsSound { l with projects := ⟨l.projects.rows ++ [p], last⟩ } where
  tag_task := hl.tag_task
  task_project task htask id hid := by
    obtain ⟨q, hq, h⟩ := hl.task_project task htask id hid
    exact ⟨q, List.mem_append_left _ hq, h⟩
  project_folder q hq := by
    rcases List.mem_append.1 hq with hq | hq
    · exact hl.project_folder q hq
    · rw [List.mem_singleton.1 hq]
      exact folderExists_iff.1 hfolder
  task_ids := hl.task_ids
  task_encodable := hl.task_encodable
  tags := hl.tags

theorem IsSound.leaveProject (hl : l.IsSound) (leaves : TaskRow → Bool) :
    IsSound { l with
      tasks := l.tasks.map fun row =>
        if leaves row then { row with projectId := none } else row } where
  tag_task tag htag := by
    obtain ⟨task, htask, h⟩ := hl.tag_task tag htag
    refine ⟨_, List.mem_map_of_mem htask, ?_⟩
    split <;> exact h
  task_project task htask := by
    obtain ⟨old, hold, rfl⟩ := List.mem_map.1 htask
    split
    · intro id hid
      cases hid
    · exact hl.task_project old hold
  project_folder := hl.project_folder
  task_ids := by
    refine List.pairwise_map.2 (hl.task_ids.imp fun {t u} htu => ?_)
    split <;> split <;> exact htu
  task_encodable := List.forall_mem_map.2 fun old hold => by
    have hid := hl.task_encodable old hold
    split <;> exact hid
  tags := hl.tags

/-- A project can go if no task refers to it. -/
theorem IsSound.deleteProject (hl : l.IsSound) {id : Option Int}
    (hfree : (l.projects.rows.any fun p => id == some p.id) = true →
      (l.tasks.any fun row => row.projectId == id) = false) :
    IsSound { l with
      projects := { l.projects with
        rows := l.projects.rows.filter fun p => id != some p.id } } where
  tag_task := hl.tag_task
  task_project task htask i hi := by
    obtain ⟨p, hp, rfl⟩ := hl.task_project task htask i hi
    refine ⟨p, List.mem_filter.2 ⟨hp, ?_⟩, rfl⟩
    rw [bne_iff_ne]
    intro heq
    have hnone := hfree (List.any_eq_true.2 ⟨p, hp, beq_iff_eq.2 heq⟩)
    exact List.any_eq_false.1 hnone task htask (beq_iff_eq.2 (hi.trans heq.symm))
  project_folder p hp := hl.project_folder p (List.mem_filter.1 hp).1
  task_ids := hl.task_ids
  task_encodable := hl.task_encodable
  tags := hl.tags

theorem IsSound.insertFolder (hl : l.IsSound) (f : Folder) (last : Nat) :
    IsSound { l with folders := ⟨l.folders.rows ++ [f], last⟩ } where
  tag_task := hl.tag_task
  task_project := hl.task_project
  project_folder p hp id hid := by
    obtain ⟨g, hg, h⟩ := hl.project_folder p hp id hid
    exact ⟨g, List.mem_append_left _ hg, h⟩
  task_ids := hl.task_ids
  task_encodable := hl.task_encodable
  tags := hl.tags

theorem IsSound.leaveFolder (hl : l.IsSound) (leaves : Project → Bool) :
    IsSound { l with
      projects := { l.projects with
        rows := l.projects.rows.map fun p =>
          if leaves p then { p with folderId := none } else p } } where
  tag_task := hl.tag_task
  task_project task htask id hid := by
    obtain ⟨p, hp, h⟩ := hl.task_project task htask id hid
    refine ⟨_, List.mem_map_of_mem hp, ?_⟩
    split <;> exact h
  project_folder p hp := by
    obtain ⟨old, hold, rfl⟩ := List.mem_map.1 hp
    split
    · intro id hid
      cases hid
    · exact hl.project_folder old hold
  task_ids := hl.task_ids
  task_encodable := hl.task_encodable
  tags := hl.tags

/-- A folder can go if no project refers to it. -/
theorem IsSound.deleteFolder (hl : l.IsSound) {id : Option Int}
    (hfree : (l.folders.rows.any fun f => id == some f.id) = true →
      (l.projects.rows.any fun p => p.folderId == id) = false) :
    IsSound { l with
      folders := { l.folders with
        rows := l.folders.rows.filter fun f => id != some f.id } } where
  tag_task := hl.tag_task
  task_project := hl.task_project
  project_folder p hp i hi := by
    obtain ⟨f, hf, rfl⟩ := hl.project_folder p hp i hi
    refine ⟨f, List.mem_filter.2 ⟨hf, ?_⟩, rfl⟩
    rw [bne_iff_ne]
    intro heq
    have hnone := hfree (List.any_eq_true.2 ⟨f, hf, beq_iff_eq.2 heq⟩)
    exact List.any_eq_false.1 hnone p hp (beq_iff_eq.2 (hi.trans heq.symm))
  task_ids := hl.task_ids
  task_encodable := hl.task_encodable
  tags := hl.tags

end Ledger

namespace Store

variable {s s' : Store}

/-! ## Statements on all tables -/

/-- The first tables change, and tasks with subtasks stay. -/
theorem IsSound.withLedger (hs : s.IsSound) {l l' : Ledger} (hl : s.ledger = some l)
    (hl' : l'.IsSound)
    (hkeep : ∀ rows ∈ s.subtasks, ∀ row ∈ rows, (∃ task ∈ l.tasks, task.id = some row.taskId) →
      ∃ task ∈ l'.tasks, task.id = some row.taskId) :
    IsSound (s.setLedger l') where
  tables := hs.tables.of_sameTables (.setLedger hl l')
  ledger := by
    rintro _ ⟨⟩
    exact hl'
  subtask_task rows hrows row hrow := by
    obtain ⟨k, hk, h⟩ := hs.subtask_task rows hrows row hrow
    cases hl.symm.trans hk
    exact ⟨l', rfl, hkeep rows hrows row hrow h⟩
  subtask_ids := hs.subtask_ids

/-- The subtasks change, and each belongs to a task. -/
theorem IsSound.withSubtasks (hs : s.IsSound) {old rows : List SubtaskRow}
    (hold : s.subtasks = some old)
    (htask : ∀ row ∈ rows, ∃ l ∈ s.ledger, ∃ task ∈ l.tasks, task.id = some row.taskId)
    (hids : (rows.map (·.id)).Nodup) : IsSound { s with subtasks := some rows } where
  tables := hs.tables.of_sameTables (.setSubtasks s (by rw [hold]; rfl))
  ledger := hs.ledger
  subtask_task := by
    rintro _ ⟨⟩
    exact htask
  subtask_ids := by
    rintro _ ⟨⟩
    exact hids

theorem IsSound.filterSubtasks (hs : s.IsSound) {rows : List SubtaskRow}
    (hrows : s.subtasks = some rows) (stays : SubtaskRow → Bool) :
    IsSound { s with subtasks := some (rows.filter stays) } :=
  hs.withSubtasks hrows (fun row hrow => hs.subtask_task rows hrows row (List.mem_filter.1 hrow).1)
    ((hs.subtask_ids rows hrows).sublist (List.filter_sublist.map _))

theorem IsSound.insertSubtask (hs : s.IsSound) {id task text : Text} {rows : List SubtaskRow}
    {l : Ledger} (hrows : s.subtasks = some rows) (hnew : ∀ row ∈ rows, row.id ≠ id)
    (hl : s.ledger = some l) (htask : l.hasTask (some task) = true) :
    IsSound { s with subtasks := some (rows ++ [⟨id, task, text, false⟩]) } := by
  refine hs.withSubtasks hrows (fun row hrow => ?_) ?_
  · rcases List.mem_append.1 hrow with hrow | hrow
    · exact hs.subtask_task rows hrows row hrow
    · rw [List.mem_singleton.1 hrow]
      exact ⟨l, hl, Ledger.hasTask_some.1 htask⟩
  · rw [List.map_append, List.nodup_append]
    refine ⟨hs.subtask_ids rows hrows, List.pairwise_singleton _ _, ?_⟩
    intro a ha b hb
    obtain ⟨row, hrow, rfl⟩ := List.mem_map.1 ha
    rw [List.mem_singleton.1 hb]
    exact hnew row hrow

theorem IsSound.markSubtask (hs : s.IsSound) {rows : List SubtaskRow}
    (hrows : s.subtasks = some rows) (marked : SubtaskRow → Bool) (completed : Bool) :
    IsSound { s with
      subtasks := some (rows.map fun row =>
        if marked row then { row with completed } else row) } := by
  refine hs.withSubtasks hrows (fun row hrow => ?_) ?_
  · obtain ⟨old, hold, rfl⟩ := List.mem_map.1 hrow
    have howner := hs.subtask_task rows hrows old hold
    split <;> exact howner
  · have hids :
        (rows.map fun row => if marked row then { row with completed } else row).map (·.id) =
          rows.map (·.id) := by
      rw [List.map_map]
      refine List.map_congr_left fun row _ => ?_
      dsimp only [Function.comp_apply]
      split <;> rfl
    rw [hids]
    exact hs.subtask_ids rows hrows

theorem IsSound.withSettings (hs : s.IsSound) {old rows : List SettingRow}
    (hold : s.settings = some old) : IsSound { s with settings := some rows } where
  tables := hs.tables.of_sameTables (.setSettings hold rows)
  ledger := hs.ledger
  subtask_task := hs.subtask_task
  subtask_ids := hs.subtask_ids

/-- A task goes with its tags and its subtasks; what belongs to other tasks stays. -/
theorem IsSound.deleteTask (hs : s.IsSound) {l : Ledger} (hl : s.ledger = some l)
    (id : Option Text) :
    IsSound { s.setLedger { l with
        tasks := l.tasks.filter fun row => !sameId id row.id
        tags := l.tags.filter fun row => !sameId id (some row.taskId) } with
      subtasks := s.subtasks.map fun rows =>
        (rows.filter fun row => !sameId id (some row.taskId)) } where
  tables := hs.tables.of_sameTables
    ((SameTables.setLedger hl _).trans (.setSubtasks _ Option.isSome_map))
  ledger := by
    rintro _ ⟨⟩
    exact (hs.ledger l hl).deleteTask id
  subtask_task rows hrows row hrow := by
    obtain ⟨old, hold, rfl⟩ := Option.map_eq_some_iff.1 hrows
    obtain ⟨hrow, hother⟩ := List.mem_filter.1 hrow
    obtain ⟨k, hk, task, htask, h⟩ := hs.subtask_task old hold row hrow
    cases hl.symm.trans hk
    exact ⟨_, rfl, task, List.mem_filter.2 ⟨htask, by rw [h]; exact hother⟩, h⟩
  subtask_ids rows hrows := by
    obtain ⟨old, hold, rfl⟩ := Option.map_eq_some_iff.1 hrows
    exact (hs.subtask_ids old hold).sublist (List.filter_sublist.map _)

/-- **Statements keep integrity.** One case for each statement. -/
theorem Step.isSound (h : Step s s') (hs : s.IsSound) : s'.IsSound := by
  cases h with
  | insertTask new now h =>
    obtain ⟨l, hl, _, title, _, priority, _, htexts, hid, hproject, rfl⟩ := insertTask_eq_ok.1 h
    refine hs.withLedger hl ((hs.ledger l hl).insertTask hid hproject
      (TaskRow.isEncodable_id htexts)) fun _ _ _ _ => ?_
    exact fun ⟨task, htask, h⟩ => ⟨task, List.mem_append_left _ htask, h⟩
  | updateTask edit now row h =>
    obtain ⟨l, hl, new, hnew, hid, ⟨hproject, hparts⟩, rfl⟩ := updateTask_eq_ok.1 h
    obtain ⟨-, -, _, -, _, -, _, -, _, -, htexts, -⟩ := TaskEdit.apply_eq_ok.1 hnew
    have hparts hmoved := hasParts_eq_false.1 (hparts hmoved)
    refine hs.withLedger hl ((hs.ledger l hl).replaceTask
      (fun hmoved => ⟨hid hmoved, (hparts hmoved).1⟩) hproject (TaskRow.isEncodable_id htexts))
      fun rows hrows row' hrow' => ?_
    rintro ⟨task, htask, h⟩
    refine ⟨_, List.mem_map_of_mem htask, ?_⟩
    split
    · rename_i hsame
      have hrow := (sameId_iff.1 hsame).2
      by_cases hmoved : new.id = row.id
      · rw [hmoved, hrow, h]
      · exact absurd (hrow.trans h) ((hparts hmoved).2 rows hrows row' hrow')
    · exact h
  | deleteTask id found h =>
    obtain ⟨l, hl, _, _, rfl⟩ := deleteTask_eq_ok.1 h
    exact hs.deleteTask hl id
  | deleteTagsOf taskId h =>
    obtain ⟨l, hl, -, rfl⟩ := deleteTagsOf_eq_ok.1 h
    exact hs.withLedger hl ((hs.ledger l hl).deleteTagsOf taskId) fun _ _ _ _ h => h
  | insertTag taskId tag h =>
    obtain ⟨l, hl, id, rfl, name, _, _, hnew, htask, rfl⟩ := insertTag_eq_ok.1 h
    exact hs.withLedger hl ((hs.ledger l hl).insertTag hnew htask) fun _ _ _ _ h => h
  | deleteSubtasksOf taskId h =>
    obtain ⟨rows, hrows, -, rfl⟩ := deleteSubtasksOf_eq_ok.1 h
    exact hs.filterSubtasks hrows _
  | insertSubtask id taskId text h =>
    obtain ⟨rows, hrows, task, rfl, words, _, _, hnew, l, hl, htask, rfl⟩ :=
      insertSubtask_eq_ok.1 h
    exact hs.insertSubtask hrows hnew hl htask
  | markSubtask id mark found h =>
    obtain ⟨rows, hrows, _, _, _, rfl⟩ := markSubtask_eq_ok.1 h
    exact hs.markSubtask hrows _ _
  | insertProject name color description folderId p h =>
    obtain ⟨l, hl, _, _, _, _, _, _, hfolder, _, rfl⟩ := insertProject_eq_ok.1 h
    exact hs.withLedger hl ((hs.ledger l hl).insertProject _ hfolder) fun _ _ _ _ h => h
  | leaveProject id h =>
    obtain ⟨l, hl, _, rfl⟩ := leaveProject_eq_ok.1 h
    refine hs.withLedger hl ((hs.ledger l hl).leaveProject _) fun _ _ _ _ => ?_
    rintro ⟨task, htask, h⟩
    refine ⟨_, List.mem_map_of_mem htask, ?_⟩
    split <;> exact h
  | deleteProject id found h =>
    obtain ⟨l, hl, _, hfree, _, rfl⟩ := deleteProject_eq_ok.1 h
    exact hs.withLedger hl ((hs.ledger l hl).deleteProject hfree) fun _ _ _ _ h => h
  | insertFolder name color description f h =>
    obtain ⟨l, hl, _, _, _, _, _, _, rfl⟩ := insertFolder_eq_ok.1 h
    exact hs.withLedger hl ((hs.ledger l hl).insertFolder _ _) fun _ _ _ _ h => h
  | leaveFolder id h =>
    obtain ⟨l, hl, _, rfl⟩ := leaveFolder_eq_ok.1 h
    exact hs.withLedger hl ((hs.ledger l hl).leaveFolder _) fun _ _ _ _ h => h
  | deleteFolder id found h =>
    obtain ⟨l, hl, _, hfree, _, rfl⟩ := deleteFolder_eq_ok.1 h
    exact hs.withLedger hl ((hs.ledger l hl).deleteFolder hfree) fun _ _ _ _ h => h
  | saveSetting key value h =>
    obtain ⟨rows, hrows, _, _, _, h⟩ := saveSetting_eq_ok.1 h
    split at h <;> subst h <;> exact hs.withSettings hrows

/-! ## Moves -/

/-- The tables that a move up creates are missing before, so they are empty after it. -/
theorem IsSound.raise (hs : s.IsSound) {r : Revision} (hr : r.level = s.level + 1) :
    (s.raise r).IsSound := by
  have htables := hs.tables.raise hr
  cases r with
  | first =>
    have hlevel : s.level < 1 := by rw [Revision.level] at hr; omega
    have hsubtasks := hs.tables.subtasks_eq_none (by omega)
    refine ⟨htables, ?_, ?_, ?_⟩
    · rw [hs.tables.ledger_raise hlevel]
      rintro _ ⟨⟩
      exact Ledger.isSound_empty
    · intro rows hrows
      cases hsubtasks.symm.trans hrows
    · intro rows hrows
      cases hsubtasks.symm.trans hrows
  | second => exact ⟨htables, hs.ledger, hs.subtask_task, hs.subtask_ids⟩
  | third =>
    have hlevel : s.level < 3 := by rw [Revision.level] at hr; omega
    have hsubtasks := hs.tables.subtasks_eq_none hlevel
    refine ⟨htables, hs.ledger, ?_, ?_⟩
    · rintro _ ⟨⟩ row hrow
      rw [hsubtasks] at hrow
      cases hrow
    · rintro _ ⟨⟩
      rw [hsubtasks]
      exact .nil

/-- The tables that a move down drops are those that no other table refers to any
    more. -/
theorem IsSound.lower (hs : s.IsSound) {r : Revision} (hr : s.version = some r) :
    (s.lower r).IsSound := by
  have htables := hs.tables.lower hr
  cases r with
  | first =>
    have hlevel : s.level = 1 := by rw [level, hr]; rfl
    have hsubtasks := hs.tables.subtasks_eq_none (by omega)
    refine ⟨htables, ?_, ?_, ?_⟩
    · intro l hl
      cases hl
    · intro rows hrows
      cases hsubtasks.symm.trans hrows
    · intro rows hrows
      cases hsubtasks.symm.trans hrows
  | second => exact ⟨htables, hs.ledger, hs.subtask_task, hs.subtask_ids⟩
  | third =>
    refine ⟨htables, hs.ledger, ?_, ?_⟩
    · intro rows hrows
      cases hrows
    · intro rows hrows
      cases hrows

/-- **Moves keep integrity.** -/
theorem Move.isSound (h : Move s s') (hs : s.IsSound) : s'.IsSound := by
  cases h with
  | raise r hr => exact hs.raise hr
  | lower r hr => exact hs.lower hr

theorem isSound_empty : IsSound {} where
  tables := ⟨rfl, fun r name hname => by cases r <;> cases name <;> revert hname <;> decide⟩
  ledger l hl := by cases hl
  subtask_task rows hrows := by cases hrows
  subtask_ids rows hrows := by cases hrows

end Store
end TaskDesk
