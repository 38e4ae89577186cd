import TaskDesk.Proofs.Desk.Success
import TaskDesk.Proofs.Service.Numbering
import TaskDesk.Proofs.Store.Absent
import TaskDesk.Proofs.Store.Record

/-!
# What goes with a deletion

A task goes with its tags and its subtasks, a project leaves its tasks behind and a folder its
projects. Ids of tasks and numbers of projects and folders are unique, so a single row goes, and
references lead to rows, so nothing refers to a row that is not there. No reference stands in the
way of a deletion: before a project goes its tasks have left it, and before a folder goes its
projects have. The id of a task is a text, and one that cannot be bound is the id of no task: only
then the deletion fails.

Results:
* `oneGone_filter`: a single row goes from a list if rows differ in what is looked for.
* `Store.TaskGone`, `Store.ProjectGone`, `Store.FolderGone`: what goes and what stays.
* `Desk.refuses_task`: a deletion that fails.
* `Desk.deletions_after`: deletions on a store with all tables, after any history.
-/

namespace TaskDesk

open Work

/-! ## Rows that go -/

/-- A single row goes from a list: the only one that is meant. -/
def OneGone {α : Type} (meant : α → Prop) (rows rest : List α) : Prop :=
  ∃ before row behind, rows = before ++ row :: behind ∧ rest = before ++ behind ∧
    meant row ∧ ∀ other ∈ rest, ¬ meant other

theorem oneGone_filter {α : Type} {meant : α → Prop} {stays : α → Bool} {rows : List α}
    (hstays : ∀ row, stays row = true ↔ ¬ meant row)
    (hunique : rows.Pairwise fun x y => meant x → ¬ meant y) (h : ∃ row ∈ rows, meant row) :
    OneGone meant rows (rows.filter stays) := by
  obtain ⟨row, hrow, hmeant⟩ := h
  obtain ⟨before, behind, rfl⟩ := List.append_of_mem hrow
  obtain ⟨-, hbehind, hbefore⟩ := List.pairwise_append.1 hunique
  have hleft : before.filter stays = before :=
    List.filter_eq_self.2 fun x hx =>
      (hstays x).2 fun hx' => hbefore x hx row List.mem_cons_self hx' hmeant
  have hright : behind.filter stays = behind :=
    List.filter_eq_self.2 fun y hy => (hstays y).2 ((List.pairwise_cons.1 hbehind).1 y hy hmeant)
  have hgoes : ¬ stays row = true := fun hstay => (hstays row).1 hstay hmeant
  refine ⟨before, row, behind, rfl, ?_, hmeant, fun other hother => ?_⟩
  · rw [List.filter_append, List.filter_cons_of_neg hgoes, hleft, hright]
  · exact (hstays other).1 (List.mem_filter.1 hother).2

namespace Store

variable {s s' : Store} {l : Ledger}

/-- A task has gone, with its tags and its subtasks. All other rows stay. -/
structure TaskGone (a : Text) (s s' : Store) : Prop where
  task : OneGone (·.id = some a) s.firstTables.tasks s'.firstTables.tasks
  tags : s'.firstTables.tags = s.firstTables.tags.filter (·.taskId ≠ a)
  subtasks : s'.subtasks = s.subtasks.map (List.filter (·.taskId ≠ a))
  rest : s' = { s.setLedger { s.firstTables with
      tasks := s'.firstTables.tasks
      tags := s'.firstTables.tags } with
    subtasks := s'.subtasks }

/-- A project has gone. Its tasks are in no project, and stay as they are otherwise. All other
    rows stay. -/
structure ProjectGone (i : Int) (s s' : Store) : Prop where
  project : OneGone (·.id = i) s.firstTables.projects.rows s'.firstTables.projects.rows
  tasks : s'.firstTables.tasks = s.firstTables.tasks.map fun row =>
    if row.projectId = some i then { row with projectId := none } else row
  rest : s' = s.setLedger { s.firstTables with
    projects := { s.firstTables.projects with rows := s'.firstTables.projects.rows }
    tasks := s'.firstTables.tasks }

/-- A folder has gone. Its projects are in no folder, and stay as they are otherwise. All other
    rows stay. -/
structure FolderGone (i : Int) (s s' : Store) : Prop where
  folder : OneGone (·.id = i) s.firstTables.folders.rows s'.firstTables.folders.rows
  projects : s'.firstTables.projects.rows = s.firstTables.projects.rows.map fun p =>
    if p.folderId = some i then { p with folderId := none } else p
  rest : s' = s.setLedger { s.firstTables with
    folders := { s.firstTables.folders with rows := s'.firstTables.folders.rows }
    projects := { s.firstTables.projects with rows := s'.firstTables.projects.rows } }

/-! ## Tasks -/

/-- Ids of tasks are unique. -/
theorem unique_task (hl : l.IsSound) (a : Text) :
    l.tasks.Pairwise fun t u => t.id = some a → ¬ u.id = some a :=
  hl.task_ids.imp fun hne ht hu => hne (by rw [ht]; rfl) (ht.trans hu.symm)

/-- A task that is there goes alone. -/
theorem IsSound.taskGone (hs : s.IsSound) (hl : s.ledger = some l) {a : Text}
    (h : s.deleteTask (some a) = .ok (true, s')) : TaskGone a s s' := by
  obtain ⟨k, hk, -, hfound, rfl⟩ := deleteTask_eq_ok.1 h
  cases hl.symm.trans hk
  have hrows := firstTables_eq hl
  refine ⟨?_, ?_, ?_, ?_⟩
  · rw [hrows]
    exact oneGone_filter (fun _ => not_sameId_iff) (unique_task (hs.ledger l hl) a)
      (Ledger.hasTask_some.1 hfound)
  · rw [hrows]
    exact filter_not_sameId TagRow.taskId a l.tags
  · exact Option.map_congr fun rows _ => filter_not_sameId SubtaskRow.taskId a rows
  · rw [hrows]
    rfl

/-! ## Projects and folders -/

theorem any_id_iff {α : Type} {id : α → Int} {i : Int} {rows : List α} :
    (rows.any fun row => some i == some (id row)) = true ↔ ∃ row ∈ rows, id row = i := by
  simp only [List.any_eq_true, beq_iff_eq, Option.some.injEq, @eq_comm _ i]

/-- Numbered rows in order differ in their numbers. -/
theorem unique_id {α : Type} {id : α → Int} {rows : List α}
    (h : (rows.map id).Pairwise (· < ·)) (i : Int) :
    rows.Pairwise fun x y => id x = i → ¬ id y = i :=
  (List.pairwise_map.1 h).imp fun hlt hx hy => Int.ne_of_lt hlt (hx.trans hy.symm)

theorem oneGone_filter_id {α : Type} {id : α → Int} {rows : List α}
    (h : (rows.map id).Pairwise (· < ·)) {i : Int} (hfound : ∃ row ∈ rows, id row = i) :
    OneGone (id · = i) rows (rows.filter fun row => some i != some (id row)) := by
  refine oneGone_filter (fun row => ?_) (unique_id h i) hfound
  rw [bne_iff_ne, Ne, Option.some.injEq, eq_comm]

/-- Rows leave what they refer to. -/
theorem map_leave_eq {α : Type} {reference : α → Option Int} {leave : α → α} {i : Int}
    (rows : List α) :
    (rows.map fun row => if (some i).isSome && reference row == some i then leave row else row) =
      rows.map fun row => if reference row = some i then leave row else row := by
  refine List.map_congr_left fun row _ => ?_
  rw [Option.isSome_some, Bool.true_and]
  exact if_congr beq_iff_eq rfl rfl

variable {left : Store} {i : Int} {found : Bool}

/-- Whether a project goes is whether it was there. -/
theorem found_project (hl : s.ledger = some l) (hleave : s.leaveProject (some i) = .ok left)
    (h : left.deleteProject (some i) = .ok (found, s')) :
    found = true ↔ ∃ p ∈ l.projects.rows, p.id = i := by
  obtain ⟨k, hk, -, rfl⟩ := leaveProject_eq_ok.1 hleave
  obtain ⟨_, ⟨⟩, -, -, rfl, -⟩ := deleteProject_eq_ok.1 h
  cases hl.symm.trans hk
  exact any_id_iff

/-- A project that is there goes alone, once its tasks have left it. -/
theorem IsNumbered.projectGone (hs : s.IsNumbered .projects) (hl : s.ledger = some l)
    (hleave : s.leaveProject (some i) = .ok left)
    (h : left.deleteProject (some i) = .ok (true, s')) : ProjectGone i s s' := by
  have hfound := (found_project hl hleave h).1 rfl
  obtain ⟨k, hk, -, rfl⟩ := leaveProject_eq_ok.1 hleave
  obtain ⟨_, ⟨⟩, -, -, -, rfl⟩ := deleteProject_eq_ok.1 h
  cases hl.symm.trans hk
  have hordered := hs.ordered
  rw [labels, hl, Option.elim_some, Numbered.labels, List.map_map] at hordered
  have hrows := firstTables_eq hl
  refine ⟨?_, ?_, ?_⟩
  · rw [hrows]
    exact oneGone_filter_id hordered hfound
  · rw [hrows]
    exact map_leave_eq l.tasks
  · rw [hrows]
    rfl

/-- Whether a folder goes is whether it was there. -/
theorem found_folder (hl : s.ledger = some l) (hleave : s.leaveFolder (some i) = .ok left)
    (h : left.deleteFolder (some i) = .ok (found, s')) :
    found = true ↔ ∃ f ∈ l.folders.rows, f.id = i := by
  obtain ⟨k, hk, -, rfl⟩ := leaveFolder_eq_ok.1 hleave
  obtain ⟨_, ⟨⟩, -, -, rfl, -⟩ := deleteFolder_eq_ok.1 h
  cases hl.symm.trans hk
  exact any_id_iff

/-- A folder that is there goes alone, once its projects have left it. -/
theorem IsNumbered.folderGone (hs : s.IsNumbered .folders) (hl : s.ledger = some l)
    (hleave : s.leaveFolder (some i) = .ok left)
    (h : left.deleteFolder (some i) = .ok (true, s')) : FolderGone i s s' := by
  have hfound := (found_folder hl hleave h).1 rfl
  obtain ⟨k, hk, -, rfl⟩ := leaveFolder_eq_ok.1 hleave
  obtain ⟨_, ⟨⟩, -, -, -, rfl⟩ := deleteFolder_eq_ok.1 h
  cases hl.symm.trans hk
  have hordered := hs.ordered
  rw [labels, hl, Option.elim_some, Numbered.labels, List.map_map] at hordered
  have hrows := firstTables_eq hl
  refine ⟨?_, ?_, ?_⟩
  · rw [hrows]
    exact oneGone_filter_id hordered hfound
  · rw [hrows]
    exact map_leave_eq l.projects.rows
  · rw [hrows]
    rfl

end Store

/-! ## Deletions -/

namespace Desk

variable {d : Desk} {l : Ledger}

/-- A deletion comes through, and tells whether there was what was to be deleted: if there was,
    it has gone, and otherwise nothing has changed. -/
structure Deletes (d : Desk) (w : Work Bool) (isThere : Prop) (Gone : Store → Store → Prop) :
    Prop where
  found : isThere → ∃ s, w.on d = (.ok true, { d with store := s }) ∧ Gone d.store s
  absent : ¬ isThere → w.on d = (.ok false, d)

theorem Deletes.of_on {w : Work Bool} {isThere : Prop} {Gone : Store → Store → Prop}
    {found : Bool} {s : Store} (hon : w.on d = (.ok found, { d with store := s }))
    (hfound : found = true ↔ isThere) (hgone : found = true → Gone d.store s)
    (habsent : found = false → s = d.store) : d.Deletes w isThere Gone where
  found h := by
    have htrue := hfound.2 h
    exact ⟨s, htrue ▸ hon, hgone htrue⟩
  absent h := by
    have hfalse : found = false := Bool.eq_false_iff.2 (mt hfound.1 h)
    rw [hon, hfalse, habsent hfalse]

/-- First rows leave, and then what they have left goes. -/
theorem leave_delete_done {leave : Store → Except Fault Store}
    {delete : Store → Except Fault (Bool × Store)}
    (h : (transaction do execute leave; change delete).Succeeds d) :
    ∃ left found s, leave d.store = .ok left ∧ delete left = .ok (found, s) ∧
      (transaction do execute leave; change delete).on d = (.ok found, { d with store := s }) := by
  obtain ⟨found, after, h⟩ := h
  obtain ⟨_, _, hleave, hdelete⟩ := bind_on_ok (transaction_on_ok h)
  obtain ⟨left, hleft, rfl⟩ := exists_of_execute_on_ok hleave
  have hgone := change_on_ok hdelete
  refine ⟨left, found, after.store, hleft, hgone, transaction_on_of_ok ?_⟩
  rw [bind_on_of_ok hleave, on_change, hgone]

theorem deletes_task (hs : d.store.IsSound) (hl : d.store.ledger = some l) {a : Text}
    (ha : a.isEncodable = true) :
    d.Deletes (deleteTask (some a)) (∃ row ∈ l.tasks, row.id = some a) (Store.TaskGone a) := by
  obtain ⟨found, after, h⟩ := (deleteTask_succeeds_iff hl (some a)).2 (isEncodable_some.2 ha)
  have hdelete := change_on_ok h
  have hon : (deleteTask (some a)).on d = (.ok found, { d with store := after.store }) := by
    rw [deleteTask, on_change, hdelete]
  obtain ⟨k, hk, -, hfound, -⟩ := Store.deleteTask_eq_ok.1 hdelete
  cases hl.symm.trans hk
  refine .of_on hon ?_ (fun htrue => ?_) fun hfalse => ?_
  · rw [← hfound, Ledger.hasTask_some]
  · exact hs.taskGone hl (htrue ▸ hdelete)
  · exact hs.deleteTask_absent (hfalse ▸ hdelete)

/-- An id that cannot be bound is refused before any row is looked at. No task has it. -/
theorem refuses_task (hs : d.store.IsSound) (hl : d.store.ledger = some l) {a : Text}
    (ha : a.isEncodable = false) :
    (∀ row ∈ l.tasks, row.id ≠ some a) ∧
      (deleteTask (some a)).on d = (.error (.notEncodable (t := a)), d) := by
  have hrefused : ¬ IsEncodable (some a) := by
    rw [isEncodable_some, ha]
    exact Bool.false_ne_true
  refine ⟨fun row hrow hid => hrefused (hid ▸ (hs.ledger l hl).task_encodable row hrow), ?_⟩
  rw [deleteTask, on_change, Store.deleteTask, Store.ledgerFor_eq_ok.2 hl]
  simp only [bind, Except.bind, bindAll_text_of_not hrefused]

theorem deletes_project (hs : d.store.IsSound) (hnumbered : d.store.IsNumbered .projects)
    (hl : d.store.ledger = some l) {i : Int} (hi : InRange (some i)) :
    d.Deletes (deleteProject (some i)) (∃ p ∈ l.projects.rows, p.id = i)
      (Store.ProjectGone i) := by
  obtain ⟨left, found, s, hleave, hdelete, hon⟩ :=
    leave_delete_done ((deleteProject_succeeds_iff hl i).2 hi)
  refine .of_on hon (Store.found_project hl hleave hdelete) (fun htrue => ?_) fun hfalse => ?_
  · exact hnumbered.projectGone hl hleave (htrue ▸ hdelete)
  · exact hs.leave_deleteProject_absent hleave (hfalse ▸ hdelete)

theorem deletes_folder (hs : d.store.IsSound) (hnumbered : d.store.IsNumbered .folders)
    (hl : d.store.ledger = some l) {i : Int} (hi : InRange (some i)) :
    d.Deletes (deleteFolder (some i)) (∃ f ∈ l.folders.rows, f.id = i) (Store.FolderGone i) := by
  obtain ⟨left, found, s, hleave, hdelete, hon⟩ :=
    leave_delete_done ((deleteFolder_succeeds_iff hl i).2 hi)
  refine .of_on hon (Store.found_folder hl hleave hdelete) (fun htrue => ?_) fun hfalse => ?_
  · exact hnumbered.folderGone hl hleave (htrue ▸ hdelete)
  · exact hs.leave_deleteFolder_absent hleave (hfalse ▸ hdelete)

/-- **Deletions after any history**, on a store with all tables. They never fail, as long as the
    id of the task can be written in UTF-8 and the number of the project or folder fits into 64
    bits. They tell whether the record was there. A task goes with its tags and subtasks, a
    project goes and its tasks are in no project then, a folder goes and its projects are in no
    folder then, and everything else stays. Where nothing was found nothing changes. An id that
    cannot be written in UTF-8 is the id of no task; its deletion fails, and nothing changes
    either. -/
theorem deletions_after (source : Source) (history : List Event)
    (hversion : (empty.after source history).store.version = some .third) :
    let d := empty.after source history
    (∀ a : Text, a.isEncodable = true → d.Deletes (deleteTask (some a))
      (∃ row ∈ d.store.firstTables.tasks, row.id = some a) (Store.TaskGone a)) ∧
    (∀ a : Text, a.isEncodable = false →
      (∀ row ∈ d.store.firstTables.tasks, row.id ≠ some a) ∧
        (deleteTask (some a)).on d = (.error (.notEncodable (t := a)), d)) ∧
    (∀ i : Int, InRange (some i) → d.Deletes (deleteProject (some i))
      (∃ p ∈ d.store.firstTables.projects.rows, p.id = i) (Store.ProjectGone i)) ∧
    ∀ i : Int, InRange (some i) → d.Deletes (deleteFolder (some i))
      (∃ f ∈ d.store.firstTables.folders.rows, f.id = i) (Store.FolderGone i) := by
  intro d
  have hs : d.store.IsSound :=
    after_keeps Store.Step.isSound Store.Move.isSound source history empty Store.isSound_empty
  have hlevel : 1 ≤ d.store.level := by
    rw [Store.level, hversion]
    decide
  obtain ⟨l, hl⟩ := Option.isSome_iff_exists.1 (hs.tables.ledger.2 hlevel)
  rw [Store.firstTables_eq hl]
  exact ⟨fun a => deletes_task hs hl, fun a => refuses_task hs hl,
    fun i => deletes_project hs (isNumbered_after source history) hl,
    fun i => deletes_folder hs (isNumbered_after source history) hl⟩

/-- A task goes with its parts, no task has half of a surrogate pair for an id, a project leaves
    one of two tasks behind, and there is no second folder. -/
theorem deletions_after_garden :
    let source : Source := ⟨fun n => List.replicate n 'i', fun _ => []⟩
    let create (name : String) (folder : Option Int) : Event :=
      .command (.createProject (some name.toText) (some "blue".toText) none folder)
    let history : List Event := [.upgrade (.level 3),
      .command (.createFolder (some "Home".toText) (some "red".toText) none),
      create "Garden" (some 1), create "Attic" none,
      .command (.createTask {
        id := some "plant".toText, title := some "Plant".toText, projectId := some 1
        tags := [some "herbs".toText], subtasks := [some "Dig".toText] }),
      .command (.createTask {
        id := some "clear".toText, title := some "Clear".toText, projectId := some 2 })]
    let d := empty.after source history
    (empty.after source history).store.version = some .third ∧
      "plant".toText.isEncodable = true ∧ Text.isEncodable [.half 0] = false ∧
      InRange (some 1) ∧ InRange (some 2) ∧
      (∃ s, (deleteTask (some "plant".toText)).on d = (.ok true, { d with store := s }) ∧
        Store.TaskGone "plant".toText d.store s) ∧
      (deleteTask (some [.half 0])).on d = (.error (.notEncodable (t := [.half 0])), d) ∧
      (∃ s, (deleteProject (some 1)).on d = (.ok true, { d with store := s }) ∧
        Store.ProjectGone 1 d.store s ∧ s.firstTables.tasks.map (·.projectId) = [none, some 2]) ∧
      (deleteFolder (some 2)).on d = (.ok false, d) := by
  intro source create history d
  have hversion : (empty.after source history).store.version = some .third := by decide +kernel
  have hone : InRange (some 1) := by
    rintro _ ⟨⟩
    decide
  have htwo : InRange (some 2) := by
    rintro _ ⟨⟩
    decide
  have hplant : "plant".toText.isEncodable = true := by decide
  have hhalf : Text.isEncodable [.half 0] = false := by decide
  obtain ⟨htask, hrefused, hproject, hfolder⟩ := deletions_after source history hversion
  have hgone := (htask "plant".toText hplant).found (by decide +kernel)
  obtain ⟨s, hon, hgarden⟩ := (hproject 1 hone).found (by decide +kernel)
  have hattic := (hfolder 2 htwo).absent (by decide +kernel)
  have hleft : s.firstTables.tasks.map (·.projectId) = [none, some 2] := by
    rw [hgarden.tasks]
    decide +kernel
  exact ⟨hversion, hplant, hhalf, hone, htwo, hgone, (hrefused _ hhalf).2,
    ⟨s, hon, hgarden, hleft⟩, hattic⟩

/-- Half of a surrogate pair is not bound, so the deletion fails where there is no task at all. -/
theorem deleteTask_fails_half :
    let source : Source := ⟨fun n => List.replicate (n + 1) 'i', fun _ => []⟩
    let d := empty.after source [.upgrade (.level 3)]
    d.store.version = some .third ∧ ¬ (deleteTask (some [.half 0])).Succeeds d := by
  intro source d
  have hfails : ((deleteTask (some [.half 0])).on d).1.isOk = false := by decide +kernel
  refine ⟨by decide +kernel, ?_⟩
  rintro ⟨found, after, h⟩
  rw [h] at hfails
  cases hfails

end Desk
end TaskDesk
