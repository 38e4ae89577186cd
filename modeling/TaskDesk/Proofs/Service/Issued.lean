import TaskDesk.Proofs.Desk.Rewrite
import TaskDesk.Proofs.Service.Lifetime

/-!
# Ids that are in use

All ids of tasks and subtasks that requests bring into the store were taken from the source
before. So where the source never repeats an id, the next one is in use neither by a task nor
by a subtask. Together with what else requests keep this says what the desks are like that
requests leave.

Results:
* `Desk.IsOrdinary`: a regular store whose ids were taken from the source.
* `Desk.maintains_answer`: every endpoint leaves an ordinary desk ordinary.
* `Desk.isOrdinary_served`: the desk after any requests is ordinary.
* `Desk.IsOrdinary.fresh_task`, `Desk.IsOrdinary.fresh_subtask`: the next ids are not in use.
-/

namespace TaskDesk

namespace Store

variable {s s' : Store} {Q : Text → Prop}

/-- The ids of all stored tasks have a property. -/
def TaskIds (Q : Text → Prop) (s : Store) : Prop :=
  ∀ l ∈ s.ledger, ∀ row ∈ l.tasks, ∀ id ∈ row.id, Q id

/-- No task has an id that none had before. -/
theorem TaskIds.of_rows (hs : s.TaskIds Q)
    (h : ∀ l' ∈ s'.ledger, ∃ l ∈ s.ledger, ∀ row ∈ l'.tasks, ∃ old ∈ l.tasks, old.id = row.id) :
    s'.TaskIds Q := by
  intro l' hl' row hrow id hid
  obtain ⟨l, hl, hrows⟩ := h l' hl'
  obtain ⟨old, hold, hsame⟩ := hrows row hrow
  exact hs l hl old hold id (hsame.trans hid)

theorem TaskIds.of_tasks (hs : s.TaskIds Q)
    (h : ∀ l' ∈ s'.ledger, ∃ l ∈ s.ledger, l'.tasks = l.tasks) : s'.TaskIds Q := by
  refine hs.of_rows fun l' hl' => ?_
  obtain ⟨l, hl, hsame⟩ := h l' hl'
  exact ⟨l, hl, fun row hrow => ⟨row, hsame ▸ hrow, rfl⟩⟩

theorem TaskIds.insertTask (hs : s.TaskIds Q) {new : NewTaskRow} {now : Text}
    (hid : ∀ id ∈ new.id, Q id) (h : s.insertTask new now = .ok s') : s'.TaskIds Q := by
  obtain ⟨l, hl, -, title, -, priority, -, -, -, -, rfl⟩ := insertTask_eq_ok.1 h
  rintro _ ⟨⟩
  exact List.forall_mem_append.2 ⟨hs l hl, List.forall_mem_singleton.2 hid⟩

/-- A change that keeps the id of the task. -/
theorem TaskIds.updateTask (hs : s.TaskIds Q) {edit : TaskEdit} (hedit : edit.IsPresentable)
    {now : Text} {row : TaskRow} (h : s.updateTask edit now row = .ok s') : s'.TaskIds Q := by
  obtain ⟨l, hl, new, hnew, -, -, rfl⟩ := updateTask_eq_ok.1 h
  have hkeep := hedit.apply_id hnew
  refine hs.of_rows ?_
  rintro _ ⟨⟩
  refine ⟨l, hl, List.forall_mem_map.2 fun old hold => ⟨old, hold, ?_⟩⟩
  split
  · rename_i hsame
    rw [hkeep, (sameId_iff.1 hsame).2]
  · rfl

end Store

namespace Work

theorem keptByParts_taskIds (Q : Text → Prop) : KeptByParts (Store.TaskIds Q) where
  deleteTagsOf hs h := by
    obtain ⟨l, hl, -, rfl⟩ := Store.deleteTagsOf_eq_ok.1 h
    exact hs.of_tasks (by rintro _ ⟨⟩; exact ⟨l, hl, rfl⟩)
  insertTag hs h := by
    obtain ⟨l, hl, _, -, _, -, -, -, -, rfl⟩ := Store.insertTag_eq_ok.1 h
    exact hs.of_tasks (by rintro _ ⟨⟩; exact ⟨l, hl, rfl⟩)
  deleteSubtasksOf hs h := by
    obtain ⟨_, _, _, rfl⟩ := Store.deleteSubtasksOf_eq_ok.1 h
    exact hs
  insertSubtask hs h := by
    obtain ⟨_, _, _, -, _, -, -, -, _, -, -, rfl⟩ := Store.insertSubtask_eq_ok.1 h
    exact hs

end Work

namespace Desk

open Work Service Store

variable {source : Source} {d : Desk} {Q : Text → Prop}

/-! ## Ids of tasks -/

theorem taskIds_createTask {new : NewTask} (hid : ∀ id ∈ new.id, Q id) :
    Keeps (TaskIds Q) (createTask source new) := by
  refine .bind (.now source) fun time => .bind (.transaction ?_) fun _ => keeps_readBack _
  refine .bind (.execute fun hs h => hs.insertTask hid h) fun _ => ?_
  exact .bind (.saveTags (keptByParts_taskIds Q) _ _) fun _ =>
    .saveSubtasks (keptByParts_taskIds Q) _ _

theorem taskIds_updateTask (id : Option Text) {change : TaskChange}
    (hchange : change.toTaskEdit.IsPresentable) :
    Keeps (TaskIds Q) (updateTask source id change) := by
  rw [updateTask_eq]
  refine .bind (.query _) fun found => ?_
  cases found with
  | none => exact .pure none
  | some row =>
    refine .bind (.bind (.transaction ?_) fun _ => keeps_readBack id) fun task => .pure _
    exact keeps_rewriteTask (keptByParts_taskIds Q) fun hs h => hs.updateTask hchange h

theorem taskIds_deleteTask (id : Option Text) : Keeps (TaskIds Q) (deleteTask id) := by
  refine .change fun hs h => ?_
  obtain ⟨l, hl, -, -, rfl⟩ := deleteTask_eq_ok.1 h
  refine hs.of_rows ?_
  rintro _ ⟨⟩
  exact ⟨l, hl, fun row hrow => ⟨row, (List.mem_filter.1 hrow).1, rfl⟩⟩

theorem taskIds_toggleSubtask (id : Option Text) (mark : Int) :
    Keeps (TaskIds Q) (toggleSubtask id mark) := by
  refine .bind (.change fun hs h => ?_) fun found => ?_
  · obtain ⟨_, _, _, _, _, rfl⟩ := markSubtask_eq_ok.1 h
    exact hs
  · cases found with
    | true => exact .query _
    | false => exact .pure none

theorem taskIds_createProject (name color description : Option Text) (folderId : Option Int) :
    Keeps (TaskIds Q) (createProject name color description folderId) := by
  refine .change fun hs h => ?_
  obtain ⟨l, hl, _, _, _, _, _, _, _, _, rfl⟩ := insertProject_eq_ok.1 h
  exact hs.of_tasks (by rintro _ ⟨⟩; exact ⟨l, hl, rfl⟩)

theorem taskIds_deleteProject (id : Option Int) : Keeps (TaskIds Q) (deleteProject id) := by
  refine .transaction (.bind (.execute fun hs h => ?_) fun _ => .change fun hs h => ?_)
  · obtain ⟨l, hl, -, rfl⟩ := leaveProject_eq_ok.1 h
    refine hs.of_rows ?_
    rintro _ ⟨⟩
    refine ⟨l, hl, List.forall_mem_map.2 fun old hold => ⟨old, hold, ?_⟩⟩
    split <;> rfl
  · obtain ⟨l, hl, _, _, _, rfl⟩ := deleteProject_eq_ok.1 h
    exact hs.of_tasks (by rintro _ ⟨⟩; exact ⟨l, hl, rfl⟩)

theorem taskIds_createFolder (name color description : Option Text) :
    Keeps (TaskIds Q) (createFolder name color description) := by
  refine .change fun hs h => ?_
  obtain ⟨l, hl, _, _, _, _, _, _, rfl⟩ := insertFolder_eq_ok.1 h
  exact hs.of_tasks (by rintro _ ⟨⟩; exact ⟨l, hl, rfl⟩)

theorem taskIds_deleteFolder (id : Option Int) : Keeps (TaskIds Q) (deleteFolder id) := by
  refine .transaction (.bind (.execute fun hs h => ?_) fun _ => .change fun hs h => ?_)
  · obtain ⟨l, hl, _, rfl⟩ := leaveFolder_eq_ok.1 h
    exact hs.of_tasks (by rintro _ ⟨⟩; exact ⟨l, hl, rfl⟩)
  · obtain ⟨l, hl, _, _, _, rfl⟩ := deleteFolder_eq_ok.1 h
    exact hs.of_tasks (by rintro _ ⟨⟩; exact ⟨l, hl, rfl⟩)

theorem taskIds_setInputMode (mode : Option Text) : Keeps (TaskIds Q) (setInputMode mode) := by
  refine .execute fun hs h => ?_
  obtain ⟨_, _, _, _, _, h⟩ := saveSetting_eq_ok.1 h
  split at h <;> subst h <;> exact hs

/-! ## Ordinary desks -/

/-- A desk with a regular store, whose tasks and subtasks have ids that were taken from the
    source. -/
structure IsOrdinary (source : Source) (d : Desk) : Prop where
  regular : d.store.IsRegular
  tasks : d.store.TaskIds (d.Issued source)
  subtasks : ∀ row ∈ d.store.subtaskList, d.Issued source row.id

theorem isOrdinary_fresh : fresh.IsOrdinary source where
  regular :=
    { Store.isHealthy_fresh with
      bounded := by
        rintro _ ⟨⟩ row hrow
        cases hrow }
  tasks := by
    rintro _ ⟨⟩ row hrow
    cases hrow
  subtasks _ hrow := nomatch hrow

namespace IsOrdinary

theorem exists_subtasks (hd : d.IsOrdinary source) : ∃ rows, d.store.subtasks = some rows := by
  obtain ⟨rows, hrows, -⟩ := hd.regular.presentable.subtasks
  exact ⟨rows, hrows⟩

/-- The next ids are not in use by subtasks. -/
theorem fresh_subtask (hd : d.IsOrdinary source) (hsource : source.IsReliable) (n : Nat)
    (hn : d.idsUsed ≤ n) : ∀ row ∈ d.store.subtaskList, row.id ≠ source.id n :=
  fresh_of_issued hsource.id_injective hd.subtasks n hn

/-- The next ids are not in use by tasks. -/
theorem fresh_task (hd : d.IsOrdinary source) (hsource : source.IsReliable) {l : Ledger}
    (hl : d.store.ledger = some l) (n : Nat) (hn : d.idsUsed ≤ n) :
    l.hasTask (some (source.id n)) = false := by
  refine Ledger.hasTask_eq_false.2 fun row hrow _ hid => ?_
  obtain ⟨m, hm, hissued⟩ := hd.tasks l hl row hrow _ hid
  have hsame : m = n := hsource.id_injective hissued.symm
  omega

end IsOrdinary

/-! ## What endpoints maintain -/

/-- The work leaves an ordinary desk ordinary, and only uses up ids. -/
def Maintains (source : Source) {α : Type} (a : Work α) : Prop :=
  ∀ d, d.IsOrdinary source → (a.on d).2.IsOrdinary source ∧ Counts d (a.on d).2

theorem isClosed_maintains : IsClosed (Maintains source) where
  pure _ d hd := ⟨hd, Nat.le_refl _⟩
  query _ d hd := ⟨hd, Nat.le_refl _⟩
  bind {_ _ a f} ha hf d hd := by
    have first := ha d hd
    rw [on_bind]
    split
    · rename_i x after hx
      rw [hx] at first
      obtain ⟨hordinary, hcounts⟩ := hf x after first.1
      exact ⟨hordinary, Nat.le_trans first.2 hcounts⟩
    · rename_i fault after hx
      rw [hx] at first
      exact first

/-- An ordinary desk stays ordinary, if the ids of tasks after some work were taken from the
    source wherever they were before, and the way of the subtasks is known. -/
theorem isOrdinary_of_passes {α : Type} {a : Work α} (horderly : Orderly a)
    (hkeeps : Keeps IsPresentable a)
    (htasks : TaskIds ((a.on d).2.Issued source) d.store →
      TaskIds ((a.on d).2.Issued source) (a.on d).2.store)
    (hd : d.IsOrdinary source) {drops : Text → Bool} {mark : Text → Option Bool}
    (hpasses : Passes source drops mark d (a.on d).2) :
    (a.on d).2.IsOrdinary source ∧ Counts d (a.on d).2 := by
  refine ⟨?_, hpasses.counts⟩
  exact {
    regular := isRegular_of_on horderly hkeeps rfl hd.regular
    tasks := htasks fun l hl row hrow id hid => (hd.tasks l hl row hrow id hid).mono hpasses.counts
    subtasks := issued_of_passes hpasses hd.subtasks }

theorem maintains_of_leaves {α : Type} {a : Work α} (horderly : Orderly a)
    (hkeeps : Keeps IsPresentable a) (htasks : ∀ {Q}, Keeps (TaskIds Q) a)
    (hleaves : Within Leaves a) : Maintains source a :=
  fun d hd => isOrdinary_of_passes horderly hkeeps (htasks d) hd (hleaves d).passes

/-- A task that is created gets the next id. -/
theorem maintains_createTask {new : Text → NewTask} (hid : ∀ id, (new id).id = some id)
    (hpriority : ∀ id, ∀ p ∈ (new id).priority, (Priority.ofName? p).isSome) :
    Maintains source (newId source >>= fun id => createTask source (new id)) := by
  intro d hd
  let begun : Desk := { d with idsUsed := d.idsUsed + 1 }
  have hcounts : Counts d begun := Nat.le_succ _
  have hbegun : begun.IsOrdinary source :=
    { regular := hd.regular
      tasks := fun l hl row hrow id hid => (hd.tasks l hl row hrow id hid).mono hcounts
      subtasks := fun row hrow => (hd.subtasks row hrow).mono hcounts }
  have hnew := hid (source.id d.idsUsed)
  have hissued : begun.Issued source (source.id d.idsUsed) := ⟨d.idsUsed, Nat.lt_succ_self _, rfl⟩
  have hpasses : Passes source (fun _ => false) (fun _ => none) begun
      ((createTask source (new (source.id d.idsUsed))).on begun).2 :=
    passes_createTask hbegun.regular.sound _
  rw [bind_on_of_ok (on_newId source d)]
  obtain ⟨hordinary, hmore⟩ := isOrdinary_of_passes (orderly_createTask _)
    (keeps_createTask (by rw [hnew]; rfl) (hpriority _))
    (taskIds_createTask (by rw [hnew]; rintro _ ⟨⟩; exact hissued.mono hpasses.counts) begun)
    hbegun hpasses
  exact ⟨hordinary, Nat.le_trans hcounts hmore⟩

theorem holdsOfCalls_maintains : HoldsOfCalls source (Maintains source) where
  createTask hid hpriority := maintains_createTask hid hpriority
  updateTask id change hchange d hd :=
    isOrdinary_of_passes (orderly_updateTask _ _)
      (keeps_updateTask _ hchange.toIsPlain.toIsPresentable)
      (taskIds_updateTask _ hchange.toIsPlain.toIsPresentable d) hd (passes_updateTask _ _)
  deleteTask id d hd := by
    obtain ⟨l, hl, -⟩ := hd.regular.presentable.ledger
    exact isOrdinary_of_passes (orderly_deleteTask _) (keeps_deleteTask _)
      (taskIds_deleteTask _ d) hd (passes_deleteTask hd.regular.sound hl _)
  toggleSubtask id mark d hd := by
    obtain ⟨rows, hrows⟩ := hd.exists_subtasks
    exact isOrdinary_of_passes (orderly_toggleSubtask _ _) (keeps_toggleSubtask _ _)
      (taskIds_toggleSubtask _ _ d) hd (Command.passes_toggleSubtask (by rw [hrows]; rfl) _ _)
  createProject name color description folderId :=
    maintains_of_leaves (orderly_createProject _ _ _ _) (keeps_createProject _ _ _ _)
      (taskIds_createProject _ _ _ _) (leaves_createProject _ _ _ _)
  deleteProject id :=
    maintains_of_leaves (orderly_deleteProject _) (keeps_deleteProject _)
      (taskIds_deleteProject _) (leaves_deleteProject _)
  createFolder name color description :=
    maintains_of_leaves (orderly_createFolder _ _ _) (keeps_createFolder _ _ _)
      (taskIds_createFolder _ _ _) (leaves_createFolder _ _ _)
  deleteFolder id :=
    maintains_of_leaves (orderly_deleteFolder _) (keeps_deleteFolder _)
      (taskIds_deleteFolder _) (leaves_deleteFolder _)
  setInputMode mode :=
    maintains_of_leaves (orderly_setInputMode _) (keeps_setInputMode _)
      (taskIds_setInputMode _) (leaves_saveSetting _ _)

/-- **Endpoints leave an ordinary desk ordinary.** -/
theorem maintains_answer {today : Date} (segment : Text) (body : Option (List UInt8))
    (e : Endpoint) : Maintains source (answer source today segment body e) :=
  answer_of_calls isClosed_maintains holdsOfCalls_maintains segment body e

theorem isOrdinary_respond {today : Date} (request : Request) (hd : d.IsOrdinary source) :
    (respond source today request d).2.IsOrdinary source ∧
      Counts d (respond source today request d).2 := by
  unfold respond
  split
  · rw [store_settle]
    exact maintains_answer _ _ _ d hd
  · exact ⟨hd, Nat.le_refl _⟩
  · exact ⟨hd, Nat.le_refl _⟩
  · exact ⟨hd, Nat.le_refl _⟩
  · exact ⟨hd, Nat.le_refl _⟩

/-- **The desk after any requests is ordinary.** -/
theorem isOrdinary_served (source : Source) (requests : List (Date × Request)) :
    (served source requests).IsOrdinary source := by
  have hrun {d : Desk} (hd : d.IsOrdinary source) :
      (d.after source
        (requests.map fun sent => .request sent.1 sent.2)).IsOrdinary source := by
    induction requests generalizing d with
    | nil => exact hd
    | cons first rest ih => exact ih (isOrdinary_respond first.2 hd).1
  exact hrun isOrdinary_fresh

end Desk
end TaskDesk
