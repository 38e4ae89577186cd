import TaskDesk.Proofs.Desk.Trace
import TaskDesk.Proofs.Store.Integrity

/-!
# What calls do to subtasks

A call does up to three things to the subtasks: it takes those of some task away, it
marks one as done or open, and it adds new ones behind the others, which are open and
have ids that no call had used before. Which task and which mark can be said of each
call at the desk where it is made, and all other calls leave the subtasks alone.

Results:
* `Desk.passes_createTask`, `Desk.passes_updateTask` and companions: the calls that
  matter for subtasks.
* `Command.passes`: every call, in a store that is sound and has all its tables.
-/

namespace TaskDesk

namespace Store

/-- The stored subtasks, in the order in which they were inserted. -/
def subtaskList (s : Store) : List SubtaskRow := s.subtasks.getD []

/-- The texts of the subtasks of a task, in their order. -/
def subtaskTexts (taskId : Option Text) (s : Store) : List (Option Text) :=
  (s.subtaskList.filter fun row => sameId taskId (some row.taskId)).map (some ·.text)

variable {s : Store} {rows : List SubtaskRow}

theorem subtaskList_eq (h : s.subtasks = some rows) : s.subtaskList = rows := by
  rw [subtaskList, h, Option.getD_some]

theorem subtaskTexts_eq {taskId : Option Text} {old : List Subtask}
    (h : s.subtasksOf taskId = .ok old) : old.map (some ·.text) = s.subtaskTexts taskId := by
  obtain ⟨rows, hrows, -, hold⟩ := subtasksOf_eq_ok.1 h
  rw [← hold, subtaskTexts, subtaskList_eq hrows, List.map_map]
  rfl

/-- Every subtask belongs to a task of the first tables. -/
theorem IsSound.task_of_mem (hs : s.IsSound) {l : Ledger} (hl : s.ledger = some l)
    {row : SubtaskRow} (hrow : row ∈ s.subtaskList) :
    ∃ task ∈ l.tasks, task.id = some row.taskId := by
  cases hrows : s.subtasks with
  | none =>
    rw [subtaskList, hrows] at hrow
    cases hrow
  | some rows =>
    rw [subtaskList_eq hrows] at hrow
    obtain ⟨k, hk, h⟩ := hs.subtask_task rows hrows row hrow
    cases hl.symm.trans hk
    exact h

/-- The first tables are there where the last one is. -/
theorem TablesMatch.ledger_of_subtasks (hs : s.TablesMatch) (h : s.subtasks.isSome) :
    ∃ l, s.ledger = some l := by
  have hlevel := hs.subtasks.1 h
  exact Option.isSome_iff_exists.1 (hs.ledger.2 (by omega))

end Store

namespace SubtaskRow

/-- The subtask with a new mark, if there is one. -/
def marked (mark : Option Bool) (row : SubtaskRow) : SubtaskRow :=
  { row with completed := mark.getD row.completed }

theorem marked_none (row : SubtaskRow) : row.marked none = row := rfl

theorem marked_marked (first second : Option Bool) (row : SubtaskRow) :
    (row.marked first).marked second = row.marked (second.or first) := by
  cases second <;> rfl

/-- The subtask is open, and its id was used on the way from one desk to the other. -/
structure IsNew (source : Source) (d e : Desk) (row : SubtaskRow) : Prop where
  completed : row.completed = false
  id : ∃ n, d.idsUsed ≤ n ∧ n < e.idsUsed ∧ row.id = source.id n

theorem IsNew.widen {source : Source} {d d' e e' : Desk} {row : SubtaskRow}
    (h : row.IsNew source d e) (hd : Desk.Counts d' d) (he : Desk.Counts e e') :
    row.IsNew source d' e' := by
  obtain ⟨n, hn, hlt, hid⟩ := h.id
  exact ⟨h.completed, n, Nat.le_trans hd hn, Nat.lt_of_lt_of_le hlt he, hid⟩

end SubtaskRow

namespace Desk

open Work

/-- How subtasks get from one desk to another: those of some tasks are dropped, the
    others may be marked, and new ones come behind them. -/
structure Passes (source : Source) (drops : Text → Bool) (mark : Text → Option Bool)
    (d e : Desk) : Prop where
  counts : Counts d e
  subtasks : ∃ new, (∀ row ∈ new, row.IsNew source d e) ∧
    e.store.subtaskList =
      ((d.store.subtaskList.filter fun row => !drops row.taskId).map fun row =>
        row.marked (mark row.id)) ++ new

variable {source : Source} {d d' e e' : Desk} {drops drops' : Text → Bool}
  {mark : Text → Option Bool}

theorem Passes.cases (h : Passes source drops mark d e) {row : SubtaskRow}
    (hrow : row ∈ e.store.subtaskList) :
    (∃ old ∈ d.store.subtaskList, drops old.taskId = false ∧ old.marked (mark old.id) = row) ∨
      row.IsNew source d e := by
  obtain ⟨new, hnew, hrows⟩ := h.subtasks
  rw [hrows] at hrow
  rcases List.mem_append.1 hrow with hrow | hrow
  · obtain ⟨old, hold, hmarked⟩ := List.mem_map.1 hrow
    obtain ⟨hold, hstays⟩ := List.mem_filter.1 hold
    exact .inl ⟨old, hold, Bool.not_eq_true' _ ▸ hstays, hmarked⟩
  · exact .inr (hnew row hrow)

theorem Passes.mem_marked (h : Passes source drops mark d e) {row : SubtaskRow}
    (hrow : row ∈ d.store.subtaskList) (hstays : drops row.taskId = false) :
    row.marked (mark row.id) ∈ e.store.subtaskList := by
  obtain ⟨new, -, hrows⟩ := h.subtasks
  rw [hrows]
  refine List.mem_append_left _ (List.mem_map.2 ⟨row, List.mem_filter.2 ⟨hrow, ?_⟩, rfl⟩)
  rw [hstays, Bool.not_false]

/-! ## Putting ways together -/

theorem Leaves.subtaskList (h : Leaves d e) : e.store.subtaskList = d.store.subtaskList := by
  rw [Store.subtaskList, h.subtasks, Store.subtaskList]

/-- Subtasks that nobody marks. -/
theorem Passes.of_unmarked (hcounts : Counts d e) (new : List SubtaskRow)
    (hnew : ∀ row ∈ new, row.IsNew source d e)
    (h : e.store.subtaskList = (d.store.subtaskList.filter fun row => !drops row.taskId) ++ new) :
    Passes source drops (fun _ => none) d e where
  counts := hcounts
  subtasks := by
    refine ⟨new, hnew, h.trans ?_⟩
    simp only [SubtaskRow.marked_none, List.map_id']

/-- Nothing is dropped or marked, and nothing is new. -/
theorem Passes.of_same (hcounts : Counts d e) (h : e.store.subtaskList = d.store.subtaskList)
    (hdrops : ∀ task, drops task = false) : Passes source drops (fun _ => none) d e := by
  refine .of_unmarked hcounts [] (List.forall_mem_nil _) ?_
  rw [h, List.append_nil, List.filter_eq_self.2 fun row _ => by rw [hdrops, Bool.not_false]]

theorem Leaves.passes (h : Leaves d e) : Passes source (fun _ => false) (fun _ => none) d e :=
  .of_same h.counts h.subtaskList fun _ => rfl

theorem Passes.rest (d : Desk) : Passes source (fun _ => false) (fun _ => none) d d :=
  (isTrace_leaves.refl d).passes

theorem Passes.after_leaves (h : Passes source drops mark d' e) (hd : Leaves d d') :
    Passes source drops mark d e := by
  obtain ⟨new, hnew, hrows⟩ := h.subtasks
  refine ⟨Nat.le_trans hd.counts h.counts, new, fun row hrow => ?_, ?_⟩
  · exact (hnew row hrow).widen hd.counts (Nat.le_refl _)
  · rw [hrows, hd.subtaskList]

theorem Passes.before_leaves (h : Passes source drops mark d e) (he : Leaves e e') :
    Passes source drops mark d e' := by
  obtain ⟨new, hnew, hrows⟩ := h.subtasks
  refine ⟨Nat.le_trans h.counts he.counts, new, fun row hrow => ?_, ?_⟩
  · exact (hnew row hrow).widen (Nat.le_refl _) he.counts
  · rw [he.subtaskList, hrows]

/-- Only tasks that have subtasks matter. -/
theorem Passes.congr (h : Passes source drops mark d e)
    (hdrops : ∀ row ∈ d.store.subtaskList, drops row.taskId = drops' row.taskId) :
    Passes source drops' mark d e := by
  obtain ⟨new, hnew, hrows⟩ := h.subtasks
  refine ⟨h.counts, new, hnew, hrows.trans ?_⟩
  rw [List.filter_congr fun row hrow => congrArg Bool.not (hdrops row hrow)]

/-- What a transaction drops is dropped where it comes through. -/
theorem passes_transaction {a : Work Unit} (hcounts : Within Counts a)
    (hdone : ∀ {u e}, a.on d = (.ok u, e) → Passes source drops (fun _ => none) d e) :
    Passes source (fun task => drops task && (a.on d).1.isOk) (fun _ => none) d
      ((transaction a).on d).2 := by
  rw [on_transaction]
  cases hon : a.on d with
  | mk outcome after =>
    cases outcome with
    | ok u => exact (hdone hon).congr fun _ _ => (Bool.and_true _).symm
    | error fault =>
      have hused : Counts d after := hcounts.of_on hon
      exact .of_same hused rfl fun _ => Bool.and_false _

/-! ## Replacing the subtasks of a task -/

theorem passes_insertSubtasks {taskId : Option Text} {texts : List (Option Text)} {u : Unit}
    (h : (insertSubtasks source taskId texts).on d = (.ok u, e)) :
    Passes source (fun _ => false) (fun _ => none) d e := by
  induction texts generalizing d with
  | nil =>
    cases h
    exact .rest e
  | cons text more ih =>
    have hcounts := (isMeter_counts.insertSubtasks taskId (text :: more)).of_on h
    obtain ⟨id, begun, hid, h⟩ := bind_on_ok h
    cases hid
    obtain ⟨_, inserted, hinsert, hmore⟩ := bind_on_ok h
    obtain ⟨rows, hrows, task, -, words, -, -, -, l, -, -, hstore⟩ :=
      Store.insertSubtask_eq_ok.1 (execute_on_ok hinsert)
    have hbegun : d.idsUsed + 1 ≤ inserted.idsUsed := (isMeter_counts.execute _).of_on hinsert
    obtain ⟨hinserted, new, hnew, hlist⟩ := ih hmore
    have hused : d.idsUsed < e.idsUsed := Nat.lt_of_lt_of_le hbegun hinserted
    refine .of_unmarked hcounts (⟨source.id d.idsUsed, task, words, false⟩ :: new) ?_ ?_
    · intro row hrow
      rcases List.mem_cons.1 hrow with rfl | hrow
      · exact ⟨rfl, d.idsUsed, Nat.le_refl _, hused, rfl⟩
      · exact (hnew row hrow).widen (Nat.le_of_succ_le hbegun) (Nat.le_refl _)
    · have hfirst : inserted.store.subtaskList =
          d.store.subtaskList ++ [⟨source.id d.idsUsed, task, words, false⟩] := by
        rw [← hstore, Store.subtaskList_eq (s := d.store) hrows]
        rfl
      rw [hlist, hfirst]
      simp [SubtaskRow.marked_none]

theorem passes_saveSubtasks {taskId : Option Text} {texts : List (Option Text)} {u : Unit}
    (h : (saveSubtasks source taskId texts).on d = (.ok u, e)) :
    Passes source (fun task => sameId taskId (some task)) (fun _ => none) d e := by
  have hcounts := (isMeter_counts.saveSubtasks taskId texts).of_on h
  obtain ⟨_, cleared, hdelete, hinsert⟩ := bind_on_ok h
  obtain ⟨rows, hrows, -, hstore⟩ := Store.deleteSubtasksOf_eq_ok.1 (execute_on_ok hdelete)
  obtain ⟨-, new, hnew, hlist⟩ := passes_insertSubtasks hinsert
  refine .of_unmarked hcounts new (fun row hrow => ?_) ?_
  · exact (hnew row hrow).widen ((isMeter_counts.execute _).of_on hdelete) (Nat.le_refl _)
  · rw [hlist, ← hstore, Store.subtaskList_eq hrows]
    simp [SubtaskRow.marked_none, Store.subtaskList]

/-- Whether texts of subtasks are given that are not those of the task. -/
def givesOther (taskId : Option Text) (texts : Option (List (Option Text))) (s : Store) : Bool :=
  texts.any fun given => given ≠ s.subtaskTexts taskId

theorem passes_changeSubtasks {taskId : Option Text} {texts : Option (List (Option Text))}
    {b : Bool} (h : (changeSubtasks source taskId texts).on d = (.ok b, e)) :
    Passes source (fun task => sameId taskId (some task) && givesOther taskId texts d.store)
      (fun _ => none) d e := by
  obtain ⟨old, begun, hquery, hrest⟩ := bind_on_ok h
  obtain ⟨hold, rfl⟩ := query_on_ok hquery
  cases texts with
  | none =>
    cases hrest
    exact (Passes.rest e).congr fun _ _ => (Bool.and_false _).symm
  | some texts =>
    dsimp only at hrest
    rw [Store.subtaskTexts_eq hold] at hrest
    split at hrest
    · rename_i hsame
      cases hrest
      refine (Passes.rest e).congr fun _ _ => ?_
      simp [givesOther, hsame]
    · rename_i hother
      obtain ⟨_, saved, hsave, hdone⟩ := bind_on_ok hrest
      cases hdone
      refine (passes_saveSubtasks hsave).congr fun _ _ => ?_
      simp [givesOther, hother]

/-! ## Calls that matter for subtasks -/

theorem readBack_desk (id : Option Text) (d : Desk) : ((readBack id).on d).2 = d := by
  rw [readBack, on_bind, on_query]
  cases d.store.task? id with
  | error fault => rfl
  | ok found => cases found <;> rfl

theorem bind_readBack_desk {α : Type} (a : Work α) (id : Option Text) (d : Desk) :
    ((a >>= fun _ => readBack id).on d).2 = (a.on d).2 := by
  rw [on_bind]
  split
  · rename_i hx
    rw [hx]
    exact readBack_desk id _
  · rename_i hx
    rw [hx]

theorem map_desk {α β : Type} (a : Work α) (f : α → β) (d : Desk) :
    ((a >>= fun x => pure (f x)).on d).2 = (a.on d).2 := by
  rw [on_bind]
  split
  · rename_i hx
    rw [hx]
    rfl
  · rename_i hx
    rw [hx]

/-- A new task had no subtasks before. -/
theorem passes_writeTask (hs : d.store.IsSound) {new : NewTask} {time : Text} {u : Unit}
    (h : (writeTask source new time).on d = (.ok u, e)) :
    Passes source (fun _ => false) (fun _ => none) d e := by
  obtain ⟨_, inserted, hinsert, h⟩ := bind_on_ok h
  obtain ⟨_, tagged, htags, hsave⟩ := bind_on_ok h
  have hleaves := isTrace_leaves.trans ((leaves_insertTask _ _).of_on hinsert)
    ((leaves_saveTags _ _).of_on htags)
  obtain ⟨l, hl, -, -, -, -, -, -, hfree, -⟩ := Store.insertTask_eq_ok.1 (execute_on_ok hinsert)
  -- What is cleared away for the new task would belong to a task with its id.
  refine ((passes_saveSubtasks hsave).after_leaves hleaves).congr fun row hrow => ?_
  obtain ⟨task, htask, hid⟩ := hs.task_of_mem hl hrow
  rw [← hid]
  exact Ledger.sameId_eq_false hfree htask

theorem passes_createTask (hs : d.store.IsSound) (new : NewTask) :
    Passes source (fun _ => false) (fun _ => none) d ((createTask source new).on d).2 := by
  have hwritten {begun : Desk} (h : begun.store.IsSound) (time : Text) :
      Passes source (fun _ => false) (fun _ => none) begun
        ((transaction (writeTask source new time)).on begun).2 :=
    (passes_transaction (isMeter_counts.writeTask new time) (passes_writeTask h)).congr
      fun _ _ => Bool.false_and _
  have hbegun : Leaves d { d with timesUsed := d.timesUsed + 1 } := ⟨rfl, rfl⟩
  rw [createTask_eq, on_bind, on_now]
  dsimp only
  rw [bind_readBack_desk]
  refine .after_leaves (hwritten ?_ _) hbegun
  exact hs

/-- Whether a change to a task gives it other subtasks and is written, even if the task
    cannot be read back then. -/
def replaces (source : Source) (id : Option Text) (change : TaskChange) (d : Desk) : Bool :=
  givesOther id change.subtasks d.store &&
    match d.store.taskRow? id with
    | .ok (some row) => ((rewriteTask source id change row).on d).1.isOk
    | _ => false

theorem passes_rewriteTask {id : Option Text} {change : TaskChange} {row : TaskRow} {u : Unit}
    (h : (rewriteTask source id change row).on d = (.ok u, e)) :
    Passes source (fun task => sameId id (some task) && givesOther id change.subtasks d.store)
      (fun _ => none) d e := by
  obtain ⟨tags, tagged, htags, hrest⟩ := bind_on_ok h
  obtain ⟨subtasks, changed, hchange, hcolumns⟩ := bind_on_ok hrest
  have htagged := (leaves_changeTags _ _).of_on htags
  have hpasses := passes_changeSubtasks hchange
  -- The texts are compared after the tags have changed, but tags do not touch them.
  unfold givesOther Store.subtaskTexts at hpasses ⊢
  rw [htagged.subtaskList] at hpasses
  exact (hpasses.after_leaves htagged).before_leaves
    ((leaves_updateColumns _ _ _).of_on hcolumns)

theorem passes_updateTask (id : Option Text) (change : TaskChange) :
    Passes source (fun task => sameId id (some task) && d.replaces source id change)
      (fun _ => none) d ((updateTask source id change).on d).2 := by
  have hnone (drops : Text → Bool) :
      Passes source (fun task => drops task && (givesOther id change.subtasks d.store && false))
        (fun _ => none) d d :=
    (Passes.rest d).congr fun _ _ => by rw [Bool.and_false, Bool.and_false]
  rw [updateTask_eq, on_bind, on_query]
  unfold replaces
  cases d.store.taskRow? id with
  | error fault => exact hnone _
  | ok found =>
    cases found with
    | none => exact hnone _
    | some row =>
      dsimp only
      rw [map_desk, bind_readBack_desk]
      exact (passes_transaction (isMeter_counts.rewriteTask id change row) passes_rewriteTask).congr
        fun _ _ => Bool.and_assoc _ _ _

theorem passes_deleteTask (hs : d.store.IsSound) {l : Ledger} (hl : d.store.ledger = some l)
    (id : Option Text) :
    Passes source (fun task => sameId id (some task)) (fun _ => none) d
      ((deleteTask id).on d).2 := by
  rw [deleteTask, on_change]
  cases hdelete : d.store.deleteTask id with
  | error fault =>
    -- The id of a stored task can be bound, so the deletion would not fail.
    refine (Passes.rest d).congr fun row hrow => (Bool.eq_false_iff.2 fun hsame => ?_).symm
    obtain ⟨task, htask, hid⟩ := hs.task_of_mem hl hrow
    have hencodable : IsEncodable id := by
      rw [(sameId_iff.1 hsame).2, ← hid]
      exact (hs.ledger l hl).task_encodable task htask
    cases hdelete.symm.trans (Store.deleteTask_eq_ok.2 ⟨l, hl, hencodable, rfl, rfl⟩)
  | ok result =>
    obtain ⟨found, store⟩ := result
    obtain ⟨_, _, _, _, rfl⟩ := Store.deleteTask_eq_ok.1 hdelete
    refine .of_unmarked (Nat.le_refl _) [] (List.forall_mem_nil _) ?_
    rw [List.append_nil, Store.subtaskList, Store.subtaskList]
    cases d.store.subtasks <;> rfl

/-- A subtask is marked, or nothing is done. -/
theorem toggleSubtask_on {rows : List SubtaskRow} (hrows : d.store.subtasks = some rows)
    (id : Option Text) (mark : Int) :
    (∃ fault, (toggleSubtask id mark).on d = (.error fault, d)) ∨
      ∃ found, (toggleSubtask id mark).on d = (.ok found, { d with store := { d.store with
        subtasks := some (rows.map fun row =>
          if sameId id (some row.id) then { row with completed := mark ≠ 0 } else row) } }) := by
  rw [toggleSubtask, on_bind, on_change]
  cases hmark : d.store.markSubtask id mark with
  | error fault => exact .inl ⟨fault, rfl⟩
  | ok result =>
    obtain ⟨found, store⟩ := result
    obtain ⟨rows', hrows', -, hencodable, -, rfl⟩ := Store.markSubtask_eq_ok.1 hmark
    cases hrows.symm.trans hrows'
    cases found with
    | false => exact .inr ⟨none, rfl⟩
    | true =>
      have hread (rows : List SubtaskRow) :
          ∃ found, Store.subtask? id { d.store with subtasks := some rows } = .ok found :=
        ⟨_, Store.subtask?_eq_ok.2 ⟨rows, rfl, hencodable, rfl⟩⟩
      exact .inr ((hread _).imp fun found hfound => Prod.ext hfound rfl)

end Desk

namespace Command

open Work Desk

/-- Whether the subtasks of a task go with the call: the task is deleted, or it is given
    other subtasks. -/
def drops (source : Source) (d : Desk) (c : Command) (task : Text) : Bool :=
  match c with
  | deleteTask id => sameId id (some task)
  | updateTask id change => sameId id (some task) && d.replaces source id change
  | _ => false

/-- The mark that the call sets on a subtask, if it sets one and does not fail. -/
def toggles (d : Desk) (c : Command) (id : Text) : Option Bool :=
  match c with
  | toggleSubtask wanted mark =>
    if sameId wanted (some id) && ((Desk.toggleSubtask wanted mark).on d).1.isOk then
      some (mark ≠ 0)
    else none
  | _ => none

variable {source : Source} {d : Desk}

theorem passes_toggleSubtask (hrows : d.store.subtasks.isSome) (id : Option Text) (mark : Int) :
    Passes source (fun _ => false) ((toggleSubtask id mark).toggles d) d
      ((Desk.toggleSubtask id mark).on d).2 := by
  obtain ⟨rows, hrows⟩ := Option.isSome_iff_exists.1 hrows
  rcases toggleSubtask_on hrows id mark with ⟨fault, hon⟩ | ⟨found, hon⟩
  · have hmark : (toggleSubtask id mark).toggles d = fun _ => none := by
      funext wanted
      simp [toggles, hon, Except.isOk, Except.toBool]
    rw [hmark, hon]
    exact .rest d
  · have hmark (row : SubtaskRow) : (toggleSubtask id mark).toggles d row.id =
        if sameId id (some row.id) then some (decide (mark ≠ 0)) else none := by
      simp [toggles, hon, Except.isOk, Except.toBool]
    rw [hon]
    refine ⟨Nat.le_refl _, [], List.forall_mem_nil _, ?_⟩
    rw [Store.subtaskList_eq hrows, List.append_nil, List.filter_eq_self.2 fun _ _ => by rfl]
    refine List.map_congr_left fun row _ => ?_
    rw [hmark]
    split <;> rfl

/-- **What calls do to subtasks.** In a store that is sound and has all its tables. -/
theorem passes (hs : d.store.IsSound) (hrows : d.store.subtasks.isSome) (c : Command) :
    Passes source (c.drops source d) (c.toggles d) d ((c.perform source).on d).2 := by
  have hleaves {a : Work Answer} (ha : Within Leaves a) :
      Passes source (fun _ => false) (fun _ => none) d (a.on d).2 := (ha d).passes
  have hmap {α : Type} {a : Work α} (ha : Within Leaves a) (f : α → Answer) :
      Within Leaves (a >>= fun x => pure (f x)) :=
    .bind isTrace_leaves ha fun _ => .pure isTrace_leaves _
  cases c with
  | createTask new =>
    rw [perform, map_desk]
    exact passes_createTask hs new
  | updateTask id change =>
    rw [perform, map_desk]
    exact passes_updateTask id change
  | deleteTask id =>
    obtain ⟨l, hl⟩ := hs.tables.ledger_of_subtasks hrows
    rw [perform, map_desk]
    exact passes_deleteTask hs hl id
  | toggleSubtask id mark =>
    rw [perform, map_desk]
    exact passes_toggleSubtask hrows id mark
  | allTasks => exact hleaves (hmap (.query isTrace_leaves _) _)
  | task id => exact hleaves (hmap (.query isTrace_leaves _) _)
  | allTags => exact hleaves (hmap (.query isTrace_leaves _) _)
  | allProjects => exact hleaves (hmap (.query isTrace_leaves _) _)
  | createProject name color description folderId =>
    exact hleaves (hmap (leaves_createProject _ _ _ _) _)
  | deleteProject id => exact hleaves (hmap (leaves_deleteProject id) _)
  | allFolders => exact hleaves (hmap (.query isTrace_leaves _) _)
  | createFolder name color description => exact hleaves (hmap (leaves_createFolder _ _ _) _)
  | deleteFolder id => exact hleaves (hmap (leaves_deleteFolder id) _)
  | setting key => exact hleaves (hmap (.query isTrace_leaves _) _)
  | saveSetting key value => exact hleaves (hmap (leaves_saveSetting key value) _)
  | inputMode => exact hleaves (hmap leaves_inputMode _)
  | setInputMode mode => exact hleaves (hmap (leaves_saveSetting _ mode) _)

end Command
end TaskDesk
