import TaskDesk.Proofs.Desk.Orderly
import TaskDesk.Proofs.Desk.Outcome

/-!
# Refused calls

A call that the store refuses leaves the store as it was, whichever statement of the
call is refused. Single statements change nothing when they are refused, and a
transaction takes back what was done in it. What is left to show is that the store
never refuses to read back what a transaction has written: the tables that are read
were written in the transaction, so they exist.

Results:
* `Work.Atomic`: work that leaves the store as it was where the store refuses it.
* `Store.task?_error`: the store refuses to read a task only where a table is missing.
* `Command.atomic`, `Command.store_of_refused`: every call is atomic.
-/

namespace TaskDesk

/-- The store itself refuses: a table is missing, or a statement would break its
    conditions. The other faults are about a row that was written and does not make
    the record that is to be read back. -/
def Fault.IsRefusal : Fault → Prop
  | noTable _ | isNull _ _ | notUnique _ _ | brokenReference | outOfRange | notEncodable => True
  | unreadable _ | vanished => False

/-! ## Reading back -/

theorem TaskRow.toTask_error {row : TaskRow} {tags : List Text} {subtasks : List Subtask}
    {fault : Fault} (h : row.toTask tags subtasks = .error fault) : ¬ fault.IsRefusal := by
  unfold toTask at h
  split at h
  · cases h
  · cases h
    exact fun hf => hf

namespace Store

variable {s : Store} {id : Option Text} {fault : Fault}

/-- A look at the rows of an id that can be bound fails only where the table is missing. -/
theorem eq_error_of_bindAll {α β : Type} {table : Except Fault α} {read : α → β}
    (hid : IsEncodable id)
    (h : (do let rows ← table; bindAll [.text id]; return read rows) = Except.error fault) :
    table = .error fault := by
  rcases bind_eq_error.1 h with h | ⟨_, _, h⟩
  · exact h
  · rw [bindAll_text_eq_ok (u := ()) |>.2 hid] at h
    cases h

theorem taskOfRow_error {row : TaskRow} (hid : IsEncodable row.id)
    (h : s.taskOfRow row = .error fault) (hf : fault.IsRefusal) :
    s.ledger = none ∨ s.subtasks = none := by
  rcases bind_eq_error.1 h with h | ⟨tags, _, h⟩
  · exact .inl (ledgerFor_eq_error.1 (eq_error_of_bindAll hid h)).1
  · rcases bind_eq_error.1 h with h | ⟨subtasks, _, h⟩
    · exact .inr (subtaskRows_eq_error.1 (eq_error_of_bindAll hid h)).1
    · exact absurd hf (TaskRow.toTask_error h)

theorem task?_error (hid : IsEncodable id) (h : s.task? id = .error fault) (hf : fault.IsRefusal) :
    s.ledger = none ∨ s.subtasks = none := by
  rcases bind_eq_error.1 h with h | ⟨found, hfound, h⟩
  · exact .inl (ledgerFor_eq_error.1 (eq_error_of_bindAll hid h)).1
  · cases found with
    | none => cases h
    | some row =>
      obtain ⟨l, -, -, hrow⟩ := taskRow?_eq_ok.1 hfound
      have hsame := List.find?_some hrow
      rcases bind_eq_error.1 h with h | ⟨task, _, h⟩
      · exact taskOfRow_error ((sameId_iff.1 hsame).2 ▸ hid) h hf
      · cases h

end Store

/-! ## Atomic work -/

namespace Work

variable {α β : Type} {d d' : Desk} {fault : Fault}

/-- Where the store refuses the work, it is left as it was. -/
def Atomic (a : Work α) : Prop :=
  ∀ d d' fault, a.on d = (.error fault, d') → fault.IsRefusal → d'.store = d.store

namespace Atomic

theorem query (read : Store → Except Fault α) : Atomic (query read) := by
  intro d d' fault h _
  rw [(query_on_error h).2]

theorem change (write : Store → Except Fault (α × Store)) : Atomic (change write) := by
  intro d d' fault h _
  rw [change_on_error h]

theorem execute (write : Store → Except Fault Store) : Atomic (execute write) := change _

theorem transaction (a : Work α) : Atomic (transaction a) :=
  fun _ _ _ h _ => transaction_error h

/-- What is done with an outcome cannot fail any more. -/
theorem map {a : Work α} (ha : Atomic a) (f : α → β) : Atomic (a >>= fun x => pure (f x)) := by
  intro d d' fault h hf
  rcases bind_on_error h with h | ⟨x, mid, _, h⟩
  · exact ha d d' fault h hf
  · exact absurd h pure_on_ne_error

end Atomic

end Work

namespace Desk

open Work

variable {source : Source} {d d' : Desk} {fault : Fault}

/-- Where the tables exist the store does not refuse to read a task by an id that can be
    bound. -/
theorem readBack_error {id : Option Text} (hid : IsEncodable id)
    (h : (readBack id).on d = (.error fault, d')) (hl : d'.store.ledger.isSome)
    (hrows : d'.store.subtasks.isSome) : ¬ fault.IsRefusal := by
  intro hf
  rcases bind_on_error h with h | ⟨found, mid, _, h⟩
  · obtain ⟨h, rfl⟩ := query_on_error h
    rcases Store.task?_error hid h hf with hnone | hnone
    · rw [hnone] at hl
      cases hl
    · rw [hnone] at hrows
      cases hrows
  · cases found with
    | some task => exact pure_on_ne_error h
    | none =>
      cases h
      exact hf

/-- Subtasks are saved only where their table exists. -/
theorem saveSubtasks_ok {taskId : Option Text} {texts : List (Option Text)} {u : Unit}
    (h : (saveSubtasks source taskId texts).on d = (.ok u, d')) : d.store.subtasks.isSome := by
  obtain ⟨_, _, h, _⟩ := bind_on_ok h
  obtain ⟨rows, hrows, _⟩ := Store.deleteSubtasksOf_eq_ok.1 (execute_on_ok h)
  rw [hrows, Option.isSome_some]

/-- Subtasks are looked at, and then changed, only where their table exists. -/
theorem changeSubtasks_ok {taskId : Option Text} {texts : Option (List (Option Text))} {b : Bool}
    (h : (changeSubtasks source taskId texts).on d = (.ok b, d')) : d.store.subtasks.isSome := by
  obtain ⟨_, _, h, _⟩ := bind_on_ok h
  obtain ⟨rows, hrows, _⟩ := Store.subtasksOf_eq_ok.1 (query_on_ok h).1
  rw [hrows, Option.isSome_some]

/-- The store can refuse a new task only in the transaction: what is written there
    needs all tables that are read afterwards. -/
theorem atomic_createTask (new : NewTask) : Atomic (createTask source new) := by
  intro d d' fault hwhole hf
  have htables := (orderly_createTask new).sameTables hwhole
  rcases bind_on_error hwhole with h | ⟨time, begun, htime, h⟩
  · cases h
  cases htime
  rcases bind_on_error h with h | ⟨_, written, hwritten, hread⟩
  · have hback := transaction_error h
    exact hback
  obtain ⟨_, inserted, hinsert, hparts⟩ := bind_on_ok (transaction_on_ok hwritten)
  obtain ⟨_, tagged, htags, hsubtasks⟩ := bind_on_ok hparts
  obtain ⟨l, hledger, -, _, -, _, -, htexts, -⟩ :=
    Store.insertTask_eq_ok.1 (execute_on_ok hinsert)
  have hid : IsEncodable new.id := TaskRow.isEncodable_id htexts
  have hl : d.store.ledger.isSome := by
    rw [hledger, Option.isSome_some]
  have hrows : d.store.subtasks.isSome := by
    have hinserted := (Orderly.execute (.insertTask _ _)).sameTables hinsert
    have htagged := (orderly_saveTags _ _).sameTables htags
    rw [← hinserted.subtasks, ← htagged.subtasks]
    exact saveSubtasks_ok hsubtasks
  refine absurd hf (readBack_error hid hread ?_ ?_)
  · rw [htables.ledger]
    exact hl
  · rw [htables.subtasks]
    exact hrows

/-- The store can refuse a change to a task only in the transaction: the task was
    found before it, and subtasks are looked at in it. -/
theorem atomic_updateTask (id : Option Text) (change : TaskChange) :
    Atomic (updateTask source id change) := by
  intro d d' fault hwhole hf
  have htables := (orderly_updateTask id change).sameTables hwhole
  rcases bind_on_error hwhole with h | ⟨found, begun, hfound, h⟩
  · exact Atomic.query _ d d' fault h hf
  obtain ⟨hrow, rfl⟩ := query_on_ok hfound
  cases found with
  | none => exact absurd h pure_on_ne_error
  | some row =>
    rcases bind_on_error h with h | ⟨_, written, hwritten, h⟩
    · exact transaction_error h
    obtain ⟨tags, tagged, htags, hrest⟩ := bind_on_ok (transaction_on_ok hwritten)
    obtain ⟨subtasks, _, hsubtasks, _⟩ := bind_on_ok hrest
    obtain ⟨l, hledger, hid, -⟩ := Store.taskRow?_eq_ok.1 hrow
    have hl : begun.store.ledger.isSome := by
      rw [hledger, Option.isSome_some]
    have hrows : begun.store.subtasks.isSome := by
      rw [← ((orderly_changeTags _ _).sameTables htags).subtasks]
      exact changeSubtasks_ok hsubtasks
    rcases bind_on_error h with hread | ⟨task, _, _, h⟩
    · refine absurd hf (readBack_error hid hread ?_ ?_)
      · rw [htables.ledger]
        exact hl
      · rw [htables.subtasks]
        exact hrows
    · exact absurd h pure_on_ne_error

theorem atomic_toggleSubtask (id : Option Text) (mark : Int) : Atomic (toggleSubtask id mark) := by
  intro d d' fault h hf
  rcases bind_on_error h with h | ⟨found, marked, hmarked, h⟩
  · exact Atomic.change _ d d' fault h hf
  cases found with
  | false => exact absurd h pure_on_ne_error
  | true =>
    obtain ⟨rows, _, _, hid, _, heq⟩ := Store.markSubtask_eq_ok.1 (change_on_ok hmarked)
    have hnone :=
      (Store.subtaskRows_eq_error.1 (Store.eq_error_of_bindAll hid (query_on_error h).1)).1
    rw [← heq] at hnone
    cases hnone

end Desk

open Work Desk in
theorem Command.atomic (source : Source) (c : Command) : Atomic (c.perform source) := by
  cases c with
  | allTasks => exact .map (.query _) _
  | task id => exact .map (.query _) _
  | createTask new => exact .map (atomic_createTask new) _
  | updateTask id change => exact .map (atomic_updateTask id change) _
  | deleteTask id => exact .map (.change _) _
  | toggleSubtask id mark => exact .map (atomic_toggleSubtask id mark) _
  | allTags => exact .map (.query _) _
  | allProjects => exact .map (.query _) _
  | createProject name color description folderId => exact .map (.change _) _
  | deleteProject id => exact .map (.transaction _) _
  | allFolders => exact .map (.query _) _
  | createFolder name color description => exact .map (.change _) _
  | deleteFolder id => exact .map (.transaction _) _
  | setting key => exact .map (.query _) _
  | saveSetting key value => exact .map (.execute _) _
  | inputMode => exact .map (.map (.query _) _) _
  | setInputMode mode => exact .map (.execute _) _

/-- **Refused calls change nothing.** Where the store refuses a call, at whatever
    revision it is and whatever it contains, every table and every counter is as it was. -/
theorem Command.store_of_refused {source : Source} {c : Command} {d d' : Desk} {fault : Fault}
    (h : (c.perform source).on d = (.error fault, d')) (hf : fault.IsRefusal) :
    d'.store = d.store :=
  c.atomic source d d' fault h hf

/-- The second tag of a new task is null: the task and its first tag, which are written
    by then, are taken back. -/
theorem Command.store_of_refused_tag :
    let call : Command := .createTask {
      id := some "a".toText, title := some "Plan".toText
      tags := [some "home".toText, none] }
    let before : Desk := { store := Store.fresh }
    let after : Desk := { store := Store.fresh, timesUsed := 1 }
    (call.perform ⟨fun _ => [], fun _ => []⟩).on before =
        (.error (.isNull .tags "tag".toText), after) ∧
      (Fault.isNull .tags "tag".toText).IsRefusal ∧ after.store = before.store := by
  intro call before after
  have h : (call.perform ⟨fun _ => [], fun _ => []⟩).on before =
      (.error (.isNull .tags "tag".toText), after) := rfl
  exact ⟨h, trivial, store_of_refused h trivial⟩

end TaskDesk
