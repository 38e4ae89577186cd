import Mathlib.Logic.Relation
import TaskDesk.Proofs.Store.Success
import TaskDesk.Store.Migration

/-!
# Steps of a store

Whatever calls and requests do to a store is a run of statements, each of which
succeeds. A move between revisions is a run of single moves up or down. What each
statement and each single move keeps is therefore kept for good.

Results:
* `Step.sameTables`: a statement neither creates nor drops a table, and leaves the
  revision.
* `exists_climb_of_upgrade`, `exists_descend_of_downgrade`: a move is a number of steps up
  or down, and so (`Moves.upgrade`, `Moves.downgrade`) a run of single moves.
* `keeps_run`: what single steps keep, a run keeps.
-/

namespace TaskDesk
namespace Store

/-! ## Statements -/

/-- A statement that succeeds leads from one store to the next. -/
inductive Step (s s' : Store) : Prop
  | insertTask (new : NewTaskRow) (now : Text) (h : s.insertTask new now = .ok s')
  | updateTask (edit : TaskEdit) (now : Text) (row : TaskRow)
      (h : s.updateTask edit now row = .ok s')
  | deleteTask (id : Option Text) (found : Bool) (h : s.deleteTask id = .ok (found, s'))
  | deleteTagsOf (taskId : Option Text) (h : s.deleteTagsOf taskId = .ok s')
  | insertTag (taskId tag : Option Text) (h : s.insertTag taskId tag = .ok s')
  | deleteSubtasksOf (taskId : Option Text) (h : s.deleteSubtasksOf taskId = .ok s')
  | insertSubtask (id : Text) (taskId text : Option Text)
      (h : s.insertSubtask id taskId text = .ok s')
  | markSubtask (id : Option Text) (mark : Int) (found : Bool)
      (h : s.markSubtask id mark = .ok (found, s'))
  | insertProject (name color description : Option Text) (folderId : Option Int) (p : Project)
      (h : s.insertProject name color description folderId = .ok (p, s'))
  | leaveProject (id : Option Int) (h : s.leaveProject id = .ok s')
  | deleteProject (id : Option Int) (found : Bool) (h : s.deleteProject id = .ok (found, s'))
  | insertFolder (name color description : Option Text) (f : Folder)
      (h : s.insertFolder name color description = .ok (f, s'))
  | leaveFolder (id : Option Int) (h : s.leaveFolder id = .ok s')
  | deleteFolder (id : Option Int) (found : Bool) (h : s.deleteFolder id = .ok (found, s'))
  | saveSetting (key value : Option Text) (h : s.saveSetting key value = .ok s')

/-- A run of statements that succeed. -/
abbrev Steps : Store → Store → Prop := Relation.ReflTransGen Step

/-- A store has a table. -/
def has (name : TableName) (s : Store) : Bool :=
  match name with
  | .folders => s.folders.isSome
  | .projects => s.projects.isSome
  | .tasks => s.tasks.isSome
  | .tags => s.tags.isSome
  | .settings => s.settings.isSome
  | .subtasks => s.subtasks.isSome

/-- Two stores are at the same revision, have the same tables, and list them alike. -/
structure SameTables (s s' : Store) : Prop where
  version : s'.version = s.version
  schema : s'.schema = s.schema
  has : ∀ name, s'.has name = s.has name

namespace SameTables

theorem refl (s : Store) : SameTables s s := ⟨rfl, rfl, fun _ => rfl⟩

theorem trans {s t u : Store} (h : SameTables s t) (h' : SameTables t u) : SameTables s u where
  version := h'.version.trans h.version
  schema := h'.schema.trans h.schema
  has name := (h'.has name).trans (h.has name)

variable {s : Store}

theorem setLedger {l : Ledger} (hl : s.ledger = some l) (l' : Ledger) :
    SameTables s (s.setLedger l') := by
  obtain ⟨hfolders, hprojects, htasks, htags⟩ := ledger_eq_some.1 hl
  refine ⟨rfl, rfl, fun name => ?_⟩
  cases name <;> simp only [Store.has, Store.setLedger, hfolders, hprojects, htasks, htags,
    Option.isSome_some]

theorem setSettings {rows : List SettingRow} (hrows : s.settings = some rows)
    (rows' : List SettingRow) : SameTables s { s with settings := some rows' } := by
  refine ⟨rfl, rfl, fun name => ?_⟩
  cases name <;> simp only [Store.has, hrows, Option.isSome_some]

/-- Subtasks may change, as long as there is a table of them before and after. -/
theorem setSubtasks (s : Store) {rows : Option (List SubtaskRow)}
    (hrows : rows.isSome = s.subtasks.isSome) : SameTables s { s with subtasks := rows } := by
  refine ⟨rfl, rfl, fun name => ?_⟩
  cases name <;> simp only [Store.has, hrows]

variable {s' : Store}

theorem ledger (h : SameTables s s') : s'.ledger.isSome = s.ledger.isSome := by
  have hfolders : s'.folders.isSome = s.folders.isSome := h.has .folders
  have hprojects : s'.projects.isSome = s.projects.isSome := h.has .projects
  have htasks : s'.tasks.isSome = s.tasks.isSome := h.has .tasks
  have htags : s'.tags.isSome = s.tags.isSome := h.has .tags
  rw [Bool.eq_iff_iff, isSome_ledger, isSome_ledger, hfolders, hprojects, htasks, htags]

theorem subtasks (h : SameTables s s') : s'.subtasks.isSome = s.subtasks.isSome :=
  h.has .subtasks

end SameTables

variable {s s' : Store}

theorem Step.sameTables (h : Step s s') : SameTables s s' := by
  cases h with
  | insertTask new now h =>
    obtain ⟨l, hl, _, _, _, _, _, _, _, _, rfl⟩ := insertTask_eq_ok.1 h
    exact .setLedger hl _
  | updateTask edit now row h =>
    obtain ⟨l, hl, _, _, _, _, rfl⟩ := updateTask_eq_ok.1 h
    exact .setLedger hl _
  | deleteTask id found h =>
    obtain ⟨l, hl, _, _, rfl⟩ := deleteTask_eq_ok.1 h
    exact (SameTables.setLedger hl _).trans (.setSubtasks _ Option.isSome_map)
  | deleteTagsOf taskId h =>
    obtain ⟨l, hl, -, rfl⟩ := deleteTagsOf_eq_ok.1 h
    exact .setLedger hl _
  | insertTag taskId tag h =>
    obtain ⟨l, hl, _, _, _, _, _, _, _, rfl⟩ := insertTag_eq_ok.1 h
    exact .setLedger hl _
  | deleteSubtasksOf taskId h =>
    obtain ⟨rows, hrows, -, rfl⟩ := deleteSubtasksOf_eq_ok.1 h
    exact .setSubtasks s (by rw [hrows]; rfl)
  | insertSubtask id taskId text h =>
    obtain ⟨rows, hrows, _, _, _, _, _, _, _, _, _, rfl⟩ := insertSubtask_eq_ok.1 h
    exact .setSubtasks s (by rw [hrows]; rfl)
  | markSubtask id mark found h =>
    obtain ⟨rows, hrows, _, _, _, rfl⟩ := markSubtask_eq_ok.1 h
    exact .setSubtasks s (by rw [hrows]; rfl)
  | insertProject name color description folderId p h =>
    obtain ⟨l, hl, _, _, _, _, _, _, _, _, rfl⟩ := insertProject_eq_ok.1 h
    exact .setLedger hl _
  | leaveProject id h =>
    obtain ⟨l, hl, _, rfl⟩ := leaveProject_eq_ok.1 h
    exact .setLedger hl _
  | deleteProject id found h =>
    obtain ⟨l, hl, _, _, _, rfl⟩ := deleteProject_eq_ok.1 h
    exact .setLedger hl _
  | insertFolder name color description f h =>
    obtain ⟨l, hl, _, _, _, _, _, _, rfl⟩ := insertFolder_eq_ok.1 h
    exact .setLedger hl _
  | leaveFolder id h =>
    obtain ⟨l, hl, _, rfl⟩ := leaveFolder_eq_ok.1 h
    exact .setLedger hl _
  | deleteFolder id found h =>
    obtain ⟨l, hl, _, _, _, rfl⟩ := deleteFolder_eq_ok.1 h
    exact .setLedger hl _
  | saveSetting key value h =>
    obtain ⟨rows, hrows, _, _, _, h⟩ := saveSetting_eq_ok.1 h
    split at h <;> subst h <;> exact .setSettings hrows _

theorem Steps.sameTables (h : Steps s s') : SameTables s s' := by
  induction h with
  | refl => exact .refl s
  | tail _ hstep ih => exact ih.trans hstep.sameTables

/-! ## Moves and runs -/

/-- A single move between neighbouring revisions. -/
inductive Move (s : Store) : Store → Prop
  | raise (r : Revision) (h : r.level = s.level + 1) : Move s (s.raise r)
  | lower (r : Revision) (h : s.version = some r) : Move s (s.lower r)

/-- A run of single moves. -/
abbrev Moves : Store → Store → Prop := Relation.ReflTransGen Move

theorem level_of_ofLevel? {n : Nat} {r : Revision} (h : Revision.ofLevel? n = some r) :
    r.level = n := by
  simpa using List.find?_some h

theorem Moves.climb (steps : Nat) (s : Store) : Moves s (s.climb steps) := by
  induction steps generalizing s with
  | zero => exact .refl
  | succ steps ih =>
    rw [Store.climb]
    split
    · rename_i r hr
      exact .head (.raise r (level_of_ofLevel? hr)) (ih _)
    · exact .refl

theorem Moves.descend (steps : Nat) (s : Store) : Moves s (s.descend steps) := by
  induction steps generalizing s with
  | zero => exact .refl
  | succ steps ih =>
    rw [Store.descend]
    split
    · rename_i r hr
      exact .head (.lower r hr) (ih _)
    · exact .refl

/-- A move up is a number of steps up. -/
theorem exists_climb_of_upgrade {target : Target} (h : s.upgrade target = .ok s') :
    ∃ steps, s' = s.climb steps := by
  have hclimbTo {n : Option Nat} (h : s.climbTo n = .ok s') : ∃ steps, s' = s.climb steps := by
    unfold Store.climbTo at h
    split at h
    · split at h
      · cases h
      · cases h
        exact ⟨_, rfl⟩
    · cases h
  cases target with
  | level n => cases h; exact ⟨_, rfl⟩
  | fromHere n =>
    rw [Store.upgrade] at h
    split at h
    · cases h; exact ⟨_, rfl⟩
    · cases h
  | fromLevel n steps => exact hclimbTo h
  | belowLast steps => exact hclimbTo h
  | nameless => cases h
  | unknown => cases h

/-- A move down is a number of steps down. -/
theorem exists_descend_of_downgrade {target : Target} (h : s.downgrade target = .ok s') :
    ∃ steps, s' = s.descend steps := by
  have hdescendTo {n : Option Nat} (h : s.descendTo n = .ok s') :
      ∃ steps, s' = s.descend steps := by
    unfold Store.descendTo at h
    split at h
    · split at h
      · cases h
        exact ⟨_, rfl⟩
      · cases h
    · cases h
  cases target with
  | level n =>
    rw [Store.downgrade] at h
    exact hdescendTo h
  | fromHere n =>
    rw [Store.downgrade] at h
    split at h
    · cases h; exact ⟨_, rfl⟩
    · cases h
  | fromLevel n steps =>
    rw [Store.downgrade] at h
    split at h
    · cases h
    · exact hdescendTo h
  | belowLast steps => cases h
  | nameless => cases h
  | unknown => cases h

theorem Moves.upgrade {target : Target} (h : s.upgrade target = .ok s') : Moves s s' := by
  obtain ⟨steps, rfl⟩ := exists_climb_of_upgrade h
  exact .climb steps s

theorem Moves.downgrade {target : Target} (h : s.downgrade target = .ok s') : Moves s s' := by
  obtain ⟨steps, rfl⟩ := exists_descend_of_downgrade h
  exact .descend steps s

/-- What single steps keep, a run keeps. -/
theorem keeps_run {P : Store → Prop} {R : Store → Store → Prop} {s s' : Store}
    (hrun : Relation.ReflTransGen R s s') (hkeeps : ∀ s s', R s s' → P s → P s') (h : P s) :
    P s' := by
  induction hrun with
  | refl => exact h
  | tail _ hlast ih => exact hkeeps _ _ hlast ih

end Store
end TaskDesk
