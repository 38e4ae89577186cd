import Mathlib.Data.List.Forall2
import TaskDesk.Proofs.Store.Success
import TaskDesk.Proofs.Text.Order

/-!
# The list of all tasks

Rows have a rank by due date and time of creation, and the list of all tasks holds
the records of all rows by rank. A record shows what is in its row.

Results:
* `TaskRow.ranksBefore_total`, `TaskRow.ranksBefore_trans`: any two rows have a rank.
* `Store.shows_of_taskOfRow`: what the record of a row shows.
* `Store.allTasks_eq_ok`, `Store.mem_allTasks`: what the list of all tasks holds.
-/

namespace TaskDesk

/-! ## Lists that correspond -/

section Correspondence

variable {α β : Type} {R : α → β → Prop} {xs : List α} {ys : List β}

theorem exists_of_mem_right (h : List.Forall₂ R xs ys) : ∀ y ∈ ys, ∃ x ∈ xs, R x y := by
  induction h with
  | nil => simp
  | @cons x y xs ys hxy _ ih =>
    rw [List.forall_mem_cons]
    refine ⟨⟨x, List.mem_cons_self, hxy⟩, fun z hz => ?_⟩
    obtain ⟨w, hw, hwz⟩ := ih z hz
    exact ⟨w, List.mem_cons_of_mem x hw, hwz⟩

/-- What holds of the members of a list in order holds of those that correspond to them. -/
theorem pairwise_right {S : α → α → Prop} {T : β → β → Prop} (h : List.Forall₂ R xs ys)
    (hxs : xs.Pairwise S) (hST : ∀ {x y x' y'}, R x y → R x' y' → S x x' → T y y') :
    ys.Pairwise T := by
  induction h with
  | nil => exact List.Pairwise.nil
  | cons hxy hrest ih =>
    rw [List.pairwise_cons] at hxs ⊢
    refine ⟨fun y' hy' => ?_, ih hxs.2⟩
    obtain ⟨x', hx', hxy'⟩ := exists_of_mem_right hrest y' hy'
    exact hST hxy hxy' (hxs.1 x' hx')

end Correspondence

namespace TaskRow

/-! ## Rank -/

/-- Of two dated rows the first one is listed before the other one if its date is, and
    at the same date if it was created before. -/
theorem ranksBefore_iff {r s : TaskRow} {d e : Text} (hr : r.dueDate = some d)
    (hs : s.dueDate = some e) :
    r.ranksBefore s = true ↔ Text.precedes d e = true ∧
      (d = e → Text.precedes r.createdAt s.createdAt = true) := by
  simp only [ranksBefore, hr, hs]
  by_cases hde : d = e
  · rw [if_pos hde, hde]
    exact ⟨fun h => ⟨Text.precedes_refl e, fun _ => h⟩, fun h => h.2 rfl⟩
  · rw [if_neg hde]
    exact ⟨fun h => ⟨h, fun h' => absurd h' hde⟩, fun h => h.1⟩

theorem ranksBefore_total (r s : TaskRow) : (r.ranksBefore s || s.ranksBefore r) = true := by
  rw [Bool.or_eq_true]
  unfold ranksBefore
  cases r.dueDate with
  | none =>
    cases s.dueDate with
    | none => exact Text.precedes_total _ _
    | some e => exact Or.inr rfl
  | some d =>
    cases s.dueDate with
    | none => exact Or.inl rfl
    | some e =>
      by_cases hde : d = e
      · simpa [hde] using Text.precedes_total _ _
      · simpa [hde, Ne.symm hde] using Text.precedes_total d e

theorem ranksBefore_trans {r s t : TaskRow} (hrs : r.ranksBefore s = true)
    (hst : s.ranksBefore t = true) : r.ranksBefore t = true := by
  cases hr : r.dueDate with
  | none =>
    -- A row without a date is listed before rows without one only.
    have hs : s.dueDate = none := by
      cases hs : s.dueDate with
      | none => rfl
      | some e => simp [ranksBefore, hr, hs] at hrs
    have ht : t.dueDate = none := by
      cases ht : t.dueDate with
      | none => rfl
      | some f => simp [ranksBefore, hs, ht] at hst
    simp only [ranksBefore, hr, hs, ht] at hrs hst ⊢
    exact Text.precedes_trans hrs hst
  | some d =>
    cases ht : t.dueDate with
    | none => simp [ranksBefore, hr, ht]
    | some f =>
      cases hs : s.dueDate with
      | none => simp [ranksBefore, hs, ht] at hst
      | some e =>
        rw [ranksBefore_iff hr hs] at hrs
        rw [ranksBefore_iff hs ht] at hst
        rw [ranksBefore_iff hr ht]
        refine ⟨Text.precedes_trans hrs.1 hst.1, fun hdf => ?_⟩
        have hde : d = e := Text.precedes_antisymm hrs.1 (hdf ▸ hst.1)
        exact Text.precedes_trans (hrs.2 hde) (hst.2 (hde.symm.trans hdf))

/-! ## Records of rows -/

/-- The record shows what is in the row. -/
structure Shows (row : TaskRow) (task : Task) : Prop where
  id : row.id = some task.id
  title : row.title = task.title
  description : row.description.getD [] = task.description
  dueDate : row.dueDate = task.dueDate
  priority : row.priority = task.priority.name
  completed : decide (row.completed ≠ 0) = task.completed

theorem shows_of_toTask {row : TaskRow} {tags : List Text} {subtasks : List Subtask} {task : Task}
    (h : row.toTask tags subtasks = .ok task) : row.Shows task := by
  unfold toTask at h
  split at h
  · rename_i id priority hid hpriority
    cases h
    exact ⟨hid, rfl, rfl, rfl, (Priority.name_of_ofName? hpriority).symm, rfl⟩
  · cases h

end TaskRow

namespace Store

variable {s : Store}

theorem shows_of_taskOfRow {row : TaskRow} {task : Task} (h : s.taskOfRow row = .ok task) :
    row.Shows task := by
  obtain ⟨tags, -, h⟩ := bind_eq_ok.1 h
  obtain ⟨subtasks, -, h⟩ := bind_eq_ok.1 h
  exact TaskRow.shows_of_toTask h

/-! ## The list -/

theorem mapM_eq_ok_iff {α β : Type} {f : α → Except Fault β} {xs : List α} {ys : List β} :
    xs.mapM f = .ok ys ↔ List.Forall₂ (fun x y => f x = .ok y) xs ys := by
  induction xs generalizing ys with
  | nil =>
    rw [List.mapM_nil, pure_eq_ok, List.forall₂_nil_left_iff]
    exact eq_comm
  | cons x xs ih =>
    simp only [List.mapM_cons, bind_eq_ok, pure_eq_ok, ih, List.forall₂_cons_left_iff]
    constructor
    · rintro ⟨y, hy, rest, hrest, rfl⟩
      exact ⟨y, rest, hy, hrest, rfl⟩
    · rintro ⟨y, rest, hy, hrest, rfl⟩
      exact ⟨y, hy, rest, hrest, rfl⟩

theorem mem_of_mapM {α β : Type} {f : α → Except Fault β} {xs : List α} {ys : List β}
    (h : xs.mapM f = .ok ys) {x : α} {y : β} (hx : x ∈ xs) (hy : f x = .ok y) : y ∈ ys := by
  rw [mapM_eq_ok_iff] at h
  induction h with
  | nil => cases hx
  | cons hfirst _ ih =>
    rcases List.mem_cons.1 hx with rfl | hx
    · rw [hy] at hfirst
      cases hfirst
      exact List.mem_cons_self
    · exact List.mem_cons_of_mem _ (ih hx)

/-- The list of all tasks holds the records of the rows, by rank. -/
theorem allTasks_eq_ok {tasks : List Task} :
    s.allTasks = .ok tasks ↔
      ∃ l, s.ledger = some l ∧
        (l.tasks.mergeSort TaskRow.ranksBefore).mapM s.taskOfRow = .ok tasks := by
  simp only [allTasks, bind_eq_ok, ledgerFor_eq_ok]

/-- The record of a row is on the list. -/
theorem mem_allTasks {tasks : List Task} {l : Ledger} (h : s.allTasks = .ok tasks)
    (hl : s.ledger = some l) {row : TaskRow} {task : Task} (hrow : row ∈ l.tasks)
    (htask : s.taskOfRow row = .ok task) : task ∈ tasks := by
  obtain ⟨k, hk, hall⟩ := allTasks_eq_ok.1 h
  cases hl.symm.trans hk
  exact mem_of_mapM hall (List.mem_mergeSort.2 hrow) htask

/-- The rows of the list come by rank. -/
theorem pairwise_ranksBefore (rows : List TaskRow) :
    (rows.mergeSort TaskRow.ranksBefore).Pairwise (TaskRow.ranksBefore · ·) := by
  apply List.pairwise_mergeSort
  · intro r s t
    exact TaskRow.ranksBefore_trans
  · exact TaskRow.ranksBefore_total

end Store
end TaskDesk
