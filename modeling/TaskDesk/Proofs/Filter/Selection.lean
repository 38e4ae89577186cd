import TaskDesk.Filter.Matching
import TaskDesk.Proofs.Calendar.Order
import TaskDesk.Proofs.Store.Listing

/-!
# Selections in order

The store orders tasks by the text of their due dates, and a selection is ordered
by the dates that these texts stand for. As long as every due date begins with a
written date, the two orders agree, so a selection of the list of all tasks leaves
tasks out and moves none.

Results:
* `Filters.select_eq_filter`: what is listed by due date is not sorted again.
* `Store.pairwise_allTasks`: with such due dates the list is in the order of dates.
* `Filters.meets_of_setsNothing`: filters that set nothing are met by every task.
-/

namespace TaskDesk

/-- The due date of the row, if it has one, begins with a written date. -/
def TaskRow.IsDated (row : TaskRow) : Prop := ∀ due ∈ row.dueDate, ∃ d : Date, d.toIso <+: due

/-- Every due date in the store begins with a written date. -/
def Store.IsDated (s : Store) : Prop := ∀ l ∈ s.ledger, ∀ row ∈ l.tasks, row.IsDated

/-- Whether a text begins with a written date can be seen by reading it. -/
instance (due : Text) : Decidable (∃ d : Date, d.toIso <+: due) :=
  decidable_of_iff (∃ d ∈ Date.ofDue? due, d.toIso <+: due) <| by
    constructor
    · rintro ⟨d, -, h⟩
      exact ⟨d, h⟩
    · rintro ⟨d, rest, rfl⟩
      exact ⟨d, Date.ofDue?_toIso_append d rest, rest, rfl⟩

instance (row : TaskRow) : Decidable row.IsDated :=
  inferInstanceAs (Decidable (∀ due ∈ row.dueDate, ∃ d : Date, d.toIso <+: due))

instance (s : Store) : Decidable s.IsDated :=
  inferInstanceAs (Decidable (∀ l ∈ s.ledger, ∀ row ∈ l.tasks, row.IsDated))

namespace Filters

/-- The filters set nothing. An empty project name is as good as none. -/
def SetsNothing (f : Filters) : Prop := f = {} ∨ f = { project := some [] }

theorem meets_of_setsNothing {f : Filters} (h : f.SetsNothing) (today : Date)
    (projects : List Project) (t : Task) : f.meets today projects t = true := by
  rcases h with rfl | rfl <;> rfl

/-- What is listed by due date is not sorted again. -/
theorem select_eq_filter {tasks : List Task} (h : tasks.Pairwise (ranksBefore · ·))
    (f : Filters) (today : Date) (projects : List Project) :
    f.select today projects tasks = tasks.filter (f.meets today projects) := by
  rw [select]
  exact List.mergeSort_of_pairwise (h.sublist List.filter_sublist)

end Filters

/-- Records of dated rows have the rank of their rows. -/
theorem TaskRow.Shows.ranksBefore {r s : TaskRow} {t u : Task} (hr : r.Shows t) (hs : s.Shows u)
    (hrdated : r.IsDated) (hsdated : s.IsDated) (h : r.ranksBefore s = true) :
    Filters.ranksBefore t u = true := by
  unfold Filters.ranksBefore Task.due?
  rw [← hr.dueDate, ← hs.dueDate]
  cases hrdue : r.dueDate with
  | none =>
    cases hsdue : s.dueDate with
    | none => rfl
    | some e' => simp [TaskRow.ranksBefore, hrdue, hsdue] at h
  | some d' =>
    obtain ⟨d, rest, rfl⟩ := hrdated d' hrdue
    cases hsdue : s.dueDate with
    | none => simp [Date.ofDue?_toIso_append]
    | some e' =>
      obtain ⟨e, more, rfl⟩ := hsdated e' hsdue
      have hdates := ((TaskRow.ranksBefore_iff hrdue hsdue).1 h).1
      rw [Date.precedes_toIso] at hdates
      simp only [Option.bind_some, Date.ofDue?_toIso_append, decide_eq_true_eq]
      by_cases hde : d = e
      · rw [hde, Date.le_iff]
      · rw [if_neg hde, decide_eq_true_eq, Date.lt_iff] at hdates
        exact Nat.le_of_lt hdates

/-- With due dates that begin with written dates the list of all tasks is in the order of
    dates. -/
theorem Store.pairwise_allTasks {s : Store} {tasks : List Task} (hs : s.IsDated)
    (h : s.allTasks = .ok tasks) : tasks.Pairwise (Filters.ranksBefore · ·) := by
  obtain ⟨l, hl, hall⟩ := allTasks_eq_ok.1 h
  have hdated : ∀ row ∈ l.tasks.mergeSort TaskRow.ranksBefore, row.IsDated :=
    fun row hrow => hs l hl row (List.mem_mergeSort.1 hrow)
  have hrows := (List.forall₂_and_left _ _).2 ⟨hdated, mapM_eq_ok_iff.1 hall⟩
  refine pairwise_right hrows (pairwise_ranksBefore l.tasks) fun hr hs hrank => ?_
  exact (shows_of_taskOfRow hr.2).ranksBefore (shows_of_taskOfRow hs.2) hr.1 hs.1 hrank

end TaskDesk
