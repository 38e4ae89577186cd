import TaskDesk.Filter.Matching
import TaskDesk.Proofs.Calendar.Order

/-!
# Due dates as they are read

Any text can be stored as a due date. Filters see it only through the reader of due dates: a
condition on the due date asks for the date that is read, and the order of a selection compares
such dates. So a due date can be replaced by any text that is read as the same date, or be left
out where none is read, and the same tasks are selected in the same order.

Results:
* `isOverdue_toIso_append`: what begins with a written date is overdue as the date is.
* `Filters.select_redated`: a selection of tasks whose due dates are read as before.
* `Filters.due_dates_as_read`: due dates that are written as they are read.
-/

namespace TaskDesk

/-- A text that begins with a written date is overdue if the date is over. -/
theorem isOverdue_toIso_append (d today : Date) (suffix : Text) :
    isOverdue today (some (d.toIso ++ suffix)) = true ↔ d < today := by
  rw [isOverdue, Option.bind_some, Date.ofDue?_toIso_append, Option.any_some, decide_eq_true_eq]

namespace Task

/-- The task with another text for its due date. -/
def redated (text : Task → Option Text) (t : Task) : Task := { t with dueDate := text t }

/-- The due date of the task as it is read: written in full, and missing if nothing is read. -/
def dueAsRead (t : Task) : Option Text := t.due?.map (·.toIso)

/-- A due date that is written as it is read is read as before. -/
theorem bind_dueAsRead (t : Task) : t.dueAsRead.bind Date.ofDue? = t.due? := by
  rw [dueAsRead]
  cases t.due? with
  | none => rfl
  | some d => exact Date.ofDue?_toIso d

end Task

namespace Filters

variable {text : Task → Option Text} (hread : ∀ t, (text t).bind Date.ofDue? = t.due?)
  (f : Filters) (today : Date) (projects : List Project)

include hread

theorem dueMeets_redated (t : Task) : f.dueMeets today (t.redated text) = f.dueMeets today t := by
  have hdue : (t.redated text).due? = t.due? := hread t
  have hoverdue : isOverdue today (t.redated text).dueDate = isOverdue today t.dueDate :=
    congrArg (Option.any (· < today)) (hread t)
  rw [dueMeets, dueMeets, hdue, hoverdue]
  rfl

/-- All other conditions look at other fields. -/
theorem meets_redated (t : Task) :
    f.meets today projects (t.redated text) = f.meets today projects t := by
  rw [meets, meets, dueMeets_redated hread]
  rfl

omit f in
theorem ranksBefore_redated (t u : Task) :
    ranksBefore (t.redated text) (u.redated text) = ranksBefore t u := by
  have hdue (t : Task) : (t.redated text).due? = t.due? := hread t
  rw [ranksBefore, ranksBefore, hdue, hdue]

/-- **Due dates that are read as before** leave the same tasks in the same order. -/
theorem select_redated (tasks : List Task) :
    f.select today projects (tasks.map (·.redated text)) =
      (f.select today projects tasks).map (·.redated text) := by
  have hmeets : f.meets today projects ∘ (·.redated text) = f.meets today projects :=
    funext (meets_redated hread f today projects)
  rw [select, select, List.filter_map, hmeets]
  exact (List.map_mergeSort fun t _ u _ => (ranksBefore_redated hread t u).symm).symm

omit hread

/-- **Due dates are seen as they are read.** A text that begins with a written date is overdue
    just if that date is before today, whatever stands behind it. A selection holds the same
    tasks in the same order where every due date is written in full as it is read, and is
    missing if it cannot be read. -/
theorem due_dates_as_read :
    (∀ (d today : Date) (suffix : Text),
      isOverdue today (some (d.toIso ++ suffix)) = true ↔ d < today) ∧
    ∀ (f : Filters) (today : Date) (projects : List Project) (tasks : List Task),
      let written := tasks.map (·.redated Task.dueAsRead)
      f.select today projects written =
        (f.select today projects tasks).map (·.redated Task.dueAsRead) ∧
      (f.select today projects written).map (·.id) = (f.select today projects tasks).map (·.id) := by
  refine ⟨isOverdue_toIso_append, fun f today projects tasks => ?_⟩
  intro written
  have hselect : f.select today projects written =
      (f.select today projects tasks).map (·.redated Task.dueAsRead) :=
    select_redated Task.bind_dueAsRead f today projects tasks
  refine ⟨hselect, ?_⟩
  rw [hselect, List.map_map]
  rfl

/-- A week without a day, a date without dashes and a text that is no date. -/
example : [some "2025-W03".toText, some "20250115T1".toText, some "soon".toText].map
    (fun due => ({ id := [], title := [], dueDate := due, createdAt := [], updatedAt := [] } :
      Task).dueAsRead) = [some "2025-01-13".toText, some "2025-01-15".toText, none] := by
  decide +kernel

end Filters
end TaskDesk
