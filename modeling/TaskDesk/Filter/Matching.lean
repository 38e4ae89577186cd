import TaskDesk.Calendar.Iso
import TaskDesk.Filter.Basic

/-!
# Tasks that meet filters

A task meets filters when it passes every condition that is set. The tasks that
do are listed by due date, those without one last; tasks with the same due date
stay in the order in which they came. A due date that cannot be read counts as
missing.

Results:
* `mem_select`: what is selected are the tasks that meet the filters.
-/

namespace TaskDesk

namespace Task

/-- The date on which a task is due. -/
def due? (t : Task) : Option Date := t.dueDate.bind Date.ofDue?

end Task

/-- Whether a due date lies before the day `today` (`is_overdue`). -/
def isOverdue (today : Date) (dueDate : Option Text) : Bool :=
  (dueDate.bind Date.ofDue?).any (· < today)

/-- The name of a project: of projects with the same id the last one counts. -/
def projectName? (projects : List Project) (id : Int) : Option Text :=
  (projects.reverse.find? (·.id == id)).map (·.name)

namespace Filters

/-- The free text occurs in the title or in the description, in any case. -/
def textMeets (f : Filters) (t : Task) : Bool :=
  f.text.isEmpty || Text.contains (Text.lower f.text) (Text.lower t.title) ||
    Text.contains (Text.lower f.text) (Text.lower t.description)

/-- Some tag that is looked for is part of some tag of the task. -/
def tagsMeet (f : Filters) (t : Task) : Bool :=
  f.tags.isEmpty ||
    f.tags.any fun wanted => t.tags.any fun tag => Text.contains wanted (Text.lower tag)

/-- The task has the priority. -/
def priorityMeets (f : Filters) (t : Task) : Bool := f.priority.all (· == t.priority)

/-- The name that is looked for is part of the name of the task's project. -/
def projectMeets (projects : List Project) (f : Filters) (t : Task) : Bool :=
  match f.project with
  | none => true
  | some wanted =>
    wanted.isEmpty || (t.projectId.bind (projectName? projects)).any fun name =>
      !name.isEmpty && Text.contains wanted (Text.lower name)

/-- The task is done, or open, as is looked for. -/
def statusMeets (f : Filters) (t : Task) : Bool :=
  match f.status with
  | none => true
  | some .completed => t.completed
  | some .incomplete => !t.completed

/-- The task is due today, or is open and was due before. -/
def dueMeets (today : Date) (f : Filters) (t : Task) : Bool :=
  match f.due with
  | none => true
  | some .today => t.due? == some today
  | some .overdue => !t.completed && isOverdue today t.dueDate

/-- Whether a task passes every condition that is set (`matches_filters`). -/
def meets (today : Date) (projects : List Project) (f : Filters) (t : Task) : Bool :=
  f.textMeets t && f.tagsMeet t && f.priorityMeets t && f.projectMeets projects t &&
    f.statusMeets t && f.dueMeets today t

/-- Whether a task is listed before another one or has the same rank: by due date,
    undated tasks last (`_due_sort_key`). -/
def ranksBefore (s t : Task) : Bool :=
  match s.due?, t.due? with
  | some d, some e => d ≤ e
  | some _, none => true
  | none, some _ => false
  | none, none => true

/-- The tasks that meet the filters, by due date (`filter_tasks`). -/
def select (today : Date) (projects : List Project) (f : Filters) (tasks : List Task) : List Task :=
  (tasks.filter (f.meets today projects)).mergeSort ranksBefore

theorem mem_select (today : Date) (projects : List Project) (f : Filters) (tasks : List Task)
    (t : Task) : t ∈ f.select today projects tasks ↔ t ∈ tasks ∧ f.meets today projects t := by
  simp [select]

end Filters
end TaskDesk
