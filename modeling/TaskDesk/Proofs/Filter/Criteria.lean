import Mathlib.Logic.Basic
import TaskDesk.Filter.Matching

/-!
# What filters ask for

Filters can set six conditions, each on its own, and a condition that is empty is not set.
A task meets the filters if it passes every condition that they set.

Results:
* `projectName?_eq_some_iff`: the project that gives a task its project name.
* `Filters.meets_iff`: meeting filters is passing all conditions that they set.
-/

namespace TaskDesk

/-- The conditions that filters can set. -/
inductive Criterion where
  | text | tags | priority | project | status | due
deriving DecidableEq, Repr

/-- The last project of a list that has the id. -/
def IsLastWithId (projects : List Project) (id : Int) (p : Project) : Prop :=
  ∃ before after, projects = before ++ p :: after ∧ p.id = id ∧ ∀ q ∈ after, q.id ≠ id

theorem projectName?_eq_some_iff {projects : List Project} {id : Int} {name : Text} :
    projectName? projects id = some name ↔ ∃ p, IsLastWithId projects id p ∧ p.name = name := by
  simp only [projectName?, Option.map_eq_some_iff, List.find?_eq_some_iff_append, IsLastWithId,
    beq_iff_eq, Bool.not_eq_eq_eq_not, Bool.not_true, beq_eq_false_iff_ne]
  constructor
  · rintro ⟨p, ⟨hid, later, earlier, hlist, hlater⟩, hname⟩
    refine ⟨p, ⟨earlier.reverse, later.reverse, ?_, hid, fun q hq => hlater q (by simpa using hq)⟩,
      hname⟩
    rw [← List.reverse_reverse projects, hlist]
    simp
  · rintro ⟨p, ⟨before, after, rfl, hid, hafter⟩, hname⟩
    exact ⟨p, ⟨hid, after.reverse, before.reverse, by simp, fun q hq => hafter q (by simpa using hq)⟩,
      hname⟩

namespace Filters

/-- The filters set the condition. What is empty sets nothing. -/
def Constrains (f : Filters) : Criterion → Prop
  | .text => f.text ≠ []
  | .tags => f.tags ≠ []
  | .priority => f.priority ≠ none
  | .project => f.project.getD [] ≠ []
  | .status => f.status ≠ none
  | .due => f.due ≠ none

instance (f : Filters) : DecidablePred f.Constrains
  | .text => inferInstanceAs (Decidable (f.text ≠ []))
  | .tags => inferInstanceAs (Decidable (f.tags ≠ []))
  | .priority => inferInstanceAs (Decidable (f.priority ≠ none))
  | .project => inferInstanceAs (Decidable (f.project.getD [] ≠ []))
  | .status => inferInstanceAs (Decidable (f.status ≠ none))
  | .due => inferInstanceAs (Decidable (f.due ≠ none))

/-- The task passes the condition as the filters set it. -/
def Passes (today : Date) (projects : List Project) (f : Filters) (t : Task) : Criterion → Prop
  | .text => Text.lower f.text <:+: Text.lower t.title ∨
      Text.lower f.text <:+: Text.lower t.description
  | .tags => ∃ wanted ∈ f.tags, ∃ tag ∈ t.tags, wanted <:+: Text.lower tag
  | .priority => f.priority = some t.priority
  | .project => ∃ wanted ∈ f.project, ∃ id ∈ t.projectId, ∃ p,
      IsLastWithId projects id p ∧ wanted <:+: Text.lower p.name
  | .status => f.status = some (if t.completed then .completed else .incomplete)
  | .due => (f.due = some .today ∧ t.due? = some today) ∨
      (f.due = some .overdue ∧ t.completed = false ∧ ∃ d ∈ t.due?, d < today)

/-- The task passes every condition that the filters set. -/
def IsMetBy (today : Date) (projects : List Project) (f : Filters) (t : Task) : Prop :=
  ∀ k, f.Constrains k → f.Passes today projects t k

section

variable (today : Date) (projects : List Project) {f : Filters} {t : Task}

/-! ## Condition by condition -/

theorem textMeets_iff :
    f.textMeets t = true ↔ (f.Constrains .text → f.Passes today projects t .text) := by
  simp only [textMeets, Bool.or_assoc, Bool.or_eq_true, Text.contains_iff, List.isEmpty_iff]
  exact or_iff_not_imp_left

theorem tagsMeet_iff :
    f.tagsMeet t = true ↔ (f.Constrains .tags → f.Passes today projects t .tags) := by
  simp only [tagsMeet, Bool.or_eq_true, List.any_eq_true, Text.contains_iff, List.isEmpty_iff]
  exact or_iff_not_imp_left

theorem priorityMeets_iff :
    f.priorityMeets t = true ↔ (f.Constrains .priority → f.Passes today projects t .priority) := by
  cases h : f.priority <;> simp [priorityMeets, Constrains, Passes, h]

/-- A piece of an empty text is empty, so a project without a name is found by no name. -/
theorem projectMeets_iff :
    f.projectMeets projects t = true ↔
      (f.Constrains .project → f.Passes today projects t .project) := by
  cases h : f.project with
  | none => simp [projectMeets, Constrains, Passes, h]
  | some wanted =>
    cases wanted with
    | nil => simp [projectMeets, Constrains, h]
    | cons c wanted =>
      have hname : ∀ name : Text, c :: wanted <:+: Text.lower name → name ≠ [] := by
        rintro name hpiece rfl
        cases List.infix_nil.1 hpiece
      cases hid : t.projectId with
      | none => simp [projectMeets, Constrains, Passes, h, hid]
      | some id =>
        simp only [projectMeets, Constrains, Passes, h, hid, List.isEmpty_cons, Bool.false_or,
          Option.bind_some, Option.any_eq_true, projectName?_eq_some_iff, Bool.and_eq_true,
          Text.contains_iff, Bool.not_eq_true', List.isEmpty_eq_false_iff, Option.getD_some, ne_eq,
          reduceCtorEq, not_false_eq_true, Option.mem_def, Option.some.injEq, exists_eq_left',
          true_imp_iff]
        constructor
        · rintro ⟨-, ⟨p, hp, rfl⟩, -, hpiece⟩
          exact ⟨p, hp, hpiece⟩
        · rintro ⟨p, hp, hpiece⟩
          exact ⟨p.name, ⟨p, hp, rfl⟩, hname _ hpiece, hpiece⟩

theorem statusMeets_iff :
    f.statusMeets t = true ↔ (f.Constrains .status → f.Passes today projects t .status) := by
  rcases h : f.status with _ | s
  · simp [statusMeets, Constrains, h]
  · cases s <;> cases hdone : t.completed <;> simp [statusMeets, Constrains, Passes, h, hdone]

theorem dueMeets_iff :
    f.dueMeets today t = true ↔ (f.Constrains .due → f.Passes today projects t .due) := by
  rcases h : f.due with _ | b
  · simp [dueMeets, Constrains, h]
  · cases b
    · simp [dueMeets, Constrains, Passes, h]
    · simp [dueMeets, Constrains, Passes, h, isOverdue, Task.due?, Option.any_eq_true]

end

variable {today : Date} {projects : List Project} {f : Filters} {t : Task}

/-- **Meeting filters** is passing all conditions that they set. -/
theorem meets_iff : f.meets today projects t = true ↔ f.IsMetBy today projects t := by
  simp only [meets, Bool.and_eq_true, textMeets_iff today projects, tagsMeet_iff today projects,
    priorityMeets_iff today projects, projectMeets_iff today projects,
    statusMeets_iff today projects, dueMeets_iff today projects]
  constructor
  · rintro ⟨⟨⟨⟨⟨htext, htags⟩, hpriority⟩, hproject⟩, hstatus⟩, hdue⟩ k
    cases k <;> assumption
  · intro h
    exact ⟨⟨⟨⟨⟨h .text, h .tags⟩, h .priority⟩, h .project⟩, h .status⟩, h .due⟩

instance : Decidable (f.IsMetBy today projects t) := decidable_of_iff _ meets_iff

end Filters
end TaskDesk
