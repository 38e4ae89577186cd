import TaskDesk.Proofs.Filter.Merge
import TaskDesk.Proofs.Filter.Ranking

/-!
# Filters one after the other

Filters that set no condition in common narrow a list of tasks independently: the second
ones select from what the first ones have left just what both select together, whichever
come first. Tags are different. A task needs one of them only, so more tags widen a
selection.

Results:
* `Filters.isMetBy_merge`: what meets two filters that set nothing in common.
* `Filters.select_select`: selecting twice.
* `Filters.select_merge`: filters that set nothing in common, and filters that set tags only.
-/

namespace TaskDesk
namespace Filters

variable {today : Date} {projects : List Project} {f g h : Filters} {t : Task} {k : Criterion}

/-! ## Filters that set nothing in common -/

/-- The filters without an empty project name. It sets nothing, so it must not take the place
    of a name that does. -/
def pruned (f : Filters) : Filters := { f with project := f.project.filter (!·.isEmpty) }

theorem project_pruned_eq_none (hf : ¬ f.Constrains .project) : f.pruned.project = none := by
  have hempty : f.project.getD [] = [] := not_not.1 hf
  cases hname : f.project with
  | none => rw [pruned, hname]; rfl
  | some name =>
    rw [hname] at hempty
    rw [pruned, hname, show name = [] from hempty]
    rfl

theorem getD_project_pruned (f : Filters) : f.pruned.project.getD [] = f.project.getD [] := by
  rw [pruned]
  cases f.project with
  | none => rfl
  | some name => cases name <;> rfl

/-- Both filters have the same in the place of the condition. -/
def Agree (f g : Filters) : Criterion → Prop
  | .text => f.text = g.text
  | .tags => f.tags = g.tags
  | .priority => f.priority = g.priority
  | .project => f.project.getD [] = g.project.getD []
  | .status => f.status = g.status
  | .due => f.due = g.due

/-- What the filters ask for in a condition, if they set it, depends on nothing else. -/
theorem Agree.asks_iff (h : f.Agree g k) :
    (f.Constrains k → f.Passes today projects t k) ↔
      (g.Constrains k → g.Passes today projects t k) := by
  cases k with
  | text => simp only [Constrains, Passes, show f.text = g.text from h]
  | tags => simp only [Constrains, Passes, show f.tags = g.tags from h]
  | priority => simp only [Constrains, Passes, show f.priority = g.priority from h]
  | status => simp only [Constrains, Passes, show f.status = g.status from h]
  | due => simp only [Constrains, Passes, show f.due = g.due from h]
  | project =>
    have hname : f.project.getD [] = g.project.getD [] := h
    have hask : ∀ f' : Filters, (f'.Constrains .project → f'.Passes today projects t .project) ↔
        (f'.project.getD [] ≠ [] → ∃ id ∈ t.projectId, ∃ p,
          IsLastWithId projects id p ∧ f'.project.getD [] <:+: Text.lower p.name) := by
      intro f'
      cases hf' : f'.project <;> simp [Constrains, Passes, hf']
    rw [hask f, hask g, hname]

theorem agree_merge_left (hg : ¬ g.Constrains k) : (f.pruned.merge g.pruned).Agree f k := by
  cases k with
  | text =>
    have hempty : g.text = [] := not_not.1 hg
    cases hf : f.text <;> simp [Agree, merge, pruned, hempty, hf, Text.join]
  | tags =>
    have hempty : g.tags = [] := not_not.1 hg
    simp [Agree, merge, pruned, hempty]
  | priority => simp [Agree, merge, pruned, not_not.1 hg]
  | status => simp [Agree, merge, pruned, not_not.1 hg]
  | due => simp [Agree, merge, pruned, not_not.1 hg]
  | project =>
    show (g.pruned.project.or f.pruned.project).getD [] = f.project.getD []
    rw [project_pruned_eq_none hg, Option.none_or, getD_project_pruned]

theorem agree_merge_right (hf : ¬ f.Constrains k) : (f.pruned.merge g.pruned).Agree g k := by
  cases k with
  | text =>
    have hempty : f.text = [] := not_not.1 hf
    cases hg : g.text <;> simp [Agree, merge, pruned, hempty, hg, Text.join]
  | tags =>
    have hempty : f.tags = [] := not_not.1 hf
    simp [Agree, merge, pruned, hempty]
  | priority => simp [Agree, merge, pruned, not_not.1 hf]
  | status => simp [Agree, merge, pruned, not_not.1 hf]
  | due => simp [Agree, merge, pruned, not_not.1 hf]
  | project =>
    show (g.pruned.project.or f.pruned.project).getD [] = g.project.getD []
    rw [project_pruned_eq_none hf, Option.or_none, getD_project_pruned]

/-- **Filters that set nothing in common** are met together by what meets both. -/
theorem isMetBy_merge (hfg : ∀ k, ¬ (f.Constrains k ∧ g.Constrains k)) :
    (f.pruned.merge g.pruned).IsMetBy today projects t ↔
      f.IsMetBy today projects t ∧ g.IsMetBy today projects t := by
  rw [IsMetBy, IsMetBy, IsMetBy, ← forall_and]
  refine forall_congr' fun k => ?_
  by_cases hf : f.Constrains k
  · have hg : ¬ g.Constrains k := fun hg => hfg k ⟨hf, hg⟩
    rw [(agree_merge_left hg).asks_iff, and_iff_left fun hg' => absurd hg' hg]
  · rw [(agree_merge_right hf).asks_iff, and_iff_right fun hf' => absurd hf' hf]

/-- Without an empty name in the later filters it does not matter whether empty names are left
    out. -/
theorem isMetBy_merge_pruned (hg : g.project ≠ some []) :
    (f.merge g).IsMetBy today projects t ↔ (f.pruned.merge g.pruned).IsMetBy today projects t := by
  refine forall_congr' fun k => Agree.asks_iff ?_
  cases k with
  | project =>
    show (g.project.or f.project).getD [] = (g.pruned.project.or f.pruned.project).getD []
    rw [pruned]
    cases hname : g.project with
    | none => exact (getD_project_pruned f).symm
    | some name =>
      cases name with
      | nil => exact absurd hname hg
      | cons c name => rfl
  | _ => rfl

/-! ## Selecting twice -/

/-- **Selecting twice** is selecting once by what meets both filters. -/
theorem select_select (hmeets : ∀ t, h.IsMetBy today projects t ↔
      f.IsMetBy today projects t ∧ g.IsMetBy today projects t) (tasks : List Task) :
    g.select today projects (f.select today projects tasks) = h.select today projects tasks := by
  have hfilter : tasks.filter (h.meets today projects) =
      (tasks.filter (f.meets today projects)).filter (g.meets today projects) := by
    rw [List.filter_filter]
    refine List.filter_congr fun t _ => ?_
    rw [Bool.eq_iff_iff, Bool.and_eq_true, meets_iff, meets_iff, meets_iff, hmeets, and_comm]
  refine eq_select (pairwise_select _ _ _ _) fun day => ?_
  rw [filter_due_select, List.filter_comm, filter_due_select, hfilter, List.filter_comm]

/-! ## Filters that set tags only -/

theorem isMetBy_of_tags_only (hf : ∀ k, f.Constrains k ↔ k = .tags) :
    f.IsMetBy today projects t ↔ f.Passes today projects t .tags := by
  constructor
  · exact fun h => h .tags ((hf .tags).2 rfl)
  · intro h k hk
    rw [(hf k).1 hk]
    exact h

/-- More tags widen a selection. -/
theorem isMetBy_append_tags (hf : ∀ k, f.Constrains k ↔ k = .tags)
    (hg : ∀ k, g.Constrains k ↔ k = .tags) :
    { f with tags := f.tags ++ g.tags }.IsMetBy today projects t ↔
      f.IsMetBy today projects t ∨ g.IsMetBy today projects t := by
  have hne : f.tags ≠ [] := (hf .tags).2 rfl
  have hboth : ∀ k, { f with tags := f.tags ++ g.tags }.Constrains k ↔ k = .tags := by
    intro k
    cases k with
    | tags => simp [Constrains, hne]
    | text => exact hf .text
    | priority => exact hf .priority
    | project => exact hf .project
    | status => exact hf .status
    | due => exact hf .due
  rw [isMetBy_of_tags_only hboth, isMetBy_of_tags_only hf, isMetBy_of_tags_only hg]
  simp only [Passes, List.mem_append, or_and_right, exists_or]

/-- **Filters one after the other.** Filters that set no condition in common select, in either
    order, what they select together, and in the same order of tasks. Filters that set
    nothing but tags select, with the tags of both, what one or the other of them selects. -/
theorem select_merge (today : Date) (projects : List Project) (tasks : List Task)
    (f g : Filters) :
    ((∀ k, ¬ (f.Constrains k ∧ g.Constrains k)) →
      let both := (f.pruned.merge g.pruned).select today projects tasks
      g.select today projects (f.select today projects tasks) = both ∧
        f.select today projects (g.select today projects tasks) = both ∧
        (g.project ≠ some [] → (f.merge g).select today projects tasks = both)) ∧
    ((∀ k, f.Constrains k ↔ k = .tags) → (∀ k, g.Constrains k ↔ k = .tags) →
      ∀ t, t ∈ { f with tags := f.tags ++ g.tags }.select today projects tasks ↔
        t ∈ f.select today projects tasks ∨ t ∈ g.select today projects tasks) := by
  refine ⟨fun hfg => ?_, fun hf hg t => ?_⟩
  · have hboth : ∀ t, (f.pruned.merge g.pruned).IsMetBy today projects t ↔
        f.IsMetBy today projects t ∧ g.IsMetBy today projects t := fun t => isMetBy_merge hfg
    have hfirst := select_select hboth tasks
    refine ⟨hfirst, select_select (fun t => (hboth t).trans and_comm) tasks, fun hg => ?_⟩
    have hplain : ∀ t, (f.merge g).IsMetBy today projects t ↔
        f.IsMetBy today projects t ∧ g.IsMetBy today projects t :=
      fun t => (isMetBy_merge_pruned hg).trans (hboth t)
    rw [← select_select hplain tasks, hfirst]
  · simp only [mem_select, meets_iff, isMetBy_append_tags hf hg, and_or_left]

theorem select_merge_home :
    let today : Date := { year := 2025, month := 3, day := 1 }
    let projects : List Project := [⟨1, "Home".toText, [], none, none⟩]
    let task (id : String) (due : Option Text) (tag : String) : Task :=
      { id := id.toText, title := [], dueDate := due, projectId := some 1, tags := [tag.toText],
        createdAt := [], updatedAt := [] }
    let sweep := task "sweep" none "Kitchen"
    let tasks := [sweep, task "rent" (some "2025-02-28".toText) "bills",
      task "mow" (some "2025-01-31".toText) "Garden", task "water" (some "2025-03-01".toText) "bills"]
    let home : Filters := { project := some "home".toText }
    let late : Filters := { project := some [], due := some .overdue }
    let both : Filters := { project := some "home".toText, due := some .overdue }
    let kitchen : Filters := { tags := ["kitchen".toText] }
    let bills : Filters := { tags := ["bill".toText] }
    (∀ k, ¬ (home.Constrains k ∧ late.Constrains k)) ∧
      late.select today projects (home.select today projects tasks) =
        both.select today projects tasks ∧
      (∀ k, kitchen.Constrains k ↔ k = .tags) ∧ (∀ k, bills.Constrains k ↔ k = .tags) ∧
      sweep ∈ { kitchen with tags := kitchen.tags ++ bills.tags }.select today projects tasks := by
  intro today projects task sweep tasks home late both kitchen bills
  have hapart : ∀ k, ¬ (home.Constrains k ∧ late.Constrains k) := by
    intro k
    cases k <;> decide
  have hkitchen : ∀ k, kitchen.Constrains k ↔ k = .tags := by
    intro k
    cases k <;> decide
  have hbills : ∀ k, bills.Constrains k ↔ k = .tags := by
    intro k
    cases k <;> decide
  have hsweep : sweep ∈ kitchen.select today projects tasks :=
    (mem_select today projects kitchen tasks sweep).2 ⟨by decide, by decide +kernel⟩
  exact ⟨hapart, ((select_merge today projects tasks home late).1 hapart).1, hkitchen, hbills,
    ((select_merge today projects tasks kitchen bills).2 hkitchen hbills sweep).2 (Or.inl hsweep)⟩

end Filters
end TaskDesk
