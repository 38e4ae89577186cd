import TaskDesk.Proofs.Calendar.Order
import TaskDesk.Proofs.Filter.Criteria

/-!
# Selections by due date

What is selected is listed by due date, and tasks that are due on the same day, or on none,
stay in the order in which they came. These two facts determine a list by the tasks that are
due on each day, so two selections are compared day by day.

Results:
* `Filters.ranksBefore_iff`: what it means to be listed before another task.
* `Filters.eq_of_ranked`: lists by due date that agree day by day are equal.
* `Filters.filter_due_select`: what is selected of the tasks of one day.
* `Filters.select_listing`: what is selected, in which order, and how it splits by status.
-/

namespace TaskDesk
namespace Filters

variable {today : Date} {projects : List Project} {f : Filters} {s t : Task}

/-! ## Rank -/

/-- Where a task has a due date, what is listed before it has one, too, and no later one. -/
theorem ranksBefore_iff : ranksBefore s t = true ↔ ∀ e ∈ t.due?, ∃ d ∈ s.due?, d ≤ e := by
  unfold ranksBefore
  cases s.due? <;> cases t.due? <;> simp

theorem ranksBefore_trans (s t u : Task) (hst : ranksBefore s t = true)
    (htu : ranksBefore t u = true) : ranksBefore s u = true := by
  rw [ranksBefore_iff] at *
  intro c hc
  obtain ⟨e, he, hec⟩ := htu c hc
  obtain ⟨d, hd, hde⟩ := hst e he
  exact ⟨d, hd, Nat.le_trans hde hec⟩

theorem ranksBefore_total (s t : Task) : (ranksBefore s t || ranksBefore t s) = true := by
  rw [Bool.or_eq_true, ranksBefore_iff, ranksBefore_iff]
  cases hs : s.due? with
  | none => exact Or.inr (by simp)
  | some d =>
    cases ht : t.due? with
    | none => exact Or.inl (by simp)
    | some e =>
      rcases Nat.le_total d.number e.number with h | h
      · exact Or.inl (by simpa [Date.le_iff] using h)
      · exact Or.inr (by simpa [Date.le_iff] using h)

/-- Tasks that are listed before each other are due on the same day, or both on none. -/
theorem due_eq_of_ranksBefore (hst : ranksBefore s t = true) (hts : ranksBefore t s = true) :
    s.due? = t.due? := by
  rw [ranksBefore_iff] at hst hts
  cases hs : s.due? with
  | none =>
    cases ht : t.due? with
    | none => rfl
    | some e => simp [hs, ht] at hst
  | some d =>
    cases ht : t.due? with
    | none => simp [hs, ht] at hts
    | some e =>
      have hde : d ≤ e := by simpa [hs, ht] using hst
      have hed : e ≤ d := by simpa [hs, ht] using hts
      rw [Date.le_antisymm hde hed]

theorem ranksBefore_of_due_eq (h : s.due? = t.due?) : ranksBefore s t = true := by
  rw [ranksBefore_iff, h]
  exact fun e he => ⟨e, he, Nat.le_refl _⟩

/-! ## Lists by due date -/

/-- **Lists by due date** are equal if they have the same tasks of each day, and without a
    day, in the same order. -/
theorem eq_of_ranked {ts us : List Task} (hts : ts.Pairwise (ranksBefore · ·))
    (hus : us.Pairwise (ranksBefore · ·))
    (h : ∀ day, ts.filter (·.due? = day) = us.filter (·.due? = day)) : ts = us := by
  induction ts generalizing us with
  | nil =>
    cases us with
    | nil => rfl
    | cons u us => simpa using h u.due?
  | cons t ts ih =>
    cases us with
    | nil => simpa using h t.due?
    | cons u us =>
      rw [List.pairwise_cons] at hts hus
      -- Each of the two first tasks is on the other list, so neither day is the earlier one.
      have ht : t ∈ u :: us := by
        have hmem : t ∈ (t :: ts).filter (·.due? = t.due?) := by simp
        rw [h t.due?] at hmem
        exact (List.mem_filter.1 hmem).1
      have hu : u ∈ t :: ts := by
        have hmem : u ∈ (u :: us).filter (·.due? = u.due?) := by simp
        rw [← h u.due?] at hmem
        exact (List.mem_filter.1 hmem).1
      have hday : t.due? = u.due? := by
        rcases List.mem_cons.1 ht with rfl | ht
        · rfl
        · rcases List.mem_cons.1 hu with rfl | hu
          · rfl
          · exact due_eq_of_ranksBefore (hts.1 u hu) (hus.1 t ht)
      have hsame := h t.due?
      rw [List.filter_cons_of_pos (by simp), List.filter_cons_of_pos (by simp [hday])] at hsame
      obtain rfl := (List.cons.inj hsame).1
      refine congrArg (t :: ·) (ih hts.2 hus.2 fun day => ?_)
      have hrest := h day
      simp only [List.filter_cons] at hrest
      split at hrest
      · exact (List.cons.inj hrest).2
      · exact hrest

/-! ## Selections -/

theorem perm_select (today : Date) (projects : List Project) (f : Filters) (tasks : List Task) :
    (f.select today projects tasks).Perm (tasks.filter (f.meets today projects)) :=
  List.mergeSort_perm _ _

theorem pairwise_select (today : Date) (projects : List Project) (f : Filters)
    (tasks : List Task) : (f.select today projects tasks).Pairwise (ranksBefore · ·) :=
  List.pairwise_mergeSort ranksBefore_trans ranksBefore_total _

/-- Of the tasks that are due on one day those that meet the filters are selected, in the
    order in which they came. -/
theorem filter_due_select (tasks : List Task) (day : Option Date) :
    (f.select today projects tasks).filter (·.due? = day) =
      (tasks.filter (f.meets today projects)).filter (·.due? = day) := by
  have hsame : ((tasks.filter (f.meets today projects)).filter (·.due? = day)).Pairwise
      (ranksBefore · ·) := by
    refine List.pairwise_of_forall_mem_list fun s hs t ht => ranksBefore_of_due_eq ?_
    have hsday : s.due? = day := by simpa using (List.mem_filter.1 hs).2
    have htday : t.due? = day := by simpa using (List.mem_filter.1 ht).2
    rw [hsday, htday]
  have hsub := List.sublist_mergeSort ranksBefore_trans ranksBefore_total hsame
    List.filter_sublist
  have hday := hsub.filter (·.due? = day)
  rw [List.filter_filter] at hday
  simp only [Bool.and_self] at hday
  exact (hday.eq_of_length ((perm_select today projects f tasks).filter _).length_eq.symm).symm

/-- A list by due date is a selection as soon as it has the tasks of each day that meet the
    filters, in the order in which they came. -/
theorem eq_select {tasks found : List Task} (hfound : found.Pairwise (ranksBefore · ·))
    (h : ∀ day, found.filter (·.due? = day) =
      (tasks.filter (f.meets today projects)).filter (·.due? = day)) :
    found = f.select today projects tasks :=
  eq_of_ranked hfound (pairwise_select today projects f tasks) fun day => by
    rw [h day, filter_due_select]

/-! ## Done and open tasks -/

/-- Filters that set no status select, with a status set besides, the tasks of that status. -/
theorem select_status (hf : f.status = none) (status : Status) (today : Date)
    (projects : List Project) (tasks : List Task) :
    { f with status := some status }.select today projects tasks =
      (f.select today projects tasks).filter (statusMeets { status := some status }) := by
  have hmeets : ∀ t, { f with status := some status }.meets today projects t =
      (statusMeets { status := some status } t && f.meets today projects t) := by
    intro t
    have hfree : f.statusMeets t = true := by rw [statusMeets, hf]
    simp only [meets, hfree, Bool.and_true]
    rw [Bool.and_right_comm, Bool.and_comm]
    rfl
  have hfilter : tasks.filter ({ f with status := some status }.meets today projects) =
      (tasks.filter (f.meets today projects)).filter (statusMeets { status := some status }) := by
    rw [List.filter_filter]
    exact List.filter_congr fun t _ => hmeets t
  refine (eq_select ((pairwise_select today projects f tasks).sublist List.filter_sublist)
    fun day => ?_).symm
  rw [hfilter, List.filter_comm, filter_due_select, List.filter_comm]

/-- **The list of a selection.** It holds the tasks that pass every condition which the
    filters set, as often as they were there before, by due date, tasks without one that can
    be read last, and those of one day in the order in which they came. Where the filters set
    no status, it falls into the lists of those that are done and of those that are open. -/
theorem select_listing (today : Date) (projects : List Project) (f : Filters) (tasks : List Task) :
    let found := f.select today projects tasks
    (∀ t, found.count t = if f.IsMetBy today projects t then tasks.count t else 0) ∧
    found.Pairwise (fun s t => ∀ e ∈ t.due?, ∃ d ∈ s.due?, d ≤ e) ∧
    (∀ day, found.filter (·.due? = day) =
      tasks.filter fun t => t.due? = day ∧ f.IsMetBy today projects t) ∧
    (f.status = none →
      let done := { f with status := some .completed }.select today projects tasks
      let left := { f with status := some .incomplete }.select today projects tasks
      done = found.filter (·.completed) ∧ left = found.filter (!·.completed) ∧
        (done ++ left).Perm found) := by
  intro found
  refine ⟨fun t => ?_, ?_, fun day => ?_, fun hf => ?_⟩
  · have hcount := (perm_select today projects f tasks).count_eq t
    split
    · rename_i hmet
      rw [hcount, List.count_filter (meets_iff.2 hmet)]
    · rename_i hmet
      rw [hcount, List.count_eq_zero]
      exact fun hmem => hmet (meets_iff.1 (List.mem_filter.1 hmem).2)
  · exact (pairwise_select today projects f tasks).imp ranksBefore_iff.1
  · rw [filter_due_select, List.filter_filter]
    refine List.filter_congr fun t _ => ?_
    rw [Bool.eq_iff_iff]
    simp only [Bool.and_eq_true, decide_eq_true_eq, meets_iff]
  · have hdone := select_status hf .completed today projects tasks
    have hleft := select_status hf .incomplete today projects tasks
    refine ⟨hdone, hleft, ?_⟩
    rw [hdone, hleft]
    exact List.filter_append_perm (·.completed) found

theorem select_listing_work :
    let today : Date := { year := 2025, month := 3, day := 1 }
    let projects : List Project :=
      [⟨1, "Work".toText, [], none, none⟩, ⟨1, "Homework".toText, [], none, none⟩]
    let task (id : String) (due : Option Text) (completed : Bool) : Task :=
      { id := id.toText, title := [], dueDate := due, completed := completed, projectId := some 1,
        createdAt := [], updatedAt := [] }
    let read := task "read" (some "2025-03-02".toText) true
    let tasks := [task "rest" (some "soon".toText) false, read,
      task "write" (some "20250301".toText) false, read, task "sum" none true]
    let f : Filters := { project := some "home".toText }
    let found := f.select today projects tasks
    let done := { f with status := some .completed }.select today projects tasks
    let left := { f with status := some .incomplete }.select today projects tasks
    f.status = none ∧ found.count read = 2 ∧ done = found.filter (·.completed) ∧
      (done ++ left).Perm found := by
  intro today projects task read tasks f found done left
  have hf : f.status = none := rfl
  obtain ⟨hcount, -, -, hsplit⟩ := select_listing today projects f tasks
  obtain ⟨hdone, -, hperm⟩ := hsplit hf
  exact ⟨hf, (hcount read).trans (by decide +kernel), hdone, hperm⟩

end Filters
end TaskDesk
