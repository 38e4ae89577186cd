import TaskDesk.Proofs.Service.History
import TaskDesk.Proofs.Store.Record

/-!
# The views of a store agree

The list of all tasks, the record of a single task and the list of the tags in use are read by
queries of their own, over different tables. In a sound store they show the same: the list has
every stored task once and in order, its records are those that are read by their ids, and the
tags in use are those of the listed tasks.

Results:
* `Store.Agree`: what it means that the views agree.
* `Store.IsSound.agree`: those of a sound store do.
* `Desk.agree_after`: so do those of every store that a history has left.
-/

namespace TaskDesk

/-- A task is listed before another one or has the same rank: by due date, missing ones last,
    and then by the time of creation. -/
structure Task.ListedBefore (t u : Task) : Prop where
  undated : t.dueDate = none → u.dueDate = none
  dated : ∀ d ∈ t.dueDate, ∀ e ∈ u.dueDate, Text.precedes d e = true
  created : t.dueDate = u.dueDate → Text.precedes t.createdAt u.createdAt = true

namespace Store

/-- The list of all tasks has every stored task once and in order, each as it is read by its id,
    and the tags in use are those of the tasks on the list, once and in order. -/
structure Agree (s : Store) (tasks : List Task) : Prop where
  stored : (tasks.map fun t => some t.id).Perm (s.firstTables.tasks.map (·.id))
  once : (tasks.map (·.id)).Nodup
  record : ∀ t ∈ tasks, s.task? (some t.id) = .ok (some t)
  inOrder : tasks.Pairwise Task.ListedBefore
  tags : ∃ tags, s.allTags = .ok tags ∧
    tags.Pairwise (fun a b => Text.precedes a b = true ∧ a ≠ b) ∧
    ∀ tag, tag ∈ tags ↔ ∃ t ∈ tasks, tag ∈ t.tags

variable {s : Store} {l : Ledger} {tasks : List Task}

/-- Rows by rank make records by rank. -/
theorem listedBefore_of_ranksBefore {row row' : TaskRow} {t u : Task}
    (ht : s.taskOfRow row = .ok t) (hu : s.taskOfRow row' = .ok u)
    (h : row.ranksBefore row' = true) : t.ListedBefore u := by
  have ht := gives_of_taskOfRow ht
  have hu := gives_of_taskOfRow hu
  unfold TaskRow.ranksBefore at h
  rw [ht.dueDate, hu.dueDate, ht.createdAt, hu.createdAt] at h
  cases hd : t.dueDate with
  | none =>
    cases he : u.dueDate with
    | none =>
      simp only [hd, he] at h
      exact ⟨fun _ => he, by simp [hd], fun _ => h⟩
    | some e => simp [hd, he] at h
  | some d =>
    cases he : u.dueDate with
    | none => exact ⟨by simp [hd], by simp [he], by simp [hd, he]⟩
    | some e =>
      simp only [hd, he] at h
      refine ⟨by simp [hd], ?_, ?_⟩
      · rintro _ hd' _ he'
        cases hd.symm.trans hd'
        cases he.symm.trans he'
        split at h
        · rename_i hde
          exact hde ▸ Text.precedes_refl d
        · exact h
      · intro hde
        rw [hd, he, Option.some.injEq] at hde
        rwa [if_pos hde] at h

/-- The ids of the records on the list are those of the rows. -/
theorem ids_perm_of_mapM {rows : List TaskRow}
    (h : List.Forall₂ (fun row t => s.taskOfRow row = .ok t)
      (rows.mergeSort TaskRow.ranksBefore) tasks) :
    (tasks.map fun t => some t.id).Perm (rows.map (·.id)) := by
  have hids : (rows.mergeSort TaskRow.ranksBefore).map (·.id) = tasks.map fun t => some t.id := by
    rw [← List.forall₂_eq_eq_eq, List.forall₂_map_left_iff, List.forall₂_map_right_iff]
    exact h.imp fun _ _ ht => (shows_of_taskOfRow ht).id
  rw [← hids]
  exact (List.mergeSort_perm rows _).map _

/-- Ids that stand for themselves are as different as those of the rows. -/
theorem nodup_ids_of_perm (hl : l.IsSound)
    (h : (tasks.map fun t => some t.id).Perm (l.tasks.map (·.id))) : (tasks.map (·.id)).Nodup := by
  have hrows : (l.tasks.map (·.id)).Pairwise fun a b => a.isSome → a ≠ b :=
    List.pairwise_map.2 hl.task_ids
  have hids := h.symm.pairwise hrows fun {a b} hab hb heq => hab (heq ▸ hb) heq.symm
  rw [List.pairwise_map] at hids
  rw [List.Nodup, List.pairwise_map]
  exact hids.imp fun hne heq => hne rfl (congrArg some heq)

/-- A tag is in use if a task on the list has it. -/
theorem mem_tags_iff_listed (hsound : l.IsSound) (hl : s.ledger = some l)
    (h : List.Forall₂ (fun row t => s.taskOfRow row = .ok t)
      (l.tasks.mergeSort TaskRow.ranksBefore) tasks) (tag : Text) :
    tag ∈ l.tags.map (·.tag) ↔ ∃ t ∈ tasks, tag ∈ t.tags := by
  have htags : tag ∈ l.tags.map (·.tag) ↔ ∃ id, tag ∈ s.tagsFor id := by
    rw [← firstTables_eq hl]
    exact mem_tags_iff [] s tag
  rw [htags]
  constructor
  · rintro ⟨id, hid⟩
    have hstored := hid
    rw [tagsFor, firstTables_eq hl] at hstored
    obtain ⟨entry, hentry, -⟩ := List.mem_map.1 hstored
    obtain ⟨hentry, hsame⟩ := List.mem_filter.1 hentry
    obtain ⟨row, hrow, hrowid⟩ := hsound.tag_task entry hentry
    obtain ⟨t, ht, hrecord⟩ := exists_of_mem_right h.flip row (List.mem_mergeSort.2 hrow)
    have hgives := gives_of_taskOfRow hrecord
    have heq : some t.id = some id := by
      rw [← hgives.id, hrowid, sameId_some.1 hsame]
    rw [← Option.some.inj heq, hgives.tags] at hid
    exact ⟨t, ht, hid⟩
  · rintro ⟨t, ht, htag⟩
    obtain ⟨row, -, hrecord⟩ := exists_of_mem_right h t ht
    rw [← (gives_of_taskOfRow hrecord).tags] at htag
    exact ⟨t.id, htag⟩

/-- The list is answered if every row makes a record. -/
theorem exists_allTasks (hl : s.ledger.isSome)
    (h : ∀ row ∈ s.firstTables.tasks, (s.taskOfRow row).isOk = true) :
    ∃ tasks, s.allTasks = .ok tasks := by
  obtain ⟨l, hl⟩ := Option.isSome_iff_exists.1 hl
  rw [firstTables_eq hl] at h
  have hrecords : ∀ row ∈ l.tasks.mergeSort TaskRow.ranksBefore,
      ∃ t, s.taskOfRow row = .ok t ∧ True := by
    intro row hrow
    have hrecord := h row (List.mem_mergeSort.1 hrow)
    cases htask : s.taskOfRow row with
    | ok t => exact ⟨t, rfl, trivial⟩
    | error fault =>
      rw [htask] at hrecord
      cases hrecord
  obtain ⟨tasks, htasks, -⟩ := mapM_eq_ok hrecords
  exact ⟨tasks, allTasks_eq_ok.2 ⟨l, hl, htasks⟩⟩

/-- **The views of a sound store agree.** -/
theorem IsSound.agree (hs : s.IsSound) (h : s.allTasks = .ok tasks) : s.Agree tasks := by
  obtain ⟨l, hl, hrecords⟩ := allTasks_eq_ok.1 h
  rw [mapM_eq_ok_iff] at hrecords
  have hsound := hs.ledger l hl
  have hstored := ids_perm_of_mapM hrecords
  refine ⟨by rwa [firstTables_eq hl], nodup_ids_of_perm hsound hstored, ?_, ?_, ?_⟩
  · intro t ht
    obtain ⟨row, hrow, hrecord⟩ := exists_of_mem_right hrecords t ht
    exact task?_of_taskOfRow hs hl (List.mem_mergeSort.1 hrow) hrecord
  · exact pairwise_right hrecords (pairwise_ranksBefore l.tasks) listedBefore_of_ranksBefore
  · refine ⟨_, bind_eq_ok.2 ⟨l, ledgerFor_eq_ok.2 hl, rfl⟩, ?_, fun tag => ?_⟩
    · have honce : ((Text.distinct (l.tags.map (·.tag))).mergeSort Text.precedes).Nodup :=
        (List.mergeSort_perm _ _).nodup_iff.2 (Text.nodup_distinct _)
      exact List.pairwise_and_iff.2 ⟨Text.pairwise_mergeSort _, honce⟩
    · rw [List.mem_mergeSort, Text.mem_distinct]
      exact mem_tags_iff_listed hsound hl hrecords tag

end Store

namespace Desk

/-- **The views agree.** After any calls, requests and moves, made on an empty store in any order
    and failing or not, and at any revision: where the list of all tasks is answered, it has every
    stored task once and in order, each as it is read by its id, and the tags in use are those of
    the tasks on the list, once and in order. -/
theorem agree_after (source : Source) (history : List Event) {tasks : List Task}
    (h : (empty.after source history).store.allTasks = .ok tasks) :
    (empty.after source history).store.Agree tasks := by
  have hsound : (empty.after source history).store.IsSound :=
    after_keeps Store.Step.isSound Store.Move.isSound source history empty Store.isSound_empty
  exact hsound.agree h

/-- Tags were replaced, a task has gone with a tag of its own, and a call has failed midway. -/
theorem agree_after_packing :
    let source : Source := ⟨Text.digits 4, Text.digits 4⟩
    let history : List Event := [.upgrade (.level 3),
      .command (.createTask {
        id := some "pack".toText, title := some "Pack".toText
        tags := [some "trip".toText, some "home".toText] }),
      .command (.createTask {
        id := some "call".toText, title := some "Call".toText
        tags := [some "phone".toText, some "home".toText] }),
      .command (.createTask {
        id := some "rent".toText, title := some "Rent".toText, dueDate := some "2025-01-31".toText
        tags := [some "home".toText, some "bank".toText] }),
      .command (.updateTask (some "pack".toText) { tags := some [some "work".toText] }),
      .command (.updateTask (some "rent".toText) { tags := some [some "odd".toText, none] }),
      .command (.deleteTask (some "call".toText))]
    let s := (empty.after source history).store
    s.firstTables.tasks.map (·.id) = [some "pack".toText, some "rent".toText] ∧
      s.firstTables.tags.map (·.tag) = ["home".toText, "bank".toText, "work".toText] ∧
      ∃ tasks, s.allTasks = .ok tasks ∧ s.Agree tasks := by
  intro source history s
  have hrecords : ∀ row ∈ s.firstTables.tasks, (s.taskOfRow row).isOk = true := by decide +kernel
  obtain ⟨tasks, htasks⟩ := Store.exists_allTasks (s := s) (by decide +kernel) hrecords
  exact ⟨by decide +kernel, by decide +kernel, tasks, htasks, agree_after source history htasks⟩

end Desk
end TaskDesk
