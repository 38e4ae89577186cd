import TaskDesk.Proofs.Desk.Creation
import TaskDesk.Proofs.Service.Effect
import TaskDesk.Proofs.Service.History
import TaskDesk.Proofs.Service.Lifetime

/-!
# Tasks that are created after any history

The ids of subtasks come from the source in every history: calls and requests take them from
there, and moves bring in no subtasks. So a store with all its tables is ready for a new task
whatever happened before, be it that tasks came and went, that rows were changed in ways in
which they cannot be shown any more, or that tables were dropped and created again.

Results:
* `Event.hasIssued_run`: ids of subtasks come from the source, event by event.
* `Desk.isSteady_after`: the desk after any history, if its store has all tables.
* `Desk.createTask_after`: when a task is created after a history, and what comes of it.
-/

namespace TaskDesk

open Work Desk Store

variable {source : Source} {d : Desk}

/-! ## Where ids come from -/

/-- The ids of the stored subtasks were used before. -/
def Desk.HasIssued (source : Source) (d : Desk) : Prop :=
  ∀ row ∈ d.store.subtaskList, d.Issued source row.id

namespace Desk

theorem HasIssued.of_counts {e : Desk} (hd : d.HasIssued source) (hcounts : Counts d e)
    (h : ∀ row ∈ e.store.subtaskList, row ∈ d.store.subtaskList) : e.HasIssued source :=
  fun row hrow => (hd row (h row hrow)).mono hcounts

/-- Where the table is missing statements bring in no subtasks. -/
theorem hasIssued_of_steps {e : Desk} (hsteps : Steps d.store e.store)
    (hrows : d.store.subtasks = none) : e.HasIssued source := by
  have hnone : e.store.subtasks = none := by
    rw [← Option.not_isSome_iff_eq_none, (Steps.sameTables hsteps).subtasks, hrows]
    exact Bool.false_ne_true
  intro row hrow
  rw [subtaskList, hnone] at hrow
  cases hrow

end Desk

/-- The call that a request makes takes ids of subtasks from the source. -/
theorem Service.hasIssued_effect (hs : d.store.IsSound) (hrows : d.store.subtasks.isSome)
    (hd : d.HasIssued source) {segment : Text} {e : Endpoint} {after : Desk}
    (h : Effect source segment d e after) : after.HasIssued source := by
  cases h with
  | rest e => exact hd
  | createTask e new =>
    have hbegun : Desk.HasIssued source { d with idsUsed := d.idsUsed + 1 } :=
      hd.of_counts (Nat.le_succ _) fun _ hrow => hrow
    exact issued_of_passes (passes_createTask (by exact hs) new) hbegun
  | updateTask c => exact issued_of_passes (passes_updateTask _ c) hd
  | deleteTask =>
    obtain ⟨l, hl⟩ := hs.tables.ledger_of_subtasks hrows
    exact issued_of_passes (passes_deleteTask hs hl _) hd
  | toggleSubtask mark => exact issued_of_passes (Command.passes_toggleSubtask hrows _ mark) hd
  | createProject name color description folderId =>
    exact issued_of_passes (leaves_createProject _ _ _ _ d).passes hd
  | deleteProject id => exact issued_of_passes (leaves_deleteProject id d).passes hd
  | createFolder name color description =>
    exact issued_of_passes (leaves_createFolder _ _ _ d).passes hd
  | deleteFolder id => exact issued_of_passes (leaves_deleteFolder id d).passes hd
  | setMode mode => exact issued_of_passes (leaves_saveSetting _ mode d).passes hd

namespace Store

/-- Moves up keep the subtasks. -/
theorem Grows.subtaskList {s s' : Store} (h : s.Grows s') : s'.subtaskList = s.subtaskList := by
  unfold Store.subtaskList
  rcases h.subtasks with hsame | ⟨hnone, hnew⟩
  · rw [hsame]
  · rw [hnone, hnew]
    rfl

/-- Moves down keep the subtasks, or drop all of them. -/
theorem Shrinks.subtaskList_subset {s s' : Store} (h : s.Shrinks s') :
    s'.subtaskList ⊆ s.subtaskList := by
  unfold Store.subtaskList
  rcases h.subtasks with hsame | hnone
  · rw [hsame]
    exact List.Subset.refl _
  · rw [hnone]
    exact List.nil_subset _

end Store

namespace Event

/-- A move that brings in no subtasks. -/
theorem hasIssued_move {moved : Except MoveFault Store} (hd : d.HasIssued source)
    (h : ∀ s, moved = .ok s → s.subtaskList ⊆ d.store.subtaskList) :
    (move moved d).2.HasIssued source := by
  unfold move
  split
  · rename_i s
    exact hd.of_counts (Nat.le_refl _) (h s rfl)
  · exact hd

/-- **Ids of subtasks come from the source**, whatever happens. -/
theorem hasIssued_run (hs : d.store.IsSound) (hd : d.HasIssued source) (e : Event) :
    (e.run source d).2.HasIssued source := by
  cases e with
  | command c =>
    rw [run_command_desk]
    -- What calls do to subtasks is known where the table exists; they never create it.
    cases hrows : d.store.subtasks with
    | none => exact hasIssued_of_steps (c.orderly source d) hrows
    | some rows => exact issued_of_passes (c.passes hs (by rw [hrows]; rfl)) hd
  | request today r =>
    cases hrows : d.store.subtasks with
    | none => exact hasIssued_of_steps (Service.steps_respond r d) hrows
    | some rows =>
      rcases Service.effect_respond source today r d with hsame | ⟨e, segment, -, heffect⟩
      · rw [run, hsame]
        exact hd
      · exact Service.hasIssued_effect hs (by rw [hrows]; rfl) hd heffect
  | upgrade target =>
    refine hasIssued_move hd fun s hmoved => ?_
    obtain ⟨steps, rfl⟩ := exists_climb_of_upgrade hmoved
    rw [(hs.tables.grows_climb steps).subtaskList]
    exact List.Subset.refl _
  | downgrade target =>
    refine hasIssued_move hd fun s hmoved => ?_
    obtain ⟨steps, rfl⟩ := exists_descend_of_downgrade hmoved
    exact (shrinks_descend steps d.store).subtaskList_subset

end Event

/-! ## After any history -/

namespace Desk

theorem isSound_run (hs : d.store.IsSound) (e : Event) : (e.run source d).2.store.IsSound :=
  after_keeps Step.isSound Move.isSound source [e] d hs

/-- What holds at every point of a history: the induction is on the events, and that ids are
    issued after one of them needs the integrity of the store before it. -/
theorem isSound_hasIssued_after (source : Source) (history : List Event)
    (h : d.store.IsSound ∧ d.HasIssued source) :
    (d.after source history).store.IsSound ∧ (d.after source history).HasIssued source := by
  induction history generalizing d with
  | nil => exact h
  | cons e more ih => exact ih ⟨isSound_run h.1 e, Event.hasIssued_run h.1 h.2 e⟩

/-- **After any history** the desk is steady, if its store has all tables. -/
theorem isSteady_after (source : Source) (history : List Event)
    (hversion : (empty.after source history).store.version = some .third) :
    (empty.after source history).IsSteady source := by
  have hempty : empty.HasIssued source := fun _ hrow => nomatch hrow
  obtain ⟨hsound, hissued⟩ := isSound_hasIssued_after source history ⟨isSound_empty, hempty⟩
  refine ⟨hsound, hsound.tables.subtasks.2 ?_, hissued⟩
  rw [level, hversion]
  exact Nat.le_refl 3

/-- **A task is created after any history**, on a store with all tables, just if the store has
    room for it: no task has its id, it belongs to a project that there is or to none, and the
    texts that are given can be encoded. The task that is answered has the given fields, is
    open, and has the given tags without repetitions and an open subtask for each given text,
    with an id that no other subtask has. It is read as it was answered, and all other rows of
    the store stay as they are. -/
theorem createTask_after (hsource : source.IsReliable) (history : List Event)
    (hversion : (empty.after source history).store.version = some .third) (g : GivenTask) :
    let d := empty.after source history
    ((createTask source g.toNew).Succeeds d ↔ g.FitsInto d.store) ∧
    ∀ task after, (createTask source g.toNew).on d = (.ok task, after) →
      Created source g d task after := by
  intro d
  have hd : d.IsSteady source := isSteady_after source history hversion
  refine ⟨?_, fun task after h => created_of_createTask hd.sound hd.subtasks h⟩
  exact createTask_given_iff hd.sound hd.subtasks hsource
    (fresh_of_issued hsource.id_injective hd.issued)

/-- A task with a repeated tag is created after another one has gone and after a task was left
    with a priority that nothing can show. -/
theorem createTask_after_packing :
    let source : Source := ⟨fun n => List.replicate (n + 1) 'i', fun _ => []⟩
    let history : List Event := [.upgrade (.level 3),
      .command (.createProject (some "Trip".toText) (some "blue".toText) none none),
      .command (.createTask {
        id := some "ask".toText, title := some "Ask".toText, tags := [some "b".toText]
        subtasks := [some "Call".toText] }),
      .command (.deleteTask (some "ask".toText)),
      .command (.createTask {
        id := some "odd".toText, title := some "Odd".toText, priority := some "none".toText
        subtasks := [some "Wait".toText] })]
    let g : GivenTask := {
      id := "pack".toText, title := "Pack".toText, dueDate := some "2025-01-20".toText
      priority := .high, projectId := some 1, tags := ["b".toText, "a".toText, "b".toText]
      subtasks := ["Charger".toText, "Passport".toText] }
    let d := empty.after source history
    source.IsReliable ∧ (empty.after source history).store.version = some .third ∧
      g.FitsInto d.store ∧
      ∃ task after, (createTask source g.toNew).on d = (.ok task, after) ∧
        Created source g d task after ∧ task.tags = ["b".toText, "a".toText] := by
  intro source history g d
  have hsource : source.IsReliable := Source.isReliable_strokes
  have hversion : (empty.after source history).store.version = some .third := by decide +kernel
  have hroom : g.FitsInto (empty.after source history).store := by
    refine ⟨by decide +kernel, ⟨?_, by decide +kernel⟩, by decide +kernel⟩
    rintro _ ⟨⟩
    decide
  obtain ⟨hiff, hall⟩ := createTask_after hsource history hversion g
  obtain ⟨task, after, h⟩ := hiff.2 hroom
  have hcreated := hall task after h
  have htags : task.tags = g.tags.eraseDups := congrArg Task.tags hcreated.fields
  refine ⟨hsource, hversion, hroom, task, after, h, hcreated, htags.trans ?_⟩
  decide +kernel

/-- A tag with half of a surrogate pair cannot be stored, so a task with such a tag is not
    created, although its id is free and it belongs to no project. -/
theorem createTask_fails_half :
    let source : Source := ⟨fun n => List.replicate (n + 1) 'i', fun _ => []⟩
    let d := empty.after source [.upgrade (.level 3)]
    let g : GivenTask := { id := "t".toText, title := "T".toText, tags := [[.half 0]] }
    source.IsReliable ∧ d.store.version = some .third ∧
      (∀ row ∈ d.store.firstTables.tasks, row.id ≠ some g.id) ∧ g.projectId = none ∧
      ¬ (createTask source g.toNew).Succeeds d := by
  intro source d g
  have hfails : ((createTask source g.toNew).on d).1.isOk = false := by decide +kernel
  refine ⟨Source.isReliable_strokes, by decide +kernel, by decide +kernel, rfl, ?_⟩
  rintro ⟨task, after, h⟩
  rw [h] at hfails
  cases hfails

end Desk
end TaskDesk
