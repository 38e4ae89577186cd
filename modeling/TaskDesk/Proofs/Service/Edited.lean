import TaskDesk.Proofs.Desk.Beside
import TaskDesk.Proofs.Service.Agreement
import TaskDesk.Proofs.Service.Members
import TaskDesk.Proofs.Service.Search
import TaskDesk.Proofs.Service.Update

/-!
# Tasks that are edited

A request for a change that is answered has edited the task just as its members ask: a field with
a member has the value of the member, a field without one keeps its value, and nothing else in
the store is another. The columns and the tags are told by the view of the store, the subtasks by
their rows, since those that are replaced get new ids.

Results:
* `Desk.subtasksFor_rewriteTask`: the subtasks of a task after a change.
* `Task.follows_of_rewritten`: the record of a task after a change.
* `Service.lists_iff`: the tasks on the list are those that are read by their ids.
* `Service.edited_of_ok`: what a request that is answered has edited.
-/

namespace TaskDesk

theorem Priority.name_injective : Function.Injective Priority.name := by
  intro p q h
  have hname := congrArg ofName? h
  rwa [ofName?_name, ofName?_name, Option.some.injEq] at hname

/-! ## Subtasks -/

/-- The stored subtasks of a task after the change. Those with other texts are new, and have the
    ids from the n-th one on. -/
def TaskChange.rowsAfter (c : TaskChange) (source : Source) (a : Text) (n : Nat)
    (old : List SubtaskRow) : List SubtaskRow :=
  match c.newSubtasks with
  | none => old
  | some texts => if texts = old.map (·.text) then old else TaskDesk.newSubtasks source a n texts

theorem map_text_toSubtask (rows : List SubtaskRow) :
    (rows.map (·.toSubtask)).map (·.text) = rows.map (·.text) := List.map_map

namespace TaskChange

variable {c : TaskChange} {source : Source} {a : Text} {n : Nat} {old : List SubtaskRow}

theorem rowsAfter_of_same (h : ∀ texts ∈ c.newSubtasks, texts = old.map (·.text)) :
    c.rowsAfter source a n old = old := by
  unfold rowsAfter
  split
  · rfl
  · rename_i texts htexts
    exact if_pos (h texts htexts)

theorem rowsAfter_of_other {texts : List Text} (h : texts ∈ c.newSubtasks)
    (hother : texts ≠ old.map (·.text)) :
    c.rowsAfter source a n old = TaskDesk.newSubtasks source a n texts := by
  rw [Option.mem_def] at h
  rw [rowsAfter, h]
  exact if_neg hother

end TaskChange

namespace Desk

open Work

variable {source : Source} {d d' : Desk} {a : Text} {c : TaskChange} {row : TaskRow}

/-- An id that is new: it is one of the next ones, and it was not used before unless the source
    repeats one. -/
structure IsNew (source : Source) (d : Desk) (id : Text) : Prop where
  next : ∃ n, d.idsUsed ≤ n ∧ id = source.id n
  unused : Function.Injective source.id → ¬ d.Issued source id

theorem isNew_of_le {n : Nat} (hn : d.idsUsed ≤ n) : d.IsNew source (source.id n) where
  next := ⟨n, hn, rfl⟩
  unused := by
    rintro hids ⟨m, hm, hid⟩
    exact absurd hm (Nat.not_lt.2 (hids hid ▸ hn))

theorem isNew_of_mem_newSubtasks {n : Nat} (hn : d.idsUsed ≤ n) {texts : List Text} :
    ∀ row ∈ newSubtasks source a n texts, d.IsNew source row.id := by
  induction texts generalizing n with
  | nil => exact fun row hrow => nomatch hrow
  | cons text more ih =>
    exact List.forall_mem_cons.2 ⟨isNew_of_le hn, ih (Nat.le_succ_of_le hn)⟩

theorem subtasksFor_changeSubtasks {rows : List SubtaskRow} (hrows : d.store.subtasks = some rows)
    (hc : c.IsPlain) {b : Bool}
    (h : (changeSubtasks source (some a) c.subtasks).on d = (.ok b, d')) :
    d'.store.subtasksFor a = c.rowsAfter source a d.idsUsed (d.store.subtasksFor a) := by
  obtain ⟨rfl, hsame⟩ | ⟨texts, htexts, hother, -, rfl⟩ := changeSubtasks_cases hrows hc h
  · rw [TaskChange.rowsAfter_of_same hsame]
  · rw [TaskChange.rowsAfter_of_other htexts hother, Store.subtasksFor_renew rfl, if_pos rfl]

/-- **The subtasks of a task after a change** are those from before, or new ones. -/
theorem subtasksFor_rewriteTask (hs : d.store.IsRegular) (hc : c.IsPlain) {u : Unit}
    (h : (rewriteTask source (some a) c row).on d = (.ok u, d')) :
    d'.store.subtasksFor a = c.rowsAfter source a d.idsUsed (d.store.subtasksFor a) := by
  have hsame {e e' : Desk} (hleaves : Leaves e e') :
      e'.store.subtasksFor a = e.store.subtasksFor a := by
    rw [Store.subtasksFor, hleaves.subtaskList, Store.subtasksFor]
  obtain ⟨tags, tagged, htags, h⟩ := bind_on_ok h
  obtain ⟨subtasks, changed, hsubtasks, hcolumns⟩ := bind_on_ok h
  have htagged := (leaves_changeTags _ _).of_on htags
  have hchanged := (leaves_updateColumns _ _ _).of_on hcolumns
  obtain ⟨rows, hrows, -⟩ := (isRegular_changeTags htags hs).presentable.subtasks
  rw [hsame hchanged, subtasksFor_changeSubtasks hrows hc hsubtasks, hsame htagged,
    htagged.idsUsed]

end Desk

/-! ## Records -/

namespace Task

/-- The task is the old one, edited as the members ask. A description that is null is an empty
    one, repeated tags are dropped, and subtasks are replaced by new ones, all of them open, if
    their texts are not those from before. -/
structure Follows (m : List (Text × Json)) (isNew : Text → Prop) (old new : Task) : Prop where
  id : new.id = old.id
  title : Body.Follows m "title" Check.text old.title new.title
  description : Body.Follows m "description" (fun j => (·.getD []) <$> Check.nullable Check.text j)
    old.description new.description
  dueDate : Body.Follows m "due_date" (Check.nullable Check.text) old.dueDate new.dueDate
  priority : Body.Follows m "priority" (Check.option Priority.ofName?) old.priority new.priority
  completed : Body.Follows m "completed" Check.bool old.completed new.completed
  projectId : Body.Follows m "project_id" (Check.nullable Check.int) old.projectId new.projectId
  tags : ∃ given, Body.Gives m "tags" given ∧ new.tags = (given.map List.eraseDups).getD old.tags
  subtasks : ∃ given, Body.Gives m "subtasks" given ∧
    ((∀ texts ∈ given, texts = old.subtasks.map (·.text)) → new.subtasks = old.subtasks) ∧
    ∀ texts ∈ given, texts ≠ old.subtasks.map (·.text) →
      new.subtasks.map (·.text) = texts ∧
        ∀ subtask ∈ new.subtasks, subtask.completed = false ∧ isNew subtask.id
  createdAt : new.createdAt = old.createdAt

variable {m : List (Text × Json)} {c : TaskChange} {row row' : TaskRow} {old new : Task}

/-- **The record of a task after a change** follows the members. -/
theorem follows_of_rewritten (hreads : Body.Reads m c) (hnone : c.ClearsNone) {tags : List Text}
    {source : Source} {a : Text} {d : Desk} {rows : List SubtaskRow}
    (hold : row.Gives tags (rows.map (·.toSubtask)) old)
    (hnew : row'.Gives (c.tagsAfter tags)
      ((c.rowsAfter source a d.idsUsed rows).map (·.toSubtask)) new)
    (hrow : row'.timeless = c.rewritten row.timeless) :
    Follows m (d.IsNew source) old new where
  id := by
    have hid : row'.id = row.id := (congrArg TaskRow.id hrow :)
    rwa [hold.id, hnew.id, Option.some.injEq] at hid
  title := by
    have htitle : row'.title = c.title.applyTo row.title := congrArg TaskRow.title hrow
    rw [← hold.title, ← hnew.title, htitle]
    exact Body.follows_edit_needed hreads.title hnone.title row.title
  description := by
    have hdescription : row'.description = c.description.apply row.description :=
      congrArg TaskRow.description hrow
    rw [← hold.description, ← hnew.description, hdescription]
    exact (Body.follows_edit hreads.description row.description).map (·.getD [])
  dueDate := by
    have hdue : row'.dueDate = c.dueDate.apply row.dueDate := congrArg TaskRow.dueDate hrow
    rw [← hold.dueDate, ← hnew.dueDate, hdue]
    exact Body.follows_edit hreads.dueDate row.dueDate
  priority := by
    have hpriority : row'.priority = c.priority.applyTo row.priority :=
      congrArg TaskRow.priority hrow
    have hfollows := Body.follows_edit_needed hreads.priority hnone.priority row.priority
    rw [← hpriority, hold.priority, hnew.priority] at hfollows
    exact hfollows.of_map (fun h => Priority.name_injective h) fun _ h => Priority.name_injective h
  completed := by
    have hcompleted : row'.completed = c.completed.applyTo row.completed :=
      congrArg TaskRow.completed hrow
    have hfollows := Body.follows_edit_needed hreads.completed hnone.completed row.completed
    rw [← hcompleted] at hfollows
    rw [← hold.completed, ← hnew.completed]
    refine hfollows.of_map (fun h => by rw [h]) fun b h => ?_
    rw [← h]
    cases b <;> rfl
  projectId := by
    have hproject : row'.projectId = c.projectId.apply row.projectId :=
      congrArg TaskRow.projectId hrow
    rw [← hold.projectId, ← hnew.projectId, hproject]
    exact Body.follows_edit hreads.projectId row.projectId
  tags := by
    refine ⟨c.newTags, hreads.gives_tags, ?_⟩
    rw [← hold.tags, ← hnew.tags, TaskChange.tagsAfter,
      funext Text.distinct_eq_eraseDups]
  subtasks := by
    refine ⟨c.newSubtasks, hreads.gives_subtasks, ?_⟩
    rw [← hold.subtasks, ← hnew.subtasks, map_text_toSubtask]
    refine ⟨fun hsame => ?_, fun texts htexts hother => ?_⟩
    · rw [TaskChange.rowsAfter_of_same hsame]
    · rw [TaskChange.rowsAfter_of_other htexts hother, map_text_toSubtask, map_text_newSubtasks]
      refine ⟨rfl, List.forall_mem_map.2 fun row hrow => ?_⟩
      exact ⟨open_of_mem_newSubtasks row hrow, Desk.isNew_of_mem_newSubtasks (Nat.le_refl _) row hrow⟩
  createdAt := by
    have hcreated : row'.createdAt = row.createdAt := (congrArg TaskRow.createdAt hrow :)
    rw [← hold.createdAt, ← hnew.createdAt, hcreated]

end Task

/-! ## Changed views -/

namespace Store

variable {s s' : Store} {known : List Text} {a : Text} {c : TaskChange}

theorem tagsFor_of_view (hview : s'.view known = (s.view known).patch a c) :
    s'.tagsFor a = c.tagsAfter (s.tagsFor a) := by
  have htags := congrArg (View.tags · a) hview
  exact htags.trans (View.patch_tags_self _)

/-- The row of a task where the view has changed. -/
theorem rewritten_of_view (hview : s'.view known = (s.view known).patch a c) (hs : s.IsSound)
    {l l' : Ledger} {row row' : TaskRow} (hrow : s.Locates a l row) (hl' : s'.ledger = some l')
    (hrow' : row' ∈ l'.tasks) (hid : row'.id = some a) :
    row'.timeless = c.rewritten row.timeless := by
  have hseen : row'.timeless ∈ (s'.view known).tasks := by
    rw [view, firstTables_eq hl']
    exact List.mem_map_of_mem hrow'
  rw [hview] at hseen
  obtain ⟨seen, hmem, hsame⟩ := List.mem_map.1 hseen
  rw [view, firstTables_eq hrow.ledger] at hmem
  obtain ⟨old, hold, rfl⟩ := List.mem_map.1 hmem
  have holdId : old.id = some a := by
    split at hsame
    · assumption
    · exact (congrArg TaskRow.id hsame).trans hid
  rw [if_pos (show old.timeless.id = some a from holdId)] at hsame
  rw [← hsame, eq_of_id (hs.ledger l hrow.ledger) hrow.mem hold hrow.id holdId]

end Store

/-- **A change that is written** edits the task as the members ask. -/
theorem Desk.follows_of_rewriteTask {source : Source} {d d' : Desk} {a : Text} {l : Ledger}
    {row : TaskRow} {m : List (Text × Json)} {c : TaskChange} {u : Unit} {old new : Task}
    (hs : d.store.IsRegular) (hrow : d.store.Locates a l row) (hchange : Body.taskChange m = .ok c)
    (h : (rewriteTask source (some a) c row).on d = (.ok u, d'))
    (hold : d.store.task? (some a) = .ok (some old))
    (hnew : d'.store.task? (some a) = .ok (some new)) :
    Task.Follows m (d.IsNew source) old new := by
  have hc := Body.isPlain_taskChange hchange
  obtain ⟨hroom, hview⟩ := rewriteTask_done hs hrow hc [] h fun _ _ _ => List.not_mem_nil
  obtain ⟨k, found, hk, hfound, hid, -, hgives⟩ := Store.exists_gives_of_task? hold
  obtain ⟨l', row', hl', hrow', hid', -, hgives'⟩ := Store.exists_gives_of_task? hnew
  cases hrow.ledger.symm.trans hk
  cases Store.eq_of_id (hs.sound.ledger l hk) hrow.mem hfound hrow.id hid
  rw [Store.tagsFor_of_view hview, subtasksFor_rewriteTask hs hc h] at hgives'
  exact Task.follows_of_rewritten (Body.reads_of_taskChange hchange) hroom.toClearsNone hgives
    hgives' (Store.rewritten_of_view hview hs.sound hrow hl' hrow' hid')

/-! ## Requests -/

namespace Service

open Work Desk

/-- The list of all tasks has the task, and no other one with its id. -/
def Lists (source : Source) (d : Desk) (task : Task) : Prop :=
  ∀ today body, ∃ tasks,
    respond source today ⟨"GET".toText, "/tasks".toText, body⟩ d = (.ok (.tasks tasks), d) ∧
      task ∈ tasks ∧ ∀ other ∈ tasks, other.id = task.id → other = task

variable {source : Source} {d : Desk} {today : Date} {request : Request} {a : Text}

theorem lists_iff_mem (hs : d.store.IsHealthy) {tasks : List Task}
    (htasks : d.store.allTasks = .ok tasks) {task : Task} : Lists source d task ↔ task ∈ tasks := by
  have hrespond (today : Date) (body : Option (List UInt8)) :
      respond source today ⟨"GET".toText, "/tasks".toText, body⟩ d = (.ok (.tasks tasks), d) :=
    respond_allTasks hs.presentable htasks body
  constructor
  · intro h
    obtain ⟨listed, hlisted, hmem, -⟩ := h { year := 2025, month := 1, day := 1 } none
    cases (hrespond _ _).symm.trans hlisted
    exact hmem
  · intro hmem today body
    have hrecord := (hs.sound.agree htasks).record
    refine ⟨tasks, hrespond today body, hmem, fun other hother hid => ?_⟩
    have hread := hrecord other hother
    rw [hid, hrecord task hmem] at hread
    cases hread
    rfl

/-- The tasks on the list are those that are read by their ids. -/
theorem lists_iff (hs : d.store.IsHealthy) {task : Task} :
    Lists source d task ↔ d.store.task? (some task.id) = .ok (some task) := by
  obtain ⟨tasks, htasks, -⟩ := hs.presentable.allTasks
  rw [lists_iff_mem hs htasks]
  constructor
  · exact (hs.sound.agree htasks).record task
  · intro h
    obtain ⟨l, hl, row, hfound, htask⟩ := Store.task?_eq_ok_some.1 h
    exact Store.mem_allTasks htasks hl (List.mem_of_find?_eq_some hfound) htask

/-- The desk after a request has the task edited as the members of its body ask, and nothing else
    is another. -/
structure Edits (source : Source) (a : Text) (m : List (Text × Json)) (d : Desk) (old new : Task)
    (after : Reply × Desk) : Prop where
  id : old.id = a
  before : Lists source d old
  answer : after.1 = .ok (.task new)
  listed : Lists source after.2 new
  follows : Task.Follows m (d.IsNew source) old new
  subtask_ids : (new.subtasks.map (·.id)).Nodup
  beside : d.store.SameBeside a after.2.store
  others : ∀ other : Task, other.id ≠ a → (Lists source after.2 other ↔ Lists source d other)

/-- A request that is answered, at a desk with a regular store. -/
theorem exists_edits_of_ok (hs : d.store.IsRegular)
    (hgoes : Destination.ofRequest request.method request.path = .endpoint .updateTask a)
    (hstatus : (respond source today request d).1.status = 200) :
    ∃ m old new, Body.members? request.body = some m ∧
      Edits source a m d old new (respond source today request d) := by
  obtain ⟨c, row, u, d', hbody, hrow, hwrite⟩ := exists_rewrite_of_ok hgoes hs hstatus
  obtain ⟨new, hrespond, hnew⟩ := respond_rewritten today hgoes hbody hrow hs hwrite
  obtain ⟨m, hm, hchange⟩ := Body.exists_members hbody
  have hc := Body.isPlain_taskChange hchange
  obtain ⟨l, hl, -⟩ := hs.presentable.ledger
  obtain ⟨rows, hrows, -⟩ := hs.presentable.subtasks
  have hlocates := hs.locates hl hrow
  obtain ⟨hs', -⟩ := isRegular_rewriteTask hs hlocates hc hwrite
  obtain ⟨rows', hrows', -⟩ := hs'.presentable.subtasks
  obtain ⟨old, hold⟩ := hlocates.exists_task? hs.toIsHealthy
  obtain ⟨-, -, -, -, -, holdId, -⟩ := Store.exists_gives_of_task? hold
  obtain ⟨l', _, hl', -, -, hnewId, hgives⟩ := Store.exists_gives_of_task? hnew
  have hbeside := sameBeside_rewriteTask hs hlocates hc hwrite
  rw [hrespond]
  exact ⟨m, old, new, hm, {
    id := holdId
    before := (lists_iff hs.toIsHealthy).2 (by rwa [holdId])
    answer := rfl
    listed := (lists_iff hs'.toIsHealthy).2 (by rwa [hnewId])
    follows := follows_of_rewriteTask hs hlocates hchange hwrite hold hnew
    subtask_ids := hgives.subtasks ▸ hs'.sound.nodup_subtasksFor a
    beside := hbeside
    others := fun other hother => by
      rw [lists_iff hs'.toIsHealthy, lists_iff hs.toIsHealthy,
        hbeside.task?_eq hl hl' hrows hrows' hother] }⟩

/-- **What a request that is answered has edited.** After any requests to a fresh service, a
    request for a change to a task that is answered has members in its body, and the answer is
    the task that is listed from then on: the one from before, edited as the members ask. What
    belongs to other tasks stays, and so do projects, folders and settings. -/
theorem edited_of_ok (source : Source) (requests : List (Date × Request)) (today : Date)
    (hgoes : Destination.ofRequest request.method request.path = .endpoint .updateTask a)
    (hstatus : (respond source today request (Desk.served source requests)).1.status = 200) :
    ∃ m old new, Body.members? request.body = some m ∧
      Edits source a m (Desk.served source requests) old new
        (respond source today request (Desk.served source requests)) :=
  exists_edits_of_ok (Desk.isOrdinary_served source requests).regular hgoes hstatus

/-- A description is cleared, a tag is given twice, and a subtask is replaced. The title and the
    other task stay. -/
theorem edited_of_ok_packing :
    let source : Source := ⟨fun n => List.replicate (n + 1) 'i', fun _ => []⟩
    let today : Date := { year := 2025, month := 1, day := 15 }
    let body (json : String) := some (json.toList.map fun c => c.toNat.toUInt8)
    let post (json : String) : Date × Request :=
      (today, ⟨"POST".toText, "/tasks".toText, body json⟩)
    let requests := [
      post "\x7b\"title\":\"Pack\",\"description\":\"soon\",\"subtasks\":[\"Charger\"]\x7d",
      post "\x7b\"title\":\"Rent\",\"tags\":[\"home\"],\"due_date\":\"2025-01-31\"\x7d"]
    let change : Request := ⟨"PATCH".toText, "/tasks/i".toText,
      body "\x7b\"description\":null,\"tags\":[\"b\",\"a\",\"b\"],\"subtasks\":[\"Bag\"]\x7d"⟩
    let d := Desk.served source requests
    let after := respond source today change d
    after.1 = .ok (.task {
        id := "i".toText, title := "Pack".toText, tags := ["b".toText, "a".toText]
        subtasks := [⟨"iiii".toText, "Bag".toText, false⟩], createdAt := [], updatedAt := [] }) ∧
      ∃ m old new, Body.members? change.body = some m ∧
        Edits source "i".toText m d old new after := by
  intro source today body post requests change d after
  have hgoes : Destination.ofRequest change.method change.path =
      .endpoint .updateTask "i".toText := by decide +kernel
  have hanswer : (respond source today change (Desk.served source requests)).1 = .ok (.task {
        id := "i".toText, title := "Pack".toText, tags := ["b".toText, "a".toText]
        subtasks := [⟨"iiii".toText, "Bag".toText, false⟩], createdAt := [], updatedAt := [] }) := by
    decide +kernel
  have hstatus : (respond source today change (Desk.served source requests)).1.status = 200 := by
    rw [hanswer]
    rfl
  exact ⟨hanswer, edited_of_ok source requests today hgoes hstatus⟩

end Service
end TaskDesk
