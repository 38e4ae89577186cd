import Mathlib.Data.List.ReduceOption
import Mathlib.Logic.Function.Basic
import TaskDesk.Proofs.Desk.Subtasks
import TaskDesk.Proofs.Store.Edit
import TaskDesk.Proofs.Store.Listing

/-!
# What a store shows

The view of a store is what can be read from it, without the times of the last changes and
without the ids of subtasks that are not among some known ones. Tags and subtasks are
listed task by task, so it does not matter in which order those of different tasks were
inserted. A change to a task is a function on views. Two such changes can be made in either
order if they concern different tasks or different fields, and stores with the same view
answer all queries alike.

Results:
* `View.patch_comm`: changes to different tasks or fields in either order.
* `Store.ReadsLike`: what it means that stores answer all queries alike.
* `Store.readsLike_of_view`: stores with the same view do.
-/

namespace TaskDesk

/-! ## Views -/

/-- A subtask as it is seen by one who knows some ids: another id is hidden. -/
structure Part where
  id : Option Text
  text : Text
  completed : Bool

/-- A subtask with its id, if it is known. -/
def SubtaskRow.part (known : List Text) (row : SubtaskRow) : Part where
  id := if row.id ∈ known then some row.id else none
  text := row.text
  completed := row.completed

/-- A task without the time of its last change. -/
def TaskRow.timeless (row : TaskRow) : TaskRow := { row with updatedAt := [] }

/-- What a store shows. -/
@[ext]
structure View where
  tasks : List TaskRow
  tags : Text → List Text
  subtasks : Text → List Part
  projects : Counted Project
  folders : Counted Folder
  settings : Option (List SettingRow)

namespace Store

/-- The tables of the first revision, which are empty where they are missing. -/
def firstTables (s : Store) : Ledger := s.ledger.getD {}

theorem firstTables_eq {s : Store} {l : Ledger} (hl : s.ledger = some l) : s.firstTables = l := by
  rw [firstTables, hl, Option.getD_some]

/-- The tags of a task. -/
def tagsFor (s : Store) (id : Text) : List Text :=
  (s.firstTables.tags.filter fun row => sameId (some id) (some row.taskId)).map (·.tag)

/-- The stored subtasks of a task. -/
def subtasksFor (s : Store) (id : Text) : List SubtaskRow :=
  s.subtaskList.filter fun row => sameId (some id) (some row.taskId)

theorem tagsOf_eq {s : Store} {l : Ledger} (hl : s.ledger = some l) {id : Text}
    (hid : id.isEncodable = true) : s.tagsOf (some id) = .ok (s.tagsFor id) := by
  rw [tagsFor, firstTables_eq hl]
  exact tagsOf_eq_ok.2 ⟨l, hl, isEncodable_some.2 hid, rfl⟩

theorem subtasksOf_eq {s : Store} {rows : List SubtaskRow} (hrows : s.subtasks = some rows)
    {id : Text} (hid : id.isEncodable = true) :
    s.subtasksOf (some id) = .ok ((s.subtasksFor id).map (·.toSubtask)) := by
  rw [subtasksFor, subtaskList_eq hrows]
  exact subtasksOf_eq_ok.2 ⟨rows, hrows, isEncodable_some.2 hid, rfl⟩

/-- What the store shows to one who knows some ids of subtasks. -/
def view (known : List Text) (s : Store) : View where
  tasks := s.firstTables.tasks.map (·.timeless)
  tags := s.tagsFor
  subtasks id := (s.subtasksFor id).map (·.part known)
  projects := s.firstTables.projects
  folders := s.firstTables.folders
  settings := s.settings

end Store

/-! ## Changes -/

theorem reduceOption_map_some {α : Type} (xs : List α) : (xs.map some).reduceOption = xs := by
  rw [List.reduceOption, List.filterMap_map]
  exact List.filterMap_some

namespace TaskChange

/-- The tags that are given. -/
def newTags (c : TaskChange) : Option (List Text) := c.tags.map List.reduceOption

/-- The texts of the subtasks that are given. -/
def newSubtasks (c : TaskChange) : Option (List Text) := c.subtasks.map List.reduceOption

/-- A change as a client can send it: its columns can be sent, and its tags and subtasks have
    texts. -/
structure IsPlain (c : TaskChange) : Prop extends c.toTaskEdit.IsPlain where
  tags : c.tags = c.newTags.map (List.map some)
  subtasks : c.subtasks = c.newSubtasks.map (List.map some)

/-- The tags of a task after the change. -/
def tagsAfter (c : TaskChange) (old : List Text) : List Text :=
  (c.newTags.map Text.distinct).getD old

/-- The subtasks of a task after the change. Those with other texts are new. -/
def partsAfter (c : TaskChange) (old : List Part) : List Part :=
  match c.newSubtasks with
  | none => old
  | some texts => if texts = old.map (·.text) then old else texts.map fun text => ⟨none, text, false⟩

theorem tagsAfter_of_same {c : TaskChange} {old : List Text} (h : ∀ tags ∈ c.newTags, tags = old)
    (hold : Text.distinct old = old) : c.tagsAfter old = old := by
  rw [tagsAfter]
  cases hnew : c.newTags with
  | none => rfl
  | some tags => rw [h tags hnew, Option.map_some, Option.getD_some, hold]

theorem partsAfter_of_same {c : TaskChange} {old : List Part}
    (h : ∀ texts ∈ c.newSubtasks, texts = old.map (·.text)) : c.partsAfter old = old := by
  rw [partsAfter]
  split
  · rfl
  · rename_i texts hnew
    exact if_pos (h texts hnew)

theorem partsAfter_of_other {c : TaskChange} {texts : List Text} (h : texts ∈ c.newSubtasks)
    {old : List Part} (hother : texts ≠ old.map (·.text)) :
    c.partsAfter old = texts.map fun text => ⟨none, text, false⟩ := by
  rw [partsAfter, Option.mem_def.1 h]
  exact if_neg hother

/-- Where subtasks are given, those after the change have their texts. -/
theorem map_text_partsAfter {c : TaskChange} {texts : List Text} (h : texts ∈ c.newSubtasks)
    (old : List Part) : (c.partsAfter old).map (·.text) = texts := by
  rw [Option.mem_def] at h
  rw [partsAfter, h]
  dsimp only
  split
  · rename_i hsame
    exact hsame.symm
  · rw [List.map_map]
    exact List.map_id _

/-- One of the two changes leaves each field alone. -/
structure Apart (c c' : TaskChange) : Prop extends c.toTaskEdit.Apart c'.toTaskEdit where
  tags : c.tags = none ∨ c'.tags = none
  subtasks : c.subtasks = none ∨ c'.subtasks = none

variable {c c' : TaskChange}

theorem Apart.tagsAfter_comm (h : c.Apart c') (old : List Text) :
    c'.tagsAfter (c.tagsAfter old) = c.tagsAfter (c'.tagsAfter old) := by
  rcases h.tags with h | h <;> simp [tagsAfter, newTags, h]

theorem Apart.partsAfter_comm (h : c.Apart c') (old : List Part) :
    c'.partsAfter (c.partsAfter old) = c.partsAfter (c'.partsAfter old) := by
  rcases h.subtasks with h | h <;> simp [partsAfter, newSubtasks, h]

end TaskChange

namespace View

/-- The view after a change to the task with the id. -/
def patch (id : Text) (c : TaskChange) (v : View) : View :=
  { v with
    tasks := v.tasks.map fun row => if row.id = some id then c.rewritten row else row
    tags := Function.update v.tags id (c.tagsAfter (v.tags id))
    subtasks := Function.update v.subtasks id (c.partsAfter (v.subtasks id)) }

variable {a b : Text} {c c' : TaskChange}

theorem patch_tags_self (v : View) : (v.patch a c).tags a = c.tagsAfter (v.tags a) :=
  Function.update_self ..

theorem patch_subtasks_self (v : View) : (v.patch a c).subtasks a = c.partsAfter (v.subtasks a) :=
  Function.update_self ..

/-- A task that was changed is as the change makes it. -/
theorem rewritten_of_mem_patch {v : View} {row : TaskRow} (hrow : row ∈ (v.patch a c).tasks)
    (ha : row.id = some a) : c.rewritten row = row := by
  obtain ⟨old, -, rfl⟩ := List.mem_map.1 hrow
  by_cases hold : old.id = some a
  · rw [if_pos hold]
    exact c.rewritten_rewritten old
  · rw [if_neg hold] at ha
    exact absurd ha hold

/-- Two functions of the value at a place, which need not be different. -/
theorem update_update_comm {α : Type} {f g : α → α} (h : a ≠ b ∨ ∀ x, g (f x) = f (g x))
    (v : Text → α) :
    Function.update (Function.update v a (f (v a))) b (g (Function.update v a (f (v a)) b)) =
      Function.update (Function.update v b (g (v b))) a (f (Function.update v b (g (v b)) a)) := by
  by_cases hab : a = b
  · subst hab
    simp only [Function.update_self, Function.update_idem]
    rw [h.resolve_left (fun hne => hne rfl)]
  · rw [Function.update_of_ne hab, Function.update_of_ne (Ne.symm hab),
      Function.update_comm hab]

/-- **Changes to different tasks or to different fields** can be made in either order. -/
theorem patch_comm (h : a ≠ b ∨ c.Apart c') (v : View) :
    (v.patch a c).patch b c' = (v.patch b c').patch a c := by
  have htasks (row : TaskRow) :
      (if (if row.id = some a then c.rewritten row else row).id = some b then
          c'.rewritten (if row.id = some a then c.rewritten row else row)
        else if row.id = some a then c.rewritten row else row) =
      (if (if row.id = some b then c'.rewritten row else row).id = some a then
          c.rewritten (if row.id = some b then c'.rewritten row else row)
        else if row.id = some b then c'.rewritten row else row) := by
    have hkeep (e : TaskEdit) : (e.rewritten row).id = row.id := rfl
    by_cases ha : row.id = some a
    · by_cases hb : row.id = some b
      · have hab : a = b := Option.some.inj (ha.symm.trans hb)
        rw [if_pos ha, if_pos hb, hkeep, hkeep, if_pos ha, if_pos hb]
        exact (h.resolve_left (fun hne => hne hab)).rewritten_comm row
      · rw [if_pos ha, if_neg hb, hkeep, if_pos ha, if_neg hb]
    · rw [if_neg ha]
      split
      · rw [hkeep, if_neg ha]
      · rfl
  ext1
  · simp only [patch, List.map_map]
    exact List.map_congr_left fun row _ => htasks row
  · exact update_update_comm (h.imp_right fun h => h.tagsAfter_comm) v.tags
  · exact update_update_comm (h.imp_right fun h => h.partsAfter_comm) v.subtasks
  · rfl
  · rfl
  · rfl

end View

/-! ## Answers -/

/-- The same subtask, or two whose ids are both unknown. -/
structure Subtask.Alike (known : List Text) (s t : Subtask) : Prop where
  text : s.text = t.text
  completed : s.completed = t.completed
  id : s.id = t.id ∨ s.id ∉ known ∧ t.id ∉ known

/-- The same task, up to the time of the last change and unknown ids of subtasks. -/
structure Task.Alike (known : List Text) (t u : Task) : Prop where
  subtasks : List.Forall₂ (Subtask.Alike known) t.subtasks u.subtasks
  rest : u = { t with subtasks := u.subtasks, updatedAt := u.updatedAt }

/-- Two stores answer all queries alike: they list the same tasks, up to the times of the
    last changes and unknown ids of subtasks, and otherwise the same. -/
structure Store.ReadsLike (known : List Text) (s t : Store) : Prop where
  tasks : ∃ ts us, s.allTasks = .ok ts ∧ t.allTasks = .ok us ∧ List.Forall₂ (Task.Alike known) ts us
  tags : s.allTags = t.allTags
  projects : s.allProjects = t.allProjects
  folders : s.allFolders = t.allFolders
  settings : ∀ key, s.setting? key = t.setting? key

/-- Lists that correspond to lists that correspond. -/
theorem forall₂_of_forall₂ {α β : Type} {R : α → β → Prop} {R' : α → β → Prop} {S : α → α → Prop}
    {T : β → β → Prop} {xs xs' : List α} {ys ys' : List β} (hS : List.Forall₂ S xs xs')
    (hR : List.Forall₂ R xs ys) (hR' : List.Forall₂ R' xs' ys')
    (h : ∀ {x x' y y'}, S x x' → R x y → R' x' y' → T y y') : List.Forall₂ T ys ys' := by
  induction hS generalizing ys ys' with
  | nil =>
    cases hR
    cases hR'
    exact .nil
  | cons hfirst _ ih =>
    cases hR with
    | cons hy hys =>
      cases hR' with
      | cons hy' hys' => exact .cons (h hfirst hy hy') (ih hys hys')

theorem forall₂_of_map_eq {α β : Type} {f : α → β} {xs ys : List α} (h : xs.map f = ys.map f) :
    List.Forall₂ (fun x y => f x = f y) xs ys := by
  rw [← List.forall₂_map_right_iff (R := fun x b => f x = b), ← List.forall₂_map_left_iff, h,
    List.forall₂_eq_eq_eq]

theorem TaskRow.exists_of_timeless {row row' : TaskRow} (h : row.timeless = row'.timeless) :
    ∃ time, row' = { row with updatedAt := time } := by
  refine ⟨row'.updatedAt, ?_⟩
  obtain ⟨⟩ := row
  obtain ⟨⟩ := row'
  cases h
  rfl

theorem SubtaskRow.alike_of_part {known : List Text} {row row' : SubtaskRow}
    (h : row.part known = row'.part known) :
    Subtask.Alike known row.toSubtask row'.toSubtask := by
  refine ⟨congrArg Part.text h, congrArg Part.completed h, ?_⟩
  have hid : (if row.id ∈ known then some row.id else none) =
      if row'.id ∈ known then some row'.id else none := congrArg Part.id h
  split at hid <;> split at hid
  · exact .inl (Option.some.inj hid)
  · cases hid
  · cases hid
  · exact .inr ⟨‹_›, ‹_›⟩

namespace Store

variable {known : List Text} {s t : Store}

/-- Records of rows that look the same. -/
theorem alike_of_taskOfRow (h : s.view known = t.view known) {row row' : TaskRow} {task task' : Task}
    (hrow : row.timeless = row'.timeless) (hs : s.taskOfRow row = .ok task)
    (ht : t.taskOfRow row' = .ok task') : task.Alike known task' := by
  obtain ⟨time, rfl⟩ := TaskRow.exists_of_timeless hrow
  simp only [taskOfRow, bind_eq_ok, tagsOf_eq_ok, subtasksOf_eq_ok] at hs ht
  obtain ⟨_, ⟨l, hl, -, rfl⟩, _, ⟨rows, hrows, -, rfl⟩, hs⟩ := hs
  obtain ⟨_, ⟨k, hk, -, rfl⟩, _, ⟨rows', hrows', -, rfl⟩, ht⟩ := ht
  unfold TaskRow.toTask at hs ht
  split at hs
  · rename_i id priority hid hpriority
    rw [hid, hpriority] at ht
    cases hs
    cases ht
    have htags := congrFun (congrArg View.tags h) id
    have hsubtasks := congrFun (congrArg View.subtasks h) id
    simp only [view, tagsFor, firstTables_eq hl, firstTables_eq hk] at htags
    simp only [view, subtasksFor, subtaskList_eq hrows, subtaskList_eq hrows'] at hsubtasks
    constructor
    · rw [hid, List.forall₂_map_left_iff, List.forall₂_map_right_iff]
      exact (forall₂_of_map_eq hsubtasks).imp fun _ _ => SubtaskRow.alike_of_part
    · rw [hid, htags]
  · cases hs

/-- The time of the last change has no influence on the rank of a task. -/
theorem map_timeless_mergeSort (rows : List TaskRow) :
    (rows.mergeSort TaskRow.ranksBefore).map (·.timeless) =
      (rows.map (·.timeless)).mergeSort TaskRow.ranksBefore :=
  List.map_mergeSort fun _ _ _ _ => rfl

theorem allTasks_alike (hs : s.IsPresentable) (ht : t.IsPresentable)
    (h : s.view known = t.view known) :
    ∃ ts us, s.allTasks = .ok ts ∧ t.allTasks = .ok us ∧
      List.Forall₂ (Task.Alike known) ts us := by
  obtain ⟨ts, hts, -⟩ := hs.allTasks
  obtain ⟨us, hus, -⟩ := ht.allTasks
  refine ⟨ts, us, hts, hus, ?_⟩
  obtain ⟨l, hl, hts⟩ := allTasks_eq_ok.1 hts
  obtain ⟨k, hk, hus⟩ := allTasks_eq_ok.1 hus
  have hrows : l.tasks.map (·.timeless) = k.tasks.map (·.timeless) := by
    have htasks := congrArg View.tasks h
    rwa [view, view, firstTables_eq hl, firstTables_eq hk] at htasks
  have hsorted : (l.tasks.mergeSort TaskRow.ranksBefore).map (·.timeless) =
      (k.tasks.mergeSort TaskRow.ranksBefore).map (·.timeless) := by
    rw [map_timeless_mergeSort, map_timeless_mergeSort, hrows]
  exact forall₂_of_forall₂ (forall₂_of_map_eq hsorted) (mapM_eq_ok_iff.1 hts)
    (mapM_eq_ok_iff.1 hus) (alike_of_taskOfRow h)

/-- A tag is in use if a task has it. -/
theorem mem_tags_iff (known : List Text) (s : Store) (tag : Text) :
    tag ∈ s.firstTables.tags.map (·.tag) ↔ ∃ id, tag ∈ (s.view known).tags id := by
  simp [view, tagsFor, sameId_some]

/-- A sorted list without repetitions is determined by its members. -/
theorem allTags_eq (hl : s.ledger.isSome) (hk : t.ledger.isSome)
    (h : s.view known = t.view known) : s.allTags = t.allTags := by
  obtain ⟨l, hl⟩ := Option.isSome_iff_exists.1 hl
  obtain ⟨k, hk⟩ := Option.isSome_iff_exists.1 hk
  have hmem (tag : Text) : tag ∈ Text.distinct (l.tags.map (·.tag)) ↔
      tag ∈ Text.distinct (k.tags.map (·.tag)) := by
    rw [Text.mem_distinct, Text.mem_distinct, ← firstTables_eq hl, ← firstTables_eq hk,
      mem_tags_iff known, mem_tags_iff known, h]
  have hperm := (List.perm_ext_iff_of_nodup (Text.nodup_distinct _) (Text.nodup_distinct _)).2 hmem
  have hsame : (Text.distinct (l.tags.map (·.tag))).mergeSort Text.precedes =
      (Text.distinct (k.tags.map (·.tag))).mergeSort Text.precedes :=
    (((List.mergeSort_perm _ _).trans hperm).trans (List.mergeSort_perm _ _).symm).eq_of_pairwise
      (fun _ _ _ _ => Text.precedes_antisymm) (Text.pairwise_mergeSort _)
      (Text.pairwise_mergeSort _)
  rw [allTags, allTags, ledgerFor, ledgerFor, hl, hk]
  exact congrArg Except.ok hsame

/-- **Stores with the same view** answer all queries alike. -/
theorem readsLike_of_view (hs : s.IsPresentable) (ht : t.IsPresentable)
    (h : s.view known = t.view known) : s.ReadsLike known t := by
  obtain ⟨l, hl, -⟩ := hs.ledger
  obtain ⟨k, hk, -⟩ := ht.ledger
  have hprojects : l.projects = k.projects := by
    have hsame := congrArg View.projects h
    rwa [view, view, firstTables_eq hl, firstTables_eq hk] at hsame
  have hfolders : l.folders = k.folders := by
    have hsame := congrArg View.folders h
    rwa [view, view, firstTables_eq hl, firstTables_eq hk] at hsame
  exact {
    tasks := allTasks_alike hs ht h
    tags := allTags_eq (by rw [hl]; rfl) (by rw [hk]; rfl) h
    projects := by
      rw [allProjects, allProjects, ledgerFor, ledgerFor, hl, hk]
      exact congrArg (fun ps => Except.ok ps.rows) hprojects
    folders := by
      rw [allFolders, allFolders, ledgerFor, ledgerFor, hl, hk]
      exact congrArg (fun fs => Except.ok fs.rows) hfolders
    settings := fun key => by
      rw [setting?, setting?, settingRows, settingRows,
        show s.settings = t.settings from congrArg View.settings h] }

end Store
end TaskDesk
