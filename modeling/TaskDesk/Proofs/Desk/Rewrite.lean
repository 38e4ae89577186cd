import Mathlib.Data.List.Nodup
import Mathlib.Data.List.Pairwise
import Mathlib.Data.Option.Basic
import TaskDesk.Proofs.Desk.Orderly
import TaskDesk.Proofs.Desk.Sparing
import TaskDesk.Proofs.Store.View

/-!
# Changes to a task, part by part

A change to a task replaces its tags and its subtasks, where other ones are given, and then
writes its columns, if anything makes a difference. Each part has two lemmas: what it leaves
where it is done, and under which condition it is done. Together they say that a change is
written just if the store has room for all that is given, and that the store then shows what
the change makes of the view.

Results:
* `Text.distinct_of_nodup`: a list without repetitions stays as it is.
* `Desk.rewriteTask_done`: what a change to a task leaves.
* `Desk.rewriteTask_succeeds`: when it is written.
* `Desk.rewriteTask_unchanged`: a change that makes no difference leaves the desk as it is.
-/

namespace TaskDesk

/-- Ids that are never repeated, and ids and times that can be written in UTF-8. -/
structure Source.IsReliable (source : Source) : Prop where
  id_injective : Function.Injective source.id
  id : ∀ n, (source.id n).isEncodable = true
  time : ∀ n, (source.time n).isEncodable = true

/-- Ids of ever more strokes are never repeated. -/
theorem Source.isReliable_strokes :
    IsReliable ⟨fun n => List.replicate (n + 1) 'i', fun _ => []⟩ where
  id_injective m n h := by
    have hlength := congrArg List.length h
    rwa [List.length_replicate, List.length_replicate, Nat.add_right_cancel_iff] at hlength
  id n := by
    show Text.isEncodable (List.replicate (n + 1) _) = true
    rw [Text.isEncodable, List.all_replicate]
    rfl
  time _ := rfl

/-! ## Lists without repetitions -/

namespace Text

variable {α β : Type} [DecidableEq α] [DecidableEq β]

theorem distinctFrom_map {f : α → β} (hf : Function.Injective f) (seen ts : List α) :
    distinctFrom (seen.map f) (ts.map f) = (distinctFrom seen ts).map f := by
  induction ts generalizing seen with
  | nil => rfl
  | cons t ts ih =>
    have hseen : f t ∈ seen.map f ↔ t ∈ seen := List.mem_map_of_injective hf
    rw [List.map_cons, distinctFrom, distinctFrom]
    by_cases ht : t ∈ seen
    · rw [if_pos (hseen.2 ht), if_pos ht, ih]
    · rw [if_neg (fun h => ht (hseen.1 h)), if_neg ht, List.map_cons, ← ih, List.map_cons]

theorem distinct_map {f : α → β} (hf : Function.Injective f) (ts : List α) :
    distinct (ts.map f) = (distinct ts).map f := distinctFrom_map hf [] ts

theorem distinctFrom_of_nodup {seen ts : List α} (h : ts.Nodup) (hseen : ∀ t ∈ ts, t ∉ seen) :
    distinctFrom seen ts = ts := by
  induction ts generalizing seen with
  | nil => rfl
  | cons t ts ih =>
    rw [List.nodup_cons] at h
    rw [List.forall_mem_cons] at hseen
    rw [distinctFrom, if_neg hseen.1, ih h.2]
    intro u hu hmem
    rcases List.mem_cons.1 hmem with rfl | hmem
    · exact h.1 hu
    · exact hseen.2 u hu hmem

theorem distinct_of_nodup {ts : List α} (h : ts.Nodup) : distinct ts = ts :=
  distinctFrom_of_nodup h fun _ _ => List.not_mem_nil

end Text

/-! ## Rows that are replaced -/

/-- New rows of a task stand behind those that it has, and those of other tasks stay. -/
theorem filter_appended {α : Type} (key : α → Text) {a : Text} (rows : List α) {new : List α}
    (hnew : ∀ row ∈ new, key row = a) (b : Text) :
    (rows ++ new).filter (fun row => sameId (some b) (some (key row))) =
      (rows.filter fun row => sameId (some b) (some (key row))) ++ if b = a then new else [] := by
  have hsame : ∀ row ∈ new, sameId (some b) (some (key row)) = true ↔ b = a := by
    intro row hrow
    rw [sameId_some, Option.some_inj, hnew row hrow, eq_comm]
  rw [List.filter_append]
  split
  · rename_i hb
    rw [List.filter_eq_self.2 fun row hrow => (hsame row hrow).2 hb]
  · rename_i hb
    rw [List.filter_eq_nil_iff.2 fun row hrow h => hb ((hsame row hrow).1 h)]

/-- The rows of a task are replaced by new ones, and those of other tasks stay. -/
theorem filter_replaced {α : Type} (key : α → Text) {a : Text} {rows new : List α}
    (hnew : ∀ row ∈ new, key row = a) (b : Text) :
    ((rows.filter fun row => !sameId (some a) (some (key row))) ++ new).filter
        (fun row => sameId (some b) (some (key row))) =
      if b = a then new else rows.filter fun row => sameId (some b) (some (key row)) := by
  rw [filter_appended key _ hnew, List.filter_filter]
  split
  · rename_i hb
    rw [List.filter_eq_nil_iff.2 (by simp [hb]), List.nil_append]
  · rename_i hb
    rw [List.append_nil]
    refine List.filter_congr fun row _ => ?_
    by_cases hrow : key row = b
    · simp [sameId, hrow, Ne.symm hb]
    · simp [sameId, Ne.symm hrow]

namespace Ledger

/-- The tables with other tags of a task. -/
def retag (a : Text) (tags : List Text) (l : Ledger) : Ledger :=
  { l with
    tags := (l.tags.filter fun row => !sameId (some a) (some row.taskId)) ++ tags.map (TagRow.mk a) }

end Ledger

/-- New, open subtasks of a task, with the ids from the n-th one on. -/
def newSubtasks (source : Source) (a : Text) : Nat → List Text → List SubtaskRow
  | _, [] => []
  | n, text :: more => ⟨source.id n, a, text, false⟩ :: newSubtasks source a (n + 1) more

section NewSubtasks

variable {source : Source} {a : Text}

theorem task_of_mem_newSubtasks {n : Nat} {texts : List Text} :
    ∀ row ∈ newSubtasks source a n texts, row.taskId = a := by
  induction texts generalizing n with
  | nil => exact fun row hrow => nomatch hrow
  | cons text more ih => exact List.forall_mem_cons.2 ⟨rfl, ih⟩

theorem map_part_newSubtasks {known : List Text} {n : Nat} {texts : List Text}
    (h : ∀ m, n ≤ m → m < n + texts.length → source.id m ∉ known) :
    (newSubtasks source a n texts).map (·.part known) = texts.map fun text => ⟨none, text, false⟩ := by
  induction texts generalizing n with
  | nil => rfl
  | cons text more ih =>
    rw [List.length_cons] at h
    rw [newSubtasks, List.map_cons, List.map_cons, ih fun m hm hlt => h m (by omega) (by omega),
      SubtaskRow.part, if_neg (h n (Nat.le_refl _) (by omega))]

end NewSubtasks

namespace Store

variable {s : Store} {l : Ledger}

theorem nodup_tagsFor (hs : s.IsSound) (a : Text) : (s.tagsFor a).Nodup := by
  have htags : s.firstTables.tags.Nodup := by
    cases hl : s.ledger with
    | none => rw [firstTables, hl]; exact .nil
    | some l => rw [firstTables_eq hl]; exact (hs.ledger l hl).tags
  refine List.Nodup.map_on (fun row hrow row' hrow' htag => ?_) (htags.filter _)
  have hrow := (List.mem_filter.1 hrow).2
  have hrow' := (List.mem_filter.1 hrow').2
  rw [sameId_some, Option.some_inj] at hrow hrow'
  exact (TagRow.mk.injEq ..).mpr ⟨hrow.trans hrow'.symm, htag⟩

theorem isEncodable_tagsFor (hs : s.IsPresentable) (a : Text) :
    ∀ t ∈ s.tagsFor a, t.isEncodable = true := by
  obtain ⟨l, hl, hshown⟩ := hs.ledger
  rw [tagsFor, firstTables_eq hl]
  exact List.forall_mem_map.2 fun row hrow => hshown.tags row (List.mem_filter.1 hrow).1

/-- The tags of a task are replaced, and those of other tasks stay. -/
theorem tagsFor_retag {a : Text} {tags : List Text} (h : s.ledger = some (l.retag a tags))
    (b : Text) :
    s.tagsFor b = if b = a then tags else
      (l.tags.filter fun row => sameId (some b) (some row.taskId)).map (·.tag) := by
  have hnew : ∀ row ∈ tags.map (TagRow.mk a), row.taskId = a :=
    List.forall_mem_map.2 fun _ _ => rfl
  rw [tagsFor, firstTables_eq h, Ledger.retag]
  dsimp only
  rw [filter_replaced TagRow.taskId hnew]
  split
  · rw [List.map_map]
    exact List.map_id _
  · rfl

theorem view_retag (hl : s.ledger = some l) (known tags : List Text) {a : Text} :
    view known (s.setLedger (l.retag a tags)) =
      { s.view known with tags := Function.update s.tagsFor a tags } := by
  have htags : tagsFor (s.setLedger (l.retag a tags)) =
      Function.update s.tagsFor a tags := by
    funext b
    rw [tagsFor_retag (ledger_setLedger _ s), Function.update_apply, tagsFor, firstTables_eq hl]
  rw [view, htags, view, firstTables_eq hl]
  rfl

theorem isEncodable_subtasksFor (hs : s.IsPresentable) (a : Text) :
    ∀ t ∈ (s.subtasksFor a).map (·.text), t.isEncodable = true := by
  obtain ⟨rows, hrows, htexts⟩ := hs.subtasks
  rw [subtasksFor, subtaskList_eq hrows]
  exact List.forall_mem_map.2 fun row hrow =>
    htexts row (List.mem_filter.1 hrow).1 row.text (List.mem_cons_of_mem _ List.mem_cons_self)

/-- The subtasks of a task are replaced, and those of other tasks stay. -/
theorem subtasksFor_renew {rows : List SubtaskRow} {source : Source} {a : Text} {n : Nat}
    {texts : List Text}
    (h : s.subtasks = some ((rows.filter fun row => !sameId (some a) (some row.taskId)) ++
      newSubtasks source a n texts)) (b : Text) :
    s.subtasksFor b = if b = a then newSubtasks source a n texts else
      rows.filter fun row => sameId (some b) (some row.taskId) := by
  rw [subtasksFor, subtaskList_eq h, filter_replaced SubtaskRow.taskId task_of_mem_newSubtasks]

theorem view_renew {rows : List SubtaskRow} (hrows : s.subtasks = some rows) {known : List Text}
    {source : Source} {a : Text} {n : Nat} {texts : List Text}
    (hfresh : ∀ m, n ≤ m → m < n + texts.length → source.id m ∉ known) :
    view known { s with
      subtasks := some ((rows.filter fun row => !sameId (some a) (some row.taskId)) ++
        newSubtasks source a n texts) } =
      { s.view known with
        subtasks := Function.update (s.view known).subtasks a
          (texts.map fun text => ⟨none, text, false⟩) } := by
  have hsubtasks (b : Text) : (subtasksFor { s with
      subtasks := some ((rows.filter fun row => !sameId (some a) (some row.taskId)) ++
        newSubtasks source a n texts) } b).map (·.part known) =
      Function.update (s.view known).subtasks a (texts.map fun text => ⟨none, text, false⟩) b := by
    rw [subtasksFor_renew rfl, Function.update_apply]
    split
    · exact map_part_newSubtasks hfresh
    · rw [← subtaskList_eq hrows]
      rfl
  rw [view]
  simp only [hsubtasks]
  rfl

/-- The task with the id has a row of its own. -/
theorem eq_of_id (hl : l.IsSound) {row old : TaskRow} (hrow : row ∈ l.tasks) (hold : old ∈ l.tasks)
    {a : Text} (ha : row.id = some a) (hid : old.id = some a) : old = row := by
  have hclash {t u : TaskRow} (h : t.id.isSome → t.id ≠ u.id) (ht : t.id = some a)
      (hu : u.id = some a) : False :=
    h (by rw [ht]; rfl) (ht.trans hu.symm)
  refine List.Pairwise.forall_of_forall_of_flip (R := fun t u => t.id = some a → u.id = some a →
    t = u) (fun _ _ _ _ => rfl) ?_ ?_ hold hrow hid ha
  · exact hl.task_ids.imp fun h ht hu => (hclash h ht hu).elim
  · exact hl.task_ids.imp fun h hu ht => (hclash h ht hu).elim

theorem view_rewrite (hs : s.IsSound) (hl : s.ledger = some l) {row : TaskRow}
    (hrow : row ∈ l.tasks) {a : Text} (ha : row.id = some a) (known : List Text) (e : TaskEdit)
    (now : Text) :
    view known (s.setLedger { l with
      tasks := l.tasks.map fun old =>
        if sameId row.id old.id then { e.rewritten row with updatedAt := now } else old }) =
      { s.view known with
        tasks := (s.view known).tasks.map fun row =>
          if row.id = some a then e.rewritten row else row } := by
  have htasks : (l.tasks.map fun old =>
      if sameId row.id old.id then { e.rewritten row with updatedAt := now } else old).map
        (·.timeless) =
      (l.tasks.map (·.timeless)).map fun row =>
        if row.id = some a then e.rewritten row else row := by
    rw [List.map_map, List.map_map]
    refine List.map_congr_left fun old hold => ?_
    rw [Function.comp_apply, Function.comp_apply, ha]
    by_cases hid : old.id = some a
    · have hsame : old = row := eq_of_id (hs.ledger l hl) hrow hold ha hid
      rw [if_pos (sameId_some.2 hid), hsame, if_pos (show row.timeless.id = some a from ha)]
      rfl
    · rw [if_neg fun h => hid (sameId_some.1 h), if_neg (show ¬ old.timeless.id = some a from hid)]
  have htags : tagsFor (s.setLedger { l with
      tasks := l.tasks.map fun old =>
        if sameId row.id old.id then { e.rewritten row with updatedAt := now } else old }) =
      s.tagsFor := by
    funext b
    rw [tagsFor, tagsFor, firstTables_eq hl]
    rfl
  rw [view, htags, firstTables, ledger_setLedger, Option.getD_some, htasks, view,
    firstTables_eq hl]
  rfl

end Store

namespace Desk

open Work

variable {source : Source} {d d' : Desk} {l : Ledger} {rows : List SubtaskRow} {a : Text}
  {u : Unit}

/-! ## Tags -/

theorem insertTags_done {tags : List Text} (hl : d.store.ledger = some l)
    (h : (insertTags (some a) (tags.map some)).on d = (.ok u, d')) :
    (∀ t ∈ tags, t.isEncodable = true) ∧
      d' = { d with
        store := d.store.setLedger { l with tags := l.tags ++ tags.map (TagRow.mk a) } } := by
  induction tags generalizing d l with
  | nil =>
    cases h
    rw [List.map_nil, List.append_nil, Store.setLedger_self hl]
    exact ⟨List.forall_mem_nil _, rfl⟩
  | cons tag more ih =>
    obtain ⟨_, inserted, hinsert, hmore⟩ := bind_on_ok h
    obtain ⟨s, hwrite, rfl⟩ := exists_of_execute_on_ok hinsert
    obtain ⟨k, hk, _, ⟨⟩, _, ⟨⟩, htexts, -, -, rfl⟩ := Store.insertTag_eq_ok.1 hwrite
    cases hl.symm.trans hk
    obtain ⟨hencodable, rfl⟩ := ih rfl hmore
    rw [List.map_cons, ← List.append_cons]
    exact ⟨List.forall_mem_cons.2 ⟨htexts tag (by simp), hencodable⟩, rfl⟩

theorem insertTags_succeeds {tags : List Text} (hl : d.store.ledger = some l)
    (htask : l.hasTask (some a) = true) (ha : a.isEncodable = true)
    (hnew : (l.tags ++ tags.map (TagRow.mk a)).Nodup) (htags : ∀ t ∈ tags, t.isEncodable = true) :
    (insertTags (some a) (tags.map some)).Succeeds d := by
  induction tags generalizing d l with
  | nil => exact succeeds_pure ()
  | cons tag more ih =>
    rw [List.map_cons, List.append_cons] at hnew
    have hfree : (⟨a, tag⟩ : TagRow) ∉ l.tags := fun hmem =>
      (List.nodup_append.1 (List.nodup_append.1 hnew).1).2.2 _ hmem _ List.mem_cons_self rfl
    have hinsert : d.store.insertTag (some a) (some tag) = .ok _ := Store.insertTag_eq_ok.2
      ⟨l, hl, a, rfl, tag, rfl, by simp [ha, htags tag List.mem_cons_self], hfree, htask, rfl⟩
    refine (succeeds_bind_of_ok (execute_on_of_ok hinsert)).2 ?_
    exact ih rfl htask hnew fun t ht => htags t (List.mem_cons_of_mem _ ht)

theorem saveTags_done {tags : List Text} (hl : d.store.ledger = some l)
    (h : (saveTags (some a) (tags.map some)).on d = (.ok u, d')) :
    (∀ t ∈ tags, t.isEncodable = true) ∧
      d' = { d with store := d.store.setLedger (l.retag a (Text.distinct tags)) } := by
  obtain ⟨_, cleared, hclear, hinsert⟩ := bind_on_ok h
  obtain ⟨s, hwrite, rfl⟩ := exists_of_execute_on_ok hclear
  obtain ⟨k, hk, -, rfl⟩ := Store.deleteTagsOf_eq_ok.1 hwrite
  cases hl.symm.trans hk
  rw [Text.distinct_map (Option.some_injective _)] at hinsert
  obtain ⟨hencodable, rfl⟩ := insertTags_done rfl hinsert
  exact ⟨fun t ht => hencodable t ((Text.mem_distinct t tags).2 ht), rfl⟩

theorem saveTags_succeeds {tags : List Text} (hl : d.store.ledger = some l) (hsound : l.IsSound)
    (htask : l.hasTask (some a) = true) (ha : a.isEncodable = true)
    (htags : ∀ t ∈ tags, t.isEncodable = true) :
    (saveTags (some a) (tags.map some)).Succeeds d := by
  have hclear : d.store.deleteTagsOf (some a) = .ok _ :=
    Store.deleteTagsOf_eq_ok.2 ⟨l, hl, isEncodable_some.2 ha, rfl⟩
  refine (succeeds_bind_of_ok (execute_on_of_ok hclear)).2 ?_
  rw [Text.distinct_map (Option.some_injective _)]
  refine insertTags_succeeds rfl htask ha ?_ fun t ht => htags t ((Text.mem_distinct t tags).1 ht)
  refine List.nodup_append.2 ⟨hsound.tags.filter _, ?_, ?_⟩
  · exact (Text.nodup_distinct tags).map fun t t' h => congrArg TagRow.tag h
  · rintro tag htag _ hnew rfl
    obtain ⟨t, -, rfl⟩ := List.mem_map.1 hnew
    have hother := (List.mem_filter.1 htag).2
    rw [sameId_some.2 rfl] at hother
    cases hother

/-- The tags are replaced where other ones are given. -/
theorem changeTags_on (hl : d.store.ledger = some l) {c : TaskChange} (hc : c.IsPlain)
    (ha : a.isEncodable = true) :
    (changeTags (some a) c.tags).on d =
      match c.newTags with
      | none => (.ok false, d)
      | some tags =>
        if tags = d.store.tagsFor a then (.ok false, d)
        else (saveTags (some a) (tags.map some) >>= fun _ => pure true).on d := by
  rw [hc.tags]
  cases c.newTags with
  | none => rfl
  | some tags =>
    dsimp only [Option.map_some]
    rw [changeTags, on_bind, on_query, Store.tagsOf_eq hl ha]
    dsimp only
    simp only [(Option.some_injective _).list_map.eq_iff]
    split <;> rfl

/-- **What is done about the tags**: nothing if no other ones are given, and otherwise the given
    ones replace those of the task. -/
theorem changeTags_cases (hl : d.store.ledger = some l) {c : TaskChange} (hc : c.IsPlain) {b : Bool}
    (h : (changeTags (some a) c.tags).on d = (.ok b, d')) :
    (d' = d ∧ ∀ tags ∈ c.newTags, tags = d.store.tagsFor a) ∨
      ∃ tags ∈ c.newTags, tags ≠ d.store.tagsFor a ∧ (∀ t ∈ tags, t.isEncodable = true) ∧
        d' = { d with store := d.store.setLedger (l.retag a (Text.distinct tags)) } := by
  cases hnew : c.newTags with
  | none =>
    rw [hc.tags, hnew] at h
    cases h
    exact .inl ⟨rfl, fun _ h => absurd h (Option.not_mem_none _)⟩
  | some tags =>
    have ha : a.isEncodable = true := by
      rw [hc.tags, hnew] at h
      obtain ⟨old, _, hquery, -⟩ := bind_on_ok h
      obtain ⟨-, -, ha, -⟩ := Store.tagsOf_eq_ok.1 (query_on_ok hquery).1
      exact isEncodable_some.1 ha
    rw [changeTags_on hl hc ha, hnew] at h
    dsimp only at h
    split at h
    · rename_i hsame
      cases h
      exact .inl ⟨rfl, by rintro _ ⟨⟩; exact hsame⟩
    · rename_i hother
      obtain ⟨_, saved, hsave, hdone⟩ := bind_on_ok h
      cases hdone
      obtain ⟨hencodable, rfl⟩ := saveTags_done hl hsave
      exact .inr ⟨tags, rfl, hother, hencodable, rfl⟩

theorem changeTags_done (hs : d.store.IsHealthy) {c : TaskChange} (hc : c.IsPlain) {b : Bool}
    (known : List Text) (h : (changeTags (some a) c.tags).on d = (.ok b, d')) :
    (∀ tags ∈ c.newTags, ∀ t ∈ tags, t.isEncodable = true) ∧
      d'.store.view known =
        { d.store.view known with
          tags := Function.update d.store.tagsFor a (c.tagsAfter (d.store.tagsFor a)) } := by
  obtain ⟨l, hl, -⟩ := hs.presentable.ledger
  obtain ⟨rfl, hsame⟩ | ⟨tags, htags, -, hencodable, rfl⟩ := changeTags_cases hl hc h
  · rw [TaskChange.tagsAfter_of_same hsame
        (Text.distinct_of_nodup (Store.nodup_tagsFor hs.sound a)),
      Function.update_eq_self]
    refine ⟨fun tags htags => ?_, rfl⟩
    rw [hsame tags htags]
    exact Store.isEncodable_tagsFor hs.presentable a
  · rw [TaskChange.tagsAfter, Option.mem_def.1 htags]
    refine ⟨?_, Store.view_retag hl known _⟩
    rintro _ ⟨⟩
    exact hencodable

theorem changeTags_succeeds (hs : d.store.IsHealthy) (htask : d.store.HasTask (some a))
    (ha : a.isEncodable = true) {c : TaskChange} (hc : c.IsPlain)
    (htags : ∀ tags ∈ c.newTags, ∀ t ∈ tags, t.isEncodable = true) :
    (changeTags (some a) c.tags).Succeeds d := by
  obtain ⟨l, hl, htask⟩ := htask
  have hon := changeTags_on hl hc ha
  cases hnew : c.newTags with
  | none =>
    rw [hnew] at hon
    exact succeeds_of_on hon
  | some tags =>
    rw [hnew] at hon
    dsimp only at hon
    split at hon
    · exact succeeds_of_on hon
    · have hsave := saveTags_succeeds hl (hs.sound.ledger l hl) htask ha (htags tags hnew)
      exact .of_eq hon (hsave.bind fun _ => succeeds_pure true)

/-! ## Subtasks -/

theorem insertSubtasks_done {texts : List Text} (hrows : d.store.subtasks = some rows)
    (h : (insertSubtasks source (some a) (texts.map some)).on d = (.ok u, d')) :
    (∀ t ∈ texts, t.isEncodable = true) ∧
      d' = { d with
        store := { d.store with
          subtasks := some (rows ++ newSubtasks source a d.idsUsed texts) }
        idsUsed := d.idsUsed + texts.length } := by
  induction texts generalizing d rows with
  | nil =>
    cases h
    rw [newSubtasks, List.append_nil, ← hrows]
    exact ⟨List.forall_mem_nil _, rfl⟩
  | cons text more ih =>
    obtain ⟨id, begun, hid, h⟩ := bind_on_ok h
    cases hid
    obtain ⟨_, inserted, hinsert, hmore⟩ := bind_on_ok h
    obtain ⟨s, hwrite, rfl⟩ := exists_of_execute_on_ok hinsert
    obtain ⟨rows', hrows', _, ⟨⟩, _, ⟨⟩, htexts, -, -, -, -, rfl⟩ :=
      Store.insertSubtask_eq_ok.1 hwrite
    cases hrows.symm.trans hrows'
    obtain ⟨hencodable, rfl⟩ := ih rfl hmore
    refine ⟨List.forall_mem_cons.2 ⟨htexts text (by simp), hencodable⟩, ?_⟩
    have hused : d.idsUsed + (more.length + 1) = d.idsUsed + 1 + more.length := by omega
    rw [← List.append_cons, List.length_cons, hused]
    rfl

theorem insertSubtasks_succeeds (hsource : source.IsReliable) {texts : List Text}
    (hrows : d.store.subtasks = some rows)
    (hfresh : ∀ n, d.idsUsed ≤ n → ∀ row ∈ rows, row.id ≠ source.id n)
    (hl : d.store.ledger = some l) (htask : l.hasTask (some a) = true) (ha : a.isEncodable = true)
    (htexts : ∀ t ∈ texts, t.isEncodable = true) :
    (insertSubtasks source (some a) (texts.map some)).Succeeds d := by
  induction texts generalizing d rows with
  | nil => exact succeeds_pure ()
  | cons text more ih =>
    let begun : Desk := { d with idsUsed := d.idsUsed + 1 }
    have hinsert : begun.store.insertSubtask (source.id d.idsUsed) (some a) (some text) = .ok _ :=
      Store.insertSubtask_eq_ok.2 ⟨rows, hrows, a, rfl, text, rfl,
        by simp [hsource.id, ha, htexts text List.mem_cons_self], hfresh _ (Nat.le_refl _),
        l, hl, htask, rfl⟩
    refine (succeeds_bind_of_ok (on_newId source d)).2 ?_
    refine (succeeds_bind_of_ok (execute_on_of_ok hinsert)).2 ?_
    refine ih rfl ?_ hl fun t ht => htexts t (List.mem_cons_of_mem _ ht)
    intro n hn
    refine List.forall_mem_append.2 ⟨hfresh n (Nat.le_of_succ_le hn), ?_⟩
    refine List.forall_mem_singleton.2 fun h => ?_
    obtain rfl : d.idsUsed = n := hsource.id_injective h
    exact Nat.not_succ_le_self d.idsUsed hn

theorem saveSubtasks_done {texts : List Text} (hrows : d.store.subtasks = some rows)
    (h : (saveSubtasks source (some a) (texts.map some)).on d = (.ok u, d')) :
    (∀ t ∈ texts, t.isEncodable = true) ∧
      d' = { d with
        store := { d.store with
          subtasks := some ((rows.filter fun row => !sameId (some a) (some row.taskId)) ++
            newSubtasks source a d.idsUsed texts) }
        idsUsed := d.idsUsed + texts.length } := by
  obtain ⟨_, cleared, hclear, hinsert⟩ := bind_on_ok h
  obtain ⟨s, hwrite, rfl⟩ := exists_of_execute_on_ok hclear
  obtain ⟨rows', hrows', -, rfl⟩ := Store.deleteSubtasksOf_eq_ok.1 hwrite
  cases hrows.symm.trans hrows'
  obtain ⟨hencodable, rfl⟩ := insertSubtasks_done rfl hinsert
  exact ⟨hencodable, rfl⟩

theorem saveSubtasks_succeeds (hsource : source.IsReliable) {texts : List Text}
    (hrows : d.store.subtasks = some rows)
    (hfresh : ∀ n, d.idsUsed ≤ n → ∀ row ∈ rows, row.id ≠ source.id n)
    (hl : d.store.ledger = some l) (htask : l.hasTask (some a) = true) (ha : a.isEncodable = true)
    (htexts : ∀ t ∈ texts, t.isEncodable = true) :
    (saveSubtasks source (some a) (texts.map some)).Succeeds d := by
  have hclear : d.store.deleteSubtasksOf (some a) = .ok _ :=
    Store.deleteSubtasksOf_eq_ok.2 ⟨rows, hrows, isEncodable_some.2 ha, rfl⟩
  refine (succeeds_bind_of_ok (execute_on_of_ok hclear)).2 ?_
  exact insertSubtasks_succeeds hsource rfl
    (fun n hn row hrow => hfresh n hn row (List.mem_filter.1 hrow).1) hl htask ha htexts

/-- The subtasks are replaced where other ones are given. -/
theorem changeSubtasks_on (source : Source) (hrows : d.store.subtasks = some rows) {c : TaskChange}
    (hc : c.IsPlain) (ha : a.isEncodable = true) :
    (changeSubtasks source (some a) c.subtasks).on d =
      match c.newSubtasks with
      | none => (.ok false, d)
      | some texts =>
        if texts = (d.store.subtasksFor a).map (·.text) then (.ok false, d)
        else (saveSubtasks source (some a) (texts.map some) >>= fun _ => pure true).on d := by
  rw [hc.subtasks, changeSubtasks, on_bind, on_query, Store.subtasksOf_eq hrows ha]
  cases c.newSubtasks with
  | none => rfl
  | some texts =>
    dsimp only [Option.map_some]
    have hold : ((d.store.subtasksFor a).map (·.toSubtask)).map (some ·.text) =
        ((d.store.subtasksFor a).map (·.text)).map some := by
      rw [List.map_map, List.map_map]
      rfl
    simp only [hold, (Option.some_injective _).list_map.eq_iff]
    split <;> rfl

/-- **What is done about the subtasks**: nothing if no other texts are given, and otherwise new
    ones with the given texts replace those of the task. -/
theorem changeSubtasks_cases (hrows : d.store.subtasks = some rows) {c : TaskChange}
    (hc : c.IsPlain) {b : Bool} (h : (changeSubtasks source (some a) c.subtasks).on d = (.ok b, d')) :
    (d' = d ∧ ∀ texts ∈ c.newSubtasks, texts = (d.store.subtasksFor a).map (·.text)) ∨
      ∃ texts ∈ c.newSubtasks, texts ≠ (d.store.subtasksFor a).map (·.text) ∧
        (∀ t ∈ texts, t.isEncodable = true) ∧
        d' = { d with
          store := { d.store with
            subtasks := some ((rows.filter fun row => !sameId (some a) (some row.taskId)) ++
              newSubtasks source a d.idsUsed texts) }
          idsUsed := d.idsUsed + texts.length } := by
  have ha : a.isEncodable = true := by
    obtain ⟨old, _, hquery, -⟩ := bind_on_ok h
    obtain ⟨-, -, ha, -⟩ := Store.subtasksOf_eq_ok.1 (query_on_ok hquery).1
    exact isEncodable_some.1 ha
  rw [changeSubtasks_on source hrows hc ha] at h
  cases hnew : c.newSubtasks with
  | none =>
    rw [hnew] at h
    cases h
    exact .inl ⟨rfl, fun _ h => absurd h (Option.not_mem_none _)⟩
  | some texts =>
    rw [hnew] at h
    dsimp only at h
    split at h
    · rename_i hsame
      cases h
      exact .inl ⟨rfl, by rintro _ ⟨⟩; exact hsame⟩
    · rename_i hother
      obtain ⟨_, saved, hsave, hdone⟩ := bind_on_ok h
      cases hdone
      obtain ⟨hencodable, rfl⟩ := saveSubtasks_done hrows hsave
      exact .inr ⟨texts, rfl, hother, hencodable, rfl⟩

theorem changeSubtasks_done (hs : d.store.IsHealthy) {c : TaskChange} (hc : c.IsPlain) {b : Bool}
    (known : List Text) (h : (changeSubtasks source (some a) c.subtasks).on d = (.ok b, d'))
    (hfresh : ∀ n, d.idsUsed ≤ n → n < d'.idsUsed → source.id n ∉ known) :
    (∀ texts ∈ c.newSubtasks, ∀ t ∈ texts, t.isEncodable = true) ∧
      d'.store.view known =
        { d.store.view known with
          subtasks := Function.update (d.store.view known).subtasks a
            (c.partsAfter ((d.store.view known).subtasks a)) } := by
  obtain ⟨rows, hrows, -⟩ := hs.presentable.subtasks
  have htexts : ((d.store.view known).subtasks a).map (·.text) =
      (d.store.subtasksFor a).map (·.text) := by
    rw [Store.view, List.map_map]
    rfl
  obtain ⟨rfl, hsame⟩ | ⟨texts, hnew, hother, hencodable, rfl⟩ := changeSubtasks_cases hrows hc h
  · rw [TaskChange.partsAfter_of_same (htexts ▸ hsame), Function.update_eq_self]
    refine ⟨fun texts hnew => ?_, rfl⟩
    rw [hsame texts hnew]
    exact Store.isEncodable_subtasksFor hs.presentable a
  · rw [TaskChange.partsAfter_of_other hnew (htexts ▸ hother)]
    refine ⟨?_, Store.view_renew hrows hfresh⟩
    rw [Option.mem_def.1 hnew]
    rintro _ ⟨⟩
    exact hencodable

theorem changeSubtasks_succeeds (hsource : source.IsReliable) (hs : d.store.IsHealthy)
    (hfresh : ∀ n, d.idsUsed ≤ n → ∀ row ∈ d.store.subtaskList, row.id ≠ source.id n)
    (htask : d.store.HasTask (some a)) (ha : a.isEncodable = true) {c : TaskChange}
    (hc : c.IsPlain) (htexts : ∀ texts ∈ c.newSubtasks, ∀ t ∈ texts, t.isEncodable = true) :
    (changeSubtasks source (some a) c.subtasks).Succeeds d := by
  obtain ⟨l, hl, htask⟩ := htask
  obtain ⟨rows, hrows, -⟩ := hs.presentable.subtasks
  rw [Store.subtaskList_eq hrows] at hfresh
  have hon := changeSubtasks_on source hrows hc ha
  cases hnew : c.newSubtasks with
  | none =>
    rw [hnew] at hon
    exact succeeds_of_on hon
  | some texts =>
    rw [hnew] at hon
    dsimp only at hon
    split at hon
    · exact succeeds_of_on hon
    · have hsave := saveSubtasks_succeeds hsource hrows hfresh hl htask ha (htexts texts hnew)
      exact .of_eq hon (hsave.bind fun _ => succeeds_pure true)

/-! ## The whole change -/

end Desk

namespace Store

/-- A healthy store whose numbers fit into 64 bits. -/
structure IsRegular (s : Store) : Prop extends s.IsHealthy where
  bounded : s.IsBounded

/-- The first tables are the given ones but for the tags. -/
def HasLedger (l : Ledger) (s : Store) : Prop := ∃ tags, s.ledger = some { l with tags }

/-- A task of a regular store, found by its id. -/
structure Locates (s : Store) (a : Text) (l : Ledger) (row : TaskRow) : Prop where
  ledger : s.ledger = some l
  mem : row ∈ l.tasks
  id : row.id = some a
  stored : row.IsStored
  project : l.projectExists row.projectId = true

variable {s : Store} {a : Text} {l : Ledger} {row : TaskRow}

theorem taskRow?_eq (hl : s.ledger = some l) {id : Option Text} (hid : IsEncodable id) :
    s.taskRow? id = .ok (l.tasks.find? fun row => sameId id row.id) :=
  taskRow?_eq_ok.2 ⟨l, hl, hid, rfl⟩

/-- An id that cannot be bound is looked for in vain. -/
theorem task?_of_not_encodable (hl : s.ledger = some l) {a : Text}
    (hid : ¬ IsEncodable (some a)) : s.task? (some a) = .error (.notEncodable (t := a)) := by
  rw [task?, taskRow?, ledgerFor_eq_ok.2 hl]
  simp only [bind, Except.bind, bindAll_text_of_not hid]

theorem IsRegular.locates (hs : s.IsRegular) (hl : s.ledger = some l)
    (h : s.taskRow? (some a) = .ok (some row)) : s.Locates a l row := by
  obtain ⟨k, hk, -, hfound⟩ := taskRow?_eq_ok.1 h
  cases hl.symm.trans hk
  have hrow := List.mem_of_find?_eq_some hfound
  exact {
    ledger := hl
    mem := hrow
    id := sameId_some.1 (by simpa using List.find?_some hfound)
    stored := hs.bounded.isStored hs.presentable hl hrow
    project := Ledger.projectExists_iff.2 ((hs.sound.ledger l hl).task_project row hrow) }

namespace Locates

theorem hasTask (h : s.Locates a l row) : s.HasTask (some a) :=
  ⟨l, h.ledger, Ledger.hasTask_some.2 ⟨row, h.mem, h.id⟩⟩

theorem isEncodable (h : s.Locates a l row) : a.isEncodable = true :=
  h.stored.texts a (by simp [TaskRow.texts, h.id])

/-- A task is found where only the tags and subtasks are others. -/
theorem of_hasLedger {s' : Store} (h : s.Locates a l row) (hs' : s'.HasLedger l) :
    ∃ tags, s'.Locates a { l with tags } row := by
  obtain ⟨tags, hl⟩ := hs'
  exact ⟨tags, hl, h.mem, h.id, h.stored, h.project⟩

end Locates
end Store

/-- The store has room for all that the change gives. -/
structure TaskChange.IsStorable (c : TaskChange) (l : Ledger) : Prop
    extends c.toTaskEdit.IsStorable l where
  tags : ∀ tags ∈ c.newTags, ∀ t ∈ tags, t.isEncodable = true
  subtasks : ∀ texts ∈ c.newSubtasks, ∀ t ∈ texts, t.isEncodable = true

namespace Desk

open Work

variable {source : Source} {d d' : Desk} {a : Text} {row : TaskRow} {c : TaskChange}

theorem isRegular_of_on {α : Type} {w : Work α} (horderly : Orderly w)
    (hkeeps : Keeps Store.IsPresentable w) {r : Except Fault α} (h : w.on d = (r, d'))
    (hs : d.store.IsRegular) : d'.store.IsRegular := by
  have hsteps := horderly d
  rw [h] at hsteps
  exact {
    sound := Store.keeps_run hsteps (fun _ _ h => h.isSound) hs.sound
    presentable := hkeeps.of_on hs.presentable h
    bounded := Store.keeps_run hsteps (fun _ _ h => h.isBounded) hs.bounded }

theorem keptByParts_hasLedger (l : Ledger) : KeptByParts (Store.HasLedger l) where
  deleteTagsOf := by
    rintro s s' taskId ⟨tags, hl⟩ h
    obtain ⟨k, hk, -, rfl⟩ := Store.deleteTagsOf_eq_ok.1 h
    cases hl.symm.trans hk
    exact ⟨_, rfl⟩
  insertTag := by
    rintro s s' taskId tag ⟨tags, hl⟩ h
    obtain ⟨k, hk, _, -, _, -, -, -, -, rfl⟩ := Store.insertTag_eq_ok.1 h
    cases hl.symm.trans hk
    exact ⟨_, rfl⟩
  deleteSubtasksOf := by
    rintro s s' taskId ⟨tags, hl⟩ h
    obtain ⟨_, _, _, rfl⟩ := Store.deleteSubtasksOf_eq_ok.1 h
    exact ⟨tags, hl⟩
  insertSubtask := by
    rintro s s' _ taskId text ⟨tags, hl⟩ h
    obtain ⟨_, _, _, -, _, -, -, -, _, -, -, rfl⟩ := Store.insertSubtask_eq_ok.1 h
    exact ⟨tags, hl⟩

theorem hasLedger_changeTags {l : Ledger} {tags : Option (List (Option Text))} {r : Except Fault Bool}
    (h : (changeTags (some a) tags).on d = (r, d')) (hl : d.store.ledger = some l) :
    d'.store.HasLedger l :=
  (Keeps.changeTags (keptByParts_hasLedger l) _ _).of_on ⟨l.tags, hl⟩ h

theorem hasLedger_changeSubtasks {l : Ledger} {texts : Option (List (Option Text))}
    {r : Except Fault Bool} (h : (changeSubtasks source (some a) texts).on d = (r, d'))
    (hl : d.store.ledger = some l) : d'.store.HasLedger l :=
  (Keeps.changeSubtasks (keptByParts_hasLedger l) _ _).of_on ⟨l.tags, hl⟩ h

theorem isRegular_changeTags {tags : Option (List (Option Text))} {r : Except Fault Bool}
    (h : (changeTags (some a) tags).on d = (r, d')) (hs : d.store.IsRegular) :
    d'.store.IsRegular :=
  isRegular_of_on (orderly_changeTags _ _) (.changeTags keptByParts_isPresentable _ _) h hs

theorem isRegular_changeSubtasks {texts : Option (List (Option Text))} {r : Except Fault Bool}
    (h : (changeSubtasks source (some a) texts).on d = (r, d')) (hs : d.store.IsRegular) :
    d'.store.IsRegular :=
  isRegular_of_on (orderly_changeSubtasks _ _) (.changeSubtasks keptByParts_isPresentable _ _) h hs

theorem orderly_rewriteTask : Orderly (rewriteTask source (some a) c row) := by
  refine .bind (orderly_changeTags _ _) fun tags => .bind (orderly_changeSubtasks _ _)
    fun subtasks => ?_
  split
  · exact .bind (.now source) fun time => .execute (.updateTask _ time row)
  · exact .pure ()

/-- A change leaves a regular store regular, and the task where it is. -/
theorem isRegular_rewriteTask {l : Ledger} (hs : d.store.IsRegular)
    (hrow : d.store.Locates a l row) (hc : c.IsPlain) {r : Except Fault Unit}
    (h : (rewriteTask source (some a) c row).on d = (r, d')) :
    d'.store.IsRegular ∧ d'.store.HasTask (some a) := by
  have hchange := hc.toIsPlain.toIsPresentable
  constructor
  · exact isRegular_of_on orderly_rewriteTask (keeps_rewriteTask keptByParts_isPresentable
      fun hs h => hs.updateTask hchange hrow.stored.toIsPresentable h) h hs
  · exact (keeps_rewriteTask (keptByParts_hasTask _) fun hs h =>
      hs.updateTask hchange h).of_on hrow.hasTask h

/-- **What a change to a task leaves**, where it is written: the store had room for it, and
    now shows what the change makes of the view. -/
theorem rewriteTask_done (hs : d.store.IsRegular) {l : Ledger} (hrow : d.store.Locates a l row)
    (hc : c.IsPlain) (known : List Text) {u : Unit}
    (h : (rewriteTask source (some a) c row).on d = (.ok u, d'))
    (hfresh : ∀ n, d.idsUsed ≤ n → n < d'.idsUsed → source.id n ∉ known) :
    c.IsStorable l ∧ d'.store.view known = (d.store.view known).patch a c := by
  obtain ⟨tags, tagged, htags, h⟩ := bind_on_ok h
  obtain ⟨subtasks, changed, hsubtasks, hcolumns⟩ := bind_on_ok h
  have hused : tagged.idsUsed = d.idsUsed := ((leaves_changeTags _ _).of_on htags).idsUsed
  have hused' : d'.idsUsed = changed.idsUsed := ((leaves_updateColumns _ _ _).of_on hcolumns).idsUsed
  have hstagged := isRegular_changeTags htags hs
  have hschanged := isRegular_changeSubtasks hsubtasks hstagged
  obtain ⟨_, htagged⟩ := hrow.of_hasLedger (hasLedger_changeTags htags hrow.ledger)
  obtain ⟨_, hrow'⟩ := htagged.of_hasLedger (hasLedger_changeSubtasks hsubtasks htagged.ledger)
  obtain ⟨htagTexts, htagView⟩ := changeTags_done hs.toIsHealthy hc known htags
  obtain ⟨htexts, hview⟩ := changeSubtasks_done hstagged.toIsHealthy hc known hsubtasks
    (by rw [hused, ← hused']; exact hfresh)
  rw [htagView] at hview
  split at hcolumns
  · obtain ⟨time, begun, htime, hupdate⟩ := bind_on_ok hcolumns
    cases htime
    obtain ⟨s, hwrite, rfl⟩ := exists_of_execute_on_ok hupdate
    obtain ⟨hroom, -, rfl⟩ := (Store.updateTask_eq_ok_of_isPlain hc.toIsPlain hrow'.stored
      hrow'.ledger hrow'.project).1 hwrite
    refine ⟨⟨⟨hroom.toClearsNone, hroom.project, hroom.texts⟩, htagTexts, htexts⟩, ?_⟩
    rw [Store.view_rewrite hschanged.sound hrow'.ledger hrow'.mem hrow'.id, hview]
    rfl
  · rename_i hsame
    cases hcolumns
    simp only [Bool.or_eq_true, not_or, Bool.not_eq_true] at hsame
    obtain ⟨⟨hcolumns, htagsKept⟩, hsubtasksKept⟩ := hsame
    obtain ⟨hnone, hkept⟩ := hc.toIsPlain.changes_eq_false.1 hcolumns
    have hroom := hc.toIsPlain.isStorable_of_unchanged hrow.stored hrow.project hnone hkept
    refine ⟨⟨hroom, htagTexts, htexts⟩, ?_⟩
    have htasks : ((d.store.view known).tasks.map fun row =>
        if row.id = some a then c.rewritten row else row) = (d.store.view known).tasks := by
      refine (List.map_congr_left fun seen hseen => ?_).trans (List.map_id' _)
      rw [Store.view, Store.firstTables_eq hrow.ledger] at hseen
      obtain ⟨old, hold, rfl⟩ := List.mem_map.1 hseen
      split
      · rename_i hid
        rw [Store.eq_of_id (hs.sound.ledger l hrow.ledger) hrow.mem hold hrow.id hid]
        exact congrArg TaskRow.timeless hkept
      · rfl
    rw [hview, View.patch, htasks]
    rfl

/-- **When a change to a task is written**: it is if the store has room for it. -/
theorem rewriteTask_succeeds (hsource : source.IsReliable) (hs : d.store.IsRegular)
    (hfresh : ∀ n, d.idsUsed ≤ n → ∀ row ∈ d.store.subtaskList, row.id ≠ source.id n)
    {l : Ledger} (hrow : d.store.Locates a l row) (hc : c.IsPlain) (hroom : c.IsStorable l) :
    (rewriteTask source (some a) c row).Succeeds d := by
  refine (changeTags_succeeds hs.toIsHealthy hrow.hasTask hrow.isEncodable hc hroom.tags).bind
    fun {tags tagged} htags => ?_
  have hleaves := (leaves_changeTags _ _).of_on htags
  have hstagged := isRegular_changeTags htags hs
  obtain ⟨_, htagged⟩ := hrow.of_hasLedger (hasLedger_changeTags htags hrow.ledger)
  refine (changeSubtasks_succeeds hsource hstagged.toIsHealthy
    (by rw [hleaves.idsUsed, hleaves.subtaskList]; exact hfresh) htagged.hasTask hrow.isEncodable hc
    hroom.subtasks).bind fun {subtasks changed} hsubtasks => ?_
  obtain ⟨_, hrow'⟩ := htagged.of_hasLedger (hasLedger_changeSubtasks hsubtasks htagged.ledger)
  split
  · refine (succeeds_bind_of_ok (on_now source changed)).2 ?_
    have hwrite := (Store.updateTask_eq_ok_of_isPlain hc.toIsPlain hrow'.stored hrow'.ledger
      hrow'.project).2 ⟨⟨hroom.toClearsNone, hroom.project, hroom.texts⟩,
        hsource.time changed.timesUsed, rfl⟩
    exact succeeds_execute (d := { changed with timesUsed := changed.timesUsed + 1 }) hwrite
  · exact succeeds_pure ()

/-- **A change that makes no difference** leaves the desk as it is. -/
theorem rewriteTask_unchanged (hs : d.store.IsRegular) (ha : a.isEncodable = true) (hc : c.IsPlain)
    (htags : ∀ tags ∈ c.newTags, tags = d.store.tagsFor a)
    (htexts : ∀ texts ∈ c.newSubtasks, texts = (d.store.subtasksFor a).map (·.text))
    (hcolumns : c.changes row = false) :
    (rewriteTask source (some a) c row).on d = (.ok (), d) := by
  obtain ⟨l, hl, -⟩ := hs.presentable.ledger
  obtain ⟨rows, hrows, -⟩ := hs.presentable.subtasks
  have htagsKept : (changeTags (some a) c.tags).on d = (.ok false, d) := by
    rw [changeTags_on hl hc ha]
    cases hnew : c.newTags with
    | none => rfl
    | some tags => exact if_pos (htags tags hnew)
  have hsubtasksKept : (changeSubtasks source (some a) c.subtasks).on d = (.ok false, d) := by
    rw [changeSubtasks_on source hrows hc ha]
    cases hnew : c.newSubtasks with
    | none => rfl
    | some texts => exact if_pos (htexts texts hnew)
  rw [rewriteTask, bind_on_of_ok htagsKept, bind_on_of_ok hsubtasksKept, hcolumns]
  rfl

end Desk
end TaskDesk
