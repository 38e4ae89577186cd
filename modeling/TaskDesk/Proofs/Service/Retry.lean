import TaskDesk.Proofs.Service.Update

/-!
# The same change twice

After a change to a task was written, the task is as the change makes it, so the same change
once more finds nothing to do: the request is answered with the same task, and the desk stays
as it is. There is one exception. Tags are stored without repetitions, and compared with the
tags that are given as they were given. So tags that are given with repetitions are written
anew each time, and the task gets a new time of its last change.

Results:
* `Desk.rewriteTask_again`: the same change once more, if its tags have no repetitions.
* `Desk.rewriteTask_repeated`: the same change once more, if they have.
* `Service.respond_again`: the same request once more.
-/

namespace TaskDesk

namespace Ledger

/-- The tables with another row in the place of a task. -/
def withTask (row : TaskRow) (l : Ledger) : Ledger :=
  { l with tasks := l.tasks.map fun old => if sameId row.id old.id then row else old }

theorem find?_withTask {l : Ledger} {id : Option Text} {row new : TaskRow}
    (hfind : (l.tasks.find? fun row => sameId id row.id) = some row) (hid : new.id = row.id) :
    ((l.withTask new).tasks.find? fun row => sameId id row.id) = some new := by
  have hkeep (old : TaskRow) : (if sameId new.id old.id then new else old).id = old.id := by
    split
    · rename_i hsame
      exact (sameId_iff.1 hsame).2
    · rfl
  have hsame : sameId new.id row.id = true := by
    have hrow : sameId id row.id = true := by simpa using List.find?_some hfind
    obtain ⟨hsome, rfl⟩ := sameId_iff.1 hrow
    rw [hid]
    exact sameId_iff.2 ⟨hsome, rfl⟩
  simp only [withTask, List.find?_map, Function.comp_def, hkeep, hfind, Option.map_some, hsame,
    if_true]

end Ledger

/-- The time of the last change is only shown. -/
theorem TaskRow.toTask_stamped {row : TaskRow} {tags : List Text} {subtasks : List Subtask} {t : Task}
    (h : row.toTask tags subtasks = .ok t) (now : Text) :
    { row with updatedAt := now }.toTask tags subtasks = .ok { t with updatedAt := now } := by
  unfold toTask at h ⊢
  split at h
  · rename_i hid hpriority
    cases h
    rw [hid, hpriority]
  · cases h

namespace Store

variable {s : Store} {l : Ledger} {a now : Text} {row : TaskRow} {t : Task}

/-- A task whose tags are written as they were is the same, but for its time. -/
theorem task?_stamped (hl : s.ledger = some l) (hrow : s.taskRow? (some a) = .ok (some row))
    (ha : row.id = some a) (ht : s.task? (some a) = .ok (some t)) :
    task? (some a)
        (s.setLedger ((l.retag a (s.tagsFor a)).withTask { row with updatedAt := now })) =
      .ok (some { t with updatedAt := now }) := by
  obtain ⟨k, hk, hencodable, hfind⟩ := taskRow?_eq_ok.1 hrow
  cases hl.symm.trans hk
  obtain ⟨k, hk, found, hfound, hrecord⟩ := task?_eq_ok_some.1 ht
  cases hl.symm.trans hk
  cases hfind.symm.trans hfound
  have hid := isEncodable_some.1 hencodable
  obtain ⟨tags, htags, hrecord⟩ := bind_eq_ok.1 hrecord
  obtain ⟨subtasks, hsubtasks, htask⟩ := bind_eq_ok.1 hrecord
  rw [ha, tagsOf_eq hl hid] at htags
  cases htags
  have hsame : tagsFor (s.setLedger (l.retag a (s.tagsFor a))) a = s.tagsFor a :=
    (tagsFor_retag (ledger_setLedger _ s) a).trans (if_pos rfl)
  let s' : Store := s.setLedger ((l.retag a (s.tagsFor a)).withTask { row with updatedAt := now })
  have htags' : s'.tagsOf row.id = .ok (s.tagsFor a) := by
    rw [ha, tagsOf_eq (ledger_setLedger _ s) hid]
    exact congrArg Except.ok hsame
  exact task?_eq_ok_some.2 ⟨_, rfl, _, Ledger.find?_withTask hfind rfl,
    bind_eq_ok.2 ⟨_, htags', bind_eq_ok.2 ⟨_, hsubtasks, TaskRow.toTask_stamped htask now⟩⟩⟩

/-- A task and its parts are as a change to the task makes them. -/
structure Reflects (s : Store) (a : Text) (c : TaskChange) (l : Ledger) (row : TaskRow) : Prop
    extends s.Locates a l row where
  clearsNone : c.ClearsNone
  columns : c.rewritten row = row
  tags : ∀ tags ∈ c.newTags, s.tagsFor a = Text.distinct tags
  subtasks : ∀ texts ∈ c.newSubtasks, texts = (s.subtasksFor a).map (·.text)

/-- What is seen of a task that was changed. -/
theorem reflects_of_view {v : View} {c : TaskChange} (hrow : s.Locates a l row)
    (hnone : c.ClearsNone) (hview : s.view [] = v.patch a c) : s.Reflects a c l row where
  toLocates := hrow
  clearsNone := hnone
  columns := by
    have hseen : row.timeless ∈ (v.patch a c).tasks := by
      rw [← hview, view, firstTables_eq hrow.ledger]
      exact List.mem_map_of_mem hrow.mem
    have hcolumns := View.rewritten_of_mem_patch hseen hrow.id
    exact congrArg (fun seen : TaskRow => { seen with updatedAt := row.updatedAt }) hcolumns
  tags tags htags := by
    have hseen := congrFun (congrArg View.tags hview) a
    rw [View.patch_tags_self, TaskChange.tagsAfter, Option.mem_def.1 htags] at hseen
    exact hseen
  subtasks texts htexts := by
    have hseen := congrFun (congrArg View.subtasks hview) a
    rw [View.patch_subtasks_self] at hseen
    rw [← TaskChange.map_text_partsAfter htexts (v.subtasks a), ← hseen, view, List.map_map]
    rfl

end Store

/-! ## The change once more -/

namespace Desk

open Work

variable {source : Source} {d d' : Desk} {a : Text} {c : TaskChange} {row : TaskRow} {l : Ledger}

/-- **The same change once more** leaves the desk as it is, if its tags have no repetitions. -/
theorem rewriteTask_again (hs : d.store.IsRegular) (hc : c.IsPlain)
    (h : d.store.Reflects a c l row) (hnodup : ∀ tags ∈ c.newTags, tags.Nodup) :
    (rewriteTask source (some a) c row).on d = (.ok (), d) :=
  rewriteTask_unchanged hs h.isEncodable hc
    (fun tags htags => ((h.tags tags htags).trans (Text.distinct_of_nodup (hnodup tags htags))).symm)
    h.subtasks (hc.toIsPlain.changes_eq_false.2 ⟨h.clearsNone, h.columns⟩)

/-- **Tags with repetitions** are written anew, and the task gets a new time. -/
theorem rewriteTask_repeated (hs : d.store.IsRegular) (hc : c.IsPlain)
    (h : d.store.Reflects a c l row) {tags : List Text} (htags : tags ∈ c.newTags)
    (hrepeated : ¬ tags.Nodup) (htime : (source.time d.timesUsed).isEncodable = true) :
    (rewriteTask source (some a) c row).on d =
      (.ok (), { d with
        store := d.store.setLedger ((l.retag a (d.store.tagsFor a)).withTask
          { row with updatedAt := source.time d.timesUsed })
        timesUsed := d.timesUsed + 1 }) := by
  let tagged : Desk := { d with
    store := d.store.setLedger (l.retag a (d.store.tagsFor a)) }
  have htagged : (changeTags (some a) c.tags).on d = (.ok true, tagged) := by
    have hstored : ∀ t ∈ tags, t.isEncodable = true := fun t ht =>
      Store.isEncodable_tagsFor hs.presentable a t
        (by rw [h.tags tags htags]; exact (Text.mem_distinct t tags).2 ht)
    obtain ⟨u, after, hsave⟩ := saveTags_succeeds h.ledger (hs.sound.ledger l h.ledger)
      (Ledger.hasTask_some.2 ⟨row, h.mem, h.id⟩) h.isEncodable hstored
    have hafter : after = tagged := by
      rw [(saveTags_done h.ledger hsave).2, ← h.tags tags htags]
    have hother : tags ≠ d.store.tagsFor a := fun hsame =>
      hrepeated (hsame ▸ Store.nodup_tagsFor hs.sound a)
    rw [changeTags_on h.ledger hc h.isEncodable, Option.mem_def.1 htags]
    dsimp only
    rw [if_neg hother, bind_on_of_ok hsave, hafter]
    rfl
  have hsubtasks : (changeSubtasks source (some a) c.subtasks).on tagged = (.ok false, tagged) := by
    obtain ⟨rows, hrows, -⟩ := hs.presentable.subtasks
    rw [changeSubtasks_on source (d := tagged) hrows hc h.isEncodable]
    cases hnew : c.newSubtasks with
    | none => rfl
    | some texts => exact if_pos (h.subtasks texts hnew)
  have hroom : c.toTaskEdit.IsStorable (l.retag a (d.store.tagsFor a)) :=
    hc.toIsPlain.isStorable_of_unchanged h.stored h.project h.clearsNone h.columns
  have hwrite := (Store.updateTask_eq_ok_of_isPlain (s := tagged.store) hc.toIsPlain h.stored rfl
    h.project).2 ⟨hroom, htime, rfl⟩
  rw [h.columns] at hwrite
  rw [rewriteTask, bind_on_of_ok htagged, bind_on_of_ok hsubtasks, Bool.or_true, Bool.true_or,
    if_pos rfl, bind_on_of_ok (on_now source tagged), on_execute]
  dsimp only
  rw [hwrite]
  rfl

end Desk

/-! ## The request once more -/

namespace Service

open Work Desk

variable {request : Request} {a : Text}

/-- **The same request once more.** If a change to a task was answered with success, and no
    tag is given twice, then the same request is answered alike, with nothing changed at the
    desk. If a tag is given twice, the same task is answered with a new time. -/
theorem respond_again (source : Source) (requests : List (Date × Request)) (today day : Date)
    (hgoes : Destination.ofRequest request.method request.path = .endpoint .updateTask a) :
    let d := Desk.served source requests
    let first := respond source today request d
    let again := respond source day request first.2
    first.1.status = 200 →
      ∃ c t, Body.form? Body.taskChange request.body = some c ∧ first.1 = .ok (.task t) ∧
        ((∀ tags ∈ c.newTags, tags.Nodup) → again = first) ∧
        ∀ tags ∈ c.newTags, ¬ tags.Nodup → (source.time first.2.timesUsed).isEncodable = true →
          again.1 = .ok (.task { t with updatedAt := source.time first.2.timesUsed }) := by
  intro d first again hstatus
  have hs : d.store.IsRegular := (Desk.isOrdinary_served source requests).regular
  obtain ⟨c, row, u, d', hbody, hrow, hwritten⟩ := exists_rewrite_of_ok hgoes hs hstatus
  have hc := Body.isPlain_of_form? hbody
  obtain ⟨t, hfirst, htask⟩ := respond_rewritten today hgoes hbody hrow hs hwritten
  have hfirst : first = (.ok (.task t), d') := hfirst
  obtain ⟨l, hl, -⟩ := hs.presentable.ledger
  have hlocates := hs.locates hl hrow
  have hs' : d'.store.IsRegular := (isRegular_rewriteTask hs hlocates hc hwritten).1
  obtain ⟨hroom, hview⟩ := rewriteTask_done hs hlocates hc [] hwritten
    fun _ _ _ => List.not_mem_nil
  obtain ⟨l', hl', row', hfound, -⟩ := Store.task?_eq_ok_some.1 htask
  have hrow' : d'.store.taskRow? (some a) = .ok (some row') :=
    (Store.taskRow?_eq hl' (isEncodable_some.2 hlocates.isEncodable)).trans
      (congrArg Except.ok hfound)
  have hreflects := Store.reflects_of_view (hs'.locates hl' hrow') hroom.toClearsNone hview
  refine ⟨c, t, hbody, by rw [hfirst], fun hnodup => ?_, fun tags htags hrepeated htime => ?_⟩
  · have hsame : (rewriteTask source (some a) c row').on d' = (.ok (), d') :=
      rewriteTask_again hs' hc hreflects hnodup
    obtain ⟨t', hagain, htask'⟩ := respond_rewritten day hgoes hbody hrow' hs' hsame
    cases htask.symm.trans htask'
    show respond source day request first.2 = first
    rw [hfirst, hagain]
  · rw [hfirst] at htime
    have hanew := rewriteTask_repeated hs' hc hreflects htags hrepeated htime
    obtain ⟨t', hagain, htask'⟩ := respond_rewritten day hgoes hbody hrow' hs' hanew
    cases (Store.task?_stamped hl' hrow' hreflects.id htask).symm.trans htask'
    show (respond source day request first.2).1 = _
    rw [hfirst, hagain]

/-- A task gets a tag, another subtask and no due date, twice in a row. -/
theorem respond_again_packing :
    let source : Source := ⟨Text.digits 4, Text.digits 4⟩
    let today : Date := { year := 2025, month := 1, day := 15 }
    let body (json : String) := some (json.toList.map fun c => c.toNat.toUInt8)
    let create : Request := ⟨"POST".toText, "/tasks".toText,
      body "\x7b\"title\":\"Pack\",\"subtasks\":[\"Charger\"]\x7d"⟩
    let change : Request := ⟨"PATCH".toText, "/tasks/0000".toText,
      body "\x7b\"tags\":[\"trip\"],\"subtasks\":[\"Passport\"],\"due_date\":null\x7d"⟩
    let first := respond source today change (Desk.served source [(today, create)])
    first.1.status = 200 ∧ respond source today change first.2 = first := by
  intro source today body create change
  have hgoes : Destination.ofRequest change.method change.path =
      .endpoint .updateTask "0000".toText := by decide +kernel
  have hagain := respond_again source [(today, create)] today today hgoes
  have hstatus : (respond source today change (Desk.served source [(today, create)])).1.status =
      200 := by decide +kernel
  have hread : (Body.form? Body.taskChange change.body).map (·.newTags) =
      some (some ["trip".toText]) := by decide +kernel
  dsimp only at hagain ⊢
  obtain ⟨c, t, hbody, -, hsame, -⟩ := hagain hstatus
  rw [hbody] at hread
  refine ⟨hstatus, hsame fun tags htags => ?_⟩
  cases (Option.some.inj hread).symm.trans htags
  decide +kernel

/-- A tag that is given twice is stored once, so the same request finds a difference again. -/
theorem respond_again_two_tags :
    let source : Source := ⟨Text.digits 4, Text.digits 4⟩
    let today : Date := { year := 2025, month := 1, day := 15 }
    let body (json : String) := some (json.toList.map fun c => c.toNat.toUInt8)
    let create : Request := ⟨"POST".toText, "/tasks".toText, body "\x7b\"title\":\"t\"\x7d"⟩
    let change : Request := ⟨"PATCH".toText, "/tasks/0000".toText,
      body "\x7b\"tags\":[\"a\",\"a\"]\x7d"⟩
    let first := respond source today change (Desk.served source [(today, create)])
    first.1.status = 200 ∧ (respond source today change first.2).1 ≠ first.1 ∧
      (respond source today change first.2).2.store ≠ first.2.store := by
  decide +kernel

end Service
end TaskDesk
