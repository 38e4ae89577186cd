import TaskDesk.Proofs.Service.Edited

/-!
# Two changes in either order

A request for a change is a step from what the store shows to what it shows next: the change is
made if the task is there and the store has room for it, and nothing happens otherwise. Which of
the two it is depends on parts of the view that no change to a task touches. So the steps of two
requests commute if their changes do, and both are answered alike in either order.

No change is lost between the two. The request that comes last has its values in the record, and
since the stores answer alike after either order, so has the other one.

Results:
* `Body.apart_taskChange`: bodies that share no member give changes to different fields.
* `View.step_comm`: two steps in either order.
* `Service.view_respond`, `Service.view_respond_behind`: a request for a change makes a step, and
  two of them make two.
* `Task.Alike.holds_iff`: a record holds what is asked for if one that looks the same does.
* `Service.respond_comm`: two requests in either order, and what stands after both.
-/

namespace TaskDesk

namespace Body

variable {m m' : List (Text × Json)}

theorem edit_of_absent {α : Type} {name : String} {check : Check α} {e : Edit α}
    (h : edit m name check = .ok e) (habsent : Json.memberOf? m name.toText = none) : e = .keep := by
  rw [edit, Field.given, habsent] at h
  cases h
  rfl

theorem withDefault_of_absent {α : Type} {name : String} {value a : α} {check : Check α}
    (h : Field.withDefault name value check m = .ok a)
    (habsent : Json.memberOf? m name.toText = none) : a = value := by
  rw [Field.withDefault, Field.given, habsent] at h
  cases h
  rfl

/-- **Bodies that share no member** give changes to different fields. -/
theorem apart_taskChange {c c' : TaskChange} (h : taskChange m = .ok c) (h' : taskChange m' = .ok c')
    (hdisjoint : ∀ name, Json.memberOf? m name = none ∨ Json.memberOf? m' name = none) :
    c.Apart c' := by
  have h := reads_of_taskChange h
  have h' := reads_of_taskChange h'
  have hedit {α : Type} {name : String} {check : Check α} {e e' : Edit α}
      (he : edit m name check = .ok e) (he' : edit m' name check = .ok e') : e.Apart e' :=
    (hdisjoint name.toText).imp (edit_of_absent he) (edit_of_absent he')
  have hlist {name : String} {check : Check (Option (List Text))} {o o' : Option (List Text)}
      (ho : Field.withDefault name none check m = .ok o)
      (ho' : Field.withDefault name none check m' = .ok o') :
      o.map (List.map some) = none ∨ o'.map (List.map some) = none :=
    (hdisjoint name.toText).imp (fun h => by rw [withDefault_of_absent ho h]; rfl)
      fun h => by rw [withDefault_of_absent ho' h]; rfl
  obtain ⟨_, htags, hnew⟩ := h.tags
  obtain ⟨_, htags', hnew'⟩ := h'.tags
  obtain ⟨_, hsubtasks, hsteps⟩ := h.subtasks
  obtain ⟨_, hsubtasks', hsteps'⟩ := h'.subtasks
  refine ⟨⟨hedit h.title h'.title, hedit h.description h'.description, hedit h.dueDate h'.dueDate,
    hedit h.priority h'.priority, hedit h.completed h'.completed, hedit h.projectId h'.projectId⟩,
    ?_, ?_⟩
  · rw [hnew, hnew']
    exact hlist htags htags'
  · rw [hsteps, hsteps']
    exact hlist hsubtasks hsubtasks'

/-- The value is the one that the member asks for, if there is one. -/
def Asks {α : Type} (m : List (Text × Json)) (name : String) (check : Check α) (value : α) : Prop :=
  ∀ j ∈ Json.memberOf? m name.toText, check j = .ok value

theorem Follows.asks {α : Type} {name : String} {check : Check α} {old new : α}
    (h : Follows m name check old new) : Asks m name check new := by
  intro j hj
  rw [Option.mem_def] at hj
  rwa [Follows, hj] at h

/-- A member asks for one list of texts. -/
theorem Gives.eq_some {name : String} {given : Option (List Text)} {texts : List Text}
    (h : Gives m name given) (htexts : Gives m name (some texts)) : given = some texts := by
  change Json.memberOf? m name.toText = some (.ofTexts texts) at htexts
  cases given with
  | some others =>
    have hlist := Option.some.inj (Eq.trans (Eq.symm h) htexts)
    exact congrArg some (List.map_injective_iff.2 (fun _ _ h => Json.text.inj h) (Json.list.inj hlist))
  | none =>
    obtain h | h := h
    · cases h.symm.trans htexts
    · cases h.symm.trans htexts

end Body

namespace Task

variable {m : List (Text × Json)} {t u : Task}

/-- The record holds the values that the members ask for. -/
structure Holds (m : List (Text × Json)) (t : Task) : Prop where
  title : Body.Asks m "title" Check.text t.title
  description : Body.Asks m "description" (fun j => (·.getD []) <$> Check.nullable Check.text j)
    t.description
  dueDate : Body.Asks m "due_date" (Check.nullable Check.text) t.dueDate
  priority : Body.Asks m "priority" (Check.option Priority.ofName?) t.priority
  completed : Body.Asks m "completed" Check.bool t.completed
  projectId : Body.Asks m "project_id" (Check.nullable Check.int) t.projectId
  tags : ∀ texts, Body.Gives m "tags" (some texts) → t.tags = texts.eraseDups
  subtasks : ∀ texts, Body.Gives m "subtasks" (some texts) → t.subtasks.map (·.text) = texts

/-- A task that was edited as the members ask holds their values. -/
theorem Follows.holds {isNew : Text → Prop} {old new : Task} (h : Follows m isNew old new) :
    new.Holds m where
  title := h.title.asks
  description := h.description.asks
  dueDate := h.dueDate.asks
  priority := h.priority.asks
  completed := h.completed.asks
  projectId := h.projectId.asks
  tags := by
    intro texts htexts
    obtain ⟨given, hgiven, htags⟩ := h.tags
    rw [htags, hgiven.eq_some htexts]
    rfl
  subtasks := by
    intro texts htexts
    obtain ⟨given, hgiven, hsame, hother⟩ := h.subtasks
    rw [hgiven.eq_some htexts] at hsame hother
    by_cases heq : texts = old.subtasks.map (·.text)
    · rw [hsame (by rintro _ ⟨⟩; exact heq), heq]
    · exact (hother texts rfl heq).1

/-- A record that looks the same holds the same values. -/
theorem Alike.holds {known : List Text} (h : t.Alike known u) (ht : t.Holds m) : u.Holds m := by
  have htexts : t.subtasks.map (·.text) = u.subtasks.map (·.text) := by
    rw [← List.forall₂_eq_eq_eq, List.forall₂_map_left_iff, List.forall₂_map_right_iff]
    exact h.subtasks.imp fun _ _ hsubtask => hsubtask.text
  rw [h.rest]
  exact { ht with subtasks := fun texts hgiven => htexts.symm.trans (ht.subtasks texts hgiven) }

end Task

/-- The change that a request gives, if its body is accepted. -/
def Request.change? (request : Request) : Option TaskChange :=
  Body.form? Body.taskChange request.body

/-- Room for a change depends on the projects alone. -/
theorem TaskChange.IsStorable.of_projects {c : TaskChange} {l l' : Ledger} (h : c.IsStorable l)
    (hprojects : l'.projects = l.projects) : c.IsStorable l' where
  toClearsNone := h.toClearsNone
  project := by
    have hroom := h.project
    rwa [Ledger.AcceptsProject, Ledger.projectExists, ← hprojects] at hroom
  texts := h.texts
  tags := h.tags
  subtasks := h.subtasks

namespace View

variable {a b : Text} {c c' : TaskChange} {v : View}

/-- The view shows the task with the id. -/
def HasTask (a : Text) (v : View) : Prop := ∃ row ∈ v.tasks, row.id = some a

/-- The view shows the task, and leaves room for a change to it. -/
structure Admits (a : Text) (c : TaskChange) (v : View) : Prop where
  task : v.HasTask a
  room : c.IsStorable { projects := v.projects }

open Classical in
/-- The view after a request for a change to the task with the id. -/
noncomputable def step (a : Text) (change : Option TaskChange) (v : View) : View :=
  match change with
  | some c => if v.Admits a c then v.patch a c else v
  | none => v

theorem step_eq_patch (h : v.Admits a c) : v.step a (some c) = v.patch a c := if_pos h

theorem step_eq_self (h : ¬ v.Admits a c) : v.step a (some c) = v := if_neg h

theorem hasTask_patch : (v.patch b c').HasTask a ↔ v.HasTask a := by
  have hid (row : TaskRow) :
      (if row.id = some b then c'.rewritten row else row).id = row.id := by
    split <;> rfl
  simp only [HasTask, patch, List.mem_map, exists_exists_and_eq_and, hid]

/-- What a view admits is not changed by changes. -/
theorem admits_patch : (v.patch b c').Admits a c ↔ v.Admits a c :=
  ⟨fun h => ⟨hasTask_patch.1 h.task, h.room⟩, fun h => ⟨hasTask_patch.2 h.task, h.room⟩⟩

/-- What shows of a view whether a change is admitted stays in a step. -/
theorem step_keeps (b : Text) (change : Option TaskChange) (v : View) :
    ((v.step b change).HasTask a ↔ v.HasTask a) ∧ (v.step b change).projects = v.projects := by
  cases change with
  | none => exact ⟨Iff.rfl, rfl⟩
  | some c =>
    by_cases h : v.Admits b c
    · rw [step_eq_patch h]
      exact ⟨hasTask_patch, rfl⟩
    · rw [step_eq_self h]
      exact ⟨Iff.rfl, rfl⟩

/-- **Two steps in either order.** -/
theorem step_comm {change change' : Option TaskChange}
    (h : a ≠ b ∨ ∀ c ∈ change, ∀ c' ∈ change', c.Apart c') (v : View) :
    (v.step a change).step b change' = (v.step b change').step a change := by
  cases change with
  | none => rfl
  | some c =>
    cases change' with
    | none => rfl
    | some c' =>
      have hcomm := patch_comm (h.imp_right fun h => h c rfl c' rfl) v
      by_cases hc : v.Admits a c
      · rw [step_eq_patch hc]
        by_cases hc' : v.Admits b c'
        · rw [step_eq_patch hc', step_eq_patch (admits_patch.2 hc'),
            step_eq_patch (admits_patch.2 hc), hcomm]
        · rw [step_eq_self hc', step_eq_self (fun h => hc' (admits_patch.1 h)), step_eq_patch hc]
      · rw [step_eq_self hc]
        by_cases hc' : v.Admits b c'
        · rw [step_eq_patch hc', step_eq_self (fun h => hc (admits_patch.1 h))]
        · rw [step_eq_self hc', step_eq_self hc]

end View

namespace Store

variable {s : Store} {l : Ledger} {a : Text} {c : TaskChange}

theorem hasTask_view (hl : s.ledger = some l) (ha : a.isEncodable = true) (known : List Text) :
    (s.view known).HasTask a ↔ ∃ row, s.taskRow? (some a) = .ok (some row) := by
  simp only [taskRow?_eq hl (isEncodable_some.2 ha), Except.ok.injEq, ← Option.isSome_iff_exists,
    List.find?_isSome, sameId_some, View.HasTask, view, firstTables_eq hl, List.mem_map,
    exists_exists_and_eq_and]
  rfl

theorem room_view (hl : s.ledger = some l) (known : List Text) :
    c.IsStorable { projects := (s.view known).projects } ↔ c.IsStorable l := by
  have hprojects : l.projects = (s.view known).projects := by rw [view, firstTables_eq hl]
  exact ⟨fun h => h.of_projects hprojects, fun h => h.of_projects hprojects.symm⟩

end Store

namespace Service

open Work Desk

variable {source : Source} {today : Date} {d d' : Desk} {request : Request} {a : Text}
  {known : List Text}

section Accepted

variable (today) (hd : d.IsOrdinary source)
  (hgoes : Destination.ofRequest request.method request.path = .endpoint .updateTask a)
  {c : TaskChange} (hbody : request.change? = some c)

include hd hgoes hbody

/-- A change that is admitted is made. -/
theorem respond_admitted (hsource : source.IsReliable) (h : (d.store.view known).Admits a c)
    (hknown : ∀ n, d.idsUsed ≤ n → source.id n ∉ known) :
    (respond source today request d).1.status = 200 ∧
      (respond source today request d).2.store.view known = (d.store.view known).patch a c := by
  obtain ⟨l, hl, -⟩ := hd.regular.presentable.ledger
  have ha := Destination.isEncodable_segment hgoes
  obtain ⟨row, hrow⟩ := (Store.hasTask_view hl ha known).1 h.task
  obtain ⟨t, hreply, hview⟩ := respond_written today hgoes hbody hrow hl hsource hd
    ((Store.room_view hl known).1 h.room)
  exact ⟨by rw [hreply]; rfl, hview known hknown⟩

/-- A change that is not admitted changes nothing. What is answered depends on whether the
    task is there. -/
theorem respond_barred (h : ¬ (d.store.view known).Admits a c) :
    ((d.store.view known).HasTask a → (respond source today request d).1 = .failed) ∧
      (¬ (d.store.view known).HasTask a →
        (respond source today request d).1 = .notFound "Task not found") ∧
      (respond source today request d).2.store = d.store := by
  obtain ⟨l, hl, -⟩ := hd.regular.presentable.ledger
  have ha := Destination.isEncodable_segment hgoes
  by_cases htask : (d.store.view known).HasTask a
  · obtain ⟨row, hrow⟩ := (Store.hasTask_view hl ha known).1 htask
    obtain ⟨hreply, hstore⟩ := respond_noRoom today hgoes hbody hrow hl hd.regular
      fun hroom => h ⟨htask, (Store.room_view hl known).2 hroom⟩
    exact ⟨fun _ => hreply, fun hnone => absurd htask hnone, hstore⟩
  · have hnone : d.store.taskRow? (some a) = .ok none := by
      have hfind := Store.taskRow?_eq hl (isEncodable_some.2 ha)
      cases hrow : l.tasks.find? fun row => sameId (some a) row.id with
      | none => rw [hfind, hrow]
      | some row => exact absurd ((Store.hasTask_view hl ha known).2 ⟨row, hrow ▸ hfind⟩) htask
    rw [respond_absent today hgoes hbody hnone]
    exact ⟨fun h => absurd h htask, fun _ => rfl, rfl⟩

end Accepted

/-- **A request for a change makes a step.** -/
theorem view_respond (hsource : source.IsReliable) (hd : d.IsOrdinary source)
    (hgoes : Destination.ofRequest request.method request.path = .endpoint .updateTask a)
    (hknown : ∀ n, d.idsUsed ≤ n → source.id n ∉ known) :
    (respond source today request d).2.store.view known =
      (d.store.view known).step a request.change? := by
  cases hchange : request.change? with
  | none =>
    obtain ⟨r, -, hrespond⟩ := respond_rejected source today hgoes hchange
    rw [hrespond]
    rfl
  | some c =>
    by_cases h : (d.store.view known).Admits a c
    · rw [View.step_eq_patch h, (respond_admitted today hd hgoes hchange hsource h hknown).2]
    · rw [View.step_eq_self h, (respond_barred today hd hgoes hchange h).2.2]

/-- The list of all tasks has the task with the id, and it holds the values that the members of the
    body ask for. -/
def Stands (source : Source) (a : Text) (request : Request) (d : Desk) : Prop :=
  ∃ m task, Body.members? request.body = some m ∧ task.id = a ∧ Lists source d task ∧ task.Holds m

/-- **The request that was answered last** has its values in the record. -/
theorem stands_respond (hs : d.store.IsRegular)
    (hgoes : Destination.ofRequest request.method request.path = .endpoint .updateTask a)
    (hstatus : (respond source today request d).1.status = 200) :
    Stands source a request (respond source today request d).2 := by
  obtain ⟨m, old, new, hm, hedits⟩ := exists_edits_of_ok hs hgoes hstatus
  exact ⟨m, new, hm, hedits.follows.id.trans hedits.id, hedits.listed, hedits.follows.holds⟩

/-- What stands in a store stands in one with the same view. -/
theorem Stands.of_view (h : Stands source a request d) (hs : d.store.IsHealthy)
    (hs' : d'.store.IsHealthy) (hview : d.store.view known = d'.store.view known) :
    Stands source a request d' := by
  obtain ⟨m, task, hm, hid, hlists, hholds⟩ := h
  obtain ⟨ts, us, hts, hus, hlike⟩ := Store.allTasks_alike hs.presentable hs'.presentable hview
  obtain ⟨task', hmem, halike⟩ :=
    exists_of_mem_right hlike.flip task ((lists_iff_mem hs hts).1 hlists)
  refine ⟨m, task', hm, ?_, (lists_iff_mem hs' hus).2 hmem, halike.holds hholds⟩
  rw [← hid, halike.rest]

/-- The same status is answered where the task is there or not, and with the same projects. -/
theorem status_respond (hsource : source.IsReliable) (hd : d.IsOrdinary source)
    (hd' : d'.IsOrdinary source)
    (hgoes : Destination.ofRequest request.method request.path = .endpoint .updateTask a)
    (htask : (d'.store.view []).HasTask a ↔ (d.store.view []).HasTask a)
    (hprojects : (d'.store.view []).projects = (d.store.view []).projects) :
    (respond source today request d').1.status = (respond source today request d).1.status := by
  cases hchange : request.change? with
  | none =>
    obtain ⟨r, -, hrespond⟩ := respond_rejected source today hgoes hchange
    rw [hrespond, hrespond]
  | some c =>
    have hsame : (d'.store.view []).Admits a c ↔ (d.store.view []).Admits a c :=
      ⟨fun h => ⟨htask.1 h.task, hprojects ▸ h.room⟩, fun h => ⟨htask.2 h.task, hprojects ▸ h.room⟩⟩
    by_cases h : (d.store.view []).Admits a c
    · rw [(respond_admitted today hd hgoes hchange hsource h fun _ _ => List.not_mem_nil).1,
        (respond_admitted today hd' hgoes hchange hsource (hsame.2 h) fun _ _ => List.not_mem_nil).1]
    · obtain ⟨hfailed, hmissing, -⟩ := respond_barred today hd hgoes hchange h
      obtain ⟨hfailed', hmissing', -⟩ :=
        respond_barred today hd' hgoes hchange fun h' => h (hsame.1 h')
      by_cases hthere : (d.store.view []).HasTask a
      · rw [hfailed hthere, hfailed' (htask.2 hthere)]
      · rw [hmissing hthere, hmissing' fun h => hthere (htask.1 h)]

section Following

variable (hsource : source.IsReliable) (hd : d.IsOrdinary source)
  (hgoes : Destination.ofRequest request.method request.path = .endpoint .updateTask a)
  {next : Request} {b : Text}
  (hnext : Destination.ofRequest next.method next.path = .endpoint .updateTask b)
  (today day : Date)

include hsource hd hgoes hnext

/-- A request for a change is answered with the same status behind another one as without it. -/
theorem status_respond_behind :
    (respond source day next (respond source today request d).2).1.status =
      (respond source day next d).1.status := by
  have hview : (respond source today request d).2.store.view [] =
      (d.store.view []).step a request.change? :=
    view_respond hsource hd hgoes fun _ _ => List.not_mem_nil
  obtain ⟨htask, hprojects⟩ := View.step_keeps (a := b) a request.change? (d.store.view [])
  rw [← hview] at htask hprojects
  exact status_respond hsource hd (isOrdinary_respond request hd).1 hnext htask hprojects

/-- Two requests make two steps. -/
theorem view_respond_behind (hknown : ∀ n, d.idsUsed ≤ n → source.id n ∉ known) :
    (respond source day next (respond source today request d).2).2.store.view known =
      ((d.store.view known).step a request.change?).step b next.change? := by
  obtain ⟨hd', hcounts⟩ : (respond source today request d).2.IsOrdinary source ∧
    Counts d (respond source today request d).2 := isOrdinary_respond request hd
  rw [view_respond hsource hd' hnext fun n hn => hknown n (Nat.le_trans hcounts hn),
    view_respond hsource hd hgoes hknown]

end Following

/-- The next ids are none that a subtask has. -/
theorem not_mem_known (hsource : source.IsReliable) (hd : d.IsOrdinary source) (n : Nat)
    (hn : d.idsUsed ≤ n) : source.id n ∉ d.store.subtaskList.map (·.id) := by
  intro hmem
  obtain ⟨row, hrow, hid⟩ := List.mem_map.1 hmem
  exact hd.fresh_subtask hsource n hn row hrow hid

/-- **Two requests in either order.** After any requests to a fresh service, two requests for
    changes to different tasks, or to different fields of the same task, are answered with the
    same statuses in either order, and the store answers all queries alike then, up to the times
    of the last changes and the ids of new subtasks. No change is lost: what a request that is
    answered asks for stands in the records after both, whichever of the two came last. -/
theorem respond_comm {source : Source} (hsource : source.IsReliable)
    (requests : List (Date × Request)) (today day : Date) {first second : Request} {a b : Text}
    (hfirst : Destination.ofRequest first.method first.path = .endpoint .updateTask a)
    (hsecond : Destination.ofRequest second.method second.path = .endpoint .updateTask b)
    (hapart : a ≠ b ∨ ∀ c ∈ first.change?, ∀ c' ∈ second.change?, c.Apart c') :
    let d := Desk.served source requests
    let one := respond source today first d
    let two := respond source day second one.2
    let two' := respond source day second d
    let one' := respond source today first two'.2
    one'.1.status = one.1.status ∧ two'.1.status = two.1.status ∧
      two.2.store.ReadsLike (d.store.subtaskList.map (·.id)) one'.2.store ∧
      (one.1.status = 200 → Stands source a first two.2 ∧ Stands source a first one'.2) ∧
      (two.1.status = 200 → Stands source b second two.2 ∧ Stands source b second one'.2) := by
  intro d one two two' one'
  have hd : d.IsOrdinary source := Desk.isOrdinary_served source requests
  have hone : one.2.IsOrdinary source := (isOrdinary_respond first hd).1
  have htwo' : two'.2.IsOrdinary source := (isOrdinary_respond second hd).1
  have hregular : two.2.store.IsRegular := (isOrdinary_respond second hone).1.regular
  have hregular' : one'.2.store.IsRegular := (isOrdinary_respond first htwo').1.regular
  have hstatus : one'.1.status = one.1.status :=
    status_respond_behind hsource hd hsecond hfirst day today
  have hstatus' : two.1.status = two'.1.status :=
    status_respond_behind hsource hd hfirst hsecond today day
  have hsame : two.2.store.view (d.store.subtaskList.map (·.id)) =
      one'.2.store.view (d.store.subtaskList.map (·.id)) := by
    rw [view_respond_behind hsource hd hfirst hsecond today day (not_mem_known hsource hd),
      view_respond_behind hsource hd hsecond hfirst day today (not_mem_known hsource hd),
      View.step_comm hapart]
  refine ⟨hstatus, hstatus'.symm,
    Store.readsLike_of_view hregular.presentable hregular'.presentable hsame,
    fun hok => ?_, fun hok => ?_⟩
  -- A request has its values in the record where it comes last, and from there they are carried
  -- to the other order.
  · have hlast : Stands source a first one'.2 :=
      stands_respond htwo'.regular hfirst (hstatus.trans hok)
    exact ⟨hlast.of_view hregular'.toIsHealthy hregular.toIsHealthy hsame.symm, hlast⟩
  · have hlast : Stands source b second two.2 := stands_respond hone.regular hsecond hok
    exact ⟨hlast, hlast.of_view hregular.toIsHealthy hregular'.toIsHealthy hsame⟩

/-- A new title, and a tag with another subtask, for the same task in either order. -/
theorem respond_comm_packing :
    let source : Source := ⟨fun n => List.replicate (n + 1) 'i', fun _ => []⟩
    let today : Date := { year := 2025, month := 1, day := 15 }
    let body (json : String) := some (json.toList.map fun c => c.toNat.toUInt8)
    let create : Request := ⟨"POST".toText, "/tasks".toText,
      body "\x7b\"title\":\"Pack\",\"subtasks\":[\"Charger\"]\x7d"⟩
    let title : Request := ⟨"PATCH".toText, "/tasks/i".toText, body "\x7b\"title\":\"Go\"\x7d"⟩
    let parts : Request := ⟨"PATCH".toText, "/tasks/i".toText,
      body "\x7b\"tags\":[\"trip\"],\"subtasks\":[\"Passport\"]\x7d"⟩
    let d := Desk.served source [(today, create)]
    let one := respond source today title d
    let two' := respond source today parts d
    one.1.status = 200 ∧ two'.1.status = 200 ∧
      (respond source today parts one.2).1.status = 200 ∧
      (respond source today title two'.2).1.status = 200 ∧
      (respond source today parts one.2).2.store.ReadsLike ["ii".toText]
        (respond source today title two'.2).2.store ∧
      Stands source "i".toText title (respond source today parts one.2).2 ∧
      Stands source "i".toText parts (respond source today title two'.2).2 := by
  intro source today body create title parts
  have hsource : source.IsReliable := Source.isReliable_strokes
  have htitle : title.change? = some { title := .set "Go".toText } := by decide +kernel
  have hparts : parts.change? = some {
      tags := some [some "trip".toText], subtasks := some [some "Passport".toText] } := by
    decide +kernel
  have hapart : ∀ c ∈ title.change?, ∀ c' ∈ parts.change?, c.Apart c' := by
    rw [htitle, hparts]
    rintro _ ⟨⟩ _ ⟨⟩
    exact ⟨⟨.inr rfl, .inl rfl, .inl rfl, .inl rfl, .inl rfl, .inl rfl⟩, .inl rfl, .inl rfl⟩
  have htitleGoes : Destination.ofRequest title.method title.path =
      .endpoint .updateTask "i".toText := by decide +kernel
  have hpartsGoes : Destination.ofRequest parts.method parts.path =
      .endpoint .updateTask "i".toText := by decide +kernel
  have hcomm := respond_comm hsource [(today, create)] today today htitleGoes hpartsGoes
    (.inr hapart)
  have hone : (respond source today title (Desk.served source [(today, create)])).1.status = 200 := by
    decide +kernel
  have htwo' : (respond source today parts (Desk.served source [(today, create)])).1.status = 200 := by
    decide +kernel
  have hids : (Desk.served source [(today, create)]).store.subtaskList.map (·.id) = ["ii".toText] := by
    decide +kernel
  dsimp only at hcomm ⊢
  rw [hone, htwo', hids] at hcomm
  obtain ⟨hone', htwo, hlike, hfirst, hsecond⟩ := hcomm
  exact ⟨hone, htwo', htwo.symm, hone', hlike, (hfirst rfl).1, (hsecond htwo.symm).2⟩

end Service
end TaskDesk
