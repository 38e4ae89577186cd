import TaskDesk.Proofs.Service.Careful
import TaskDesk.Proofs.Service.History
import TaskDesk.Proofs.Store.Numbering

/-!
# Numbers in a history

A call or request that creates a project or a folder names it in what it answers, and no
other one gives a number. So the numbers that a history gives can be read off what its
events answer; they follow each other, whatever is deleted or fails in between. A reference
that was there before a record was created can therefore never lead to that record.

Results:
* `Command.gives_perform`, `Service.gives_answer`: calls and requests give numbers to the
  records that they answer with.
* `Desk.numbers_after`: what a history without moves does to the numbered records.
* `Desk.references_keep_meaning`: numbers increase, and references never lead to records
  that are created later.
-/

namespace TaskDesk

/-! ## Records that are given a number -/

/-- A new project, where projects are asked for. -/
def Project.given (k : Numbered) (p : Project) : List Label :=
  if k = .projects then [p.label] else []

/-- A new folder, where folders are asked for. -/
def Folder.given (k : Numbered) (f : Folder) : List Label :=
  if k = .folders then [f.label] else []

/-- The record of a kind that a call answers to have created. -/
def Answer.given (k : Numbered) : Answer → List Label
  | project p => p.given k
  | folder f => f.given k
  | _ => []

/-- The record of a kind that a reply says to be created. -/
def Reply.given (k : Numbered) : Reply → List Label
  | ⟨200, .project p⟩ => p.given k
  | ⟨200, .folder f⟩ => f.given k
  | _ => []

/-- The record of a kind that was created, as it comes out. -/
def Outcome.given (k : Numbered) : Outcome → List Label
  | answer a => a.given k
  | reply r => r.given k
  | _ => []

/-- Whether an event moves the store between revisions. -/
def Event.isMove : Event → Bool
  | upgrade _ | downgrade _ => true
  | _ => false

/-- The records of a kind that a history creates, first to last. -/
def Desk.given (source : Source) (k : Numbered) : Desk → List Event → List Label
  | _, [] => []
  | d, e :: more => (e.run source d).1.given k ++ given source k (e.run source d).2 more

/-! ## Work that gives numbers -/

namespace Work

open Store

variable {α β : Type} {k : Numbered} {new : List Label} {s : Store}

/-- The work gives numbers to the records that are named by its outcome, and to none if it
    fails. -/
def Gives (k : Numbered) (named : α → List Label) (a : Work α) : Prop :=
  ∀ d : Desk, d.store.Numbers k ((a.on d).1.toOption.elim [] named) (a.on d).2.store

/-- The work gives no number. -/
def GivesNone (k : Numbered) (a : Work α) : Prop := ∀ {new s}, Keeps (Numbers k new s) a

namespace Gives

variable {named : α → List Label}

theorem pure {a : α} (h : named a = []) : Gives k named (pure a) := by
  intro d
  have hnone : ((Pure.pure a : Work α).on d).1.toOption.elim [] named = [] := h
  rw [hnone]
  exact .refl d.store

/-- Work that gives no number comes first. -/
theorem bind {a : Work β} {f : β → Work α} (ha : GivesNone k a)
    (hf : ∀ x, Gives k named (f x)) : Gives k named (a >>= f) := by
  intro d
  have first := ha d (.refl d.store)
  rw [on_bind]
  split
  · rename_i x after hx
    rw [hx] at first
    exact first.trans (hf x after)
  · rename_i fault after hx
    rw [hx] at first
    exact first

theorem map {named' : β → List Label} {a : Work β} (ha : Gives k named' a) {f : β → α}
    (hf : ∀ x, named (f x) = named' x) : Gives k named (a >>= fun x => Pure.pure (f x)) := by
  intro d
  have first := ha d
  rw [on_bind]
  split
  · rename_i x after hx
    rw [hx] at first
    have hsame : ((Pure.pure (f x) : Work α).on after).1.toOption.elim [] named = named' x := hf x
    rw [hsame]
    exact first
  · rename_i fault after hx
    rw [hx] at first
    exact first

theorem of_none {a : Work β} (ha : GivesNone k a) {f : β → α} (hf : ∀ x, named (f x) = []) :
    Gives k named (a >>= fun x => Pure.pure (f x)) :=
  bind ha fun x => pure (hf x)

theorem change {write : Store → Except Fault (α × Store)}
    (hwrite : ∀ {s s' x}, write s = .ok (x, s') → Numbers k (named x) s s') :
    Gives k named (change write) := by
  intro d
  rw [on_change]
  split
  · rename_i hw
    exact hwrite hw
  · exact .refl d.store

end Gives

theorem keptByParts_numbers : KeptByParts (Numbers k new s) where
  deleteTagsOf h hstep := h.rest (numbers_deleteTagsOf hstep)
  insertTag h hstep := h.rest (numbers_insertTag hstep)
  deleteSubtasksOf h hstep := h.rest (numbers_deleteSubtasksOf hstep)
  insertSubtask h hstep := h.rest (numbers_insertSubtask hstep)

end Work

/-! ## Calls -/

namespace Desk

open Work Store

variable {source : Source} {k : Numbered}

theorem givesNone_createTask (new : NewTask) : GivesNone k (createTask source new) := by
  refine .bind (.now source) fun time => .bind (.transaction ?_) fun _ => keeps_readBack _
  refine .bind (.execute fun h hstep => h.rest (numbers_insertTask hstep)) fun _ => ?_
  exact .bind (.saveTags keptByParts_numbers _ _) fun _ => .saveSubtasks keptByParts_numbers _ _

theorem givesNone_updateTask (id : Option Text) (change : TaskChange) :
    GivesNone k (updateTask source id change) := by
  intro new s
  rw [updateTask_eq]
  refine .bind (.query _) fun found => ?_
  cases found with
  | none => exact .pure none
  | some row =>
    refine .bind (.bind (.transaction ?_) fun _ => keeps_readBack id) fun task => .pure _
    exact keeps_rewriteTask keptByParts_numbers fun h hstep => h.rest (numbers_updateTask hstep)

theorem givesNone_deleteTask (id : Option Text) : GivesNone k (deleteTask id) :=
  .change fun h hstep => h.rest (numbers_deleteTask hstep)

theorem givesNone_toggleSubtask (id : Option Text) (mark : Int) :
    GivesNone k (toggleSubtask id mark) := by
  refine .bind (.change fun h hstep => h.rest (numbers_markSubtask hstep)) fun found => ?_
  cases found with
  | true => exact .query _
  | false => exact .pure none

theorem givesNone_deleteProject (id : Option Int) : GivesNone k (deleteProject id) :=
  .transaction (.bind (.execute fun h hstep => h.rest (numbers_leaveProject hstep)) fun _ =>
    .change fun h hstep => h.rest (numbers_deleteProject hstep))

theorem givesNone_deleteFolder (id : Option Int) : GivesNone k (deleteFolder id) :=
  .transaction (.bind (.execute fun h hstep => h.rest (numbers_leaveFolder hstep)) fun _ =>
    .change fun h hstep => h.rest (numbers_deleteFolder hstep))

theorem givesNone_saveSetting (key value : Option Text) :
    GivesNone k (execute (Store.saveSetting key value)) :=
  .execute fun h hstep => h.rest (numbers_saveSetting hstep)

theorem gives_createProject (name color description : Option Text) (folderId : Option Int) :
    Gives k (Project.given k) (createProject name color description folderId) :=
  .change numbers_insertProject

theorem gives_createFolder (name color description : Option Text) :
    Gives k (Folder.given k) (createFolder name color description) :=
  .change numbers_insertFolder

end Desk

namespace Command

open Work Desk

/-- **Calls give numbers to the records that they answer with.** -/
theorem gives_perform (source : Source) (k : Numbered) (c : Command) :
    Gives k (Answer.given k) (c.perform source) := by
  cases c with
  | createProject name color description folderId =>
    exact .map (gives_createProject _ _ _ _) fun _ => rfl
  | createFolder name color description => exact .map (gives_createFolder _ _ _) fun _ => rfl
  | createTask new => exact .of_none (givesNone_createTask new) fun _ => rfl
  | updateTask id change => exact .of_none (givesNone_updateTask id change) fun _ => rfl
  | deleteTask id => exact .of_none (givesNone_deleteTask id) fun _ => rfl
  | toggleSubtask id mark => exact .of_none (givesNone_toggleSubtask id mark) fun _ => rfl
  | deleteProject id => exact .of_none (givesNone_deleteProject id) fun _ => rfl
  | deleteFolder id => exact .of_none (givesNone_deleteFolder id) fun _ => rfl
  | saveSetting key value => exact .of_none (givesNone_saveSetting key value) fun _ => rfl
  | setInputMode mode => exact .of_none (givesNone_saveSetting _ mode) fun _ => rfl
  | inputMode => exact .of_none (.bind (.query _) fun _ => .pure _) fun _ => rfl
  | allTasks | task id | allTags | allProjects | allFolders | setting key =>
    exact .of_none (.query _) fun _ => rfl

end Command

/-! ## Requests -/

namespace Service

open Work Desk Store

variable {source : Source} {today : Date} {k : Numbered} {α : Type}

theorem given_of_status {r : Reply} (h : r.status ≠ 200) : r.given k = [] := by
  unfold Reply.given
  split
  · exact absurd rfl h
  · exact absurd rfl h
  · rfl

theorem gives_withBody {check : List (Text × Json) → Checked α} {body : Option (List UInt8)}
    {reply : α → Answering} (h : ∀ form, Gives k (Reply.given k) (reply form)) :
    Gives k (Reply.given k) (withBody check body reply) := by
  cases hform : Body.form? check body with
  | some form =>
    rw [withBody_of_form? hform]
    exact h form
  | none =>
    obtain ⟨r, hstatus, hreply⟩ := withBody_of_rejected hform
    rw [hreply]
    exact .pure (given_of_status hstatus)

theorem gives_checked {form : Checked α} {reply : α → Answering}
    (h : ∀ a, Gives k (Reply.given k) (reply a)) :
    Gives k (Reply.given k) (checked form reply) := by
  cases form with
  | ok a => exact h a
  | refused issues => exact .pure rfl

theorem gives_withReading {input : Text} {reply : Reading → Answering}
    (h : ∀ r, Gives k (Reply.given k) (reply r)) :
    Gives k (Reply.given k) (withReading today input reply) := by
  unfold withReading
  split
  · exact h _
  · exact .pure rfl

theorem given_deletedOr (detail : String) (found : Bool) :
    (deletedOr detail found).given k = [] := by
  cases found <;> rfl

/-- A new task takes a new id and gives no number. -/
theorem gives_newTask (new : Text → NewTask) :
    Gives k (Reply.given k) (newId source >>= fun id => Desk.createTask source (new id) >>=
      fun task => pure (Reply.ok (.task task))) :=
  .bind (.newId source) fun _ => .of_none (givesNone_createTask _) fun _ => rfl

/-- **Requests give numbers to the records that they answer with.** -/
theorem gives_answer (segment : Text) (body : Option (List UInt8)) (e : Endpoint) :
    Gives k (Reply.given k) (answer source today segment body e) := by
  have hmode (mode : Option Mode) : GivesNone k (modeOr mode) := isClosed_keeps.modeOr mode
  have hnames : GivesNone k projectNames := isClosed_keeps.projectNames
  cases e with
  | createProject =>
    exact gives_withBody fun form => .map (gives_createProject _ _ _ _) fun _ => rfl
  | createFolder => exact gives_withBody fun form => .map (gives_createFolder _ _ _) fun _ => rfl
  | createTask => exact gives_withBody fun form => gives_newTask _
  | createTaskFromText =>
    refine gives_withBody fun form => gives_withReading fun reading => ?_
    split
    · exact .pure rfl
    · exact gives_newTask _
  | updateTask =>
    refine gives_withBody fun change => .bind (givesNone_updateTask _ change) fun found => ?_
    cases found <;> exact .pure rfl
  | deleteTask => exact .of_none (givesNone_deleteTask _) (given_deletedOr _)
  | toggleSubtask =>
    refine gives_withBody fun completed => .bind (givesNone_toggleSubtask _ _) fun found => ?_
    cases found <;> exact .pure rfl
  | deleteProject =>
    exact gives_checked fun id => .of_none (givesNone_deleteProject _) (given_deletedOr _)
  | deleteFolder =>
    exact gives_checked fun id => .of_none (givesNone_deleteFolder _) (given_deletedOr _)
  | setMode =>
    exact gives_withBody fun mode => .of_none (givesNone_saveSetting _ _) fun _ => rfl
  | allTasks | allTags | allProjects | allFolders => exact .of_none (.query _) fun _ => rfl
  | getMode => exact .of_none isClosed_keeps.inputMode fun _ => rfl
  | parse => exact gives_withBody fun input => gives_withReading fun reading => .pure rfl
  | filters => exact gives_withBody fun query => .pure rfl
  | search =>
    exact gives_withBody fun text => .bind (.query _) fun tasks => .of_none (.query _) fun _ => rfl
  | suggest =>
    exact gives_withBody fun form => .bind (hmode _) fun mode => .bind hnames fun _ =>
      .of_none (.query _) fun _ => rfl
  | applySuggestion =>
    refine gives_withBody fun form => .bind (hmode _) fun mode => ?_
    dsimp only
    split
    · exact .of_none hnames fun _ => rfl
    · exact .pure rfl
  | listOptions =>
    rw [answer]
    split
    · exact .of_none hnames fun _ => rfl
    · exact .pure rfl
  | applyOption => exact gives_withBody fun form => .pure rfl

/-- A reply that names a new record is sent as it is: what was stored can be written. -/
theorem given_sent {r : Reply} (h : ∀ x ∈ r.given k, ∀ t ∈ x.texts, t.isEncodable = true) :
    r.sent.given k = r.given k := by
  by_cases hsendable : r.contents.isSendable = true
  · rw [Reply.sent_of_isSendable hsendable]
  rw [Reply.sent, if_neg hsendable]
  refine (List.eq_nil_iff_forall_not_mem.2 fun x hx => hsendable ?_).symm
  have htexts := h x hx
  unfold Reply.given at hx
  split at hx
  · rename_i p
    unfold Project.given at hx
    split at hx
    · rw [List.mem_singleton.1 hx] at htexts
      exact Project.isSendable_toJson htexts
    · cases hx
  · rename_i f
    unfold Folder.given at hx
    split at hx
    · rw [List.mem_singleton.1 hx] at htexts
      exact Folder.isSendable_toJson htexts
    · cases hx
  · cases hx

theorem numbers_respond (request : Request) (d : Desk) :
    d.store.Numbers k ((respond source today request d).1.given k)
      (respond source today request d).2.store := by
  unfold respond
  split
  · rename_i e segment hgoes
    have whole : d.store.Numbers k _ ((answer source today segment request.body e).on d).2.store :=
      gives_answer segment request.body e d
    unfold settle
    split
    · rename_i r after hx
      rw [hx] at whole
      rw [given_sent whole.texts]
      exact whole
    · rename_i hx
      rw [hx] at whole
      exact whole
  · exact .refl d.store
  · exact .refl d.store
  · exact .refl d.store
  · exact .refl d.store

end Service

/-! ## Histories -/

open Store

variable {source : Source} {k : Numbered}

/-- What an event without a move does to the numbered records. -/
theorem Event.numbers_run (d : Desk) {e : Event} (he : e.isMove = false) :
    d.store.Numbers k ((e.run source d).1.given k) (e.run source d).2.store := by
  cases e with
  | command c =>
    have whole := c.gives_perform source k d
    unfold run
    dsimp only
    split <;> (rename_i hx; rw [hx] at whole; exact whole)
  | request today r => exact Service.numbers_respond r d
  | upgrade target => cases he
  | downgrade target => cases he

namespace Desk

/-- **What a history without moves does to the numbered records.** -/
theorem numbers_after (d : Desk) {events : List Event} (hstay : ∀ e ∈ events, e.isMove = false) :
    d.store.Numbers k (d.given source k events) (d.after source events).store := by
  induction events generalizing d with
  | nil => exact .refl d.store
  | cons e more ih =>
    obtain ⟨he, hmore⟩ := List.forall_mem_cons.1 hstay
    exact (Event.numbers_run d he).trans (ih _ hmore)

theorem isNumbered_after (source : Source) (history : List Event) :
    (empty.after source history).store.IsNumbered k :=
  (after_keeps (P := fun s => s.IsSound ∧ s.IsNumbered k)
    (fun h hs => ⟨h.isSound hs.1, h.isNumbered hs.2⟩)
    (fun h hs => ⟨h.isSound hs.1, h.isNumbered hs.1.tables hs.2⟩) source history empty
    ⟨isSound_empty, isNumbered_empty⟩).2

/-- **References keep their meaning.** In a run of calls and requests without a move, made on
    any store that can be reached and failing or not, the numbers of the projects that are
    created increase, and so do those of the folders; what is stored in the end was stored
    before or was created in the run. A reference that is stored at some point of the run, from
    a task to a project or from a project to a folder, is not the number of any record that is
    created later; and as long as there is such a reference it leads to one record, the one
    to which it led at that point. -/
theorem references_keep_meaning (source : Source) (prior events : List Event)
    (hstay : ∀ e ∈ events, e.isMove = false) (k : Numbered) :
    let d := empty.after source prior
    ((d.given source k events).map (·.id)).Pairwise (· < ·) ∧
    (∀ x ∈ (d.after source events).store.labels k,
      x ∈ d.store.labels k ∨ x ∈ d.given source k events) ∧
    ∀ earlier later, events = earlier ++ later →
      let mid := d.after source earlier
      let last := mid.after source later
      ∀ i ∈ mid.store.references k,
        (∀ x ∈ mid.given source k later, x.id ≠ i) ∧
        (i ∈ last.store.references k → ∃ x ∈ mid.store.labels k, x.id = i ∧
          ∀ y, y ∈ last.store.labels k ∧ y.id = i ↔ y = x) := by
  intro d
  have hrun : d.store.Numbers k (d.given source k events) (d.after source events).store :=
    numbers_after d hstay
  refine ⟨hrun.increasing, fun x hx => List.mem_append.1 (hrun.labels.subset hx), ?_⟩
  rintro earlier later rfl mid last i hi
  have hsound (history : List Event) : (empty.after source history).store.IsSound :=
    after_keeps Step.isSound Move.isSound source history empty isSound_empty
  have hmid : mid = empty.after source (prior ++ earlier) :=
    (after_append source empty prior earlier).symm
  have hlast : last = empty.after source (prior ++ earlier ++ later) := by
    rw [after_append, ← hmid]
  have hlater : mid.store.Numbers k (mid.given source k later) last.store :=
    numbers_after mid fun e he => hstay e (List.mem_append_right _ he)
  exact hlater.keeps_reference (hmid ▸ hsound _) (hlast ▸ hsound _)
    (hmid ▸ isNumbered_after source _) hi

/-- Two projects, of which the second one goes, and a third one, which gets a number of its
    own, even though a creation fails in between. A task stays in the first one. -/
theorem references_keep_meaning_garden :
    let source : Source := ⟨fun n => List.replicate n 'i', fun _ => []⟩
    let prior : List Event := [.upgrade (.level 3)]
    let create (name : String) (folder : Option Int) : Event :=
      .command (.createProject (some name.toText) (some "blue".toText) none folder)
    let plant : NewTask := { id := some "t".toText, title := some "Plant".toText, projectId := some 1 }
    let earlier : List Event := [create "Garden" none, .command (.createTask plant)]
    let later : List Event := [create "Attic" none, .command (.deleteProject (some 2)),
      create "Cellar" (some 9), create "Kitchen" none]
    let d := empty.after source prior
    let mid := d.after source earlier
    (∀ e ∈ earlier ++ later, e.isMove = false) ∧
      (d.given source .projects (earlier ++ later)).map (·.id) = [1, 2, 3] ∧
      ((d.given source .projects (earlier ++ later)).map (·.id)).Pairwise (· < ·) ∧
      1 ∈ mid.store.references .projects ∧
      1 ∈ (mid.after source later).store.references .projects ∧
      ∃ x ∈ mid.store.labels .projects, x.id = 1 ∧
        ∀ y, y ∈ (mid.after source later).store.labels .projects ∧ y.id = 1 ↔ y = x := by
  intro source prior create plant earlier later d mid
  have hstay : ∀ e ∈ earlier ++ later, e.isMove = false := by decide
  have hreference : 1 ∈ mid.store.references .projects := by decide +kernel
  have hkept : 1 ∈ (mid.after source later).store.references .projects := by decide +kernel
  obtain ⟨hincrease, -, hmeaning⟩ :=
    references_keep_meaning source prior (earlier ++ later) hstay .projects
  exact ⟨hstay, by decide +kernel, hincrease, hreference, hkept,
    (hmeaning earlier later rfl 1 hreference).2 hkept⟩

end Desk
end TaskDesk
