import TaskDesk.Proofs.Desk.Success
import TaskDesk.Proofs.Service.SentBack
import TaskDesk.Proofs.Service.Update

/-!
# When the service fails

A request to an endpoint that is as it has to be is answered, unless there is one of a few causes.
Most of them are in what is given: a reference that leads nowhere, a column that needs a value and
is cleared, a number that does not fit into 64 bits, or a text that cannot be read. The others
are halves of surrogate pairs in a text that is to be stored or to be sent back: UTF-8 has no
bytes for them. Nothing that is stored makes a request fail.

Results:
* `Service.Mishap`, `Service.Garbled`: the causes.
* `Service.failed_createTask`, `Service.failed_updateTask` and companions: when a request to an
  endpoint fails.
* `Service.respond_failed_iff`: the service fails if and only if there is a cause.
-/

namespace TaskDesk

/-- What is sent along with a request is as the endpoint needs it. -/
def Endpoint.Accepts (segment : Text) (body : Option (List UInt8)) : Endpoint → Prop
  | .createTask => (Body.form? Body.taskForm body).isSome
  | .createTaskFromText => (Body.form? Body.textTaskForm body).isSome
  | .updateTask => (Body.form? Body.taskChange body).isSome
  | .toggleSubtask => (Body.form? Body.completedForm body).isSome
  | .createProject => (Body.form? Body.projectForm body).isSome
  | .deleteProject => ∃ id, Service.idIn "project_id" segment = .ok id
  | .createFolder => (Body.form? Body.folderForm body).isSome
  | .deleteFolder => ∃ id, Service.idIn "folder_id" segment = .ok id
  | .setMode => (Body.form? Body.modeForm body).isSome
  | .parse => (Body.form? Body.inputForm body).isSome
  | .filters | .search => (Body.form? Body.queryForm body).isSome
  | .suggest => (Body.form? Body.suggestForm body).isSome
  | .applySuggestion => (Body.form? Body.applyForm body).isSome
  | .applyOption => (Body.form? Body.optionForm body).isSome
  | .allTasks | .deleteTask | .allTags | .allProjects | .allFolders | .getMode | .listOptions => True

namespace Body.TaskForm

/-- The texts of a form. -/
def texts (form : TaskForm) : List Text :=
  [form.title, form.description] ++ form.dueDate.toList ++ form.tags ++ form.subtasks

/-- The new task that a form describes. -/
def newTask (form : TaskForm) (id : Text) : NewTask where
  id := some id
  title := some form.title
  description := some form.description
  dueDate := form.dueDate
  priority := some form.priority.name
  projectId := form.projectId
  tags := form.tags.map some
  subtasks := form.subtasks.map some

variable (form : TaskForm) (id : Text)

theorem isPlain_newTask : (form.newTask id).IsPlain where
  title := rfl
  priority := ⟨form.priority, rfl⟩
  tags := congrArg (List.map some) (reduceOption_map_some form.tags).symm
  subtasks := congrArg (List.map some) (reduceOption_map_some form.subtasks).symm

theorem texts_newTask : (form.newTask id).texts = form.texts := by
  simp only [NewTask.texts, NewTask.newTags, NewTask.newSubtasks, newTask, reduceOption_map_some,
    Option.toList_some]
  rfl

end Body.TaskForm

/-- The form that a reading of a text completes. -/
def Body.TextTaskForm.completed (form : TextTaskForm) (reading : Reading) : TaskForm where
  title := reading.draft.title
  description := form.description
  dueDate := reading.draft.due.map (·.toIso)
  priority := reading.draft.priority.getD .medium
  projectId := form.projectId
  tags := form.tags
  subtasks := []

/-- The texts that a change gives. -/
def TaskChange.given (c : TaskChange) : List Text :=
  c.texts ++ c.newTags.getD [] ++ c.newSubtasks.getD []

/-- The mode of the input line that is set. -/
def Store.inputMode (s : Store) : Mode :=
  match s.setting? (some modeSetting) with
  | .ok value => (value.bind Mode.ofName?).getD .search
  | .error _ => .search

namespace Service

open Work Desk

/-! ## Causes -/

/-- Causes in what is given, apart from single code points: a reference leads nowhere, a column
    that needs a value is cleared, a number does not fit into 64 bits, or a text cannot be
    read. -/
def Mishap (s : Store) (today : Date) (segment : Text) (body : Option (List UInt8)) :
    Endpoint → Prop
  | .createTask =>
    ∃ form ∈ Body.form? Body.taskForm body, ¬ s.firstTables.AcceptsProject form.projectId
  | .createTaskFromText =>
    ∃ form ∈ Body.form? Body.textTaskForm body,
      (∃ fault, Reading.ofText today form.input = .error fault) ∨
      ∃ reading, Reading.ofText today form.input = .ok reading ∧
        reading.draft.title.isEmpty = false ∧ ¬ s.firstTables.AcceptsProject form.projectId
  | .updateTask =>
    s.HasTask (some segment) ∧ ∃ change ∈ Body.form? Body.taskChange body,
      ¬ change.ClearsNone ∨ ¬ s.firstTables.AcceptsProject change.projectId.value?
  | .createProject =>
    ∃ form ∈ Body.form? Body.projectForm body, ¬ s.firstTables.AcceptsFolder form.folderId
  | .deleteProject => ∃ id, idIn "project_id" segment = .ok id ∧ ¬ InRange (some id)
  | .deleteFolder => ∃ id, idIn "folder_id" segment = .ok id ∧ ¬ InRange (some id)
  | .parse =>
    ∃ input ∈ Body.form? Body.inputForm body, ∃ fault, Reading.ofText today input = .error fault
  | _ => False

/-- Half of a surrogate pair is in a text that is to be stored or to be sent back. -/
def Garbled (s : Store) (today : Date) (segment : Text) (body : Option (List UInt8)) :
    Endpoint → Prop
  | .createTask =>
    ∃ form ∈ Body.form? Body.taskForm body, ∃ t ∈ form.texts, t.isEncodable = false
  | .createTaskFromText =>
    ∃ form ∈ Body.form? Body.textTaskForm body,
      ∃ reading, Reading.ofText today form.input = .ok reading ∧
        reading.draft.title.isEmpty = false ∧
        ∃ t ∈ [reading.draft.title, form.description] ++ form.tags, t.isEncodable = false
  | .updateTask =>
    s.HasTask (some segment) ∧ ∃ change ∈ Body.form? Body.taskChange body,
      ∃ t ∈ change.given, t.isEncodable = false
  | .createProject =>
    ∃ form ∈ Body.form? Body.projectForm body,
      ∃ t ∈ [form.name, form.color] ++ form.description.toList, t.isEncodable = false
  | .createFolder =>
    ∃ form ∈ Body.form? Body.folderForm body,
      ∃ t ∈ [form.name, form.color] ++ form.description.toList, t.isEncodable = false
  | .parse =>
    ∃ input ∈ Body.form? Body.inputForm body,
      ∃ reading, Reading.ofText today input = .ok reading ∧ reading.draft.title.isEncodable = false
  | .filters =>
    ∃ query ∈ Body.form? Body.queryForm body,
      ∃ t ∈ (Filters.parse query).texts, t.isEncodable = false
  | .applySuggestion =>
    ∃ form ∈ Body.form? Body.applyForm body,
      (Completion.apply (form.mode.getD s.inputMode) form.input form.chosen []).text.isEncodable =
        false
  | .applyOption =>
    ∃ form ∈ Body.form? Body.optionForm body,
      (Completion.applyOption form.input form.field form.value).isEncodable = false
  | _ => False

/-- An endpoint fails just if there is a cause. -/
def FailsByCause (source : Source) (today : Date) (segment : Text) (body : Option (List UInt8))
    (d : Desk) (e : Endpoint) : Prop :=
  (settle (answer source today segment body e) d).1 = .failed ↔
    Mishap d.store today segment body e ∨ Garbled d.store today segment body e

/-! ## Answers -/

variable {source : Source} {today : Date} {d : Desk} {request : Request} {segment : Text}
  {l : Ledger}

theorem not_forall_isEncodable {ts : List Text} :
    (¬ ∀ t ∈ ts, t.isEncodable = true) ↔ ∃ t ∈ ts, t.isEncodable = false := by
  simp

/-- What is worked out and can be sent is no failure. -/
theorem settle_ne_failed {a : Answering} {c : Contents} {d' : Desk}
    (h : a.on d = (.ok (.ok c), d')) (hc : c.isSendable = true) : (settle a d).1 ≠ .failed := by
  rw [settle_eq (r := .ok c) h hc]
  exact ok_ne_failed c

theorem settle_failed (d : Desk) : (settle (pure .failed) d).1 = .failed := Reply.sent_failed

theorem notFound_ne_failed (detail : String) : Reply.notFound detail ≠ .failed :=
  fun h => absurd (show 404 = 500 from congrArg Reply.status h) (by decide)

theorem deletedOr_isSent (detail : String) (found : Bool) :
    (deletedOr detail found).contents.isSendable = true ∧ deletedOr detail found ≠ .failed := by
  cases found with
  | true => exact ⟨Contents.isSendable_deleted, ok_ne_failed _⟩
  | false =>
    exact ⟨Contents.isSendable_detail _, notFound_ne_failed _⟩

theorem settle_bind_of_ok {α : Type} {w : Work α} {f : α → Answering} {x : α} {d' : Desk}
    (h : w.on d = (.ok x, d')) : settle (w >>= f) d = settle (f x) d' := by
  rw [settle, settle, bind_on_of_ok h]

/-- An answer fails if the work does, where all that the work comes to can be sent. -/
theorem settle_map_failed {α : Type} {w : Work α} {f : α → Reply}
    (hf : ∀ x d', w.on d = (.ok x, d') → (f x).contents.isSendable = true ∧ f x ≠ .failed) :
    (settle (w >>= fun x => pure (f x)) d).1 = .failed ↔ ¬ w.Succeeds d := by
  constructor
  · rintro h ⟨x, d', hw⟩
    obtain ⟨hsent, hne⟩ := hf x d' hw
    rw [settle_bind_of_ok hw, settle_pure, Reply.sent_of_isSendable hsent] at h
    exact hne h
  · intro h
    obtain ⟨fault, d', hw⟩ := not_succeeds_iff.1 h
    rw [settle, on_bind, hw]

theorem on_modeOr (hs : d.store.IsPresentable) (mode : Option Mode) :
    (modeOr mode).on d = (.ok (mode.getD d.store.inputMode), d) := by
  cases mode with
  | some m => rfl
  | none =>
    obtain ⟨value, hvalue⟩ := hs.setting? isEncodable_modeSetting
    rw [modeOr, inputMode, on_bind, on_query, hvalue, Option.getD_none, Store.inputMode, hvalue]
    rfl

theorem on_projectNames (hs : d.store.IsPresentable) :
    ∃ names, projectNames.on d = (.ok names, d) ∧ ∀ name ∈ names, name.isEncodable = true := by
  obtain ⟨projects, hprojects, htexts⟩ := hs.allProjects
  refine ⟨projects.map (·.name), ?_, List.forall_mem_map.2 fun p hp =>
    htexts p hp p.name (by simp [Project.texts])⟩
  rw [projectNames, on_bind, on_query, hprojects]
  rfl

/-! ## Endpoints that only read -/

theorem on_query_bind {α β : Type} {read : Store → Except Fault α} {x : α} (f : α → Work β)
    (h : read d.store = .ok x) : (query read >>= f).on d = (f x).on d := by
  rw [on_bind, on_query, h]

/-- **Lists, searches and completions on offer** are answered wherever the store can be shown. -/
theorem answer_read_ne_failed (hs : d.store.IsPresentable) {e : Endpoint} (segment : Text)
    {body : Option (List UInt8)} (haccepts : e.Accepts segment body)
    (he : e ∈ [Endpoint.allTasks, .allTags, .allProjects, .allFolders, .getMode, .search, .suggest,
      .listOptions]) :
    (settle (answer source today segment body e) d).1 ≠ .failed := by
  have htasks (ts : List Task) (h : ∀ task ∈ ts, ∀ t ∈ task.texts, t.isEncodable = true) :
      (Contents.tasks ts).isSendable = true :=
    Json.isSendable_listOf fun task htask => Task.isSendable_toJson (h task htask)
  obtain ⟨tasks, hall, htexts⟩ := hs.allTasks
  obtain ⟨tags, htags, htags'⟩ := hs.allTags
  obtain ⟨projects, hprojects, hprojects'⟩ := hs.allProjects
  obtain ⟨folders, hfolders, hfolders'⟩ := hs.allFolders
  obtain ⟨names, hnames, hnames'⟩ := on_projectNames hs
  cases e with
  | allTasks => exact settle_ne_failed (on_query_bind _ hall) (htasks tasks htexts)
  | allTags => exact settle_ne_failed (on_query_bind _ htags) (Contents.isSendable_texts htags')
  | allProjects =>
    exact settle_ne_failed (on_query_bind _ hprojects)
      (Json.isSendable_listOf fun p hp => Project.isSendable_toJson (hprojects' p hp))
  | allFolders =>
    exact settle_ne_failed (on_query_bind _ hfolders)
      (Json.isSendable_listOf fun f hf => Folder.isSendable_toJson (hfolders' f hf))
  | getMode =>
    exact settle_ne_failed (bind_on_of_ok (on_modeOr hs none)) (Contents.isSendable_mode _)
  | search =>
    obtain ⟨query, hquery⟩ := Option.isSome_iff_exists.1 haccepts
    rw [answer, withBody_of_form? hquery]
    refine settle_ne_failed ((on_query_bind _ hall).trans (on_query_bind _ hprojects)) ?_
    exact htasks _ fun task htask => htexts task ((Filters.mem_select _ _ _ _ _).1 htask).1
  | suggest =>
    obtain ⟨form, hform⟩ := Option.isSome_iff_exists.1 haccepts
    rw [answer, withBody_of_form? hform]
    refine settle_ne_failed ((bind_on_of_ok (on_modeOr hs form.mode)).trans
      ((bind_on_of_ok hnames).trans (on_query_bind _ htags))) ?_
    exact Contents.isSendable_texts (Completion.isEncodable_suggest htags' _ _)
  | listOptions =>
    rw [answer]
    split
    · exact settle_ne_failed (bind_on_of_ok hnames)
        (Contents.isSendable_texts (Completion.isEncodable_optionsFor hnames' _))
    · exact settle_ne_failed rfl
        (Contents.isSendable_texts (Completion.isEncodable_optionsFor (List.forall_mem_nil _) _))
  | _ => exact absurd he (by decide)

/-! ## Endpoints that store what they are given -/

section Write

variable (hsource : source.IsReliable) (hd : d.IsOrdinary source) (hl : d.store.ledger = some l)

include hd hl

include hsource in
/-- A new task with the next id. -/
theorem settle_newTask (form : Body.TaskForm) :
    (settle (newId source >>= fun id => Desk.createTask source (form.newTask id) >>= fun task =>
      pure (Reply.ok (.task task))) d).1 = .failed ↔
      ¬ l.AcceptsProject form.projectId ∨ ∃ t ∈ form.texts, t.isEncodable = false := by
  have hplain := form.isPlain_newTask (source.id d.idsUsed)
  have hfresh (n : Nat) (hn : d.idsUsed + 1 ≤ n) := hd.fresh_subtask hsource n (by omega)
  rw [settle_bind_of_ok (on_newId source d), settle_map_failed fun task d' h => ?_,
    createTask_succeeds_iff (d := { d with idsUsed := d.idsUsed + 1 }) hsource hd.regular hl hfresh
      hplain rfl (hsource.id _) (hd.fresh_task hsource hl _ (Nat.le_refl _)),
    ← not_forall_isEncodable, ← not_and_or, ← form.texts_newTask (source.id d.idsUsed)]
  · exact not_congr ⟨fun h => ⟨h.project, h.texts⟩, fun h => ⟨h.1, h.2⟩⟩
  · have htexts := texts_of_createTask (d := { d with idsUsed := d.idsUsed + 1 })
      hd.regular.presentable rfl hplain.known_priority h
    exact ⟨Task.isSendable_toJson htexts, ok_ne_failed _⟩

variable {body : Option (List UInt8)}

include hsource in
theorem failed_createTask (h : Endpoint.createTask.Accepts segment body) :
    FailsByCause source today segment body d .createTask := by
  obtain ⟨form, hform⟩ := Option.isSome_iff_exists.1 h
  dsimp only [FailsByCause, Mishap, Garbled]
  rw [Body.exists_form_iff hform, Body.exists_form_iff hform, answer,
    withBody_of_form? hform, Store.firstTables_eq hl]
  exact settle_newTask hsource hd hl form

include hsource in
theorem failed_createTaskFromText (h : Endpoint.createTaskFromText.Accepts segment body) :
    FailsByCause source today segment body d .createTaskFromText := by
  obtain ⟨form, hform⟩ := Option.isSome_iff_exists.1 h
  dsimp only [FailsByCause, Mishap, Garbled]
  rw [Body.exists_form_iff hform, Body.exists_form_iff hform, answer,
    withBody_of_form? hform, Store.firstTables_eq hl]
  rw [withReading]
  cases hread : Reading.ofText today form.input with
  | error fault => exact iff_of_true (settle_failed d) (.inl (.inl ⟨fault, rfl⟩))
  | ok reading =>
    dsimp only
    split
    · rename_i hempty
      rw [settle_pure, Reply.sent_of_isSendable (r := .noTitle) (Contents.isSendable_detail _)]
      refine iff_of_false (show Reply.noTitle ≠ .failed by decide) ?_
      rintro ((⟨fault, hfault⟩ | ⟨_, ⟨⟩, htitle, -⟩) | ⟨_, ⟨⟩, htitle, -⟩)
      · cases hfault
      · exact Bool.false_ne_true (htitle.symm.trans hempty)
      · exact Bool.false_ne_true (htitle.symm.trans hempty)
    · rename_i htitle
      have hiso : ∀ t ∈ reading.draft.due.map (·.toIso), t.isEncodable = true := by
        intro t ht
        obtain ⟨date, -, rfl⟩ := Option.map_eq_some_iff.1 ht
        exact date.isEncodable_toIso
      refine (settle_newTask hsource hd hl (form.completed reading)).trans ?_
      have htexts : (∃ t ∈ (form.completed reading).texts, t.isEncodable = false) ↔
          ∃ t ∈ [reading.draft.title, form.description] ++ form.tags, t.isEncodable = false := by
        rw [← not_forall_isEncodable, ← not_forall_isEncodable, Body.TaskForm.texts]
        simp only [Body.TextTaskForm.completed, List.append_nil, List.forall_mem_append,
          Option.mem_toList]
        exact not_congr ⟨fun h => ⟨h.1.1, h.2⟩, fun h => ⟨⟨h.1, hiso⟩, h.2⟩⟩
      have htitle : reading.draft.title.isEmpty = false := by simpa using htitle
      simp only [htexts, htitle, reduceCtorEq, exists_false, false_or, Except.ok.injEq,
        exists_eq_left', true_and]
      rfl

omit hd in
theorem failed_createProject (hs : d.store.IsPresentable)
    (h : Endpoint.createProject.Accepts segment body) :
    FailsByCause source today segment body d .createProject := by
  obtain ⟨form, hform⟩ := Option.isSome_iff_exists.1 h
  dsimp only [FailsByCause, Mishap, Garbled]
  rw [Body.exists_form_iff hform, Body.exists_form_iff hform, answer,
    withBody_of_form? hform, Store.firstTables_eq hl, ← not_forall_isEncodable, ← not_and_or,
    ← createProject_succeeds_iff hl]
  exact settle_map_failed fun p d' hon =>
    ⟨Project.isSendable_toJson (hs.insertProject (change_on_ok hon)).2, ok_ne_failed _⟩

omit hd in
theorem failed_createFolder (hs : d.store.IsPresentable)
    (h : Endpoint.createFolder.Accepts segment body) :
    FailsByCause source today segment body d .createFolder := by
  obtain ⟨form, hform⟩ := Option.isSome_iff_exists.1 h
  dsimp only [FailsByCause, Mishap, Garbled]
  rw [Body.exists_form_iff hform, false_or, answer, withBody_of_form? hform,
    ← not_forall_isEncodable, ← createFolder_succeeds_iff hl]
  exact settle_map_failed fun f d' hon =>
    ⟨Folder.isSendable_toJson (hs.insertFolder (change_on_ok hon)).2, ok_ne_failed _⟩

omit hd in
theorem failed_deleteProject (h : Endpoint.deleteProject.Accepts segment body) :
    FailsByCause source today segment body d .deleteProject := by
  obtain ⟨id, hid⟩ := h
  dsimp only [FailsByCause, Mishap, Garbled]
  rw [or_false, answer, hid]
  simp only [Checked.ok.injEq, exists_eq_left', ← deleteProject_succeeds_iff hl]
  exact settle_map_failed fun found _ _ => deletedOr_isSent _ found

omit hd in
theorem failed_deleteFolder (h : Endpoint.deleteFolder.Accepts segment body) :
    FailsByCause source today segment body d .deleteFolder := by
  obtain ⟨id, hid⟩ := h
  dsimp only [FailsByCause, Mishap, Garbled]
  rw [or_false, answer, hid]
  simp only [Checked.ok.injEq, exists_eq_left', ← deleteFolder_succeeds_iff hl]
  exact settle_map_failed fun found _ _ => deletedOr_isSent _ found

end Write

section Echo

variable {body : Option (List UInt8)}

theorem settle_sent {c : Contents} {a : Answering} {d' : Desk} (h : a.on d = (.ok (.ok c), d')) :
    (settle a d).1 = .failed ↔ ¬ c.isSendable = true := by
  refine ⟨fun hfailed hc => settle_ne_failed h hc hfailed, fun hc => ?_⟩
  rw [settle, h]
  exact if_neg hc

theorem failed_parse (h : Endpoint.parse.Accepts segment body) :
    FailsByCause source today segment body d .parse := by
  obtain ⟨input, hinput⟩ := Option.isSome_iff_exists.1 h
  dsimp only [FailsByCause, Mishap, Garbled]
  rw [Body.exists_form_iff hinput, Body.exists_form_iff hinput, answer, withBody_of_form? hinput]
  rw [withReading]
  cases hread : Reading.ofText today input with
  | error fault => exact iff_of_true (settle_failed d) (.inl ⟨fault, rfl⟩)
  | ok reading =>
    dsimp only
    refine (settle_sent (on_pure _ d)).trans ?_
    simp only [Contents.isSendable_reading hread, Bool.not_eq_true, reduceCtorEq, exists_false,
      false_or, Except.ok.injEq, exists_eq_left']

theorem failed_filters (h : Endpoint.filters.Accepts segment body) :
    FailsByCause source today segment body d .filters := by
  obtain ⟨query, hquery⟩ := Option.isSome_iff_exists.1 h
  dsimp only [FailsByCause, Mishap, Garbled]
  rw [Body.exists_form_iff hquery, false_or, answer, withBody_of_form? hquery,
    ← not_forall_isEncodable, ← Contents.isSendable_filters]
  exact settle_sent rfl

theorem failed_applyOption (h : Endpoint.applyOption.Accepts segment body) :
    FailsByCause source today segment body d .applyOption := by
  obtain ⟨form, hform⟩ := Option.isSome_iff_exists.1 h
  dsimp only [FailsByCause, Mishap, Garbled]
  rw [Body.exists_form_iff hform, false_or, answer, withBody_of_form? hform,
    ← Bool.not_eq_true, ← Contents.isSendable_line]
  exact settle_sent rfl

/-- The text after a completion does not depend on the projects, only what is offered next does. -/
theorem text_apply (mode : Mode) (input chosen : Text) (names : List Text) :
    (Completion.apply mode input chosen names).text =
      (Completion.apply mode input chosen []).text := by
  unfold Completion.apply
  cases mode with
  | search =>
    dsimp only
    split <;> rfl
  | create => rfl

theorem failed_applySuggestion (hs : d.store.IsPresentable)
    (h : Endpoint.applySuggestion.Accepts segment body) :
    FailsByCause source today segment body d .applySuggestion := by
  obtain ⟨form, hform⟩ := Option.isSome_iff_exists.1 h
  obtain ⟨names, hnames, hencodable⟩ := on_projectNames hs
  dsimp only [FailsByCause, Mishap, Garbled]
  rw [Body.exists_form_iff hform, false_or, answer, withBody_of_form? hform]
  rw [settle_bind_of_ok (on_modeOr hs form.mode)]
  have hecho {names : List Text} {w : Work (List Text)} (hw : w.on d = (.ok names, d))
      (hnames : ∀ name ∈ names, name.isEncodable = true) (mode : Mode) :
      (settle (w >>= fun names =>
        pure (.ok (.applied (Completion.apply mode form.input form.chosen names)))) d).1 = .failed ↔
        (Completion.apply mode form.input form.chosen []).text.isEncodable = false := by
    rw [settle_bind_of_ok hw, ← text_apply _ _ _ names, ← Bool.not_eq_true,
      ← Contents.isSendable_applied hnames]
    exact settle_sent (on_pure _ d)
  split
  · exact hecho hnames hencodable _
  · exact hecho (on_pure [] d) (List.forall_mem_nil _) _

end Echo

/-! ## Endpoints that change what is stored -/

section Change

variable {body : Option (List UInt8)}

theorem failsByCause_of_ne {e : Endpoint}
    (h : (settle (answer source today segment body e) d).1 ≠ .failed)
    (hmishap : ¬ Mishap d.store today segment body e)
    (hgarbled : ¬ Garbled d.store today segment body e) :
    FailsByCause source today segment body d e :=
  iff_of_false h (not_or.2 ⟨hmishap, hgarbled⟩)

theorem not_isStorable_iff {c : TaskChange} :
    ¬ c.IsStorable l ↔ (¬ c.ClearsNone ∨ ¬ l.AcceptsProject c.projectId.value?) ∨
      ∃ t ∈ c.given, t.isEncodable = false := by
  rw [← not_and_or, ← not_forall_isEncodable, ← not_and_or]
  have hlists (lists : Option (List Text)) : (∀ t ∈ lists.getD [], t.isEncodable = true) ↔
      ∀ ts ∈ lists, ∀ t ∈ ts, t.isEncodable = true := by
    cases lists <;> simp
  simp only [TaskChange.given, List.forall_mem_append, hlists]
  exact not_congr ⟨fun h => ⟨⟨h.toClearsNone, h.project⟩, ⟨h.texts, h.tags⟩, h.subtasks⟩,
    fun ⟨⟨hnone, hproject⟩, ⟨htexts, htags⟩, hsubtasks⟩ =>
      ⟨⟨hnone, hproject, htexts⟩, htags, hsubtasks⟩⟩

theorem failed_updateTask (hsource : source.IsReliable) (hd : d.IsOrdinary source)
    (hl : d.store.ledger = some l)
    (hgoes : Destination.ofRequest request.method request.path = .endpoint .updateTask segment)
    (h : Endpoint.updateTask.Accepts segment request.body) :
    FailsByCause source today segment request.body d .updateTask := by
  obtain ⟨c, hbody⟩ := Option.isSome_iff_exists.1 h
  dsimp only [FailsByCause, Mishap, Garbled]
  rw [Body.exists_form_iff hbody, Body.exists_form_iff hbody, ← and_or_left, Store.firstTables_eq hl,
    ← not_isStorable_iff, ← respond_endpoint hgoes]
  have hsegment := isEncodable_some.2 (Destination.isEncodable_segment hgoes)
  have hfind := Store.taskRow?_eq hl hsegment
  cases hrow : l.tasks.find? fun row => sameId (some segment) row.id with
  | none =>
    rw [hrow] at hfind
    rw [respond_absent today hgoes hbody hfind]
    refine iff_of_false (notFound_ne_failed _) ?_
    rintro ⟨⟨k, hk, htask⟩, -⟩
    cases hl.symm.trans hk
    have hsome := List.find?_isSome.2 (List.any_eq_true.1 htask)
    rw [hrow] at hsome
    cases hsome
  | some row =>
    rw [hrow] at hfind
    have htask := hasTask_of_taskRow? hfind
    rw [and_iff_right htask]
    by_cases hroom : c.IsStorable l
    · obtain ⟨t, hreply, -⟩ := respond_written today hgoes hbody hfind hl hsource hd hroom
      rw [hreply]
      exact iff_of_false (ok_ne_failed _) fun h => h hroom
    · exact iff_of_true (respond_noRoom today hgoes hbody hfind hl hd.regular hroom).1 hroom

theorem deleteTask_ne_failed (hl : d.store.ledger = some l) (hsegment : segment.isEncodable = true) :
    (settle (answer source today segment body .deleteTask) d).1 ≠ .failed := fun h =>
  (settle_map_failed fun found _ _ => deletedOr_isSent _ found).1 h
    ((deleteTask_succeeds_iff hl _).2 (isEncodable_some.2 hsegment))

theorem toggleSubtask_ne_failed (hs : d.store.IsPresentable) (hsegment : segment.isEncodable = true)
    (h : Endpoint.toggleSubtask.Accepts segment body) :
    (settle (answer source today segment body .toggleSubtask) d).1 ≠ .failed := by
  obtain ⟨completed, hcompleted⟩ := Option.isSome_iff_exists.1 h
  have hmark : InRange (some (if completed then 1 else 0)) := by
    rintro _ ⟨⟩
    cases completed <;> decide
  obtain ⟨found, after, hon, htexts⟩ := on_toggleSubtask hs (isEncodable_some.2 hsegment) hmark
  rw [answer, withBody_of_form? hcompleted]
  rw [settle_bind_of_ok hon]
  cases found with
  | none =>
    rw [settle_pure, Reply.sent_of_isSendable (r := .notFound _) (Contents.isSendable_detail _)]
    exact notFound_ne_failed _
  | some subtask =>
    exact settle_ne_failed (on_pure _ after) (Subtask.isSendable_toJson (htexts subtask rfl))

theorem setMode_ne_failed (hs : d.store.IsPresentable)
    (h : Endpoint.setMode.Accepts segment body) :
    (settle (answer source today segment body .setMode) d).1 ≠ .failed := by
  obtain ⟨mode, hmode⟩ := Option.isSome_iff_exists.1 h
  rw [answer, withBody_of_form? hmode]
  intro h
  refine (settle_map_failed fun _ _ _ => ?_).1 h (setInputMode_succeeds hs mode)
  exact ⟨Contents.isSendable_mode mode, ok_ne_failed _⟩

end Change

/-- **The service fails if and only if there is a cause.** After any requests to a fresh service,
    a request to an endpoint that is as the endpoint needs it makes the service fail just if a
    reference that it gives leads nowhere, it clears a column that needs a value, a number in its
    path does not fit into 64 bits, or a text cannot be read, and further if half of a surrogate
    pair is in a text that is to be stored or to be sent back. -/
theorem respond_failed_iff {source : Source} (hsource : source.IsReliable)
    (requests : List (Date × Request)) (today : Date) {request : Request} {e : Endpoint}
    {segment : Text}
    (hgoes : Destination.ofRequest request.method request.path = .endpoint e segment)
    (haccepts : e.Accepts segment request.body) :
    let d := Desk.served source requests
    (respond source today request d).1 = .failed ↔
      Mishap d.store today segment request.body e ∨ Garbled d.store today segment request.body e := by
  intro d
  have hd : d.IsOrdinary source := Desk.isOrdinary_served source requests
  have hs := hd.regular.presentable
  obtain ⟨l, hl, -⟩ := hs.ledger
  suffices h : FailsByCause source today segment request.body d e by
    rw [respond_endpoint hgoes]
    exact h
  have hsegment := Destination.isEncodable_segment hgoes
  have hreads (he : e ∈ [Endpoint.allTasks, .allTags, .allProjects, .allFolders, .getMode, .search,
      .suggest, .listOptions]) : (settle (answer source today segment request.body e) d).1 ≠ .failed :=
    answer_read_ne_failed hs segment haccepts he
  cases e with
  | createTask => exact failed_createTask hsource hd hl haccepts
  | createTaskFromText => exact failed_createTaskFromText hsource hd hl haccepts
  | updateTask => exact failed_updateTask hsource hd hl hgoes haccepts
  | deleteTask => exact failsByCause_of_ne (deleteTask_ne_failed hl hsegment) id id
  | toggleSubtask => exact failsByCause_of_ne (toggleSubtask_ne_failed hs hsegment haccepts) id id
  | createProject => exact failed_createProject hl hs haccepts
  | deleteProject => exact failed_deleteProject hl haccepts
  | createFolder => exact failed_createFolder hl hs haccepts
  | deleteFolder => exact failed_deleteFolder hl haccepts
  | setMode => exact failsByCause_of_ne (setMode_ne_failed hs haccepts) id id
  | parse => exact failed_parse haccepts
  | filters => exact failed_filters haccepts
  | applySuggestion => exact failed_applySuggestion hs haccepts
  | applyOption => exact failed_applyOption haccepts
  | allTasks | allTags | allProjects | allFolders | getMode | search | suggest | listOptions =>
    exact failsByCause_of_ne (hreads (by decide)) id id

/-- A new task in a project that does not exist. -/
theorem respond_failed_iff_lost :
    let source : Source := ⟨fun n => List.replicate (n + 1) 'i', fun _ => []⟩
    let today : Date := { year := 2025, month := 1, day := 15 }
    let body (json : String) := some (json.toList.map fun c => c.toNat.toUInt8)
    let create : Request := ⟨"POST".toText, "/tasks".toText,
      body "\x7b\"title\":\"Pack\",\"project_id\":7\x7d"⟩
    (respond source today create (Desk.served source [])).1 = .failed := by
  intro source today body create
  have hgoes : Destination.ofRequest create.method create.path = .endpoint .createTask [] := by
    decide +kernel
  have haccepts : (Body.form? Body.taskForm create.body).isSome := by decide +kernel
  have hproject : (Body.form? Body.taskForm create.body).map (·.projectId) = some (some 7) := by
    decide +kernel
  obtain ⟨form, hform, hlost⟩ := Option.map_eq_some_iff.1 hproject
  refine (respond_failed_iff Source.isReliable_strokes [] today hgoes haccepts).2
    (.inl ⟨form, hform, ?_⟩)
  rw [hlost]
  exact fun h => absurd h.2 (by decide)

/-- Half of a surrogate pair in a title makes the service fail, with no other cause. -/
theorem respond_failed_half :
    let source : Source := ⟨fun n => List.replicate (n + 1) 'i', fun _ => []⟩
    let today : Date := { year := 2025, month := 1, day := 15 }
    let body (json : String) := some (json.toList.map fun c => c.toNat.toUInt8)
    let create : Request := ⟨"POST".toText, "/tasks".toText,
      body "\x7b\"title\":\"a\\ud800b\"\x7d"⟩
    let d := Desk.served source []
    Destination.ofRequest create.method create.path = .endpoint .createTask [] ∧
      Endpoint.createTask.Accepts [] create.body ∧
      (respond source today create d).1 = .failed ∧
      ¬ Mishap d.store today [] create.body .createTask := by
  intro source today body create d
  have hproject : (Body.form? Body.taskForm create.body).map (·.projectId) = some none := by
    decide +kernel
  obtain ⟨form, hform, hnone⟩ := Option.map_eq_some_iff.1 hproject
  refine ⟨by decide +kernel, Option.isSome_iff_exists.2 ⟨form, hform⟩, by decide +kernel, ?_⟩
  rintro ⟨_, hform', hrejected⟩
  cases hform.symm.trans hform'
  rw [hnone] at hrejected
  exact hrejected ⟨nofun, by decide⟩

end Service
end TaskDesk
