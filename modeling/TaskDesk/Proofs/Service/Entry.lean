import TaskDesk.Proofs.Desk.NewTask
import TaskDesk.Proofs.Draft.Sendable
import TaskDesk.Proofs.Filter.Canonical
import TaskDesk.Proofs.Service.Search

/-!
# Tasks entered as a text

A task that is entered as a text has the title, the due date and the priority of the
draft of this text. It can be found at once: by its due date, by its priority, and
by its title, unless a word of the title means something else in a query.

Results:
* `respond_parse`, `respond_createTaskFromText`: what comes of an input line.
* `Draft.Makes.isFoundBy`: which searches find a task that a draft makes.
* `entered_found`: a task that is entered is stored and found.
-/

namespace TaskDesk

open FilterToken

/-- The open task that a draft makes. -/
structure Draft.Makes (draft : Draft) (t : Task) : Prop where
  title : t.title = draft.title
  dueDate : t.dueDate = draft.due.map (·.toIso)
  priority : t.priority = draft.priority.getD .medium
  isOpen : t.completed = false

/-- Whether a query finds the task that a draft makes among what is found on a day. -/
structure Draft.IsFoundBy (draft : Draft) (day : Date) (t : Task) (query : Text)
    (found : List Task) : Prop where
  dueToday : query = "due:today".toText →
    (t ∈ found ↔ draft.due.map (·.toIso) = some day.toIso)
  overdue : query = "due:overdue".toText → (t ∈ found ↔ ∃ due ∈ draft.due, due < day)
  priority : ∀ p : Priority, query = "priority:".toText ++ p.name → (t ∈ found ↔ p = t.priority)
  title : query = t.title → (∀ word ∈ Text.split ' ' t.title, IsPlain word) → t ∈ found

namespace Filters

/-! ## Queries for a task -/

variable {today : Date} {projects : List Project} {t : Task}

/-- A line of plain words is looked for as it is. -/
theorem parse_of_isPlain {query : Text} (hspaced : Text.join ' ' (Text.tokens query) = query)
    (hplain : ∀ word ∈ Text.tokens query, IsPlain word) : parse query = { text := query } := by
  have hsayings : (Text.tokens query).map ofWord = sayings { text := query } := by
    have hfree : (Text.tokens query).map ofWord = (Text.tokens query).map free :=
      List.map_congr_left fun word hword => ofWord_of_isPlain (hplain word hword)
    rw [hfree]
    simp [sayings]
  rw [parse, hsayings, ofTokens_sayings hspaced]

/-- Filters with a single condition. -/
theorem meets_due (b : DueBucket) :
    meets today projects { due := some b } t = dueMeets today { due := some b } t := by
  simp [meets, textMeets, tagsMeet, priorityMeets, projectMeets, statusMeets]

theorem meets_priority (p : Priority) :
    meets today projects { priority := some p } t = (p == t.priority) := by
  simp [meets, textMeets, tagsMeet, priorityMeets, projectMeets, statusMeets, dueMeets]

/-- A task is found by its title. -/
theorem meets_title : meets today projects { text := t.title } t = true := by
  have hself : Text.contains (Text.lower t.title) (Text.lower t.title) = true :=
    (Text.contains_iff _ _).2 List.infix_rfl
  simp [meets, textMeets, tagsMeet, priorityMeets, projectMeets, statusMeets, dueMeets, hself]

end Filters

namespace Draft.Makes

variable {draft : Draft} {t : Task}

theorem due?_eq (h : draft.Makes t) : t.due? = draft.due := by
  rw [Task.due?, h.dueDate]
  cases draft.due with
  | none => rfl
  | some d => rw [Option.map_some, Option.bind_some, Date.ofDue?_toIso]

/-- **The searches that find a task**, where it is one of the tasks that are searched. -/
theorem isFoundBy (h : draft.Makes t) (htidy : ∃ u, draft.title = Text.tidy u) (day : Date)
    (projects : List Project) {tasks : List Task} (ht : t ∈ tasks) (query : Text) :
    draft.IsFoundBy day t query ((Filters.parse query).select day projects tasks) := by
  have hfound : t ∈ (Filters.parse query).select day projects tasks ↔
      (Filters.parse query).meets day projects t = true := by
    rw [Filters.mem_select, and_iff_right ht]
  constructor
  · rintro rfl
    have hparse : Filters.parse "due:today".toText = { due := some .today } := by decide
    rw [hfound, hparse, Filters.meets_due, Filters.dueMeets, h.due?_eq]
    cases draft.due with
    | none => simp
    | some d => simp [Date.toIso_inj]
  · rintro rfl
    have hparse : Filters.parse "due:overdue".toText = { due := some .overdue } := by decide
    have hdue : t.dueDate.bind Date.ofDue? = draft.due := h.due?_eq
    rw [hfound, hparse, Filters.meets_due, Filters.dueMeets, isOverdue, hdue, h.isOpen]
    cases draft.due with
    | none => simp
    | some d => simp
  · rintro p rfl
    have hparse : Filters.parse ("priority:".toText ++ p.name) = { priority := some p } := by
      cases p <;> decide
    rw [hfound, hparse, Filters.meets_priority, beq_iff_eq]
  · rintro rfl hplain
    obtain ⟨u, hu⟩ := htidy
    rw [← h.title] at hu
    have hspaced : Text.join ' ' (Text.tokens t.title) = t.title := by
      rw [hu, Text.join_tokens_tidy]
    have hwords : ∀ word ∈ Text.tokens t.title, IsPlain word := by
      by_cases hne : t.title = []
      · rw [hne]
        exact fun word hword => absurd hword List.not_mem_nil
      · have htokens := (hu ▸ Text.isSpaced_tidy u : Text.IsSpaced t.title).tokens_eq hne
        rwa [htokens]
    rw [hfound, Filters.parse_of_isPlain hspaced hwords]
    exact Filters.meets_title

end Draft.Makes

namespace Service

open Work

variable {source : Source} {today : Date} {d : Desk}

/-! ## What comes of an input line -/

theorem ok_ne_noTitle (c : Contents) : Reply.ok c ≠ .noTitle :=
  fun h => absurd (show 200 = 422 from congrArg Reply.status h) (by decide)

theorem sent_noTitle : Reply.noTitle.sent = .noTitle :=
  Reply.sent_of_isSendable (Json.isSendable_record (by simp [Json.isSendable_text,
    Text.isEncodable_toText]))

theorem respond_parse {text : Option (List UInt8)} {input : Text}
    (htext : Body.read Body.inputForm text = some (.ok input)) :
    respond source today ⟨"POST".toText, "/parse".toText, text⟩ d =
      match Reading.ofText today input with
      | .ok r => ((Reply.ok (.reading r)).sent, d)
      | .error _ => (.failed, d) := by
  have hgoes : Destination.ofRequest "POST".toText "/parse".toText = .endpoint .parse [] := by
    decide
  rw [respond_endpoint hgoes, answer, withBody, htext]
  dsimp only [checked]
  rw [withReading]
  cases Reading.ofText today input with
  | ok r => exact settle_pure _ d
  | error fault =>
    dsimp only
    rw [settle_pure, Reply.sent_failed]

/-- The task that is to be created from a reading. -/
def newTask (form : Body.TextTaskForm) (draft : Draft) (id : Text) : NewTask where
  id := some id
  title := some draft.title
  description := some form.description
  dueDate := draft.due.map (·.toIso)
  priority := some (draft.priority.getD .medium).name
  projectId := form.projectId
  tags := form.tags.map some

theorem respond_createTaskFromText {body : Option (List UInt8)} {form : Body.TextTaskForm}
    (hbody : Body.read Body.textTaskForm body = some (.ok form)) :
    respond source today ⟨"POST".toText, "/tasks/from-text".toText, body⟩ d =
      match Reading.ofText today form.input with
      | .ok r =>
        if r.draft.title.isEmpty then (.noTitle, d)
        else settle (newId source >>= fun id =>
          Desk.createTask source (newTask form r.draft id) >>= fun task =>
            pure (.ok (.task task))) d
      | .error _ => (.failed, d) := by
  have hgoes : Destination.ofRequest "POST".toText "/tasks/from-text".toText =
      .endpoint .createTaskFromText [] := by decide
  rw [respond_endpoint hgoes, answer, withBody, hbody]
  dsimp only [checked]
  rw [withReading]
  cases Reading.ofText today form.input with
  | error fault =>
    dsimp only
    rw [settle_pure, Reply.sent_failed]
  | ok r =>
    dsimp only
    split
    · rw [settle_pure, sent_noTitle]
    · rfl

/-- What follows from the answer that a task was created. -/
theorem makes_of_created {form : Body.TextTaskForm} {draft : Draft} {reply : Reply} {d' : Desk}
    (h : (newId source >>= fun id => Desk.createTask source (newTask form draft id) >>= fun task =>
      (pure (.ok (.task task)) : Answering)).on d = (.ok reply, d')) :
    ∃ t, reply = .ok (.task t) ∧ draft.Makes t ∧ draft.title.isEncodable = true ∧
      d.store.task? (some t.id) = .ok none ∧ d'.store.task? (some t.id) = .ok (some t) ∧
      ∀ tasks, d'.store.allTasks = .ok tasks → t ∈ tasks := by
  obtain ⟨id, begun, hid, h⟩ := bind_on_ok h
  cases hid
  obtain ⟨t, written, hcreate, h⟩ := bind_on_ok h
  cases h
  obtain ⟨l, hl, hnew, title, htitle, priority, hpriority, time, htexts, hrows, hrow, htask⟩ :=
    Desk.createTask_on_ok rfl hcreate
  cases htitle
  cases hpriority
  have hshows := Store.shows_of_taskOfRow hrow
  have hmakes : draft.Makes t :=
    { title := hshows.title.symm
      dueDate := hshows.dueDate.symm
      priority := by
        have hname : (draft.priority.getD .medium).name = t.priority.name := hshows.priority
        have hknown := congrArg Priority.ofName? hname
        rw [Priority.ofName?_name, Priority.ofName?_name] at hknown
        exact (Option.some.inj hknown).symm
      isOpen := hshows.completed.symm }
  have hid : some (source.id d.idsUsed) = some t.id := hshows.id
  have hencodable : IsEncodable (some t.id) := hid ▸ TaskRow.isEncodable_id htexts
  rw [hid] at hnew htask
  refine ⟨t, rfl, hmakes, htexts _ (by simp [TaskRow.texts, NewTaskRow.toRow]),
    Store.task?_eq_none hl hencodable hnew, htask, fun tasks htasks => ?_⟩
  obtain ⟨k, hk, hks⟩ := hrows
  exact Store.mem_allTasks htasks hk (by rw [hks]; simp) hrow

/-- What a text is answered that could be read. -/
theorem answered_of_reading (source : Source) (d : Desk) {body : Option (List UInt8)}
    {form : Body.TextTaskForm} {r : Reading}
    (hbody : Body.read Body.textTaskForm body = some (.ok form))
    (hread : Reading.ofText today form.input = .ok r) :
    let answered := respond source today ⟨"POST".toText, "/tasks/from-text".toText, body⟩ d
    (answered.1 = .noTitle ↔ r.draft.title = []) ∧
    (answered.1.status = 200 →
      ∃ t, answered.1 = .ok (.task t) ∧ r.draft.Makes t ∧ r.draft.title.isEncodable = true ∧
        d.store.task? (some t.id) = .ok none ∧ answered.2.store.task? (some t.id) = .ok (some t) ∧
        ∀ tasks, answered.2.store.allTasks = .ok tasks → t ∈ tasks) := by
  dsimp only
  rw [respond_createTaskFromText hbody, hread]
  dsimp only
  by_cases hempty : r.draft.title = []
  · rw [if_pos (by rw [hempty]; rfl)]
    exact ⟨iff_of_true rfl hempty, fun h => absurd (show 422 = 200 from h) (by decide)⟩
  · rw [if_neg (by simpa using hempty)]
    constructor
    · refine iff_of_false (fun h => ?_) hempty
      have hon := on_ok_of_settle (fun hfailed => absurd (h.symm.trans hfailed) (by decide))
      obtain ⟨t, hreply, -⟩ := makes_of_created hon
      exact ok_ne_noTitle _ (hreply.symm.trans h)
    · intro hstatus
      refine makes_of_created (on_ok_of_settle fun h => ?_)
      rw [h] at hstatus
      exact absurd hstatus (by decide)

/-- **Tasks entered as a text.** After any requests to a fresh service, a text is refused for
    want of a title just where its draft has none. Where a task is created it is a new and open
    one with the title, the due date and the priority of the draft, and searches find it by
    these. -/
theorem entered_found (source : Source) (requests : List (Date × Request)) (today : Date)
    {body text : Option (List UInt8)} {form : Body.TextTaskForm}
    (hbody : Body.read Body.textTaskForm body = some (.ok form))
    (htext : Body.read Body.inputForm text = some (.ok form.input)) :
    let d := Desk.served source requests
    let parsed := (respond source today ⟨"POST".toText, "/parse".toText, text⟩ d).1
    let answered := respond source today ⟨"POST".toText, "/tasks/from-text".toText, body⟩ d
    (answered.1 = .noTitle ∨ answered.1.status = 200 → ∃ r, parsed = .ok (.reading r)) ∧
    ∀ r, parsed = .ok (.reading r) →
      (answered.1 = .noTitle ↔ r.draft.title = []) ∧
      (answered.1.status = 200 →
        ∃ t, answered.1 = .ok (.task t) ∧ r.draft.Makes t ∧
          d.store.task? (some t.id) = .ok none ∧
          answered.2.store.task? (some t.id) = .ok (some t) ∧
          ∀ day text query, Body.read Body.queryForm text = some (.ok query) →
            ∃ found, respond source day ⟨"POST".toText, "/search".toText, text⟩ answered.2 =
                (.ok (.tasks found), answered.2) ∧
              r.draft.IsFoundBy day t query found) := by
  intro d parsed answered
  have hparsed : parsed = _ := congrArg Prod.fst (respond_parse htext)
  have hafter : answered.2.store.IsHealthy :=
    isHealthy_respond _ (Desk.isHealthy_served source requests)
  cases hread : Reading.ofText today form.input with
  | error fault =>
    have hfailed : answered = (.failed, d) := by
      show respond _ _ _ _ = _
      rw [respond_createTaskFromText hbody, hread]
    have hnone : parsed = .failed := by rw [hparsed, hread]
    rw [hfailed, hnone]
    refine ⟨fun h => ?_, fun r h => absurd h.symm (ok_ne_failed _)⟩
    rcases h with h | h
    · exact absurd (show Reply.failed = .noTitle from h) (by decide)
    · exact absurd (show 500 = 200 from h) (by decide)
  | ok r =>
    rw [hread] at hparsed
    obtain ⟨hnone, hmade⟩ := answered_of_reading source d hbody hread
    have hsent (htitle : r.draft.title.isEncodable = true) : parsed = .ok (.reading r) :=
      hparsed.trans (Reply.sent_of_isSendable (Reading.isSendable_of_ofText hread htitle))
    constructor
    · rintro (h | h)
      · refine ⟨r, hsent ?_⟩
        rw [hnone.1 h]
        rfl
      · obtain ⟨t, -, -, htitle, -⟩ := hmade h
        exact ⟨r, hsent htitle⟩
    · intro r' hr'
      have hsame : r' = r := by
        rw [hr'] at hparsed
        dsimp only at hparsed
        unfold Reply.sent at hparsed
        split at hparsed
        · exact Contents.reading.inj (congrArg Reply.contents hparsed)
        · exact absurd hparsed (ok_ne_failed _)
      subst hsame
      refine ⟨hnone, fun hstatus => ?_⟩
      obtain ⟨t, hreply, hmakes, -, hbefore, htask, hlisted⟩ := hmade hstatus
      obtain ⟨tasks, htasks, -⟩ := hafter.presentable.allTasks
      obtain ⟨projects, hprojects, -⟩ := hafter.presentable.allProjects
      refine ⟨t, hreply, hmakes, hbefore, htask, fun day text query hquery => ?_⟩
      refine ⟨_, respond_search hafter.presentable htasks hprojects hquery, ?_⟩
      exact hmakes.isFoundBy (Reading.parts_of_ofText hread).1 day projects (hlisted tasks htasks)
        query

/-- A request that changes something was answered with success. -/
theorem respond_careful (source : Source) (today : Date) (request : Request) {e : Endpoint}
    {segment : Text}
    (hgoes : Destination.ofRequest request.method request.path = .endpoint e segment)
    (hd : d.store.IsHealthy) :
    (respond source today request d).1.status = 200 ∨
      (respond source today request d).2.store = d.store := by
  rw [respond_endpoint hgoes]
  exact (careful_answer _ _ _).settle hd

instance : DecidableEq Body.TextTaskForm := fun a b =>
  decidable_of_iff (a.input = b.input ∧ a.description = b.description ∧
    a.projectId = b.projectId ∧ a.tags = b.tags) (by cases a; cases b; simp)

theorem entered_found_rent :
    let source : Source := ⟨Text.digits 4, Text.digits 4⟩
    let today : Date := { year := 2025, month := 1, day := 15 }
    let body (json : String) := some (json.toList.map fun c => c.toNat.toUInt8)
    let line := body "\x7b\"input\":\"pay rent tomorrow\"\x7d"
    let form : Body.TextTaskForm := ⟨"pay rent tomorrow".toText, [], none, []⟩
    let text := body "\x7b\"query\":\"pay rent\"\x7d"
    Body.read Body.textTaskForm line = some (.ok form) ∧
      Body.read Body.inputForm line = some (.ok form.input) ∧
      ∃ t after found,
        respond source today ⟨"POST".toText, "/tasks/from-text".toText, line⟩
          (Desk.served source []) = (.ok (.task t), after) ∧
        t.title = "pay rent".toText ∧ t.dueDate = some "2025-01-16".toText ∧
        respond source today ⟨"POST".toText, "/search".toText, text⟩ after =
          (.ok (.tasks found), after) ∧ t ∈ found := by
  intro source today body line form text
  let reading : Reading :=
    { draft := { title := "pay rent".toText, due := some { year := 2025, month := 1, day := 16 } }
      notes := [.due { year := 2025, month := 1, day := 16 }] }
  have hline : Body.read Body.textTaskForm line = some (.ok form) := by decide +kernel
  have hinput : Body.read Body.inputForm line = some (.ok form.input) := by decide +kernel
  have hread : Reading.ofText today form.input = .ok reading := by decide +kernel
  have hparsed : (respond source today ⟨"POST".toText, "/parse".toText, line⟩
      (Desk.served source [])).1 = .ok (.reading reading) := by
    rw [respond_parse hinput, hread]
    exact Reply.sent_of_isSendable (Reading.isSendable_of_ofText hread
      (Text.isEncodable_toText "pay rent"))
  have hgoes : Destination.ofRequest "POST".toText "/tasks/from-text".toText =
      .endpoint .createTaskFromText [] := by decide
  have hchanged : (respond source today ⟨"POST".toText, "/tasks/from-text".toText, line⟩
      (Desk.served source [])).2.store ≠ (Desk.served source []).store := by decide +kernel
  have hcareful := respond_careful source today ⟨"POST".toText, "/tasks/from-text".toText, line⟩
    hgoes (Desk.isHealthy_served source [])
  have hfound := ((entered_found source [] today hline hinput).2 reading hparsed).2
  generalize respond source today ⟨"POST".toText, "/tasks/from-text".toText, line⟩
    (Desk.served source []) = answered at hchanged hcareful hfound
  obtain ⟨t, hreply, hmakes, -, -, hsearch⟩ := hfound (hcareful.resolve_right hchanged)
  obtain ⟨found, hfound, hquery⟩ := hsearch today text "pay rent".toText (by decide +kernel)
  have hdue : t.dueDate = some "2025-01-16".toText := hmakes.dueDate.trans (by decide +kernel)
  refine ⟨hline, hinput, t, answered.2, found, ?_, hmakes.title, hdue, hfound,
    hquery.title hmakes.title.symm ?_⟩
  · exact Prod.ext hreply rfl
  · rw [hmakes.title]
    show ∀ word ∈ Text.split ' ' "pay rent".toText, ∀ opening ∈ openings, ¬ opening <+: word
    decide +kernel

end Service
end TaskDesk
