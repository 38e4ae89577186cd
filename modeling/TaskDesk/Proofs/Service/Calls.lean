import TaskDesk.Proofs.Store.View
import TaskDesk.Service.Basic

/-!
# What endpoints are made of

An endpoint looks at the store, and makes at most one call that changes it. So a property
of work that holds of looks, of these calls and of work put together from such parts holds
of every endpoint. The calls are given what the forms of the endpoints let through: a new
task has a new id and a known priority, and a change to a task is a plain one.

Results:
* `Body.isPlain_taskChange`: changes that are accepted are plain.
* `Service.answer_of_looks`: what holds of looks holds of every endpoint that only reads.
* `Service.answer_of_calls`: what holds of looks and calls holds of every endpoint.
-/

namespace TaskDesk

/-! ## Checked forms -/

namespace Checked

variable {α β : Type}

theorem seq_eq_ok {f : Checked (α → β)} {a : Checked α} {b : β} :
    f <*> a = ok b ↔ ∃ g x, f = ok g ∧ a = ok x ∧ g x = b := by
  cases f <;> cases a <;> simp [Seq.seq, seq]

theorem map_eq_ok {f : α → β} {a : Checked α} {b : β} :
    f <$> a = ok b ↔ ∃ x, a = ok x ∧ f x = b := by
  cases a <;> simp [Functor.map, seq]

theorem under_eq_ok {step : PathStep} {a : Checked α} {x : α} : a.under step = ok x ↔ a = ok x := by
  cases a <;> simp [under]

end Checked

namespace Check

variable {α : Type}

theorem nullable_eq_some {check : Check α} {j : Json} {a : α}
    (h : nullable check j = .ok (some a)) : check j = .ok a := by
  unfold nullable at h
  split at h
  · cases h
  · obtain ⟨b, hb, ⟨⟩⟩ := Checked.map_eq_ok.1 h
    exact hb

end Check

namespace Body

variable {α : Type} {m : List (Text × Json)}

/-- A column that is set was given a value that passes its check. -/
theorem edit_eq_set {name : String} {check : Check α} {a : α}
    (h : edit m name check = .ok (.set a)) : ∃ j, check j = .ok a := by
  obtain ⟨given, hgiven, hset⟩ := Checked.map_eq_ok.1 h
  unfold Field.given at hgiven
  split at hgiven
  · rename_i value _
    obtain ⟨inner, hinner, rfl⟩ := Checked.map_eq_ok.1 hgiven
    have hcheck := Checked.under_eq_ok.1 hinner
    split at hset
    · cases hset
    · cases hset
    · rename_i b hb
      cases hb
      cases hset
      exact ⟨value, Check.nullable_eq_some hcheck⟩
  · cases hgiven
    cases hset

/-- Texts that are given, where there are any. -/
theorem map_reduceOption_map_some (texts : Option (List α)) :
    (texts.map (List.map some)).map List.reduceOption = texts := by
  cases texts with
  | none => rfl
  | some texts => rw [Option.map_some, Option.map_some, reduceOption_map_some]

/-- What the form of a change reads from the members, field by field. No member names an id or a
    time. -/
structure Reads (m : List (Text × Json)) (c : TaskChange) : Prop where
  id : c.id = .keep
  title : edit m "title" Check.text = .ok c.title
  description : edit m "description" Check.text = .ok c.description
  dueDate : edit m "due_date" Check.text = .ok c.dueDate
  priority :
    edit m "priority" (fun j => Priority.name <$> Check.option Priority.ofName? j) = .ok c.priority
  completed :
    edit m "completed" (fun j => (fun b => if b then (1 : Int) else 0) <$> Check.bool j) =
      .ok c.completed
  projectId : edit m "project_id" Check.int = .ok c.projectId
  createdAt : c.createdAt = .keep
  updatedAt : c.updatedAt = .keep
  tags : ∃ texts, Field.withDefault "tags" none (Check.nullable (Check.list Check.text)) m =
    .ok texts ∧ c.tags = texts.map (List.map some)
  subtasks : ∃ texts, Field.withDefault "subtasks" none (Check.nullable (Check.list Check.text)) m =
    .ok texts ∧ c.subtasks = texts.map (List.map some)

theorem reads_of_taskChange {c : TaskChange} (h : taskChange m = .ok c) : Reads m c := by
  simp only [taskChange, Checked.seq_eq_ok, Checked.map_eq_ok (a := edit m "title" _)] at h
  obtain ⟨_, subtasks, ⟨_, tags, ⟨_, _, ⟨_, _, ⟨_, _, ⟨_, _, ⟨_, _, ⟨_, htitle, rfl⟩, hdescription,
    rfl⟩, hdue, rfl⟩, hpriority, rfl⟩, hcompleted, rfl⟩, hproject, rfl⟩, htags, rfl⟩, hsubtasks,
    rfl⟩ := h
  exact ⟨rfl, htitle, hdescription, hdue, hpriority, hcompleted, hproject, rfl, rfl,
    ⟨tags, htags, rfl⟩, ⟨subtasks, hsubtasks, rfl⟩⟩

/-- No member names an id or a time, a priority is one of those that have a name, a mark is a
    truth value, and lists hold texts. -/
theorem isPlain_taskChange {change : TaskChange} (h : taskChange m = .ok change) :
    change.IsPlain := by
  have h := reads_of_taskChange h
  have hknown : ∀ p, change.priority = .set p → (Priority.ofName? p).isSome := by
    intro p hp
    obtain ⟨j, hj⟩ := edit_eq_set (hp ▸ h.priority)
    obtain ⟨known, -, rfl⟩ := Checked.map_eq_ok.1 hj
    rw [Priority.ofName?_name, Option.isSome_some]
  have hmark : ∀ n ∈ change.completed.value?, InRange (some n) := by
    intro n hn
    cases hcompleted : change.completed with
    | set mark =>
      rw [hcompleted] at hn
      cases hn
      obtain ⟨j, hj⟩ := edit_eq_set (hcompleted ▸ h.completed)
      obtain ⟨b, -, rfl⟩ := Checked.map_eq_ok.1 hj
      rintro _ ⟨⟩
      cases b <;> decide
    | _ =>
      rw [hcompleted] at hn
      cases hn
  obtain ⟨tags, -, htags⟩ := h.tags
  obtain ⟨subtasks, -, hsubtasks⟩ := h.subtasks
  exact {
    id := h.id
    priority := hknown
    createdAt := h.createdAt
    updatedAt := h.updatedAt
    completed := hmark
    tags := by rw [TaskChange.newTags, htags, map_reduceOption_map_some]
    subtasks := by rw [TaskChange.newSubtasks, hsubtasks, map_reduceOption_map_some] }

/-- The form that a body gives, if it is accepted. -/
def form? (check : List (Text × Json) → Checked α) (body : Option (List UInt8)) : Option α :=
  match read check body with
  | some (.ok form) => some form
  | _ => none

variable {check : List (Text × Json) → Checked α} {body : Option (List UInt8)} {form : α}

theorem form?_eq_some :
    form? check body = some form ↔ read check body = some (.ok form) := by
  unfold form?
  split
  · rename_i accepted hread
    rw [hread, Option.some_inj, Option.some_inj, Checked.ok.injEq]
  · rename_i hother
    exact iff_of_false (fun h => absurd h.symm (Option.some_ne_none form)) fun h => hother form h

/-- The members of a body, if it is an object. -/
def members? (body : Option (List UInt8)) : Option (List (Text × Json)) := form? .ok body

/-- A form is read from the members. -/
theorem exists_members (h : form? check body = some form) :
    ∃ m, members? body = some m ∧ check m = .ok form := by
  have hread := form?_eq_some.1 h
  simp only [members?, form?_eq_some]
  unfold read at hread ⊢
  cases hbytes : body.getD [] with
  | nil =>
    rw [hbytes] at hread
    cases hread
  | cons byte more =>
    rw [hbytes] at hread
    obtain ⟨outcome, houtcome, hunder⟩ := Option.map_eq_some_iff.1 hread
    rw [Checked.under_eq_ok.1 hunder] at houtcome
    obtain ⟨t, ht, hparse⟩ := Option.bind_eq_some_iff.1 houtcome
    cases hj : Json.parse t with
    | error e =>
      rw [hj] at hparse
      cases e <;> cases hparse
    | ok j =>
      rw [hj] at hparse
      cases j with
      | object m =>
        refine ⟨m, ?_, Option.some.inj hparse⟩
        dsimp only
        rw [readBytes, ht, Option.bind_eq_bind, Option.bind_some, hj]
        rfl
      | _ => cases hparse

theorem exists_form_iff {P : α → Prop} (h : form? check body = some form) :
    (∃ form' ∈ form? check body, P form') ↔ P form := by
  simp only [h, Option.mem_def, Option.some.injEq, exists_eq_left']

theorem isPlain_of_form? {change : TaskChange} (h : form? taskChange body = some change) :
    change.IsPlain := by
  obtain ⟨m, -, hm⟩ := exists_members h
  exact isPlain_taskChange hm

end Body

/-! ## Endpoints -/

/-- The endpoints that only read: all that are asked with `GET`, and those that work on
    a text that is sent along. -/
def Endpoint.onlyReads (e : Endpoint) : Bool :=
  e.method == .get ||
    [parse, filters, search, suggest, applySuggestion, applyOption].contains e

namespace Service

open Work Desk

variable {today : Date} {α : Type}

/-! ### Bodies and readings -/

section Cases

variable {check : List (Text × Json) → Checked α} {body : Option (List UInt8)} {form : α}
  {C : Answering → Prop} (refusal : ∀ r, C (pure r))

include refusal

/-- What holds of refusals, and of the replies to all forms that are accepted. -/
theorem checked_cases {form : Checked α} {reply : α → Answering}
    (h : ∀ a, form = .ok a → C (reply a)) : C (checked form reply) := by
  cases form with
  | ok a => exact h a rfl
  | refused issues => exact refusal _

theorem withBody_cases {reply : α → Answering} (h : ∀ m a, check m = .ok a → C (reply a)) :
    C (withBody check body reply) := by
  unfold withBody
  split
  · rename_i form hform
    refine checked_cases refusal fun a ha => ?_
    obtain ⟨m, -, hm⟩ := Body.exists_members (Body.form?_eq_some.2 (hform.trans (congrArg some ha)))
    exact h m a hm
  · exact refusal _

theorem withReading_cases {input : Text} {reply : Reading → Answering} (h : ∀ r, C (reply r)) :
    C (withReading today input reply) := by
  unfold withReading
  split
  · exact h _
  · exact refusal _

omit refusal

/-- A body that is accepted is answered. -/
theorem withBody_of_form? {reply : α → Answering} (h : Body.form? check body = some form) :
    withBody check body reply = reply form := by
  rw [withBody, Body.form?_eq_some.1 h]
  rfl

/-- A body that is not accepted is answered with an error. -/
theorem withBody_of_rejected (h : Body.form? check body = none) :
    ∃ r : Reply, r.status ≠ 200 ∧ ∀ reply : α → Answering, withBody check body reply = pure r := by
  unfold withBody
  split
  · rename_i form hform
    cases form with
    | ok a =>
      rw [Body.form?_eq_some.2 hform] at h
      cases h
    | refused issues => exact ⟨.refused issues, (by decide : 422 ≠ 200), fun _ => rfl⟩
  · exact ⟨.unreadable, by decide, fun _ => rfl⟩

end Cases

/-! ### Looks and calls -/

/-- A property of work holds of looks at the store, and of work that is put together from
    parts of which it holds. -/
structure IsClosed (C : ∀ {α : Type}, Work α → Prop) : Prop where
  pure : ∀ {α : Type} (a : α), C (Pure.pure a)
  query : ∀ {α : Type} (read : Store → Except Fault α), C (Work.query read)
  bind : ∀ {α β : Type} {a : Work α} {f : α → Work β}, C a → (∀ x, C (f x)) → C (a >>= f)

/-- A property of work holds of the calls by which endpoints change the store. -/
structure HoldsOfCalls (source : Source) (C : ∀ {α : Type}, Work α → Prop) : Prop where
  createTask : ∀ {new : Text → NewTask}, (∀ id, (new id).id = some id) →
    (∀ id, ∀ p ∈ (new id).priority, (Priority.ofName? p).isSome) →
    C (newId source >>= fun id => Desk.createTask source (new id))
  updateTask : ∀ (id : Text) {change : TaskChange}, change.IsPlain →
    C (Desk.updateTask source (some id) change)
  deleteTask : ∀ id : Text, C (Desk.deleteTask (some id))
  toggleSubtask : ∀ (id : Text) (mark : Int), C (Desk.toggleSubtask (some id) mark)
  createProject : ∀ (name color : Text) (description : Option Text) (folderId : Option Int),
    C (Desk.createProject (some name) (some color) description folderId)
  deleteProject : ∀ id : Int, C (Desk.deleteProject (some id))
  createFolder : ∀ (name color : Text) (description : Option Text),
    C (Desk.createFolder (some name) (some color) description)
  deleteFolder : ∀ id : Int, C (Desk.deleteFolder (some id))
  setInputMode : ∀ mode : Mode, C (Desk.setInputMode (some mode.name))

variable {source : Source} {C : ∀ {α : Type}, Work α → Prop}

theorem IsClosed.map {α β : Type} (hC : IsClosed C) {a : Work α} (ha : C a) (f : α → β) :
    C (a >>= fun x => Pure.pure (f x)) :=
  hC.bind ha fun _ => hC.pure _

theorem IsClosed.inputMode (hC : IsClosed C) : C inputMode := hC.map (hC.query _) _

theorem IsClosed.modeOr (hC : IsClosed C) (mode : Option Mode) : C (modeOr mode) := by
  cases mode with
  | some m => exact hC.pure m
  | none => exact hC.inputMode

theorem IsClosed.projectNames (hC : IsClosed C) : C projectNames := hC.map (hC.query _) _

/-- **What holds of looks holds of every endpoint that only reads.** -/
theorem answer_of_looks (hC : IsClosed C) (segment : Text) (body : Option (List UInt8))
    {e : Endpoint} (he : e.onlyReads = true) : C (answer source today segment body e) := by
  cases e with
  | allTasks | allTags | allProjects | allFolders => exact hC.map (hC.query _) _
  | getMode => exact hC.map hC.inputMode _
  | parse =>
    exact withBody_cases hC.pure fun _ _ _ => withReading_cases hC.pure fun _ => hC.pure _
  | filters => exact withBody_cases hC.pure fun _ _ _ => hC.pure _
  | search =>
    refine withBody_cases hC.pure fun _ _ _ => hC.bind (hC.query _) fun tasks => ?_
    exact hC.map (hC.query _) _
  | suggest =>
    refine withBody_cases hC.pure fun _ form _ => hC.bind (hC.modeOr _) fun mode => ?_
    exact hC.bind hC.projectNames fun _ => hC.map (hC.query _) _
  | applySuggestion =>
    refine withBody_cases hC.pure fun _ form _ => hC.bind (hC.modeOr _) fun mode => ?_
    dsimp only
    split
    · exact hC.map hC.projectNames _
    · exact hC.pure _
  | listOptions =>
    rw [answer]
    split
    · exact hC.map hC.projectNames _
    · exact hC.pure _
  | applyOption => exact withBody_cases hC.pure fun _ _ _ => hC.pure _
  | _ => exact absurd he (by decide)

/-- A new task, and the reply to it. -/
theorem HoldsOfCalls.reply_createTask (hC : IsClosed C) (hcalls : HoldsOfCalls source C)
    {new : Text → NewTask} (hid : ∀ id, (new id).id = some id)
    (hpriority : ∀ id, ∀ p ∈ (new id).priority, (Priority.ofName? p).isSome) :
    C (newId source >>= fun id => Desk.createTask source (new id) >>= fun task =>
      Pure.pure (Reply.ok (.task task))) := by
  rw [← bind_assoc]
  exact hC.map (hcalls.createTask hid hpriority) _

/-- **What holds of looks and calls holds of every endpoint.** -/
theorem answer_of_calls (hC : IsClosed C) (hcalls : HoldsOfCalls source C) (segment : Text)
    (body : Option (List UInt8)) (e : Endpoint) : C (answer source today segment body e) := by
  by_cases he : e.onlyReads = true
  · exact answer_of_looks hC segment body he
  have hknown {p : Priority} : ∀ name ∈ some p.name, (Priority.ofName? name).isSome := by
    rintro _ ⟨⟩
    rw [Priority.ofName?_name, Option.isSome_some]
  cases e with
  | createTask =>
    exact withBody_cases hC.pure fun _ form _ =>
      hcalls.reply_createTask hC (fun _ => rfl) fun _ => hknown
  | createTaskFromText =>
    refine withBody_cases hC.pure fun _ form _ => withReading_cases hC.pure fun reading => ?_
    split
    · exact hC.pure _
    · exact hcalls.reply_createTask hC (fun _ => rfl) fun _ => hknown
  | updateTask =>
    refine withBody_cases hC.pure fun _ change hchange => ?_
    refine hC.bind (hcalls.updateTask _ (Body.isPlain_taskChange hchange)) fun found => ?_
    cases found <;> exact hC.pure _
  | deleteTask => exact hC.map (hcalls.deleteTask _) _
  | toggleSubtask =>
    refine withBody_cases hC.pure fun _ completed _ => ?_
    refine hC.bind (hcalls.toggleSubtask _ _) fun found => ?_
    cases found <;> exact hC.pure _
  | createProject =>
    exact withBody_cases hC.pure fun _ form _ => hC.map (hcalls.createProject _ _ _ _) _
  | deleteProject =>
    exact checked_cases hC.pure fun id _ => hC.map (hcalls.deleteProject _) _
  | createFolder =>
    exact withBody_cases hC.pure fun _ form _ => hC.map (hcalls.createFolder _ _ _) _
  | deleteFolder =>
    exact checked_cases hC.pure fun id _ => hC.map (hcalls.deleteFolder _) _
  | setMode => exact withBody_cases hC.pure fun _ mode _ => hC.map (hcalls.setInputMode mode) _
  | _ => exact absurd (by decide) he

end Service
end TaskDesk
