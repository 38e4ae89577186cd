import TaskDesk.Proofs.Desk.Sparing
import TaskDesk.Proofs.Json.Sendable
import TaskDesk.Proofs.Service.Calls

/-!
# Careful endpoints

An endpoint is careful if it keeps the store presentable, and leaves a healthy store as
it was unless it answers with the status 200. Endpoints that only read keep any property
of the store, so they are careful. The other endpoints check what they are sent: a task
gets an id and a known priority, and a change to a task leaves its id alone.

Results:
* `Service.keeps_answer`: endpoints that only read leave the store alone.
* `Service.careful_answer`: every endpoint is careful.
-/

namespace TaskDesk

/-! ## Replies -/

theorem Contents.isSendable_deleted : deleted.isSendable = true :=
  Json.isSendable_record (by simp [Json.isSendable_text, Text.isEncodable_toText])

theorem Contents.isSendable_mode (m : Mode) : (mode m).isSendable = true := by
  have hname : m.name.isEncodable = true := by cases m <;> decide
  exact Json.isSendable_record (by simp [Json.isSendable_text, hname])

theorem Contents.isSendable_detail (t : String) : (detail t.toText).isSendable = true :=
  Json.isSendable_record (by simp [Json.isSendable_text, Text.isEncodable_toText])

theorem Reply.sent_status_ne {r : Reply} (h : r.status ≠ 200) : r.sent.status ≠ 200 := by
  unfold sent
  split
  · exact h
  · decide

/-- A reply that was worked out and can be sent. -/
def Reply.IsDone (r : Reply) : Prop := r.status = 200 ∧ r.contents.isSendable = true

theorem Reply.IsDone.ok {c : Contents} (h : c.isSendable = true) : (Reply.ok c).IsDone := ⟨rfl, h⟩

/-! ## Endpoints -/

namespace Service

open Work Desk

variable {source : Source} {today : Date} {α : Type}

/-! ### Reading -/

theorem isClosed_keeps {P : Store → Prop} : IsClosed (Keeps P) := ⟨.pure, .query, .bind⟩

/-- **Endpoints that only read** keep every property of the store. -/
theorem keeps_answer {P : Store → Prop} {e : Endpoint} (he : e.onlyReads = true) (segment : Text)
    (body : Option (List UInt8)) : Keeps P (answer source today segment body e) :=
  answer_of_looks isClosed_keeps segment body he

/-! ### Writing -/

/-- The store stays presentable, and a healthy store is as it was unless the reply is
    that the request is done. -/
structure Careful (a : Answering) : Prop where
  keeps : Keeps Store.IsPresentable a
  spares : Spares Store.IsHealthy Reply.IsDone a

namespace Careful

theorem of_keeps {a : Answering} (ha : ∀ {P}, Keeps P a) : Careful a := ⟨ha, .of_keeps ha⟩

theorem pure (r : Reply) : Careful (pure r) := of_keeps (.pure r)

/-- A new id comes first. -/
theorem newId {f : Text → Answering} (hf : ∀ id, Careful (f id)) :
    Careful (Work.newId source >>= f) where
  keeps := .bind (.newId source) fun id => (hf id).keeps
  spares := .bind (.newId source) fun id => (hf id).spares

/-- Work that keeps the store presentable and is sparing, and a reply for each outcome. -/
theorem bind {a : Work α} {g : α → Answering} {good : α → Prop}
    (hkeeps : Keeps Store.IsPresentable a) (hspares : Spares Store.IsHealthy good a)
    (hg : ∀ x, ∃ r, g x = Pure.pure r ∧ (good x → r.IsDone)) : Careful (a >>= g) := by
  obtain ⟨f, hf⟩ := Classical.skolem.1 hg
  obtain rfl : g = fun x => Pure.pure (f x) := funext fun x => (hf x).1
  exact ⟨.bind hkeeps fun _ => .pure _, .map hspares fun x => (hf x).2⟩

theorem map {a : Work α} {f : α → Reply} {good : α → Prop} (hkeeps : Keeps Store.IsPresentable a)
    (hspares : Spares Store.IsHealthy good a) (hf : ∀ x, good x → (f x).IsDone) :
    Careful (a >>= fun x => Pure.pure (f x)) :=
  bind hkeeps hspares fun x => ⟨f x, rfl, hf x⟩

end Careful

theorem isDone_deletedOr {detail : String} {found : Bool} (h : found = true) :
    (deletedOr detail found).IsDone := by
  subst h
  exact .ok Contents.isSendable_deleted

theorem careful_createTask {new : NewTask} (hid : new.id.isSome)
    (hpriority : ∀ p ∈ new.priority, (Priority.ofName? p).isSome) :
    Careful (Desk.createTask source new >>= fun task => pure (.ok (.task task))) :=
  .map (keeps_createTask hid hpriority) ((spares_createTask hid hpriority).mono (·.presentable))
    fun _ htexts => .ok (Task.isSendable_toJson htexts)

/-- **Endpoints are careful.** They keep the store presentable, and leave it as it was
    unless the request is done. -/
theorem careful_answer (segment : Text) (body : Option (List UInt8)) (e : Endpoint) :
    Careful (answer source today segment body e) := by
  by_cases he : e.onlyReads = true
  · exact .of_keeps (keeps_answer he segment body)
  cases e with
  | createTask =>
    refine withBody_cases .pure fun _ form _ => .newId fun id => careful_createTask rfl ?_
    rintro p ⟨⟩
    rw [Priority.ofName?_name, Option.isSome_some]
  | createTaskFromText =>
    refine withBody_cases .pure fun _ form _ => withReading_cases .pure fun reading => ?_
    split
    · exact .pure _
    · refine .newId fun id => careful_createTask rfl ?_
      rintro p ⟨⟩
      rw [Priority.ofName?_name, Option.isSome_some]
  | updateTask =>
    refine withBody_cases .pure fun m change hm => ?_
    have hchange := (Body.isPlain_taskChange hm).toIsPlain.toIsPresentable
    refine .bind (keeps_updateTask _ hchange)
      ((spares_updateTask _ hchange).mono (·.presentable)) fun found => ?_
    cases found with
    | none => exact ⟨_, rfl, by rintro ⟨task, ⟨⟩, -⟩⟩
    | some task =>
      refine ⟨_, rfl, ?_⟩
      rintro ⟨_, ⟨⟩, htexts⟩
      exact .ok (Task.isSendable_toJson htexts)
  | deleteTask =>
    exact .map (keeps_deleteTask _) ((spares_deleteTask _).mono (·.sound)) fun _ =>
      isDone_deletedOr
  | toggleSubtask =>
    refine withBody_cases .pure fun _ completed _ => ?_
    refine .bind (keeps_toggleSubtask _ _)
      ((spares_toggleSubtask _ _).mono (·.presentable)) fun found => ?_
    cases found with
    | none => exact ⟨_, rfl, by rintro ⟨subtask, ⟨⟩, -⟩⟩
    | some subtask =>
      refine ⟨_, rfl, ?_⟩
      rintro ⟨_, ⟨⟩, htexts⟩
      exact .ok (Subtask.isSendable_toJson htexts)
  | createProject =>
    refine withBody_cases .pure fun _ form _ => ?_
    exact .map (keeps_createProject _ _ _ _) ((spares_createProject _ _ _ _).mono (·.presentable))
      fun _ htexts => .ok (Project.isSendable_toJson htexts)
  | deleteProject =>
    refine checked_cases .pure fun id _ => ?_
    exact .map (keeps_deleteProject _) ((spares_deleteProject _).mono (·.sound)) fun _ =>
      isDone_deletedOr
  | createFolder =>
    refine withBody_cases .pure fun _ form _ => ?_
    exact .map (keeps_createFolder _ _ _) ((spares_createFolder _ _ _).mono (·.presentable))
      fun _ htexts => .ok (Folder.isSendable_toJson htexts)
  | deleteFolder =>
    refine checked_cases .pure fun id _ => ?_
    exact .map (keeps_deleteFolder _) ((spares_deleteFolder _).mono (·.sound)) fun _ =>
      isDone_deletedOr
  | setMode =>
    refine withBody_cases .pure fun _ mode _ => ?_
    exact .map (keeps_setInputMode _) (spares_setInputMode _) fun _ _ =>
      .ok (Contents.isSendable_mode mode)
  | _ => exact absurd (by decide) he

end Service
end TaskDesk
