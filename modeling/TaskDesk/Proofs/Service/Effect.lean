import TaskDesk.Proofs.Service.Requests

/-!
# What a request does to the desk

A request leaves the desk as it is, or it makes one call, and which one is told by its
endpoint. Looks at the store before the call, and the reply after it, change nothing. So
what is to be shown of all requests can be shown of each call by itself.

Results:
* `Service.desk_answer_of_onlyReads`: endpoints that only read leave the desk alone.
* `Service.effect_respond`: the desk after a request.
-/

namespace TaskDesk
namespace Service

open Work Desk

variable {source : Source} {today : Date} {segment : Text} {d : Desk} {α : Type}

/-- The desk after the call of an endpoint, or the desk as it was. The segment is the one
    that stands in the path for an id. -/
inductive Effect (source : Source) (segment : Text) (d : Desk) : Endpoint → Desk → Prop
  | rest (e : Endpoint) : Effect source segment d e d
  | createTask (e : Endpoint) (new : NewTask) (tags texts : List Text)
      (hid : new.id = some (source.id d.idsUsed)) (htags : new.tags = tags.map some)
      (htexts : new.subtasks = texts.map some) :
    Effect source segment d e
      ((Desk.createTask source new).on { d with idsUsed := d.idsUsed + 1 }).2
  | updateTask (c : TaskChange) (hc : c.IsPlain) :
    Effect source segment d .updateTask ((Desk.updateTask source (some segment) c).on d).2
  | deleteTask : Effect source segment d .deleteTask ((Desk.deleteTask (some segment)).on d).2
  | toggleSubtask (mark : Int) :
    Effect source segment d .toggleSubtask ((Desk.toggleSubtask (some segment) mark).on d).2
  | createProject (name color description : Option Text) (folderId : Option Int) :
    Effect source segment d .createProject
      ((Desk.createProject name color description folderId).on d).2
  | deleteProject (id : Option Int) :
    Effect source segment d .deleteProject ((Desk.deleteProject id).on d).2
  | createFolder (name color description : Option Text) :
    Effect source segment d .createFolder ((Desk.createFolder name color description).on d).2
  | deleteFolder (id : Option Int) :
    Effect source segment d .deleteFolder ((Desk.deleteFolder id).on d).2
  | setMode (mode : Option Text) :
    Effect source segment d .setMode ((Desk.setInputMode mode).on d).2

/-- Work that leaves the desk as it is. -/
def Idle (a : Work α) : Prop := ∀ d, (a.on d).2 = d

theorem isClosed_idle : IsClosed Idle where
  pure _ _ := rfl
  query _ _ := rfl
  bind {_ _ a f} ha hf d := by
    have first := ha d
    rw [on_bind]
    split
    · rename_i x after hx
      rw [hx] at first
      exact (hf x after).trans first
    · rename_i fault after hx
      rw [hx] at first
      exact first

/-- Endpoints that only read leave the desk alone. -/
theorem desk_answer_of_onlyReads {e : Endpoint} (he : e.onlyReads = true)
    (body : Option (List UInt8)) : ((answer source today segment body e).on d).2 = d :=
  answer_of_looks isClosed_idle segment body he d

/-- What comes after the call leaves the desk as the call left it. -/
theorem desk_bind_of_idle {β : Type} (a : Work α) {f : α → Work β} (hf : ∀ x, Idle (f x)) :
    ((a >>= f).on d).2 = (a.on d).2 := by
  rw [on_bind]
  split
  · rename_i x after hx
    rw [hx]
    exact hf x after
  · rename_i hx
    rw [hx]

/-- The work does to the desk what the endpoint does. -/
def Effects (source : Source) (segment : Text) (d : Desk) (e : Endpoint) (a : Answering) : Prop :=
  Effect source segment d e (a.on d).2

namespace Effects

theorem pure (e : Endpoint) (r : Reply) : Effects source segment d e (Pure.pure r) := .rest e

/-- The call of the endpoint, and a reply to its outcome. -/
theorem call {e : Endpoint} {a : Work α} {f : α → Answering}
    (ha : Effect source segment d e (a.on d).2) (hf : ∀ x, Idle (f x)) :
    Effects source segment d e (a >>= f) := by
  rw [Effects, desk_bind_of_idle a hf]
  exact ha

theorem newTask {new : Text → NewTask} (tags texts : List Text) (hid : ∀ id, (new id).id = some id)
    (htags : ∀ id, (new id).tags = tags.map some)
    (htexts : ∀ id, (new id).subtasks = texts.map some) (e : Endpoint) :
    Effects source segment d e (newId source >>= fun id => Desk.createTask source (new id) >>=
      fun task => Pure.pure (Reply.ok (.task task))) := by
  rw [Effects, bind_on_of_ok (on_newId source d), map_desk]
  exact .createTask e _ tags texts (hid _) (htags _) (htexts _)

end Effects

/-- **The desk after an endpoint.** -/
theorem effect_answer (segment : Text) (body : Option (List UInt8)) (e : Endpoint) (d : Desk) :
    Effects source segment d e (answer source today segment body e) := by
  by_cases he : e.onlyReads = true
  · rw [Effects, desk_answer_of_onlyReads he]
    exact .rest e
  have hreply (r : Reply) : Idle (pure r : Answering) := isClosed_idle.pure r
  cases e with
  | createTask =>
    exact withBody_cases (.pure _) fun _ form _ =>
      .newTask form.tags form.subtasks (fun _ => rfl) (fun _ => rfl) (fun _ => rfl) _
  | createTaskFromText =>
    refine withBody_cases (.pure _) fun _ form _ => withReading_cases (.pure _) fun reading => ?_
    split
    · exact .pure _ _
    · exact .newTask form.tags [] (fun _ => rfl) (fun _ => rfl) (fun _ => rfl) _
  | updateTask =>
    refine withBody_cases (.pure _) fun _ c hc => ?_
    refine .call (.updateTask c (Body.isPlain_taskChange hc)) fun found => ?_
    cases found <;> exact hreply _
  | deleteTask => exact .call .deleteTask fun _ => hreply _
  | toggleSubtask =>
    refine withBody_cases (.pure _) fun _ completed _ => .call (.toggleSubtask _) fun found => ?_
    cases found <;> exact hreply _
  | createProject =>
    exact withBody_cases (.pure _) fun _ form _ =>
      .call (.createProject _ _ _ _) fun _ => hreply _
  | deleteProject =>
    exact checked_cases (.pure _) fun id _ => .call (.deleteProject _) fun _ => hreply _
  | createFolder =>
    exact withBody_cases (.pure _) fun _ form _ => .call (.createFolder _ _ _) fun _ => hreply _
  | deleteFolder =>
    exact checked_cases (.pure _) fun id _ => .call (.deleteFolder _) fun _ => hreply _
  | setMode => exact withBody_cases (.pure _) fun _ mode _ => .call (.setMode _) fun _ => hreply _
  | _ => exact absurd (by decide) he

/-- **The desk after a request.** It is the desk before it, or the one that the endpoint of
    the request leaves. -/
theorem effect_respond (source : Source) (today : Date) (request : Request) (d : Desk) :
    (respond source today request d).2 = d ∨
      ∃ e segment, Destination.ofRequest request.method request.path = .endpoint e segment ∧
        Effect source segment d e (respond source today request d).2 := by
  unfold respond
  split
  · rename_i e segment hgoes
    refine .inr ⟨e, segment, hgoes, ?_⟩
    rw [store_settle]
    exact effect_answer segment request.body e d
  · exact .inl rfl
  · exact .inl rfl
  · exact .inl rfl
  · exact .inl rfl

end Service
end TaskDesk
