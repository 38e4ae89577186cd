import TaskDesk.Desk.Command
import TaskDesk.Service.Basic
import TaskDesk.Store.Migration

/-!
# Histories

All that can happen at a desk: calls, requests, and moves of the store between
revisions. A history is a list of events, each at the desk that the one before
has left.

Results:
* `after_append`: a history can be split anywhere.
-/

namespace TaskDesk

/-- Something that happens at a desk. -/
inductive Event where
  | command (c : Command)
  | request (today : Date) (r : Request)
  | upgrade (target : Target)
  | downgrade (target : Target)
deriving DecidableEq, Repr

/-- What comes of an event. -/
inductive Outcome where
  | answer (a : Answer)
  | fault (f : Fault)
  | reply (r : Reply)
  /-- The store is at this revision now. -/
  | moved (version : Option Revision)
  /-- The store cannot be moved there. -/
  | stuck (f : MoveFault)
deriving DecidableEq, Repr

namespace Event

/-- What comes of a move, and the desk after it. -/
def move (moved : Except MoveFault Store) (d : Desk) : Outcome × Desk :=
  match moved with
  | .ok store => (.moved store.version, { d with store })
  | .error f => (.stuck f, d)

/-- What comes of an event at a desk, and the desk after it. -/
def run (source : Source) (d : Desk) : Event → Outcome × Desk
  | command c =>
    match (c.perform source).on d with
    | (.ok a, d) => (.answer a, d)
    | (.error f, d) => (.fault f, d)
  | request today r =>
    let (reply, d) := Service.respond source today r d
    (.reply reply, d)
  | upgrade target => move (d.store.upgrade target) d
  | downgrade target => move (d.store.downgrade target) d

end Event

namespace Desk

/-- The desk after a history. -/
def after (source : Source) (d : Desk) (history : List Event) : Desk :=
  history.foldl (fun d e => (e.run source d).2) d

theorem after_append (source : Source) (d : Desk) (earlier later : List Event) :
    d.after source (earlier ++ later) = (d.after source earlier).after source later := by
  simp [after]

/-- A desk with an empty store. -/
def empty : Desk := {}

/-- A desk with a store of all revisions. -/
def fresh : Desk := { store := Store.fresh }

end Desk
end TaskDesk
