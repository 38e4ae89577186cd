import TaskDesk.Store.Statement

/-!
# The desk

A desk is a store together with how many ids and readings of the clock it has
used. Work is done at a desk and may fail. What a failed transaction did to the
store is undone; the ids and readings of the clock that it used stay used.

Results:
* `on_bind` and the other `on_` lemmas: what each part of work does at a desk.
* `transaction_error`: after a failed transaction the store is what it was.
-/

namespace TaskDesk

/-- Where new ids and times come from: the n-th id, and the n-th reading of the
    clock, both counted from 0. -/
structure Source where
  id : Nat → Text
  time : Nat → Text

/-- A store and what has been used so far. -/
structure Desk where
  store : Store := {}
  idsUsed : Nat := 0
  timesUsed : Nat := 0
deriving DecidableEq, Repr

/-- Work at a desk that has an outcome or fails. -/
abbrev Work (α : Type) := ExceptT Fault (StateM Desk) α

namespace Work

variable {α : Type}

/-- The work done at a given desk: its outcome, and the desk after it. -/
def on (a : Work α) (d : Desk) : Except Fault α × Desk := a.run.run d

/-- The work that a function on desks describes. -/
def ofFunction (f : Desk → Except Fault α × Desk) : Work α := ExceptT.mk f

/-- A look at the store. -/
def query (read : Store → Except Fault α) : Work α :=
  ofFunction fun d => (read d.store, d)

/-- A change of the store that has an outcome. -/
def change (write : Store → Except Fault (α × Store)) : Work α :=
  ofFunction fun d =>
    match write d.store with
    | .ok (a, store) => (.ok a, { d with store })
    | .error fault => (.error fault, d)

/-- A change of the store. -/
def execute (write : Store → Except Fault Store) : Work Unit :=
  change fun s => (write s).map fun s => ((), s)

/-- A new id. -/
def newId (source : Source) : Work Text :=
  ofFunction fun d => (.ok (source.id d.idsUsed), { d with idsUsed := d.idsUsed + 1 })

/-- The present time. -/
def now (source : Source) : Work Text :=
  ofFunction fun d => (.ok (source.time d.timesUsed), { d with timesUsed := d.timesUsed + 1 })

/-- The work as a whole, or nothing at all to the store where it fails (`get_db`). -/
def transaction (a : Work α) : Work α :=
  ofFunction fun d =>
    match a.on d with
    | (.ok value, after) => (.ok value, after)
    | (.error fault, after) => (.error fault, { after with store := d.store })

/-! ## What the parts of work do -/

theorem on_pure (a : α) (d : Desk) : (pure a : Work α).on d = (.ok a, d) := rfl

theorem on_bind {β : Type} (a : Work α) (f : α → Work β) (d : Desk) :
    (a >>= f).on d =
      match a.on d with
      | (.ok value, after) => (f value).on after
      | (.error fault, after) => (.error fault, after) := by
  simp only [on, ExceptT.run_bind, StateT.run_bind]
  rcases a.run.run d with ⟨_ | _, after⟩ <;> rfl

theorem on_query (read : Store → Except Fault α) (d : Desk) :
    (query read).on d = (read d.store, d) := rfl

theorem on_change (write : Store → Except Fault (α × Store)) (d : Desk) :
    (change write).on d =
      match write d.store with
      | .ok (a, store) => (.ok a, { d with store })
      | .error fault => (.error fault, d) := rfl

theorem on_execute (write : Store → Except Fault Store) (d : Desk) :
    (execute write).on d =
      match write d.store with
      | .ok store => (.ok (), { d with store })
      | .error fault => (.error fault, d) := by
  simp only [execute, on_change]
  cases write d.store <;> rfl

theorem on_newId (source : Source) (d : Desk) :
    (newId source).on d = (.ok (source.id d.idsUsed), { d with idsUsed := d.idsUsed + 1 }) := rfl

theorem on_now (source : Source) (d : Desk) :
    (now source).on d = (.ok (source.time d.timesUsed), { d with timesUsed := d.timesUsed + 1 }) := rfl

theorem on_transaction (a : Work α) (d : Desk) :
    (transaction a).on d =
      match a.on d with
      | (.ok value, after) => (.ok value, after)
      | (.error fault, after) => (.error fault, { after with store := d.store }) := rfl

theorem transaction_error {a : Work α} {d after : Desk} {fault : Fault}
    (h : (transaction a).on d = (.error fault, after)) : after.store = d.store := by
  rw [on_transaction] at h
  split at h
  · cases h
  · cases h; rfl

end Work
end TaskDesk
