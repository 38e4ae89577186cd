import TaskDesk.Store.Definition
import TaskDesk.Text.Blank
import TaskDesk.Text.Word

/-!
# Moving between revisions

A store is moved up or down, revision by revision. A step runs a script: on the way up
(`upgrade`) it creates the tables and indexes of a revision where they are missing and
keeps the others, and on the way down (`downgrade`) it drops them. A target is a
state, or a number of steps up or down from a state or from where the store is. States
are named by their revision, `base` is the empty state, and `head` the last one. A
move that asks for an unknown revision, or that cannot be made, leaves the store as it
is.

Results:
* `walk?_le`: steps from a state end at a state.
-/

namespace TaskDesk

/-- Where a store is to be moved. Levels count the revisions of a state. -/
inductive Target where
  /-- To a state. -/
  | level (n : Nat)
  /-- By a number of steps. -/
  | fromHere (steps : Int)
  /-- A number of steps away from a state. -/
  | fromLevel (n : Nat) (steps : Int)
  /-- A number of steps below the last state, where a store is moved up. -/
  | belowLast (steps : Nat)
  /-- To a state without a name. -/
  | nameless
  /-- To a state nobody knows. -/
  | unknown
deriving DecidableEq, Repr

namespace Target

/-- The level of the state with a given name. -/
def levelOf? (name : Text) : Option Nat :=
  if name = "base".toText then some 0
  else if name = "head".toText ∨ name = "heads".toText then some 3
  else (Revision.all.find? (·.name == name)).map (·.level)

/-- A sign and digits of any script at the start of a text; what follows is
    passed over. -/
def steps? (t : Text) : Option Int :=
  let number := Text.number (t.tail.takeWhile isDigit)
  if t.tail.head?.any isDigit then
    match t.head? with
    | some (.char '+') => some number
    | some (.char '-') => some (-number)
    | _ => none
  else none

/-- The target that is given by steps, with the name of a state in front of them
    or without one. -/
def bySteps? (t : Text) : Option Target :=
  (steps? (t.dropWhile isWord)).map fun steps =>
    let name := t.takeWhile isWord
    if name.isEmpty then fromHere steps
    else ((levelOf? name).map fun n => fromLevel n steps).getD unknown

/-- The ways to cut a label off the start of a text. A label is not empty, lies on
    one line, and ends with an at sign. -/
def labelled : Text → List (Text × Text)
  | [] => []
  | c :: rest =>
    if c = '\n' then []
    else
      (match rest with
        | .char '@' :: after => [([c], after)]
        | _ => []) ++ (labelled rest).map fun (label, after) => (c :: label, after)

/-- The target, if the label is the name of a revision; it then says nothing new. -/
def withLabel (label : Text) (target : Target) : Target :=
  if Revision.all.any (·.name == label) then target else unknown

/-- The target that is a state. -/
def byName (t : Text) : Target :=
  match levelOf? t with
  | some n => level n
  | none =>
    match Text.trim t with
    | .char '-' :: digits =>
      if !digits.isEmpty && digits.all isDigit && Text.number digits != 0 then
        belowLast (Text.number digits)
      else unknown
    | _ => unknown

/-- The target that a text names. Steps are looked for first, behind a label or
    without one. -/
def ofText (t : Text) : Target :=
  if Text.contains ":".toText t then unknown
  else if t.isEmpty then nameless
  else
    match (labelled t).findSome? fun (label, t) => (bySteps? t).map (withLabel label) with
    | some target => target
    | none =>
      match bySteps? t with
      | some target => target
      | none =>
        match labelled t with
        | (label, t) :: _ => withLabel label (byName t)
        | [] => byName t

/-- The level of the state after steps from a state. Steps up from the empty state
    begin at the first revision, and steps down from it at the last one. -/
def walk? (start : Nat) (steps : Int) : Option Nat :=
  let start : Int := if start = 0 ∧ steps < 0 then 4 else start
  if 0 ≤ start + steps ∧ start + steps ≤ 3 then some (start + steps).toNat else none

theorem walk?_le {start n : Nat} {steps : Int} (h : walk? start steps = some n) : n ≤ 3 := by
  simp only [walk?, Option.ite_none_right_eq_some, Option.some.injEq] at h
  omega

end Target

/-- Why a store cannot be moved. -/
inductive MoveFault where
  /-- The target is unknown, or there is no way to it. -/
  | noWay
  /-- The target has no name, or steps of a move up lead to no revision. -/
  | noRevision
deriving DecidableEq, Repr

namespace Store

/-- The place of the revision a store is at; 0 where it is at none. -/
def level (s : Store) : Nat := (s.version.map (·.level)).getD 0

/-- The setting that a new table of settings begins with. -/
def firstSetting : SettingRow := ⟨some "searchbar_mode".toText, "search".toText⟩

end Store

namespace Revision

/-- The statement that creates a table with its columns and references. -/
def creation (name : TableName) : Definition :=
  .createTable name name.shape.columns name.shape.references

/-- The script that leads up to a revision. -/
def up : Revision → List Definition
  | first =>
    [creation .folders, creation .projects, creation .tasks, creation .tags,
      .createIndex "idx_tasks_project_id".toText .tasks,
      .createIndex "idx_tasks_due_date".toText .tasks, .createIndex "idx_tags_task_id".toText .tags]
  | second => [creation .settings, .addSetting Store.firstSetting]
  | third => [creation .subtasks, .createIndex "idx_subtasks_task_id".toText .subtasks]

/-- The script that leads down from a revision. -/
def down : Revision → List Definition
  | first => [.dropTable .tags, .dropTable .tasks, .dropTable .projects, .dropTable .folders]
  | second => [.dropTable .settings]
  | third => [.dropIndex "idx_subtasks_task_id".toText, .dropTable .subtasks]

end Revision

namespace Store

/-- The store with the tables of one more revision. -/
def raise (r : Revision) (s : Store) : Store := { s.define r.up with version := some r }

/-- The store without the tables of a revision. -/
def lower (r : Revision) (s : Store) : Store :=
  { s.define r.down with version := Revision.ofLevel? (r.level - 1) }

/-- The store after steps up to the next revisions, as far as there are any. -/
def climb : (steps : Nat) → Store → Store
  | 0, s => s
  | steps + 1, s =>
    match Revision.ofLevel? (s.level + 1) with
    | some r => climb steps (s.raise r)
    | none => s

/-- The store after steps down from its revision, as far as it is at one. -/
def descend : (steps : Nat) → Store → Store
  | 0, s => s
  | steps + 1, s =>
    match s.version with
    | some r => descend steps (s.lower r)
    | none => s

/-- The store moved up to a level, if this is the level of a revision. -/
def climbTo (n : Option Nat) (s : Store) : Except MoveFault Store :=
  match n with
  | some n => if n = 0 then .error .noRevision else .ok (s.climb (n - s.level))
  | none => .error .noRevision

/-- The store moved up, if that can be done. -/
def upgrade (target : Target) (s : Store) : Except MoveFault Store :=
  match target with
  | .level n => .ok (s.climb (n - s.level))
  | .fromHere n => if 0 < n ∧ s.level + n ≤ 3 then .ok (s.climb n.toNat) else .error .noWay
  | .fromLevel n steps => s.climbTo (Target.walk? n steps)
  | .belowLast steps => s.climbTo (Target.walk? 3 (-steps))
  | .nameless => .error .noRevision
  | .unknown => .error .noWay

/-- The store moved down to a level, if it is not below it already. -/
def descendTo (n : Option Nat) (s : Store) : Except MoveFault Store :=
  match n with
  | some n => if n ≤ s.level then .ok (s.descend (s.level - n)) else .error .noWay
  | none => .error .noWay

/-- The store moved down, if that can be done. -/
def downgrade (target : Target) (s : Store) : Except MoveFault Store :=
  match target with
  | .level n => s.descendTo (some n)
  | .fromHere n =>
    if n < 0 ∧ 0 ≤ s.level + n then .ok (s.descend (-n).toNat) else .error .noWay
  | .fromLevel n steps =>
    if n = 0 ∧ steps = 0 then .error .noWay else s.descendTo (Target.walk? n steps)
  | .belowLast _ => .error .noWay
  | .nameless => .error .noRevision
  | .unknown => .error .noWay

/-- A store with all revisions, as it is at first. -/
def fresh : Store := climb 3 {}

end Store
end TaskDesk
