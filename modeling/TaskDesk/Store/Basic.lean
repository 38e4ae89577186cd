import TaskDesk.Form.Basic
import TaskDesk.Record
import TaskDesk.Store.Schema

/-!
# The store

The tables in which the records are kept. The store grows by revisions: folders,
projects, tasks and tags belong to the first one, settings to the second, and
subtasks to the third. Tables that a revision has not created yet are missing.
Rows stand in the order in which they were inserted. Numbers in them fit into 64
bits, and texts can be written in UTF-8.

Results:
* `Store.ledger_eq_some`: the tables of the first revision are read as a whole.
-/

namespace TaskDesk

/-! ## Rows -/

/-- A stored task. A row may lack its id, and its priority may be any text. -/
structure TaskRow where
  id : Option Text
  title : Text
  description : Option Text
  dueDate : Option Text
  priority : Text
  completed : Int
  projectId : Option Int
  createdAt : Text
  updatedAt : Text
deriving DecidableEq, Repr

/-- A stored tag of a task. -/
structure TagRow where
  taskId : Text
  tag : Text
deriving DecidableEq, Repr

/-- A stored subtask. -/
structure SubtaskRow where
  id : Text
  taskId : Text
  text : Text
  completed : Bool
deriving DecidableEq, Repr

/-- A stored setting. A row may lack its key. -/
structure SettingRow where
  key : Option Text
  value : Text
deriving DecidableEq, Repr

/-! ## Tables -/

/-- Rows with ids that are counted up; `last` is the largest id ever given. -/
structure Counted (α : Type) where
  rows : List α := []
  last : Nat := 0
deriving DecidableEq, Repr

/-- The tables of the first revision. -/
structure Ledger where
  folders : Counted Folder := {}
  projects : Counted Project := {}
  tasks : List TaskRow := []
  tags : List TagRow := []
deriving DecidableEq, Repr

/-- The revisions of the store. -/
inductive Revision where
  | first | second | third
deriving DecidableEq, Repr

namespace Revision

/-- All revisions, oldest first. -/
def all : List Revision := [first, second, third]

/-- The place of a revision, counted from 1. -/
def level : Revision → Nat
  | first => 1
  | second => 2
  | third => 3

/-- The name of a revision. -/
def name : Revision → Text
  | first => "001".toText
  | second => "002".toText
  | third => "003".toText

/-- The revision at a place. -/
def ofLevel? (n : Nat) : Option Revision := all.find? (·.level == n)

theorem ofLevel?_level (r : Revision) : ofLevel? r.level = some r := by cases r <;> decide

end Revision

/-- All tables, how they are listed, and the revision they are at. A store at no
    revision is empty. -/
structure Store where
  version : Option Revision := none
  schema : List TableEntry := []
  folders : Option (Counted Folder) := none
  projects : Option (Counted Project) := none
  tasks : Option (List TaskRow) := none
  tags : Option (List TagRow) := none
  settings : Option (List SettingRow) := none
  subtasks : Option (List SubtaskRow) := none
deriving DecidableEq, Repr

namespace Store

/-- The tables of the first revision, where all of them exist. -/
def ledger (s : Store) : Option Ledger :=
  match s.folders, s.projects, s.tasks, s.tags with
  | some folders, some projects, some tasks, some tags => some { folders, projects, tasks, tags }
  | _, _, _, _ => none

/-- The store with other rows in the tables of the first revision. -/
def setLedger (l : Ledger) (s : Store) : Store :=
  { s with
    folders := some l.folders
    projects := some l.projects
    tasks := some l.tasks
    tags := some l.tags }

@[simp] theorem ledger_setLedger (l : Ledger) (s : Store) : (s.setLedger l).ledger = some l := rfl

@[simp] theorem settings_setLedger (l : Ledger) (s : Store) :
    (s.setLedger l).settings = s.settings := rfl

@[simp] theorem subtasks_setLedger (l : Ledger) (s : Store) :
    (s.setLedger l).subtasks = s.subtasks := rfl

@[simp] theorem ledger_setSettings (s : Store) (rows : Option (List SettingRow)) :
    ({ s with settings := rows } : Store).ledger = s.ledger := rfl

@[simp] theorem ledger_setSubtasks (s : Store) (rows : Option (List SubtaskRow)) :
    ({ s with subtasks := rows } : Store).ledger = s.ledger := rfl

/-- All tables of the first revision exist, and hold what is in the ledger. -/
theorem ledger_eq_some {s : Store} {l : Ledger} :
    s.ledger = some l ↔ s.folders = some l.folders ∧ s.projects = some l.projects ∧
      s.tasks = some l.tasks ∧ s.tags = some l.tags := by
  unfold ledger
  split
  · rename_i folders projects tasks tags hfolders hprojects htasks htags
    cases l
    simp [hfolders, hprojects, htasks, htags]
  · rename_i hmissing
    refine iff_of_false (by simp) fun ⟨hfolders, hprojects, htasks, htags⟩ => ?_
    exact hmissing _ _ _ _ hfolders hprojects htasks htags

theorem isSome_ledger (s : Store) :
    s.ledger.isSome ↔ s.folders.isSome ∧ s.projects.isSome ∧ s.tasks.isSome ∧ s.tags.isSome := by
  unfold ledger
  cases s.folders <;> cases s.projects <;> cases s.tasks <;> cases s.tags <;> simp

/-- Rows that are there already are written without effect. -/
theorem setLedger_self {s : Store} {l : Ledger} (h : s.ledger = some l) : s.setLedger l = s := by
  obtain ⟨hfolders, hprojects, htasks, htags⟩ := ledger_eq_some.1 h
  simp only [setLedger, ← hfolders, ← hprojects, ← htasks, ← htags]

end Store

/-! ## Refusals -/

/-- Why a call fails. -/
inductive Fault where
  /-- The table is missing. -/
  | noTable (table : TableName)
  /-- A column that needs a value got none. -/
  | isNull (table : TableName) (column : Text)
  /-- Another row has the same values in these columns. -/
  | notUnique (table : TableName) (columns : List Text)
  /-- A reference leads to no row, or a row that others refer to would go. -/
  | brokenReference
  /-- A number does not fit into 64 bits. -/
  | outOfRange
  /-- A text cannot be written in UTF-8. -/
  | notEncodable {t : Text}
  /-- A row was written that does not make a record. -/
  | unreadable (issues : List Issue)
  /-- A row that was written cannot be found by the id it was given. -/
  | vanished
deriving DecidableEq, Repr

/-- A column with its table. -/
def qualified (table : TableName) (column : Text) : Text := table.text ++ ".".toText ++ column

/-- What is said of a text that cannot be written in UTF-8: where the first halves of
    surrogate pairs stand in it, and which one it is where there is a single one. -/
def encodingFault (t : Text) : Text :=
  let start := (t.takeWhile CodePoint.isChar).length
  let halves := (t.drop start).takeWhile fun c => !c.isChar
  let which := match halves with
    | [half] => "character \x27".toText ++ Json.escape half ++ "\x27 in position ".toText ++
        Text.decimal start
    | _ => "characters in position ".toText ++ Text.decimal start ++ "-".toText ++
        Text.decimal (start + halves.length - 1)
  "\x27utf-8\x27 codec can\x27t encode ".toText ++ which ++ ": surrogates not allowed".toText

/-- The wording of a fault, for those that have one. -/
def Fault.message? : Fault → Option Text
  | noTable table => some ("no such table: ".toText ++ table.text)
  | isNull table column =>
    some ("NOT NULL constraint failed: ".toText ++ qualified table column)
  | notUnique table columns =>
    some ("UNIQUE constraint failed: ".toText ++
      ", ".toText.intercalate (columns.map (qualified table)))
  | brokenReference => some "FOREIGN KEY constraint failed".toText
  | outOfRange => some "Python int too large to convert to SQLite INTEGER".toText
  | @notEncodable t => some (encodingFault t)
  | unreadable _ => none
  | vanished => none

/-- A number that fits into 64 bits, or none at all. -/
def inRange (n : Option Int) : Except Fault Unit :=
  if n.all fun n => -9223372036854775808 ≤ n ∧ n ≤ 9223372036854775807 then .ok ()
  else .error .outOfRange

/-- A text that can be written in UTF-8, or none at all. -/
def encodable (t : Option Text) : Except Fault Unit :=
  match t with
  | some t => if t.isEncodable then .ok () else .error (.notEncodable (t := t))
  | none => .ok ()

/-- A value that is given to a statement. -/
inductive Parameter where
  | number (n : Option Int)
  | text (t : Option Text)

/-- The value is bound to its place in a statement. -/
def Parameter.bind : Parameter → Except Fault Unit
  | number n => inRange n
  | text t => encodable t

/-- All values are bound to their places in a statement, from left to right. This
    comes before the statement looks at any row. -/
def bindAll : List Parameter → Except Fault Unit
  | [] => .ok ()
  | p :: more => do
    p.bind
    bindAll more

/-- The value of a column that needs one. -/
def present {α : Type} (table : TableName) (column : String) (value : Option α) : Except Fault α :=
  match value with
  | some a => .ok a
  | none => .error (.isNull table column.toText)

/-- A condition of the store; the fault says what is wrong where it does not hold. -/
def holds (condition : Bool) (fault : Fault) : Except Fault Unit :=
  if condition then .ok () else .error fault

namespace Store

/-- The tables of the first revision, for a statement that touches one of them. -/
def ledgerFor (table : TableName) (s : Store) : Except Fault Ledger :=
  match s.ledger with
  | some l => .ok l
  | none => .error (.noTable table)

/-- The settings. -/
def settingRows (s : Store) : Except Fault (List SettingRow) :=
  match s.settings with
  | some rows => .ok rows
  | none => .error (.noTable .settings)

/-- The subtasks. -/
def subtaskRows (s : Store) : Except Fault (List SubtaskRow) :=
  match s.subtasks with
  | some rows => .ok rows
  | none => .error (.noTable .subtasks)

end Store
end TaskDesk
