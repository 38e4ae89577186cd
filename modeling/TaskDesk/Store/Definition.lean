import TaskDesk.Store.Basic

/-!
# Defining tables

Statements that create and drop tables and indexes, and scripts of them. A table
that is there already is created without effect, and so is an index; what is not
there is dropped without effect. An index goes with its table.

Results:
* `schema_define`: how the tables are listed after a script does not depend on the
  rows in them.
-/

namespace TaskDesk

/-- A statement of a script that moves the store to another revision. -/
inductive Definition where
  /-- The table is created. -/
  | createTable (name : TableName) (columns : List Column) (references : List Reference)
  /-- An index on a table is created. -/
  | createIndex (index : Text) (name : TableName)
  /-- The table is dropped with its rows and the counter of its ids. -/
  | dropTable (name : TableName)
  /-- The index is dropped. -/
  | dropIndex (index : Text)
  /-- The setting gets a value, if it has none. -/
  | addSetting (row : SettingRow)
deriving DecidableEq, Repr

namespace Store

/-- The store with a table, which is empty where it is new. -/
def withTable (name : TableName) (s : Store) : Store :=
  match name with
  | .folders => { s with folders := some (s.folders.getD {}) }
  | .projects => { s with projects := some (s.projects.getD {}) }
  | .tasks => { s with tasks := some (s.tasks.getD []) }
  | .tags => { s with tags := some (s.tags.getD []) }
  | .settings => { s with settings := some (s.settings.getD []) }
  | .subtasks => { s with subtasks := some (s.subtasks.getD []) }

/-- The store without a table. -/
def withoutTable (name : TableName) (s : Store) : Store :=
  match name with
  | .folders => { s with folders := none }
  | .projects => { s with projects := none }
  | .tasks => { s with tasks := none }
  | .tags => { s with tags := none }
  | .settings => { s with settings := none }
  | .subtasks => { s with subtasks := none }

/-- The store with a setting, where its key has no value yet. -/
def withSetting (row : SettingRow) (s : Store) : Store :=
  { s with settings := s.settings.map fun rows =>
      if rows.any (·.key == row.key) then rows else rows ++ [row] }

/-- The number of rows in a table. -/
def count (name : TableName) (s : Store) : Nat :=
  match name with
  | .folders => s.folders.elim 0 (·.rows.length)
  | .projects => s.projects.elim 0 (·.rows.length)
  | .tasks => s.tasks.elim 0 List.length
  | .tags => s.tags.elim 0 List.length
  | .settings => s.settings.elim 0 List.length
  | .subtasks => s.subtasks.elim 0 List.length

/-- The tables that are listed, with the number of their rows. -/
def tables (s : Store) : List (TableEntry × Nat) :=
  s.schema.map fun entry => (entry, s.count entry.name)

/-- The indexes on the tables, by name. -/
def indexes (s : Store) : List Text :=
  (s.schema.flatMap (·.shape.indexes)).mergeSort Text.precedes

end Store

namespace TableEntry

/-- The table with one more index. -/
def addIndex (index : Text) (entry : TableEntry) : TableEntry :=
  { entry with shape := { entry.shape with indexes := entry.shape.indexes ++ [index] } }

/-- The table without an index. -/
def removeIndex (index : Text) (entry : TableEntry) : TableEntry :=
  { entry with shape := { entry.shape with indexes := entry.shape.indexes.filter (· != index) } }

end TableEntry

namespace Definition

/-- How the tables are listed after a statement. -/
def relist (d : Definition) (entries : List TableEntry) : List TableEntry :=
  match d with
  | createTable name columns references =>
    if entries.any (·.name == name) then entries
    else entries ++ [{ name, shape := { columns, references } }]
  | createIndex index name =>
    if entries.any (·.shape.indexes.contains index) then entries
    else entries.map fun entry => if entry.name = name then entry.addIndex index else entry
  | dropTable name => entries.filter (·.name != name)
  | dropIndex index => entries.map (·.removeIndex index)
  | addSetting _ => entries

/-- What a statement does to the rows. -/
def refill (d : Definition) (s : Store) : Store :=
  match d with
  | createTable name _ _ => s.withTable name
  | dropTable name => s.withoutTable name
  | addSetting row => s.withSetting row
  | createIndex _ _ | dropIndex _ => s

/-- The store after a statement. -/
def apply (d : Definition) (s : Store) : Store :=
  { d.refill s with schema := d.relist s.schema }

end Definition

namespace Store

/-- The store after the statements of a script. -/
def define (script : List Definition) (s : Store) : Store := script.foldl (fun s d => d.apply s) s

theorem schema_define (script : List Definition) (s : Store) :
    (s.define script).schema = script.foldl (fun entries d => d.relist entries) s.schema := by
  induction script generalizing s with
  | nil => rfl
  | cons d rest ih => exact ih (d.apply s)

end Store
end TaskDesk
