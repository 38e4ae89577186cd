import TaskDesk.Record
import TaskDesk.Text.Blank
import TaskDesk.Text.Case

/-!
# Search filters

A query is a line of tokens between blanks. A token is a tag (`#work`), sets a
field (`priority:high`, `project:home`, `status:completed`, `due:today`), or is
free text. A field with a value it cannot have is dropped, and so is a tag
without a name. Filters are what a query says: the free text, all tags, and for
each field the value that was set last.
-/

namespace TaskDesk

/-- Whether a task is done. -/
inductive Status where
  | completed | incomplete
deriving DecidableEq, Repr

namespace Status

/-- The name of a status. -/
def name : Status → Text
  | completed => "completed".toText
  | incomplete => "incomplete".toText

/-- All statuses, in the order in which they are offered. -/
def all : List Status := [completed, incomplete]

/-- The status with a given name. -/
def ofName? (t : Text) : Option Status := all.find? (·.name == t)

theorem ofName?_name (s : Status) : ofName? s.name = some s := by cases s <;> decide

end Status

/-- How a due date lies to the present day. -/
inductive DueBucket where
  | today | overdue
deriving DecidableEq, Repr

namespace DueBucket

/-- The name of a bucket. -/
def name : DueBucket → Text
  | today => "today".toText
  | overdue => "overdue".toText

/-- All buckets, in the order in which they are offered. -/
def all : List DueBucket := [today, overdue]

/-- The bucket with a given name. -/
def ofName? (t : Text) : Option DueBucket := all.find? (·.name == t)

theorem ofName?_name (b : DueBucket) : ofName? b.name = some b := by cases b <;> decide

end DueBucket

/-- The fields a query can set. -/
inductive FilterField where
  | priority | project | status | due
deriving DecidableEq, Repr

namespace FilterField

/-- All fields, in the order in which they are offered (`FILTER_PREFIXES`). -/
def all : List FilterField := [priority, project, status, due]

/-- The name of a field. -/
def name : FilterField → Text
  | priority => "priority".toText
  | project => "project".toText
  | status => "status".toText
  | due => "due".toText

/-- The field with a given name. -/
def ofName? (t : Text) : Option FilterField := all.find? (·.name == t)

/-- The beginning of a token that sets the field. -/
def opening (f : FilterField) : Text := f.name ++ ":".toText

theorem ofName?_name (f : FilterField) : ofName? f.name = some f := by cases f <;> decide

end FilterField

/-- What a query looks for (`SearchFilters`). -/
structure Filters where
  text : Text := []
  tags : List Text := []
  priority : Option Priority := none
  project : Option Text := none
  status : Option Status := none
  due : Option DueBucket := none
deriving DecidableEq, Repr

/-- What one token of a query says. -/
inductive FilterToken where
  | tag (name : Text)
  | priority (p : Priority)
  | project (name : Text)
  | status (s : Status)
  | due (b : DueBucket)
  | free (word : Text)
  | dropped
deriving DecidableEq, Repr

namespace FilterToken

/-- The value of a token that sets the field, in lower case. -/
def valueOf? (f : FilterField) (word : Text) : Option Text :=
  if f.opening.isPrefixOf word then some (Text.lower (word.drop f.opening.length)) else none

/-- The token that sets a field to a value, if the field can have it. -/
def setting (f : FilterField) (value : Text) : FilterToken :=
  match f with
  | .priority => ((Priority.ofName? value).map priority).getD dropped
  | .project => project value
  | .status => ((Status.ofName? value).map status).getD dropped
  | .due => ((DueBucket.ofName? value).map due).getD dropped

/-- The token that a word of a query is. -/
def ofWord (word : Text) : FilterToken :=
  match word with
  | .char '#' :: name => if (Text.lower name).isEmpty then dropped else tag (Text.lower name)
  | _ =>
    match FilterField.all.findSome? fun f => (valueOf? f word).map fun value => (f, value) with
    | some (f, value) => setting f value
    | none => free word

/-- The name of a tag. -/
def tag? : FilterToken → Option Text
  | tag name => some name
  | _ => none

/-- The word of free text. -/
def free? : FilterToken → Option Text
  | free word => some word
  | _ => none

/-- The priority that is set. -/
def priority? : FilterToken → Option Priority
  | priority p => some p
  | _ => none

/-- The project that is set. -/
def project? : FilterToken → Option Text
  | project name => some name
  | _ => none

/-- The status that is set. -/
def status? : FilterToken → Option Status
  | status s => some s
  | _ => none

/-- The bucket that is set. -/
def due? : FilterToken → Option DueBucket
  | due b => some b
  | _ => none

end FilterToken

namespace Filters

/-- The filters that a list of tokens stands for. -/
def ofTokens (tokens : List FilterToken) : Filters where
  text := Text.join ' ' (tokens.filterMap FilterToken.free?)
  tags := tokens.filterMap FilterToken.tag?
  priority := (tokens.filterMap FilterToken.priority?).getLast?
  project := (tokens.filterMap FilterToken.project?).getLast?
  status := (tokens.filterMap FilterToken.status?).getLast?
  due := (tokens.filterMap FilterToken.due?).getLast?

/-- The filters that a query stands for (`parse_filters`). -/
def parse (query : Text) : Filters := ofTokens ((Text.tokens query).map FilterToken.ofWord)

/-- The words of the query that writes down the filters: free text, tags, and
    the fields that are set. -/
def words (f : Filters) : List Text :=
  (if f.text.isEmpty then [] else [f.text]) ++
  f.tags.map ("#".toText ++ ·) ++
  (f.priority.map fun p => FilterField.priority.opening ++ p.name).toList ++
  (f.project.map fun name => FilterField.project.opening ++ name).toList ++
  (f.status.map fun s => FilterField.status.opening ++ s.name).toList ++
  (f.due.map fun b => FilterField.due.opening ++ b.name).toList

/-- The query that writes down the filters (`serialize_filters`). -/
def query (f : Filters) : Text := Text.join ' ' f.words

end Filters
end TaskDesk
