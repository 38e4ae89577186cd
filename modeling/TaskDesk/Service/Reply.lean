import TaskDesk.Completion.Apply
import TaskDesk.Draft.Basic
import TaskDesk.Form.Records

/-!
# Replies

What the service answers: a status and contents, which are written as JSON.
Errors have their contents too: a detail in words, or the issues that were found
in a request, each of which quotes the value that it is about. What cannot be
written makes the service fail.

Results:
* `sent_of_isSendable`, `sent_failed`: replies that can be written are sent as
  they are, and a failure is one of them.
-/

namespace TaskDesk

/-- A draft as JSON. -/
def Draft.toJson (d : Draft) : Json :=
  .record [
    ("clean_title", .text d.title), ("due_date", .ofText? (d.due.map (·.toIso))),
    ("has_time_specified", .bool d.hasTime), ("due_time", .ofText? (d.time.map (·.toText))),
    ("priority", .ofText? (d.priority.map (·.name))),
    ("tags", (d.tags.map Json.ofTexts).getD .null)]

/-- A reading as JSON. -/
def Reading.toJson (r : Reading) : Json :=
  .record [("draft", r.draft.toJson), ("suggestions", .ofTexts (r.notes.map (·.toText)))]

/-- An input line after a completion as JSON. -/
def Completion.Applied.toJson (a : Completion.Applied) : Json :=
  .record [
    ("text", .text a.text), ("pending_prefix", .ofText? (a.pending.map (·.name))),
    ("secondary_options", .ofTexts a.options)]

/-- What a reply contains. A page about the service is written by the framework. -/
inductive Contents where
  | nothing
  | plain (t : Text)
  | page
  | detail (t : Text)
  | issues (is : List Issue)
  | deleted
  | tasks (ts : List Task)
  | task (t : Task)
  | subtask (s : Subtask)
  | texts (ts : List Text)
  | projects (ps : List Project)
  | project (p : Project)
  | folders (fs : List Folder)
  | folder (f : Folder)
  | mode (m : Mode)
  | reading (r : Reading)
  | filters (f : Filters)
  | applied (a : Completion.Applied)
  | line (t : Text)
deriving DecidableEq, Repr

/-- Contents as JSON. -/
def Contents.json? : Contents → Option Json
  | nothing => none
  | plain t => some (.text t)
  | page => none
  | detail t => some (.record [("detail", .text t)])
  | issues is => some (.record [("detail", .list (is.map (·.toJson)))])
  | deleted => some (.record [("status", .text "deleted".toText)])
  | tasks ts => some (.list (ts.map (·.toJson)))
  | task t => some t.toJson
  | subtask s => some s.toJson
  | texts ts => some (.ofTexts ts)
  | projects ps => some (.list (ps.map (·.toJson)))
  | project p => some p.toJson
  | folders fs => some (.list (fs.map (·.toJson)))
  | folder f => some f.toJson
  | mode m => some (.record [("mode", .text m.name)])
  | reading r => some r.toJson
  | filters f => some f.toJson
  | applied a => some a.toJson
  | line t => some (.record [("text", .text t)])

/-- Whether contents can be written. Issues can if all that they quote can. -/
def Contents.isSendable (c : Contents) : Bool :=
  match c with
  | issues is => is.all (·.quotable)
  | _ => c.json?.all Json.isSendable

/-- A reply to a request. -/
structure Reply where
  status : Nat
  contents : Contents
deriving DecidableEq, Repr

namespace Reply

/-- A reply to a request that was answered. -/
def ok (contents : Contents) : Reply := ⟨200, contents⟩

/-- The reply with a page about the service. -/
def page : Reply := ⟨200, .page⟩

/-- The reply where something that was asked for does not exist. -/
def notFound (detail : String) : Reply := ⟨404, .detail detail.toText⟩

/-- The reply to a request that is not as it has to be. -/
def refused (issues : List Issue) : Reply := ⟨422, .issues issues⟩

/-- The reply to a body that cannot be checked. -/
def unreadable : Reply := ⟨400, .detail "There was an error parsing the body".toText⟩

/-- The reply to a text in which no title is left. -/
def noTitle : Reply := ⟨422, .detail "No task title left after parsing".toText⟩

/-- The reply to a path that is known with other methods. -/
def wrongMethod : Reply := ⟨405, .detail "Method Not Allowed".toText⟩

/-- The reply to a path that is known without its end. -/
def elsewhere : Reply := ⟨307, .nothing⟩

/-- The reply where the service fails. -/
def failed : Reply := ⟨500, .plain "Internal Server Error".toText⟩

/-- The reply as it is sent. -/
def sent (r : Reply) : Reply := if r.contents.isSendable then r else failed

theorem sent_of_isSendable {r : Reply} (h : r.contents.isSendable = true) : r.sent = r := by
  simp [sent, h]

theorem sent_failed : failed.sent = failed := by
  simp [sent]

end Reply
end TaskDesk
