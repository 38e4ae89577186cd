import TaskDesk.Calendar.Iso
import TaskDesk.Draft.DatePhrase
import TaskDesk.Draft.PriorityPhrase
import TaskDesk.Draft.TimePhrase

/-!
# Drafts of tasks

A text such as `remind me to call mom tomorrow at 5pm` is read as a draft of a
task. Date, time, priority and opener are looked for one after the other, each
in what the one before has left, and what is left in the end is tidied up into
the title. A time is looked for only where a date was found. Every expression
that was found leaves a note.

Results:
* `notes_length_le`: there are at most four notes.
-/

namespace TaskDesk

namespace Text

/-- The text with runs of blanks made single spaces, and without the characters at
    either end that are no word characters (`final_cleanup`). -/
def tidy (t : Text) : Text := trim (trimBy (fun c => !isWord c) (collapse t))

end Text

/-- What a text says about a task (`ParsedTaskDraft`). `hasTime` tells whether a time
    was found. -/
structure Draft where
  title : Text
  due : Option Date := none
  hasTime : Bool := false
  time : Option Clock := none
  priority : Option Priority := none
  tags : Option (List Text) := none
deriving DecidableEq, Repr

/-- What was found in a text, as it is told to the writer. -/
inductive Note where
  | due (date : Date)
  | time (time : Clock)
  | priority (priority : Priority)
  | reminder
deriving DecidableEq, Repr

/-- The wording of a note. -/
def Note.toText : Note → Text
  | due date => "Due date set to: ".toText ++ date.toIso
  | time clock => "Time set to: ".toText ++ clock.toText
  | priority p => "Priority set to: ".toText ++ p.name
  | reminder => "Reminder language detected and cleaned".toText

/-- A draft and the notes on how it was found (`ParseOutcome`). -/
structure Reading where
  draft : Draft
  notes : List Note
deriving DecidableEq, Repr

namespace Reading

/-- The time of day in a text that has a date. -/
def timeWith (due : Option Date) (t : Text) : Except ParseFault (Option (Found Clock)) :=
  if due.isSome then extractTime t else .ok none

/-- The text that is left behind what was found, or the whole of it. -/
def rest {α : Type} (found : Option (Found α)) (t : Text) : Text := (found.map (·.residual)).getD t

/-- The reading of a text on the day `today` (`parse_task`). -/
def ofText (today : Date) (t : Text) : Except ParseFault Reading := do
  let t := Text.trim t
  let date ← extractDate today t
  let t := rest date t
  let due := date.map (·.value)
  let clock ← timeWith due t
  let t := rest clock t
  let time := clock.map (·.value)
  let urgency := extractPriority t
  let t := rest urgency t
  let priority := urgency.map (·.value)
  let opener := withoutOpener? t
  return {
    draft := {
      title := Text.tidy (opener.getD t), due, hasTime := time.isSome, time, priority, tags := none }
    notes := (due.map Note.due).toList ++ (time.map Note.time).toList ++
      (priority.map Note.priority).toList ++ (opener.map fun _ => Note.reminder).toList }

theorem notes_length_le {today : Date} {t : Text} {r : Reading} (h : ofText today t = .ok r) :
    r.notes.length ≤ 4 := by
  have short : ∀ {α : Type} (o : Option α), o.toList.length ≤ 1 := by intro α o; cases o <;> simp
  simp only [ofText, bind, Except.bind, pure, Except.pure] at h
  split at h
  · cases h
  · split at h
    · cases h
    · cases h
      simp only [List.length_append]
      refine Nat.le_trans (Nat.add_le_add (Nat.add_le_add (Nat.add_le_add (short _) (short _))
        (short _)) (short _)) (by decide)

end Reading
end TaskDesk
