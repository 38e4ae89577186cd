import TaskDesk.Draft.Found
import TaskDesk.Record

/-!
# Priorities and openers in running text

A priority is given by one of its keywords. The keywords of the high priority
are looked for first, then those of the low one, and those of the medium one
last. An opener such as `remind me to` says that the text is a reminder. Of a
set of keywords the leftmost occurrence is cut.
-/

namespace TaskDesk

/-- The priorities in the order in which they are looked for, with their keywords
    (`PRIORITY_PATTERNS`). -/
def priorityKeywords : List (Priority × List Text) :=
  [(.high, ["urgent".toText, "important".toText, "asap".toText, "high priority".toText,
      "critical".toText]),
   (.low, ["low priority".toText, "when i can".toText, "sometime".toText, "eventually".toText,
      "minor".toText]),
   (.medium, ["medium priority".toText, "normal priority".toText, "moderate".toText])]

/-- The openers of reminders (`REMINDER_PATTERN`). -/
def reminderOpeners : List Text :=
  ["remind me to".toText, "reminder to".toText, "don't forget to".toText]

/-- One of the keywords, in any case, not inside a longer word. -/
def anyKeyword (keywords : List Text) : Phrase := .whole (.oneOf (keywords.map .letters))

/-- The priority that a text gives, and the text without its keyword
    (`extract_priority`). -/
def extractPriority (t : Text) : Option (Found Priority) :=
  priorityKeywords.findSome? fun (priority, keywords) =>
    ((anyKeyword keywords).find? t).map fun o => ⟨priority, o.residual⟩

/-- The text without the opener of a reminder, if it has one (`clean_reminder_phrase`). -/
def withoutOpener? (t : Text) : Option Text :=
  ((anyKeyword reminderOpeners).find? t).map (·.residual)

end TaskDesk
