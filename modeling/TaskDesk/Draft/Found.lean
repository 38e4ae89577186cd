import TaskDesk.Phrase

/-!
# What is found in a text

The readers of dates, times and priorities look for one expression in a text.
What they find is a value together with the text that is left when the
expression is cut out. Two expressions are recognised and still have no value:
a date after the last one of the calendar, and a name of a time of day that is
spelled with letters from outside the table of names.
-/

namespace TaskDesk

/-- A value found in a text, and the text without the expression, trimmed. -/
structure Found (α : Type) where
  value : α
  residual : Text
deriving DecidableEq, Repr

/-- Why a recognised expression has no value. -/
inductive ParseFault where
  /-- The date lies after the last date of the calendar. -/
  | beyondCalendar
  /-- The name of the time of day is a variant that the table does not list. -/
  | unlistedTime (name : Text)
deriving DecidableEq, Repr

/-- The wording of a fault, for those that have one. -/
def ParseFault.message? : ParseFault → Option Text
  | beyondCalendar => some "date value out of range".toText
  | unlistedTime _ => none

end TaskDesk
