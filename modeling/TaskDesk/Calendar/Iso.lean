import TaskDesk.Calendar.Date
import TaskDesk.Text.Digit

/-!
# Dates as text

A date is written as `YYYY-MM-DD`. The reader of stored due dates is more
generous: it looks at the first ten characters only, takes the separators or
leaves them out, also reads a week of a year with or without a day of the week,
and passes over what stands behind the date. Its text must be seven, eight or
ten bytes long in UTF-8, which it has to be written in, and its digits are ASCII.

Results:
* `length_toIso`: a written date has ten characters.
-/

namespace TaskDesk
namespace Date

/-- The date as `YYYY-MM-DD`. -/
def toIso (d : Date) : Text :=
  Text.digits 4 d.year ++ "-".toText ++ Text.digits 2 d.month ++ "-".toText ++ Text.digits 2 d.day

theorem length_toIso (d : Date) : d.toIso.length = 10 := by
  simp [toIso, String.toText, Text.length_digits]

/-! ## Weeks of a year -/

/-- The weeks of a year begin on Mondays, and the first of them is the one that
    holds the year's first Thursday. This is the place of the first Thursday's
    Monday: how many days it lies after the first day of the year, or before it
    if the number is negative. -/
def firstWeekOffset (newYear : Weekday) : Int :=
  if newYear.index ≤ 3 then -newYear.index else 7 - newYear.index

/-- Whether a year that begins on the given day of the week has 53 weeks. -/
def hasLongWeekYear (year : Nat) (newYear : Weekday) : Bool :=
  newYear = .thursday || (newYear = .wednesday && isLeap year)

/-- The date of a day of a week of a year. Weeks count from 1, and Monday is the
    day 1. -/
def ofWeek? (year week day : Nat) : Option Date := do
  let newYear ← ofParts? year 1 1
  let weeks := if hasLongWeekYear year newYear.weekday then 53 else 52
  if 1 ≤ week ∧ week ≤ weeks ∧ 1 ≤ day ∧ day ≤ 7 then
    let offset := firstWeekOffset newYear.weekday + (7 * (week - 1) + (day - 1) : Nat)
    if offset < 0 then ofParts? (year - 1) 12 (32 + offset).toNat
    else newYear.addDays offset.toNat
  else none

/-! ## Reading -/

/-- A number of exactly `width` ASCII digits, and the text behind it. -/
def readDigits? (width : Nat) (t : Text) : Option (Nat × Text) :=
  let written := t.take width
  if written.length = width ∧ written.all CodePoint.isAsciiDigit then
    some (Text.number written, t.drop width)
  else none

/-- The text behind a separator, where separators are used. -/
def readSeparator? (used : Bool) (t : Text) : Option Text :=
  if used then
    match t with
    | .char '-' :: rest => some rest
    | _ => none
  else some t

/-- A date at the start of a text: year, month and day, or year, week and day of
    the week, where the day of the week may be missing at the end of the text. -/
def read? (t : Text) : Option Date := do
  let (year, rest) ← readDigits? 4 t
  let separated := rest.head? = some (.char '-')
  let rest ← readSeparator? separated rest
  match rest with
  | .char 'W' :: rest =>
    let (week, rest) ← readDigits? 2 rest
    if rest.isEmpty then ofWeek? year week 1
    else
      let rest ← readSeparator? separated rest
      let (day, _) ← readDigits? 1 rest
      ofWeek? year week day
  | _ =>
    let (month, rest) ← readDigits? 2 rest
    let rest ← readSeparator? separated rest
    let (day, _) ← readDigits? 2 rest
    ofParts? year month day

/-- The date that a stored due date begins with (`_parse_due`). -/
def ofDue? (due : Text) : Option Date :=
  let start := due.take 10
  let size := Text.utf8Size start
  if Text.isEncodable start ∧ (size = 7 ∨ size = 8 ∨ size = 10) then read? start else none

end Date
end TaskDesk
