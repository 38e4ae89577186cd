import TaskDesk.Calendar.Date
import TaskDesk.Draft.Found
import TaskDesk.Text.Digit

/-!
# Dates in running text

A date is given in a text by a relative expression (`tomorrow`, `next weekend`),
by the name of a weekday with or without `next`, or by numbers (`4/15`,
`4-15-26`). Relative expressions come first, in a fixed order, then weekdays
from Monday on, then numbers with slashes and at last numbers with dashes. Of
each kind only the leftmost occurrence counts. Numbers that are no date are
passed over.

Results:
* `extractDate_ok_none`: the text is left alone exactly where nothing is found.
-/

namespace TaskDesk

/-- Relative dates, in the order in which they are looked for. -/
inductive RelativeDate where
  | today | tomorrow | nextWeek | thisWeekend | nextWeekend
deriving DecidableEq, Repr

namespace RelativeDate

/-- All relative dates in the order in which they are looked for. -/
def all : List RelativeDate := [today, tomorrow, nextWeek, thisWeekend, nextWeekend]

/-- Two words with blanks between them. -/
def twoWords (first second : Text) : Phrase :=
  .whole (.inOrder [.letters first, .blanks, .letters second])

/-- How a relative date is written (`RELATIVE_DATE_PATTERNS`). -/
def phrase : RelativeDate → Phrase
  | today => .keyword "today".toText
  | tomorrow => .keyword "tomorrow".toText
  | nextWeek => twoWords "next".toText "week".toText
  | thisWeekend => twoWords "this".toText "weekend".toText
  | nextWeekend => twoWords "next".toText "weekend".toText

/-- How many days after a day of the week a relative date lies. This weekend is
    the coming Saturday, or the day itself on a weekend. The next weekend is the
    Saturday after the one of this week, weeks ending on Sundays. -/
def daysFrom (w : Weekday) : RelativeDate → Nat
  | today => 0
  | tomorrow => 1
  | nextWeek => 7
  | thisWeekend => Weekday.saturday.index - w.index
  | nextWeekend => Weekday.saturday.index + 7 - w.index

/-- The date that a relative date means on a given day (`_relative_date`). -/
def resolve (day : Date) (r : RelativeDate) : Option Date := day.addDays (r.daysFrom day.weekday)

end RelativeDate

namespace Weekday

/-- The English name in lower case (`WEEKDAY_NAMES`). -/
def name : Weekday → Text
  | monday => "monday".toText
  | tuesday => "tuesday".toText
  | wednesday => "wednesday".toText
  | thursday => "thursday".toText
  | friday => "friday".toText
  | saturday => "saturday".toText
  | sunday => "sunday".toText

/-- The name of the weekday, with `next` before it or without (`WEEKDAY_PATTERNS`). -/
def phrase (w : Weekday) : Phrase :=
  .whole (.inOrder [.maybe (.inOrder [.letters "next".toText, .blanks]), .letters w.name])

end Weekday

namespace NumericDate

/-- Characters that a date of numbers may not touch, because it would be a piece
    of something longer. -/
def adjoins (c : CodePoint) : Bool := isWord c || c == '/' || c == '-'

/-- The separators of dates of numbers, in the order in which they are tried. -/
def separators : List CodePoint := ['/', '-']

/-- Month and day of one or two digits, and perhaps a year of two to four
    (`NUMERIC_DATE_PATTERNS`). -/
def phrase (sep : CodePoint) : Phrase :=
  .inOrder [
    .here fun before _ => !before.any adjoins,
    .many isDigit 1 (some 2), .one (· == sep), .many isDigit 1 (some 2),
    .maybe (.inOrder [.one (· == sep), .many isDigit 2 (some 4)]),
    .here fun _ after => !after.any adjoins]

/-- The year that is meant by its digits: two digits stand for a year of this
    century. -/
def fullYear (digits : Text) : Nat :=
  if digits.length = 2 then 2000 + Text.number digits else Text.number digits

/-- The date that a piece of text gives in numbers, if there is such a date
    (`_numeric_date`). Without a year it is a date of the given year. -/
def read? (thisYear : Nat) (sep : CodePoint) (piece : Text) : Option Date :=
  match Text.split sep piece with
  | [month, day] => Date.ofParts? thisYear (Text.number month) (Text.number day)
  | [month, day, year] => Date.ofParts? (fullYear year) (Text.number month) (Text.number day)
  | _ => none

/-- The first date of numbers in the text with the given separator, unless it is
    no date. -/
def find? (thisYear : Nat) (t : Text) (sep : CodePoint) : Option (Found Date) := do
  let o ← (phrase sep).find? t
  let date ← read? thisYear sep o.piece
  return ⟨date, o.residual⟩

end NumericDate

/-- What is found where an expression occurs that means the given date. -/
def foundDate (date : Option Date) (o : Phrase.Occurrence) : Except ParseFault (Option (Found Date)) :=
  match date with
  | some d => .ok (some ⟨d, o.residual⟩)
  | none => .error .beyondCalendar

/-- The date that a text gives on the day `today`, and the text without it
    (`extract_date`). -/
def extractDate (today : Date) (t : Text) : Except ParseFault (Option (Found Date)) :=
  match RelativeDate.all.findSome? fun r => (r.phrase.find? t).map fun o => (r, o) with
  | some (r, o) => foundDate (r.resolve today) o
  | none =>
    match Weekday.all.findSome? fun w => (w.phrase.find? t).map fun o => (w, o) with
    | some (w, o) => foundDate (today.following w) o
    | none => .ok (NumericDate.separators.findSome? (NumericDate.find? today.year t))

/-- Nothing is found exactly where no expression with words occurs and neither
    kind of numbers gives a date. -/
theorem extractDate_ok_none (today : Date) (t : Text) :
    extractDate today t = .ok none ↔
      (∀ r ∈ RelativeDate.all, r.phrase.find? t = none) ∧
      (∀ w ∈ Weekday.all, w.phrase.find? t = none) ∧
      ∀ sep ∈ NumericDate.separators, NumericDate.find? today.year t sep = none := by
  have found : ∀ date o, foundDate date o ≠ .ok none := by
    intro date o; unfold foundDate; split <;> simp
  unfold extractDate
  split
  · rename_i r o h
    obtain ⟨r', hr, ho⟩ := List.exists_of_findSome?_eq_some h
    obtain ⟨o', ho', -⟩ := Option.map_eq_some_iff.1 ho
    simp only [found, false_iff]
    rintro ⟨hall, -⟩
    simp [hall r' hr] at ho'
  · rename_i hr
    split
    · rename_i w o h
      obtain ⟨w', hw, ho⟩ := List.exists_of_findSome?_eq_some h
      obtain ⟨o', ho', -⟩ := Option.map_eq_some_iff.1 ho
      simp only [found, false_iff]
      rintro ⟨-, hall, -⟩
      simp [hall w' hw] at ho'
    · rename_i hw
      simp only [List.findSome?_eq_none_iff, Option.map_eq_none_iff] at hr hw
      simp only [Except.ok.injEq, List.findSome?_eq_none_iff]
      exact ⟨fun h => ⟨hr, hw, h⟩, fun h => h.2.2⟩

end TaskDesk
