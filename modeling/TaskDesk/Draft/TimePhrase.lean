import TaskDesk.Calendar.Clock
import TaskDesk.Draft.Found

/-!
# Times of day in running text

A time is given in a text by `at` and an hour, by an hour with `am` or `pm`, by
hours and minutes, or by a name (`noon`, `in the evening`). The four kinds are
looked for in this order, and of each kind only the leftmost occurrence counts.
Numbers that are no time of day are passed over. After `at` an hour without half
of the day is one of the morning.
-/

namespace TaskDesk

namespace ClockPhrase

/-- One or two digits. -/
def hour : Phrase := .many isDigit 1 (some 2)

/-- A colon and two digits. -/
def minutes : Phrase := .inOrder [.one (· == ':'), .many isDigit 2 (some 2)]

/-- The halves of the day. -/
def period : Phrase := .oneOf [.letters "am".toText, .letters "pm".toText]

/-- Blanks, or nothing. -/
def gap : Phrase := .many isBlank 0 none

/-- An hour after the word `at`, with minutes and half of the day if they are
    given. -/
def afterAt : Phrase :=
  .whole (.inOrder [.letters "at".toText, .blanks, hour, .maybe minutes, gap, .maybe period])

/-- An hour of the 12-hour clock with its half of the day. -/
def twelveHour : Phrase := .whole (.inOrder [hour, .maybe minutes, gap, period])

/-- Hours and minutes. -/
def hourMinutes : Phrase := .whole (.inOrder [hour, minutes])

/-- The phrases of clock times in the order in which they are looked for, each with the
    half of the day that is meant where none is given (`TIME_PATTERNS`). -/
def kinds : List (Phrase × Option Period) :=
  [(afterAt, some .am), (twelveHour, some .am), (hourMinutes, none)]

/-- The time that a piece of text gives: its first digits are the hour, digits
    behind a colon are the minutes, and what follows names the half of the day. -/
def read? (assumed : Option Period) (piece : Text) : Option Clock :=
  let written := piece.dropWhile fun c => !isDigit c
  let hour := written.takeWhile isDigit
  let rest := written.dropWhile isDigit
  let (minutes, rest) :=
    match rest with
    | .char ':' :: rest => (rest.takeWhile isDigit, rest.dropWhile isDigit)
    | _ => ("00".toText, rest)
  let period := (Period.ofText? (Text.trim rest)).or assumed
  Clock.ofParts? (Period.hour24 period (Text.number hour)) minutes

/-- The first clock time of a kind in the text, unless it is no time of day. -/
def find? (t : Text) (kind : Phrase × Option Period) : Option (Found Clock) := do
  let o ← kind.1.find? t
  let time ← read? kind.2 o.piece
  return ⟨time, o.residual⟩

end ClockPhrase

namespace NamedTime

/-- The names of times of day and the times they stand for (`NAMED_TIMES`). -/
def table : List (Text × Clock) :=
  [("noon".toText, ⟨12, "00".toText, by decide, by decide⟩),
   ("midnight".toText, ⟨0, "00".toText, by decide, by decide⟩),
   ("morning".toText, ⟨9, "00".toText, by decide, by decide⟩),
   ("afternoon".toText, ⟨14, "00".toText, by decide, by decide⟩),
   ("evening".toText, ⟨18, "00".toText, by decide, by decide⟩)]

/-- A name of a time of day, with `in the` before it or without (`NAMED_TIME_PATTERN`). -/
def phrase : Phrase :=
  .whole (.inOrder [
    .maybe (.inOrder [.letters "in".toText, .blanks, .letters "the".toText, .blanks]),
    .oneOf (table.map fun entry => .letters entry.1)])

/-- The name in a piece of that shape: its last word. -/
def nameIn (piece : Text) : Text := ((Text.tokens piece).getLast?).getD []

/-- The time a name stands for. The lower case of the name has to be in the
    table. -/
def read? (name : Text) : Option Clock := table.lookup (Text.lower name)

end NamedTime

/-- The time of day that a text gives, and the text without it (`extract_time`). -/
def extractTime (t : Text) : Except ParseFault (Option (Found Clock)) :=
  match ClockPhrase.kinds.findSome? (ClockPhrase.find? t) with
  | some found => .ok (some found)
  | none =>
    match NamedTime.phrase.find? t with
    | none => .ok none
    | some o =>
      let name := NamedTime.nameIn o.piece
      match NamedTime.read? name with
      | some time => .ok (some ⟨time, o.residual⟩)
      | none => .error (.unlistedTime name)

end TaskDesk
