import TaskDesk.Text.Case

/-!
# Keywords that are offered

The tables from which completions of a new task are taken. The keywords of a
category exclude one another: a task has one priority, one time and one date.
-/

namespace TaskDesk

/-- Categories of keywords of which a text should hold one at most
    (`EXCLUSIVE_CATEGORIES`). -/
inductive Category where
  | priority | time | date
deriving DecidableEq, Repr

namespace Category

/-- All categories, in the order in which a keyword is looked up. -/
def all : List Category := [priority, time, date]

/-- The name of a category. -/
def name : Category → Text
  | priority => "priority".toText
  | time => "time".toText
  | date => "date".toText

/-- The keywords of a category, in the order in which they are offered. -/
def keywords : Category → List Text
  | priority =>
    ["urgent".toText, "important".toText, "asap".toText, "critical".toText,
     "high priority".toText, "medium priority".toText, "low priority".toText,
     "normal".toText, "moderate".toText, "minor".toText]
  | time =>
    ["at 9am".toText, "at 10am".toText, "at 11am".toText, "at 12pm".toText, "at 1pm".toText,
     "at 2pm".toText, "at 3pm".toText, "at 4pm".toText, "at 5pm".toText, "at 6pm".toText,
     "at 7pm".toText, "at 8pm".toText, "morning".toText, "afternoon".toText,
     "evening".toText, "noon".toText, "midnight".toText]
  | date =>
    ["today".toText, "tomorrow".toText, "monday".toText, "tuesday".toText,
     "wednesday".toText, "thursday".toText, "friday".toText, "saturday".toText,
     "sunday".toText, "next week".toText, "this weekend".toText, "next weekend".toText,
     "next monday".toText, "next tuesday".toText, "next wednesday".toText,
     "next thursday".toText, "next friday".toText, "next saturday".toText,
     "next sunday".toText]

/-- The category of a keyword, in any case (`keyword_category`). -/
def ofKeyword? (t : Text) : Option Category := all.find? fun c => c.keywords.contains (Text.lower t)

theorem mem_of_ofKeyword? {t : Text} {c : Category} (h : ofKeyword? t = some c) :
    Text.lower t ∈ c.keywords := by
  simpa using List.find?_some h

end Category

/-- Tags that are offered for every task, without their mark (`COMMON_TAGS`). -/
def commonTags : List Text :=
  ["work".toText, "personal".toText, "shopping".toText, "health".toText, "finance".toText,
   "family".toText, "urgent".toText, "meeting".toText, "call".toText, "email".toText,
   "research".toText, "project".toText, "home".toText, "office".toText, "travel".toText,
   "study".toText, "exercise".toText, "appointment".toText]

/-- Phrases that name a kind of project (`PROJECT_KEYWORDS`). -/
def projectKeywords : List Text :=
  ["for work".toText, "for personal".toText, "for project".toText, "work project".toText,
   "side project".toText, "team project".toText, "client work".toText]

/-- Words that tell what a text is about, with what is then offered
    (`CONTEXT_CLUSTERS`). -/
def contexts : List (List Text × List Text) :=
  [(["meeting".toText, "call".toText, "interview".toText],
    ["at 10am".toText, "at 2pm".toText, "at 3pm".toText, "#meeting".toText, "urgent".toText]),
   (["buy".toText, "shop".toText, "pick up".toText],
    ["#shopping".toText, "#errands".toText, "today".toText, "tomorrow".toText]),
   (["email".toText, "report".toText, "review".toText],
    ["#work".toText, "urgent".toText, "today".toText, "#office".toText])]

/-- The largest number of completions that are offered at once (`MAX_SUGGESTIONS`). -/
def maxOffers : Nat := 8

end TaskDesk
