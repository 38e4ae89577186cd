import TaskDesk.Completion.Offer
import TaskDesk.Phrase

/-!
# Applying completions

A chosen completion goes into the input. For a new task a keyword of a category
replaces all keywords of that category, wherever they stand. In a search the
name of a field becomes the start of a token, and the values it can have are
offered next. Everything else replaces the last token. The input then ends with a
space, unless a token has only been started.

Results:
* `mem_longestFirst`: sorting by length keeps the members.
-/

namespace TaskDesk
namespace Completion

/-- The values that are offered for a field (`FILTER_VALUES`). -/
def options (projectNames : List Text) : FilterField → List Text
  | .priority => [Priority.high, .medium, .low].map (·.name)
  | .project => projectNames.map Text.lower
  | .status => Status.all.map (·.name)
  | .due => DueBucket.all.map (·.name)

/-- The values that are offered for a name, if it is the name of a field
    (`secondary_options`). -/
def optionsFor (name : Text) (projectNames : List Text) : List Text :=
  ((FilterField.ofName? name).map (options projectNames)).getD []

/-- A text in front of the first text of a list that is not longer. -/
def insertByLength (t : Text) : List Text → List Text
  | [] => [t]
  | u :: rest => if u.length ≤ t.length then t :: u :: rest else u :: insertByLength t rest

/-- The texts, longest first. Texts of one length keep their order. -/
def longestFirst (ts : List Text) : List Text := ts.foldr insertByLength []

theorem mem_insertByLength (s t : Text) (ts : List Text) :
    s ∈ insertByLength t ts ↔ s = t ∨ s ∈ ts := by
  induction ts with
  | nil => simp [insertByLength]
  | cons u rest ih =>
    unfold insertByLength
    split
    · simp
    · simp only [List.mem_cons, ih]
      exact ⟨fun h => by rcases h with h | h | h <;> simp [h],
        fun h => by rcases h with h | h | h <;> simp [h]⟩

theorem mem_longestFirst (s : Text) (ts : List Text) : s ∈ longestFirst ts ↔ s ∈ ts := by
  induction ts with
  | nil => simp [longestFirst]
  | cons t rest ih =>
    rw [longestFirst, List.foldr_cons, mem_insertByLength, List.mem_cons, ← ih, longestFirst]

/-- The input without the keywords of a category, tidied of the blanks they leave
    (`_remove_category_keywords`). Longer keywords go first, so that a keyword goes
    before one that is part of it. -/
def withoutKeywords (c : Category) (input : Text) : Text :=
  Text.trim (Text.collapse
    ((longestFirst c.keywords).foldl (fun t keyword => (Phrase.keyword keyword).eraseAll t) input))

/-- The input after a completion, with the field whose values are offered next
    (`AppliedSuggestion`). -/
structure Applied where
  text : Text
  pending : Option FilterField := none
  options : List Text := []
deriving DecidableEq, Repr

/-- The input with the chosen completion (`apply_suggestion`). -/
def apply (mode : Mode) (input chosen : Text) (projectNames : List Text) : Applied :=
  match mode with
  | .search =>
    match FilterField.ofName? chosen with
    | some field =>
      { text := Text.replaceLastToken input field.opening
        pending := some field
        options := options projectNames field }
    | none => { text := Text.replaceLastToken input chosen ++ " ".toText }
  | .create =>
    match Category.ofKeyword? chosen with
    | some category =>
      let base := withoutKeywords category input
      { text := (if base.isEmpty then chosen else base ++ " ".toText ++ chosen) ++ " ".toText }
    | none => { text := Text.replaceLastToken input chosen ++ " ".toText }

/-- The input where a token that sets a field is completed by a value
    (`apply_secondary_option`). -/
def applyOption (input field value : Text) : Text :=
  Text.replaceLastToken input (field ++ ":".toText ++ value) ++ " ".toText

end Completion
end TaskDesk
