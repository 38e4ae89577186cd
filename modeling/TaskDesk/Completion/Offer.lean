import TaskDesk.Completion.Keywords
import TaskDesk.Filter.Basic

/-!
# Completions on offer

Completions are offered for the last token of the input, that is, for what
follows the last space. In a search these are the fields of queries and the tags
in use; for a new task they come from the tables of keywords and from what the
whole input is about. No completion is offered twice.

Results:
* `length_suggest_le`, `nodup_suggest`: at most eight completions, none twice.
-/

namespace TaskDesk

namespace Text

/-- What follows the last space (`_last_token`). -/
def lastToken (t : Text) : Text := ((split ' ' t).getLast?).getD []

/-- The text with another last token (`_replace_last_token`). -/
def replaceLastToken (t replacement : Text) : Text :=
  join ' ' ((split ' ' t).dropLast ++ [replacement])

end Text

namespace Completion

/-- The texts that hold a given piece. -/
def holding (piece : Text) (ts : List Text) : List Text := ts.filter (Text.contains piece)

/-- The texts that begin with a given piece. -/
def beginning (piece : Text) (ts : List Text) : List Text := ts.filter (piece.isPrefixOf ·)

/-- A tag with its mark. -/
def marked (tag : Text) : Text := '#' :: tag

/-- Completions of a token of a search: fields, then tags in use
    (`_search_suggestions`). Behind a mark a tag may hold the token anywhere, otherwise
    it begins with it. -/
def forSearch (token : Text) (tags : List Text) : List Text :=
  let wanted := Text.lower token
  holding wanted (FilterField.all.map (·.name)) ++
    match token with
    | .char '#' :: _ => (tags.filter fun tag => Text.contains wanted.tail (Text.lower tag)).map marked
    | _ => (tags.filter fun tag => wanted.isPrefixOf (Text.lower tag)).map marked

/-- What is offered because of words anywhere in the input (`_context_hints`). -/
def hints (input : Text) : List Text :=
  contexts.flatMap fun (triggers, offers) =>
    if triggers.any fun trigger => Text.contains trigger (Text.lower input) then offers else []

/-- The list, where a token has at least a given length. -/
def fromLength (least : Nat) (token : Text) (ts : List Text) : List Text :=
  if least ≤ token.length then ts else []

/-- Completions of a token of a new task: dates, priorities, times, tags, projects, and
    at last hints (`_create_suggestions`). -/
def forCreate (input token : Text) : List Text :=
  let wanted := Text.lower token
  fromLength 1 wanted (beginning wanted Category.date.keywords) ++
  fromLength 2 wanted (holding wanted Category.priority.keywords) ++
  fromLength 1 wanted (holding wanted Category.time.keywords) ++
  (match token with
    | .char '#' :: _ => (beginning wanted.tail commonTags).map marked
    | _ => fromLength 2 wanted ((beginning wanted commonTags).map marked)) ++
  fromLength 2 wanted (holding wanted projectKeywords) ++
  hints input

/-- The completions of the last token of the input (`suggest`). An empty token has none. -/
def suggest (mode : Mode) (input : Text) (tags : List Text) : List Text :=
  let token := Text.lastToken input
  if token.isEmpty then []
  else
    let candidates := match mode with
      | .search => forSearch token tags
      | .create => forCreate input token
    (Text.distinct candidates).take maxOffers

theorem length_suggest_le (mode : Mode) (input : Text) (tags : List Text) :
    (suggest mode input tags).length ≤ 8 := by
  unfold suggest
  dsimp only
  split
  · simp
  · exact List.length_take_le _ _

theorem nodup_suggest (mode : Mode) (input : Text) (tags : List Text) :
    (suggest mode input tags).Nodup := by
  unfold suggest
  dsimp only
  split
  · simp
  · exact (Text.nodup_distinct _).sublist (List.take_sublist _ _)

/-- What kind of completion a text is. -/
inductive Kind where
  | field
  | tag
  | exclusive (category : Category)
  | keyword
deriving DecidableEq, Repr

/-- The name of a kind. -/
def Kind.name : Kind → Text
  | field => "filter-prefix".toText
  | tag => "tag".toText
  | exclusive c => c.name
  | keyword => "keyword".toText

/-- The kind of a completion, by its shape and the tables (`classify_suggestion`). -/
def classify (mode : Mode) (candidate : Text) : Kind :=
  if mode = .search ∧ (FilterField.ofName? candidate).isSome then .field
  else match candidate with
    | .char '#' :: _ => .tag
    | _ =>
      match Category.ofKeyword? candidate with
      | some c => .exclusive c
      | none => .keyword

end Completion
end TaskDesk
