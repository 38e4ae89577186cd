import TaskDesk.Form.Numeral
import TaskDesk.Json.Basic
import TaskDesk.Text.Case

/-!
# Checking what clients send

A form is read from a JSON value field by field. All that is wrong with it is
reported at once, in the order of the fields, each issue with the path to the
place it concerns. Numbers and truth values may also be given in other notations
that leave no doubt. Numbers that are no integers, and truth values given as
numbers, have to fit into 64 bits.
-/

namespace TaskDesk

/-- What can be wrong with a value. -/
inductive IssueKind where
  | missing
  | textExpected
  | notAnOption
  | listExpected
  | recordExpected
  | intExpected
  | intUnreadable
  | intTooLarge
  | intHasFraction
  | numberUnbounded
  | boolExpected
  | boolUnreadable
  | notJson
  | objectExpected
deriving DecidableEq, Repr

/-- The name of a kind of issue. -/
def IssueKind.name : IssueKind → Text
  | missing => "missing".toText
  | textExpected => "string_type".toText
  | notAnOption => "literal_error".toText
  | listExpected => "list_type".toText
  | recordExpected => "model_type".toText
  | intExpected => "int_type".toText
  | intUnreadable => "int_parsing".toText
  | intTooLarge => "int_parsing_size".toText
  | intHasFraction => "int_from_float".toText
  | numberUnbounded => "finite_number".toText
  | boolExpected => "bool_type".toText
  | boolUnreadable => "bool_parsing".toText
  | notJson => "json_invalid".toText
  | objectExpected => "model_attributes_type".toText

/-- A step on the way to a value: into a member of an object, or an item of a list. -/
inductive PathStep where
  | member (name : Text)
  | item (place : Nat)
deriving DecidableEq, Repr

/-- What is wrong, and where. An issue is quotable if the value that it is about
    can be part of a reply. -/
structure Issue where
  kind : IssueKind
  path : List PathStep
  quotable : Bool := true
deriving DecidableEq, Repr

/-- A value that was accepted, or everything that is wrong with it. -/
inductive Checked (α : Type) where
  | ok (value : α)
  | refused (issues : List Issue)
deriving DecidableEq, Repr

namespace Checked

variable {α β : Type}

/-- A refusal for one reason that concerns no value. -/
def fail (kind : IssueKind) : Checked α := refused [{ kind, path := [] }]

/-- A value that is refused for one reason. -/
def failOn (j : Json) (kind : IssueKind) : Checked α :=
  refused [{ kind, path := [], quotable := j.isSendable }]

/-- The outcome for a value reached by one more step. -/
def under (step : PathStep) : Checked α → Checked α
  | ok a => ok a
  | refused issues => refused (issues.map fun issue => { issue with path := step :: issue.path })

/-- Both parts are checked, and the issues of both are reported. -/
def seq (f : Checked (α → β)) (a : Unit → Checked α) : Checked β :=
  match f, a () with
  | ok f, ok a => ok (f a)
  | ok _, refused issues => refused issues
  | refused issues, ok _ => refused issues
  | refused issues, refused more => refused (issues ++ more)

instance : Applicative Checked where
  pure := ok
  seq := seq

/-- The list of the values, if all are accepted. -/
def all : List (Checked α) → Checked (List α)
  | [] => ok []
  | a :: more => (fun a as => a :: as) <$> a <*> all more

end Checked

/-- A way to check a JSON value. -/
abbrev Check (α : Type) := Json → Checked α

namespace Check

variable {α : Type}

/-! ## Single values -/

/-- A text. -/
def text : Check Text
  | .text t => .ok t
  | j => .failOn j .textExpected

/-- One of the texts that a reader knows. -/
def option (read : Text → Option α) (j : Json) : Checked α :=
  match j with
  | .text t => ((read t).map .ok).getD (.failOn j .notAnOption)
  | _ => .failOn j .notAnOption

/-- The number of 64 bits with the largest magnitude. -/
def maxMagnitude : Int := 9223372036854775808

/-- A whole number, also one that is written as a text or with a fraction of
    zeros. Truth values count as 0 and 1. -/
def int (j : Json) : Checked Int :=
  match j with
  | .int n => .ok n
  | .bool b => .ok (if b then 1 else 0)
  | .real x =>
    match x.rounded with
    | .whole n => if n.natAbs < maxMagnitude then .ok n else .failOn j .intTooLarge
    | .fraction => .failOn j .intHasFraction
    | .unbounded => .failOn j .numberUnbounded
  | .unbounded => .failOn j .numberUnbounded
  | .text t =>
    match Numeral.ofText t with
    | .ok n => .ok n
    | .error .tooLong => .failOn j .intTooLarge
    | .error .unreadable => .failOn j .intUnreadable
  | _ => .failOn j .intExpected

/-- The words for false. -/
def wordsForFalse : List Text :=
  ["0".toText, "off".toText, "f".toText, "false".toText, "n".toText, "no".toText]

/-- The words for true. -/
def wordsForTrue : List Text :=
  ["1".toText, "on".toText, "t".toText, "true".toText, "y".toText, "yes".toText]

/-- The truth value of a number `n` of the value `j`, where `n` fits into 64 bits
    if `fits` says so. -/
def boolOfInt (j : Json) (fits : Bool) (n : Int) : Checked Bool :=
  if !fits then .failOn j .boolExpected
  else if n = 0 then .ok false
  else if n = 1 then .ok true
  else .failOn j .boolUnreadable

/-- A truth value, also one that is given as a number or a word. -/
def bool (j : Json) : Checked Bool :=
  match j with
  | .bool b => .ok b
  | .int n => boolOfInt j (-maxMagnitude ≤ n ∧ n < maxMagnitude) n
  | .real x =>
    match x.rounded with
    | .whole n => boolOfInt j (n.natAbs < maxMagnitude) n
    | _ => .failOn j .boolExpected
  | .text t =>
    if wordsForFalse.contains (Text.lower t) then .ok false
    else if wordsForTrue.contains (Text.lower t) then .ok true
    else .failOn j .boolUnreadable
  | _ => .failOn j .boolExpected

/-! ## Compound values -/

/-- A value that may be null. -/
def nullable (check : Check α) : Check (Option α)
  | .null => .ok none
  | j => some <$> check j

/-- A list of values. -/
def list (check : Check α) : Check (List α)
  | .list items =>
    Checked.all (items.zipIdx.map fun (item, place) => (check item).under (.item place))
  | j => .failOn j .listExpected

/-- The members of an object, all checked by the same rule; anything else is
    refused with the given kind of issue. -/
def object (otherwise : IssueKind) (check : List (Text × Json) → Checked α) : Check α
  | .object members => check members
  | j => .failOn j otherwise

end Check

/-! ## Fields of an object -/

namespace Field

variable {α : Type}

/-- A field that has to be there. Where it is missing the issue is about the whole
    object. -/
def required (name : String) (check : Check α) (members : List (Text × Json)) : Checked α :=
  Checked.under (.member name.toText)
    (match Json.memberOf? members name.toText with
      | some value => check value
      | none => .failOn (.object members) .missing)

/-- A field that may be left out; the outcome tells whether it is there. -/
def given (name : String) (check : Check α) (members : List (Text × Json)) : Checked (Option α) :=
  match Json.memberOf? members name.toText with
  | some value => some <$> (check value).under (.member name.toText)
  | none => .ok none

/-- A field with a value for the case that it is left out. -/
def withDefault (name : String) (value : α) (check : Check α) (members : List (Text × Json)) :
    Checked α :=
  (·.getD value) <$> given name check members

end Field
end TaskDesk
