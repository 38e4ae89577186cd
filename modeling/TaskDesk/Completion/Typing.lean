import TaskDesk.Completion.Apply

/-!
# Typing with completions

An input line that is typed into, corrected and completed step by step. What is
on offer depends on the line and its mode only, besides the tags and projects in
use.
-/

namespace TaskDesk
namespace Completion

/-- The line and what it is used for. -/
structure Line where
  text : Text
  mode : Mode
deriving DecidableEq, Repr

/-- What can be done to the line. -/
inductive Action where
  /-- Append a text. -/
  | type (t : Text)
  /-- Drop a number of characters at the end. -/
  | erase (n : Nat)
  /-- Use the line for something else. -/
  | switch (mode : Mode)
  /-- Complete a token that sets a field. -/
  | option (field value : Text)
  /-- Apply a completion. -/
  | apply (chosen : Text)
  /-- Apply the completion at a place of the list on offer, counted around. -/
  | pick (place : Int)
deriving DecidableEq, Repr

/-- The completion at a place of a list, counted around; of an empty list it is
    the empty text. -/
def picked (place : Int) (offers : List Text) : Text :=
  offers.getD (place % (offers.length : Int)).toNat []

/-- The line after an action, and what a completion has left open. -/
def Line.act (tags projectNames : List Text) (line : Line) : Action → Line × Option Applied
  | .type t => ({ line with text := line.text ++ t }, none)
  | .erase n => ({ line with text := line.text.take (line.text.length - n) }, none)
  | .switch mode => ({ line with mode }, none)
  | .option field value => ({ line with text := applyOption line.text field value }, none)
  | .apply chosen =>
    let applied := Completion.apply line.mode line.text chosen projectNames
    ({ line with text := applied.text }, some applied)
  | .pick place =>
    let chosen := picked place (suggest line.mode line.text tags)
    let applied := Completion.apply line.mode line.text chosen projectNames
    ({ line with text := applied.text }, some applied)

end Completion
end TaskDesk
