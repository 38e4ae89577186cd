import TaskDesk.Json.Decimal
import TaskDesk.Text.Digit

/-!
# JSON values

JSON values as they are exchanged with clients, and their written form. Of
members of an object that have the same name only the last one counts. A value
is sendable if it can be part of a reply: its numbers are finite, and its texts
can be written in UTF-8.

Results:
* `memberOf?_append`: a member that is written later hides an earlier one.
* `isSendable_list`: a list is sendable if its items are.
-/

namespace TaskDesk

/-- A JSON value. -/
inductive Json where
  | null
  | bool (b : Bool)
  | int (n : Int)
  | real (x : Json.Decimal)
  | unbounded
  | text (t : Text)
  | list (items : List Json)
  | object (members : List (Text × Json))
deriving Repr

namespace Json

/-- The members of an object. -/
def members? : Json → Option (List (Text × Json))
  | object members => some members
  | _ => none

/-- The value of a name among members: the last one that is written. -/
def memberOf? (members : List (Text × Json)) (name : Text) : Option Json :=
  members.reverse.lookup name

theorem memberOf?_append (earlier later : List (Text × Json)) (name : Text) :
    memberOf? (earlier ++ later) name = (memberOf? later name).or (memberOf? earlier name) := by
  simp [memberOf?, List.lookup_append]

/-- The members without those that a later one hides. -/
def visible : List (Text × Json) → List (Text × Json)
  | [] => []
  | (name, value) :: more =>
    if more.any (·.1 == name) then visible more else (name, value) :: visible more

/-! ## What can be sent -/

/-- The beginning of names of members that are left out of replies. -/
def innerMark : Text := "_sa".toText

/-- Whether a value can be part of a reply. -/
def isSendable : Json → Bool
  | unbounded => false
  | real x => x.rounded ≠ .unbounded
  | text t => t.isEncodable
  | list items => items.attach.all fun ⟨item, _⟩ => item.isSendable
  | object members =>
    members.attach.all fun ⟨(name, value), _⟩ =>
      innerMark.isPrefixOf name || (name.isEncodable && value.isSendable)
  | _ => true
termination_by j => sizeOf j
decreasing_by
  · have := List.sizeOf_lt_of_mem ‹_›
    simp
    omega
  · have := List.sizeOf_lt_of_mem ‹_›
    simp at this ⊢
    omega

theorem isSendable_text (t : Text) : (text t).isSendable = t.isEncodable := by
  simp [isSendable]

theorem isSendable_list (items : List Json) :
    (list items).isSendable = items.all isSendable := by
  simp [isSendable]

/-! ## Written form -/

/-- The hexadecimal digits of a number below 16. -/
def hexDigit (n : Nat) : Char := (Nat.toDigits 16 (n % 16)).headD '0'

/-- A code point inside a JSON string: quotes, backslashes, control characters and
    halves of surrogate pairs are escaped. -/
def escape (c : CodePoint) : Text :=
  if c = '"' ∨ c = '\\' then ['\\', c]
  else if c.toNat < 32 ∨ !c.isChar then
    ['\\', 'u', hexDigit (c.toNat / 4096), hexDigit (c.toNat / 256), hexDigit (c.toNat / 16),
      hexDigit c.toNat]
  else [c]

/-- A text as a JSON string. -/
def quote (t : Text) : Text := "\"".toText ++ t.flatMap escape ++ "\"".toText

/-- A whole number in decimal. -/
def intText (n : Int) : Text :=
  if n < 0 then "-".toText ++ Text.decimal n.natAbs else Text.decimal n.natAbs

/-- A number with its exponent. -/
def Decimal.toText (x : Decimal) : Text :=
  intText (if x.negative then -x.digits else x.digits) ++ "e".toText ++ intText x.exponent

/-- A JSON value as text. What is no finite number is written as `NaN`. -/
def render : Json → Text
  | null => "null".toText
  | bool true => "true".toText
  | bool false => "false".toText
  | int n => intText n
  | real x => x.toText
  | unbounded => "NaN".toText
  | text t => quote t
  | list items =>
    "[".toText ++ Text.join ',' (items.attach.map fun ⟨item, _⟩ => item.render) ++ "]".toText
  | object members =>
    "\x7b".toText ++ Text.join ',' (members.attach.map fun ⟨(name, value), _⟩ =>
      quote name ++ ":".toText ++ value.render) ++ "\x7d".toText
termination_by j => sizeOf j
decreasing_by
  · have := List.sizeOf_lt_of_mem ‹_›
    simp
    omega
  · have := List.sizeOf_lt_of_mem ‹_›
    simp at this ⊢
    omega

end Json
end TaskDesk
