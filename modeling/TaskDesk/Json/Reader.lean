import TaskDesk.Json.Basic

/-!
# Reading JSON

A reader of JSON texts. It accepts the standard form, and beyond it the names
`NaN`, `Infinity` and `-Infinity` as numbers. Control characters inside strings
are refused. Two escapes in a row that form a surrogate pair are one character,
and an escaped half that forms no pair stays a half. There are limits to the
length of whole numbers and to the depth of lists and objects in one another;
the reader stops at the first thing that is wrong.
-/

namespace TaskDesk.Json

/-- Why a text cannot be read. -/
inductive ReadFault where
  /-- The text is no JSON. -/
  | malformed
  /-- Too many lists and objects lie in one another. -/
  | tooDeep
  /-- A whole number has too many digits. -/
  | tooLong
deriving DecidableEq, Repr

/-- How many lists and objects may lie in one another. -/
def maxDepth : Nat := 960

/-- The text behind the blanks of JSON. -/
def skipBlanks (t : Text) : Text :=
  t.dropWhile fun c => c == ' ' || c == '\t' || c == '\n' || c == '\r'

/-- The text behind a given beginning. -/
def expect? (start t : Text) : Option Text :=
  if start.isPrefixOf t then some (t.drop start.length) else none

/-- The text behind a character that has to be there, blanks before it aside. -/
def expect (c : CodePoint) (t : Text) : Except ReadFault Text :=
  match expect? [c] (skipBlanks t) with
  | some rest => .ok rest
  | none => .error .malformed

/-! ## Strings -/

/-- The value of a hexadecimal digit. -/
def hexValue? : CodePoint → Option Nat
  | .char c =>
    if c.isDigit then some (c.toNat - '0'.toNat)
    else if 'a' ≤ c ∧ c ≤ 'f' then some (c.toNat - 'a'.toNat + 10)
    else if 'A' ≤ c ∧ c ≤ 'F' then some (c.toNat - 'A'.toNat + 10)
    else none
  | .half _ => none

/-- The number that four hexadecimal digits stand for. -/
def hexNumber? (a b c d : CodePoint) : Option Nat := do
  let a ← hexValue? a
  let b ← hexValue? b
  let c ← hexValue? c
  let d ← hexValue? d
  return ((a * 16 + b) * 16 + c) * 16 + d

/-- The character of an escape of a single letter. -/
def unescape? (c : CodePoint) : Option CodePoint :=
  let table : List (CodePoint × CodePoint) :=
    [('"', '"'), ('\\', '\\'), ('/', '/'), ('b', '\x08'), ('f', '\x0c'), ('n', '\n'), ('r', '\r'),
      ('t', '\t')]
  table.lookup c

/-- The units of a string up to its closing quote, and the text behind it. A unit
    is a code point that is written as itself, or the number of an escape. -/
def readUnits : Text → Option (List (CodePoint ⊕ Nat) × Text)
  | [] => none
  | .char '"' :: rest => some ([], rest)
  | .char '\\' :: .char 'u' :: a :: b :: c :: d :: rest => do
    let n ← hexNumber? a b c d
    let (units, rest) ← readUnits rest
    return (.inr n :: units, rest)
  | .char '\\' :: c :: rest => do
    let c ← unescape? c
    let (units, rest) ← readUnits rest
    return (.inl c :: units, rest)
  | c :: rest =>
    if c.toNat < 32 ∨ c = '\\' then none
    else do
      let (units, rest) ← readUnits rest
      return (.inl c :: units, rest)

/-- The text that units stand for. -/
def ofUnits : List (CodePoint ⊕ Nat) → Text
  | [] => []
  | .inl c :: rest => c :: ofUnits rest
  | .inr n :: .inr m :: rest =>
    match CodePoint.ofPair? n m with
    | some c => c :: ofUnits rest
    | none => (CodePoint.ofNat? n).toList ++ ofUnits (.inr m :: rest)
  | .inr n :: rest => (CodePoint.ofNat? n).toList ++ ofUnits rest

/-- A string behind its opening quote, and the text behind it. -/
def readString (t : Text) : Except ReadFault (Text × Text) :=
  match readUnits t with
  | some (units, rest) => .ok (ofUnits units, rest)
  | none => .error .malformed

/-! ## Numbers -/

/-- The digits at the start of a text, and the text behind them. -/
def spanDigits (t : Text) : Text × Text :=
  (t.takeWhile CodePoint.isAsciiDigit, t.dropWhile CodePoint.isAsciiDigit)

/-- The digits of a fraction, if there is one. -/
def readFraction? (t : Text) : Option (Text × Text) :=
  match t with
  | .char '.' :: rest =>
    let (digits, rest) := spanDigits rest
    if digits.isEmpty then none else some (digits, rest)
  | _ => none

/-- The value of an exponent, if there is one. -/
def readExponent? (t : Text) : Option (Int × Text) :=
  match t with
  | e :: rest =>
    if e = 'e' ∨ e = 'E' then
      let (negative, rest) :=
        match rest with
        | .char '-' :: rest => (true, rest)
        | .char '+' :: rest => (false, rest)
        | _ => (false, rest)
      let (digits, rest) := spanDigits rest
      if digits.isEmpty then none
      else
        let n : Int := Text.number digits
        some (if negative then -n else n, rest)
    else none
  | [] => none

/-- A number without its sign. Several digits do not begin with zero. -/
def readNumber (negative : Bool) (t : Text) : Except ReadFault (Json × Text) :=
  let (digits, rest) :=
    match t with
    | .char '0' :: rest => ("0".toText, rest)
    | _ => spanDigits t
  if digits.isEmpty then .error .malformed
  else
    let (fraction, rest) := (readFraction? rest).getD ([], rest)
    let (exponent, rest) := match readExponent? rest with
      | some (n, rest) => (some n, rest)
      | none => (none, rest)
    if fraction.isEmpty ∧ exponent.isNone then
      if Text.maxDigits < digits.length then .error .tooLong
      else
        let n : Int := Text.number digits
        .ok (int (if negative then -n else n), rest)
    else
      .ok (real ⟨negative, Text.number (digits ++ fraction), exponent.getD 0 - fraction.length⟩,
        rest)

/-- A number, or a name that stands for a value. -/
def readScalar (t : Text) : Except ReadFault (Json × Text) :=
  let names : List (Text × Json) :=
    [("null".toText, null), ("true".toText, bool true), ("false".toText, bool false),
      ("NaN".toText, unbounded), ("Infinity".toText, unbounded),
      ("-Infinity".toText, unbounded)]
  match names.findSome? fun (name, value) => (expect? name t).map fun rest => (value, rest) with
  | some found => .ok found
  | none =>
    match t with
    | .char '-' :: rest => readNumber true rest
    | _ => readNumber false t

/-! ## Values -/

mutual

/-- A value at the start of a text, and the text behind it. At most `depth` lists
    and objects may lie in one another. -/
def readValue : (fuel depth : Nat) → Text → Except ReadFault (Json × Text)
  | 0, _, _ => .error .malformed
  | fuel + 1, depth, t =>
    match skipBlanks t with
    | .char '"' :: rest => do
      let (s, rest) ← readString rest
      return (text s, rest)
    | .char '[' :: rest =>
      match depth, skipBlanks rest with
      | 0, _ => .error .tooDeep
      | _, .char ']' :: rest => .ok (list [], rest)
      | depth + 1, rest => do
        let (items, rest) ← readItems fuel depth rest
        return (list items, rest)
    | .char '\x7b' :: rest =>
      match depth, skipBlanks rest with
      | 0, _ => .error .tooDeep
      | _, .char '\x7d' :: rest => .ok (object [], rest)
      | depth + 1, rest => do
        let (members, rest) ← readMembers fuel depth rest
        return (object (visible members), rest)
    | t => readScalar t

/-- The items of a list up to its closing bracket, at least one. -/
def readItems : (fuel depth : Nat) → Text → Except ReadFault (List Json × Text)
  | 0, _, _ => .error .malformed
  | fuel + 1, depth, t => do
    let (item, rest) ← readValue fuel depth t
    match skipBlanks rest with
    | .char ']' :: rest => return ([item], rest)
    | .char ',' :: rest =>
      let (items, rest) ← readItems fuel depth rest
      return (item :: items, rest)
    | _ => .error .malformed

/-- The members of an object up to its closing brace, at least one. -/
def readMembers : (fuel depth : Nat) → Text → Except ReadFault (List (Text × Json) × Text)
  | 0, _, _ => .error .malformed
  | fuel + 1, depth, t => do
    let rest ← expect '"' t
    let (name, rest) ← readString rest
    let rest ← expect ':' rest
    let (value, rest) ← readValue fuel depth rest
    match skipBlanks rest with
    | .char '\x7d' :: rest => return ([(name, value)], rest)
    | .char ',' :: rest =>
      let (members, rest) ← readMembers fuel depth rest
      return ((name, value) :: members, rest)
    | _ => .error .malformed

end

/-- The value that a whole text stands for. Each step of the reader passes over a
    character, so the length of the text bounds the number of steps. -/
def parse (t : Text) : Except ReadFault Json := do
  let (value, rest) ← readValue (2 * t.length + 2) maxDepth t
  if (skipBlanks rest).isEmpty then return value else .error .malformed

end TaskDesk.Json
