import TaskDesk.Text.Blank
import TaskDesk.Text.Digit

/-!
# Numerals

How texts name whole numbers. The plain notation is a minus or nothing, and then
ASCII digits, with no zero in front of others. The loose notation adds what
leaves no doubt: blanks around the number, a plus, zeros in front, a fraction of
zeros, and single low lines between digits. Behind zeros in front, low lines may
be repeated, and a minus may follow. Numbers of more than `Text.maxDigits` digits
are not read.

Results:
* `ofText_plain`: what is in plain notation is read so.
* `plain_ne_tooLong`: a short text never has too many digits.
-/

namespace TaskDesk

/-- Why a text does not name a whole number. -/
inductive NumeralFault where
  /-- The text is in neither notation. -/
  | unreadable
  /-- The text begins like the plain notation and has too many digits. -/
  | tooLong
deriving DecidableEq, Repr

namespace Numeral

/-- The negative number, or the number itself. -/
def signed (negative : Bool) (n : Nat) : Int := if negative then -n else n

/-- A text without a minus in front, and whether there was one. -/
def splitMinus : Text → Bool × Text
  | .char '-' :: rest => (true, rest)
  | t => (false, t)

/-! ## Plain notation -/

/-- The number that a text names in plain notation. -/
def plain (t : Text) : Except NumeralFault Int :=
  let (negative, t) := splitMinus t
  match t with
  | .char '0' :: rest => if rest.isEmpty then .ok 0 else .error .unreadable
  | _ =>
    let digits := t.takeWhile CodePoint.isAsciiDigit
    if Text.maxDigits < digits.length then .error .tooLong
    else if digits.isEmpty ∨ digits ≠ t then .error .unreadable
    else .ok (signed negative (Text.number digits))

/-! ## Loose notation -/

/-- Whether a code point is passed over around a number. -/
def isMargin (c : CodePoint) : Bool := isBlank c && !(0x1c ≤ c.toNat && c.toNat ≤ 0x1f)

/-- Whether a number can begin with the code point, once zeros in front are gone. -/
def isOpening (c : CodePoint) : Bool := c == '-' || (c.isAsciiDigit && c != '0')

/-- The text from its first code point that is neither a zero nor a low line. Of
    a text that has none, and in front of a fraction, the last of these code points
    stays. -/
def dropZeros? (last : CodePoint) : Text → Option Text
  | [] => some [last]
  | c :: rest =>
    if c = '0' ∨ c = '_' then dropZeros? c rest
    else if isOpening c then some (c :: rest)
    else if c = '.' then some (last :: c :: rest)
    else none

/-- The text without zeros in front, if a number can begin so. -/
def withoutZeros? : Text → Option Text
  | [] => none
  | c :: rest =>
    if c = '0' then dropZeros? c rest
    else if isOpening c then some (c :: rest)
    else none

/-- The text without a fraction that consists of zeros. -/
def withoutFraction (t : Text) : Text :=
  match t.dropWhile (· != .char '.') with
  | _ :: zeros =>
    if !zeros.isEmpty && zeros.all (· == .char '0') then t.takeWhile (· != .char '.') else t
  | [] => t

/-- The text without low lines, if each of them stands on its own between others. -/
def withoutLines (t : Text) : Text :=
  if (Text.split '_' t).all fun group => !group.isEmpty then (Text.split '_' t).flatten else t

/-- The text in plain notation for one in loose notation. What is no number at all
    may come out as no number, or as nothing. -/
def simplify? (t : Text) : Option Text := do
  let t := Text.trimBy isMargin t
  let t ← match t with
    | .char '+' :: .char '-' :: _ => none
    | .char '+' :: rest => some rest
    | _ => some t
  let (negative, t) := splitMinus t
  let t := withoutLines (withoutFraction (← withoutZeros? t))
  return if negative then .char '-' :: t else t

/-- The number that a text names. -/
def ofText (t : Text) : Except NumeralFault Int :=
  match plain t with
  | .error .unreadable =>
    match (simplify? t).map plain with
    | some (.ok n) => .ok n
    | _ => .error .unreadable
  | outcome => outcome

theorem ofText_plain {t : Text} {n : Int} (h : plain t = .ok n) : ofText t = .ok n := by
  simp [ofText, h]

/-- Only long texts have too many digits. -/
theorem plain_ne_tooLong (t : Text) (h : t.length ≤ Text.maxDigits) : plain t ≠ .error .tooLong := by
  have short : (splitMinus t).2.length ≤ Text.maxDigits := by
    unfold splitMinus
    split
    · simp only [List.length_cons] at h ⊢; omega
    · exact h
  have runShort : ((splitMinus t).2.takeWhile CodePoint.isAsciiDigit).length ≤ Text.maxDigits :=
    Nat.le_trans (List.takeWhile_sublist _).length_le short
  unfold plain
  dsimp only
  split
  · split <;> simp
  · rw [if_neg (by omega)]
    split <;> simp

end Numeral
end TaskDesk
