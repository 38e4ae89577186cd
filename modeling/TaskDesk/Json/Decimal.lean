/-!
# Numbers with a fraction or an exponent

A number that is written with a fraction or an exponent is kept as it is
written, and is meant to the precision of 53 binary places. No record has a
field for such numbers, so all that is asked of one is whether it is whole after
rounding, and which whole number it then is.
-/

namespace TaskDesk.Json

/-- The number `digits * 10 ^ exponent`, or its negative. -/
structure Decimal where
  negative : Bool
  digits : Nat
  exponent : Int
deriving DecidableEq, Repr

/-- What becomes of a number when it is rounded to 53 binary places. -/
inductive Rounded where
  /-- A whole number. -/
  | whole (n : Int)
  /-- A number that is not whole. -/
  | fraction
  /-- No finite number. -/
  | unbounded
deriving DecidableEq, Repr

/-- The quotient rounded to the nearest whole number, a tie going to the even
    neighbour. -/
def divEven (num den : Nat) : Nat :=
  let q := num / den
  let r := num % den
  if 2 * r < den ∨ (2 * r = den ∧ q % 2 = 0) then q else q + 1

/-- The positive number `num / den` rounded to 53 binary places, or to the
    multiples of `2 ^ (-1074)` where these are coarser. -/
def Rounded.ofQuotient (num den : Nat) : Rounded :=
  let guess : Int := (Nat.log2 num : Int) - Nat.log2 den - 52
  let scaled (k : Int) : Nat × Nat := (num * Nat.pow 2 (-k).toNat, den * Nat.pow 2 k.toNat)
  let exact := if (scaled guess).1 / (scaled guess).2 < Nat.pow 2 52 then guess - 1 else guess
  let k := max exact (-1074)
  let q := divEven (scaled k).1 (scaled k).2
  if 0 ≤ k then
    let n := q * Nat.pow 2 k.toNat
    if n < Nat.pow 2 1024 then whole n else unbounded
  else if q % Nat.pow 2 (-k).toNat = 0 then whole (q / Nat.pow 2 (-k).toNat : Nat)
  else fraction

namespace Decimal

/-- The number after rounding. Far outside the range of numbers the outcome is
    known without computing the power. -/
def rounded (x : Decimal) : Rounded :=
  let places : Int := (Nat.toDigits 10 x.digits).length
  if x.digits = 0 then .whole 0
  else if 400 < places + x.exponent then .unbounded
  else if places + x.exponent < -400 then .whole 0
  else
    match Rounded.ofQuotient (x.digits * Nat.pow 10 x.exponent.toNat)
        (Nat.pow 10 (-x.exponent).toNat) with
    | .whole n => .whole (if x.negative then -n else n)
    | other => other

end Decimal
end TaskDesk.Json
