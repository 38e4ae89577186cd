/-!
# Code points

The units that texts are made of. Nearly all of them are characters. The others
are halves of surrogate pairs, which mean nothing on their own: JSON can spell
them out one by one, but UTF-8 has no bytes for them.

Results:
* `toNat_lt`: numbers of code points lie below `0x110000`.
* `ofNat?_toNat`, `isSome_ofNat?`: a code point is found by its number, and every
  number below `0x110000` has one.
-/

namespace TaskDesk

/-- A unit of a text. -/
inductive CodePoint where
  /-- A character. -/
  | char (c : Char)
  /-- Half of a surrogate pair; halves are counted from the code point `0xd800`. -/
  | half (n : Fin 2048)
deriving DecidableEq, Repr

namespace CodePoint

instance : Coe Char CodePoint := ⟨char⟩

/-- The number of a code point. -/
def toNat : CodePoint → Nat
  | char c => c.toNat
  | half n => 0xd800 + n

/-- The code point with a given number, if there is one. -/
def ofNat? (n : Nat) : Option CodePoint :=
  if h : 0xd800 ≤ n ∧ n < 0xe000 then some (half ⟨n - 0xd800, by omega⟩)
  else if n < 0x110000 then some (Char.ofNat n)
  else none

/-- The character that a surrogate pair stands for, given the numbers of its
    halves, if they form one. -/
def ofPair? (first second : Nat) : Option CodePoint :=
  if 0xd800 ≤ first ∧ first < 0xdc00 ∧ 0xdc00 ≤ second ∧ second < 0xe000 then
    ofNat? (0x10000 + (first - 0xd800) * 0x400 + (second - 0xdc00))
  else none

theorem toNat_lt (c : CodePoint) : c.toNat < 0x110000 := by
  cases c with
  | char c =>
    have := c.valid
    simp only [toNat, Char.toNat, UInt32.isValidChar, Nat.isValidChar] at *
    omega
  | half n => simp only [toNat]; omega

theorem ofNat?_toNat (c : CodePoint) : ofNat? c.toNat = some c := by
  cases c with
  | char c =>
    have hv := c.valid
    have hn : ¬ (0xd800 ≤ c.toNat ∧ c.toNat < 0xe000) := by
      simp only [Char.toNat, UInt32.isValidChar, Nat.isValidChar] at *; omega
    have hl := toNat_lt (char c)
    simp only [toNat] at hl
    simp [ofNat?, toNat, hn, hl]
  | half n =>
    have h : 0xd800 ≤ 0xd800 + n.val ∧ 0xd800 + n.val < 0xe000 := by omega
    simp [ofNat?, toNat, h]

theorem isSome_ofNat? {n : Nat} (h : n < 0x110000) : (ofNat? n).isSome = true := by
  unfold ofNat?
  split
  · rfl
  · simp

/-- Whether a code point is a character. -/
def isChar : CodePoint → Bool
  | char _ => true
  | half _ => false

/-- Whether a code point is one of the ten ASCII digits. -/
def isAsciiDigit : CodePoint → Bool
  | char c => c.isDigit
  | half _ => false

/-- The number of bytes of a code point in UTF-8. A half would take three. -/
def utf8Size : CodePoint → Nat
  | char c => c.utf8Size
  | half _ => 3

end CodePoint
end TaskDesk
