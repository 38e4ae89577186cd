import TaskDesk.Text.Basic
import TaskDesk.Text.Ranges

/-!
# Decimal digits

The decimal digits of every script come in blocks of ten, from zero to nine.
Numbers are read from the digits of any script and written with ASCII digits.

Results:
* `digitValue?_lt`: the value of a digit is below ten.
* `length_digits`: a number written in `width` places has `width` characters.
* `number_digits`: a number written in enough places is read back.
-/

namespace TaskDesk

/-- Decimal digits beyond ASCII, as ranges of code points; each range is a whole number
    of blocks that run from zero to nine. -/
def digitBlocks : List (Nat × Nat) :=
  [(0x660, 0x669), (0x6f0, 0x6f9), (0x7c0, 0x7c9), (0x966, 0x96f), (0x9e6, 0x9ef),
   (0xa66, 0xa6f), (0xae6, 0xaef), (0xb66, 0xb6f), (0xbe6, 0xbef), (0xc66, 0xc6f),
   (0xce6, 0xcef), (0xd66, 0xd6f), (0xde6, 0xdef), (0xe50, 0xe59), (0xed0, 0xed9),
   (0xf20, 0xf29), (0x1040, 0x1049), (0x1090, 0x1099), (0x17e0, 0x17e9), (0x1810, 0x1819),
   (0x1946, 0x194f), (0x19d0, 0x19d9), (0x1a80, 0x1a89), (0x1a90, 0x1a99), (0x1b50, 0x1b59),
   (0x1bb0, 0x1bb9), (0x1c40, 0x1c49), (0x1c50, 0x1c59), (0xa620, 0xa629), (0xa8d0, 0xa8d9),
   (0xa900, 0xa909), (0xa9d0, 0xa9d9), (0xa9f0, 0xa9f9), (0xaa50, 0xaa59), (0xabf0, 0xabf9),
   (0xff10, 0xff19), (0x104a0, 0x104a9), (0x10d30, 0x10d39), (0x11066, 0x1106f),
   (0x110f0, 0x110f9), (0x11136, 0x1113f), (0x111d0, 0x111d9), (0x112f0, 0x112f9),
   (0x11450, 0x11459), (0x114d0, 0x114d9), (0x11650, 0x11659), (0x116c0, 0x116c9),
   (0x11730, 0x11739), (0x118e0, 0x118e9), (0x11950, 0x11959), (0x11c50, 0x11c59),
   (0x11d50, 0x11d59), (0x11da0, 0x11da9), (0x16a60, 0x16a69), (0x16ac0, 0x16ac9),
   (0x16b50, 0x16b59), (0x1d7ce, 0x1d7ff), (0x1e140, 0x1e149), (0x1e2f0, 0x1e2f9),
   (0x1e950, 0x1e959), (0x1fbf0, 0x1fbf9)]

/-- `digitBlocks` as a search tree. -/
def digitTree : RangeTree Unit := RangeTree.ofSorted 7 (digitBlocks.map fun r => (r.1, r.2, ()))

/-- The value of a decimal digit of any script. -/
def digitValue? : CodePoint → Option Nat
  | .char c =>
    if c.toNat < 128 then
      if c.isDigit then some ((c.toNat - '0'.toNat) % 10) else none
    else (digitTree.find? c.toNat).map fun found => found.1 % 10
  | .half _ => none

/-- Whether a code point is a decimal digit of any script. -/
def isDigit (c : CodePoint) : Bool := (digitValue? c).isSome

theorem digitValue?_lt {c : CodePoint} {n : Nat} (h : digitValue? c = some n) : n < 10 := by
  unfold digitValue? at h
  split at h
  · split at h
    · split at h
      · cases h; exact Nat.mod_lt _ (by decide)
      · cases h
    · obtain ⟨found, -, rfl⟩ := Option.map_eq_some_iff.1 h
      exact Nat.mod_lt _ (by decide)
  · cases h

/-- The character that writes a number below ten. -/
def digitChar (n : Nat) : CodePoint := Char.ofNat ('0'.toNat + n % 10)

theorem digitValue?_digitChar (n : Nat) : digitValue? (digitChar n) = some (n % 10) := by
  have key : ∀ m < 10, digitValue? (digitChar m) = some m := by decide
  have same : digitChar n = digitChar (n % 10) := by simp [digitChar]
  rw [same]
  exact key _ (Nat.mod_lt _ (by decide))

namespace Text

/-- The largest number of digits that are read as one number where clients may send
    any number. -/
def maxDigits : Nat := 4300

/-- The number that a text of digits stands for; other characters count as zero. -/
def number (t : Text) : Nat := t.foldl (fun n c => 10 * n + (digitValue? c).getD 0) 0

/-- The last `width` decimal places of a number, with leading zeros. -/
def digits : (width : Nat) → Nat → Text
  | 0, _ => []
  | width + 1, n => digits width (n / 10) ++ [digitChar n]

/-- A number in decimal, without leading zeros. -/
def decimal (n : Nat) : Text := (Nat.toDigits 10 n).map .char

theorem length_digits (width n : Nat) : (digits width n).length = width := by
  induction width generalizing n with
  | zero => rfl
  | succ width ih => simp [digits, ih]

theorem number_digits (width n : Nat) (h : n < Nat.pow 10 width) : number (digits width n) = n := by
  induction width generalizing n with
  | zero => simp at h; simp [h, number, digits]
  | succ width ih =>
    have hn : n / 10 < Nat.pow 10 width := (Nat.div_lt_iff_lt_mul (by decide)).2 h
    have := ih _ hn
    simp only [number] at this
    simp only [number, digits, List.foldl_append, this, List.foldl_cons, List.foldl_nil,
      digitValue?_digitChar, Option.getD_some]
    omega

end Text
end TaskDesk
