import TaskDesk.Text.Basic

/-!
# Texts as bytes

Bytes that are sent as a JSON text are read in the encoding that they show
themselves. A byte order mark in front names it, and is no part of the text.
Without a mark it is seen from the zeros among the first bytes, since JSON begins
with an ASCII character: they tell UTF-16 and UTF-32, in either order of bytes,
from UTF-8. Halves of surrogate pairs that stand alone are let through.

Results:
* `ofUtf8From_ascii`: in UTF-8, ASCII characters are their own bytes.
-/

namespace TaskDesk

/-- The order of the bytes of a number: the most significant one first, or last. -/
inductive ByteOrder where
  | big | little
deriving DecidableEq, Repr

/-- The number that a list of bytes stands for. -/
def ByteOrder.number (order : ByteOrder) (bytes : List UInt8) : Nat :=
  let ordered := match order with
    | big => bytes
    | little => bytes.reverse
  ordered.foldl (fun n b => 256 * n + b.toNat) 0

/-- The ways to write texts as bytes. -/
inductive Encoding where
  | utf8
  | utf16 (order : ByteOrder)
  | utf32 (order : ByteOrder)
deriving DecidableEq, Repr

namespace Encoding

/-- The byte order marks with what they say, in the order in which they are tried. -/
def marks : List (List UInt8 × Encoding) :=
  [([0x00, 0x00, 0xfe, 0xff], utf32 .big), ([0xff, 0xfe, 0x00, 0x00], utf32 .little),
    ([0xfe, 0xff], utf16 .big), ([0xff, 0xfe], utf16 .little), ([0xef, 0xbb, 0xbf], utf8)]

/-- The encoding that is seen from the zeros among the first bytes. -/
def ofZeros : List UInt8 → Encoding
  | a :: b :: c :: d :: _ =>
    if a = 0 then if b = 0 then utf32 .big else utf16 .big
    else if b = 0 then if c = 0 ∧ d = 0 then utf32 .little else utf16 .little
    else utf8
  | [a, b] => if a = 0 then utf16 .big else if b = 0 then utf16 .little else utf8
  | _ => utf8

/-- The encoding that bytes show, and the bytes behind the mark. -/
def detect (bytes : List UInt8) : Encoding × List UInt8 :=
  match marks.find? fun (mark, _) => mark.isPrefixOf bytes with
  | some (mark, encoding) => (encoding, bytes.drop mark.length)
  | none => (ofZeros bytes, bytes)

end Encoding

namespace Text

/-! ## UTF-8 -/

/-- The text of bytes in UTF-8, where `owed` bytes are still missing of a code
    point whose number is at least `least` and has been read as far as `number`. -/
def ofUtf8From : (number owed least : Nat) → List UInt8 → Option Text
  | _, 0, _, [] => some []
  | _, _ + 1, _, [] => none
  | _, 0, _, b :: rest =>
    let n := b.toNat
    if n < 0x80 then (ofUtf8From 0 0 0 rest).map ((Char.ofNat n : CodePoint) :: ·)
    else if 0xc0 ≤ n ∧ n < 0xe0 then ofUtf8From (n - 0xc0) 1 0x80 rest
    else if 0xe0 ≤ n ∧ n < 0xf0 then ofUtf8From (n - 0xe0) 2 0x800 rest
    else if 0xf0 ≤ n ∧ n < 0xf8 then ofUtf8From (n - 0xf0) 3 0x10000 rest
    else none
  | number, owed + 1, least, b :: rest =>
    let n := number * 64 + (b.toNat - 0x80)
    if b.toNat < 0x80 ∨ 0xc0 ≤ b.toNat then none
    else if owed = 0 then
      if n < least then none
      else (CodePoint.ofNat? n).bind fun c => (ofUtf8From 0 0 0 rest).map (c :: ·)
    else ofUtf8From n owed least rest

theorem ofUtf8From_ascii (bytes : List UInt8) (h : ∀ b ∈ bytes, b.toNat < 0x80) :
    ofUtf8From 0 0 0 bytes = some (bytes.map fun b => .char (Char.ofNat b.toNat)) := by
  induction bytes with
  | nil => rfl
  | cons b rest ih =>
    have hb := h b List.mem_cons_self
    have hr := ih fun c hc => h c (List.mem_cons_of_mem b hc)
    simp [ofUtf8From, hb, hr]

/-! ## UTF-16 and UTF-32 -/

/-- The numbers that pairs of bytes stand for, if the bytes come in pairs. -/
def pairs (order : ByteOrder) : List UInt8 → Option (List Nat)
  | [] => some []
  | [_] => none
  | a :: b :: rest => (pairs order rest).map (order.number [a, b] :: ·)

/-- The numbers that groups of four bytes stand for, if the bytes come in such
    groups. -/
def quads (order : ByteOrder) : List UInt8 → Option (List Nat)
  | [] => some []
  | a :: b :: c :: d :: rest => (quads order rest).map (order.number [a, b, c, d] :: ·)
  | _ => none

/-- The text of units of UTF-16. -/
def ofUtf16 : List Nat → Text
  | [] => []
  | [n] => (CodePoint.ofNat? n).toList
  | n :: m :: rest =>
    match CodePoint.ofPair? n m with
    | some c => c :: ofUtf16 rest
    | none => (CodePoint.ofNat? n).toList ++ ofUtf16 (m :: rest)

/-! ## Bytes -/

/-- The text that bytes stand for in an encoding, if they are a text. -/
def decode? (encoding : Encoding) (bytes : List UInt8) : Option Text :=
  match encoding with
  | .utf8 => ofUtf8From 0 0 0 bytes
  | .utf16 order => (pairs order bytes).map ofUtf16
  | .utf32 order => (quads order bytes).bind fun ns => ns.mapM CodePoint.ofNat?

/-- The text that bytes stand for in the encoding that they show. -/
def ofBytes? (bytes : List UInt8) : Option Text :=
  let (encoding, bytes) := Encoding.detect bytes
  decode? encoding bytes

end Text
end TaskDesk
