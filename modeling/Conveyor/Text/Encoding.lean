/-!
# Texts as bytes

Reading texts off bytes: in units of two or four bytes, whole or not at all, or in units of one byte
with a replacement for whatever is broken. Bytes are written in base 64 as well.
-/

namespace Conveyor.Text

/-- The bytes of a text. -/
def bytesOf (s : String) : List Nat := s.toUTF8.data.toList.map UInt8.toNat

/-- What stands for a character that cannot be read. -/
def replacement : Char := Char.ofNat 0xFFFD

/-- The character of a code point; half a character is replaced. -/
def charOfCode (n : Nat) : Char := if 0xD800 ≤ n ∧ n ≤ 0xDFFF then replacement else Char.ofNat n

/-- Numbers of two bytes each. -/
def pairsOf? (bigEndian : Bool) : List Nat → Option (List Nat)
  | [] => some []
  | [_] => none
  | a :: b :: rest =>
    (pairsOf? bigEndian rest).map ((if bigEndian then a * 256 + b else b * 256 + a) :: ·)

/-- The characters of numbers of two bytes, of which two may make one character. -/
def charsOfPairs : List Nat → List Char
  | [] => []
  | [n] => [charOfCode n]
  | high :: low :: rest =>
    if 0xD800 ≤ high ∧ high ≤ 0xDBFF ∧ 0xDC00 ≤ low ∧ low ≤ 0xDFFF then
      Char.ofNat (0x10000 + (high - 0xD800) * 0x400 + (low - 0xDC00)) :: charsOfPairs rest
    else charOfCode high :: charsOfPairs (low :: rest)

/-- The characters of numbers of two numbers each, none of them too great for a character. -/
def charsOfQuads? (bigEndian : Bool) : List Nat → Option (List Char)
  | [] => some []
  | [_] => none
  | a :: b :: rest => do
    let n := if bigEndian then a * 65536 + b else b * 65536 + a
    if 0x10FFFF < n then none
    else (charsOfQuads? bigEndian rest).map (charOfCode n :: ·)

/-- The text that bytes write in units of two or four bytes. -/
def ofWideUnits? (bigEndian isQuadruple : Bool) (bytes : List Nat) : Option String := do
  let pairs ← pairsOf? bigEndian bytes
  let cs ← if isQuadruple then charsOfQuads? bigEndian pairs else some (charsOfPairs pairs)
  some (String.ofList cs)

/-- A character that is being read: how many bytes are owed, the bounds of the next of them, and the
bits so far. -/
structure Reading8 where
  owed : Nat
  least : Nat
  greatest : Nat
  bits : Nat

/-- The character that a byte starts, or a whole character, or a replacement. -/
def startChar (b : Nat) : Option Char × Option Reading8 :=
  if b < 0x80 then (some (Char.ofNat b), none)
  else if 0xC2 ≤ b ∧ b ≤ 0xDF then (none, some ⟨1, 0x80, 0xBF, b - 0xC0⟩)
  else if 0xE0 ≤ b ∧ b ≤ 0xEF then
    (none, some ⟨2, if b = 0xE0 then 0xA0 else 0x80, if b = 0xED then 0x9F else 0xBF, b - 0xE0⟩)
  else if 0xF0 ≤ b ∧ b ≤ 0xF4 then
    (none, some ⟨3, if b = 0xF0 then 0x90 else 0x80, if b = 0xF4 then 0x8F else 0xBF, b - 0xF0⟩)
  else (some replacement, none)

/-- The characters of bytes in units of one byte. The longest start of a character that is not
completed is replaced. -/
def charsOfBytes : Option Reading8 → List Nat → List Char
  | none, [] => []
  | some _, [] => [replacement]
  | none, b :: rest =>
    let (c, reading) := startChar b
    c.toList ++ charsOfBytes reading rest
  | some r, b :: rest =>
    if r.least ≤ b ∧ b ≤ r.greatest then
      let bits := r.bits * 64 + (b - 0x80)
      if r.owed = 1 then Char.ofNat bits :: charsOfBytes none rest
      else charsOfBytes (some ⟨r.owed - 1, 0x80, 0xBF, bits⟩) rest
    else
      let (c, reading) := startChar b
      replacement :: (c.toList ++ charsOfBytes reading rest)

/-- The text of bytes in units of one byte. -/
def ofBytes (bytes : List Nat) : String := String.ofList (charsOfBytes none bytes)

/-- The digit of six bits. -/
def digit64 (n : Nat) : Char :=
  if n < 26 then Char.ofNat (65 + n)
  else if n < 52 then Char.ofNat (71 + n)
  else if n < 62 then Char.ofNat (n - 4)
  else if n = 62 then '+' else '/'

/-- Three bytes as four digits; equals signs stand for what is missing at the end. -/
def base64 : List Nat → List Char
  | [] => []
  | [a] => [digit64 (a / 4), digit64 (a % 4 * 16), '=', '=']
  | [a, b] => [digit64 (a / 4), digit64 (a % 4 * 16 + b / 16), digit64 (b % 16 * 4), '=']
  | a :: b :: c :: rest =>
    digit64 (a / 4) :: digit64 (a % 4 * 16 + b / 16) :: digit64 (b % 16 * 4 + c / 64)
      :: digit64 (c % 64) :: base64 rest

end Conveyor.Text
