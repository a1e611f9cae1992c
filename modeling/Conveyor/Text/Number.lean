import Conveyor.Binary64.Reading
import Conveyor.Text.Blank
import Conveyor.Text.LetterCase

/-!
# Numbers written by people

Numbers in texts are read generously: blanks around them, a sign, digits of any script, and single
underscores between digits are all accepted. Integers of more than 4300 digits are refused.
-/

namespace Conveyor.Text

def isDecimal (c : Char) : Bool := (decimalValue? c).isSome

/-- The characters without underscores, each of which must stand between two digits; `afterDigit`
tells whether a digit came right before. -/
def joinDigits? (afterDigit : Bool) : List Char → Option (List Char)
  | [] => some []
  | c :: rest =>
    if c = '_' then
      match rest with
      | [] => none
      | d :: _ => if afterDigit && isDecimal d then joinDigits? false rest else none
    else (joinDigits? (isDecimal c) rest).map (c :: ·)

/-- The integer that a trimmed text writes. -/
def integerOf? (cs : List Char) : Option Int := do
  let cs ← joinDigits? false cs
  let (negative, digits) := Numeral.takeSign cs
  if 4300 < digits.length then none
  else
    let n ← natOfDigits? digits
    pure (if negative then -(n : Int) else n)

/-- The words for infinity and NaN, in any case and after a sign. -/
def wordNumber? (cs : List Char) : Option Binary64 :=
  let (negative, word) := Numeral.takeSign cs
  let word := String.ofList (word.map Char.toLower)
  if word = "inf" ∨ word = "infinity" then some (.infinity negative)
  else if word = "nan" then some .nan
  else none

/-- The double that a trimmed text writes. -/
def doubleOf? (cs : List Char) : Option Binary64 :=
  match wordNumber? cs with
  | some x => some x
  | none => do
    let cs ← joinDigits? false cs
    let n ← Numeral.read? cs
    pure n.toBinary64

/-- The integer a text writes, blanks around it aside. -/
def readInteger? (s : String) : Option Int := integerOf? (trimChars s.toList)

/-- The double a text writes, blanks around it aside. -/
def readDouble? (s : String) : Option Binary64 := doubleOf? (trimChars s.toList)

end Conveyor.Text
