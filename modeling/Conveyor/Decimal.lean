import Conveyor.Binary64.Reading
import Conveyor.Text.Blank
import Conveyor.Text.Digit

/-!
# Decimals

Exact decimal numbers, read from text and rounded to a number of places. A rounded decimal has at
most 28 digits.
-/

namespace Conveyor

-- The power `^` is the core library's, whatever else is imported.
attribute [local instance (high)] instPowNat

/-- A decimal number, or one of the words that stand where a number should. -/
inductive Decimal where
  | finite (n : Numeral)
  | infinite
  | nan
  | signalling

namespace Decimal

/-- The most digits of a rounded decimal. -/
def precision : Nat := 28

/-- The greatest power of ten that a rounded decimal reaches. -/
def greatestExponent : Int := 999999

/-- The least power of ten of a digit. -/
def leastExponent : Int := -1000026

/-- The most places by which a power of ten may be asked for: twice the range of the exponents. -/
def greatestShift : Nat := 2000054

/-- The greatest power of ten of any digit of a decimal that is read. -/
def greatestWritten : Int := 999999999999999999

/-- The least power of ten of any digit of a decimal that is read. -/
def leastWritten : Int := -1999999999999999997

/-- Why a decimal cannot be rounded as asked. -/
inductive RoundingError where
  /-- There is no such decimal, or no decimal that is near enough to it. -/
  | impossible
  /-- The power of ten to round to is beyond every decimal. -/
  | overflow
  deriving DecidableEq, Repr

/-- The text of a word in lower case. -/
def word (cs : List Char) : String := String.ofList (cs.map Char.toLower)

/-- Digits after a word that is no number. -/
def isDigits (cs : List Char) : Bool := cs.all fun c => (Text.decimalValue? c).isSome

/-- The number of decimal digits of a coefficient. -/
def digitCount (n : Nat) : Nat := (Nat.toDigits 10 n).length

/-- Whether the digits of a numeral lie in the range of the decimals that can be read. -/
def isWritable (n : Numeral) : Bool :=
  leastWritten ≤ n.exponent && n.exponent + (digitCount n.coefficient - 1 : Nat) ≤ greatestWritten

/-- The decimal that a text writes. Blanks around it and underscores anywhere are passed over. -/
def read? (s : String) : Option Decimal :=
  let cs := (Text.trimChars s.toList).filter (· ≠ '_')
  match Numeral.read? cs with
  | some n => if isWritable n then some (.finite n) else none
  | none =>
    let (_, body) := Numeral.takeSign cs
    if word body = "inf" ∨ word body = "infinity" then some .infinite
    else if word (body.take 3) = "nan" ∧ isDigits (body.drop 3) then some .nan
    else if word (body.take 4) = "snan" ∧ isDigits (body.drop 4) then some .signalling
    else none

/-- The power of ten of the last digit of a number rounded to so many places. -/
def lastDigit (places : Int) : Except RoundingError Int :=
  if greatestShift < places.natAbs then .error .impossible
  else if greatestExponent < -places then .error .overflow
  else .ok (max leastExponent (-places))

/-- The quotient rounded to the nearest integer, away from zero between two. -/
def roundHalfUp (n d : Nat) : Nat := (2 * n + d) / (2 * d)

/-- The nearest multiple of `10 ^ e`, ties away from zero, as a coefficient of that power. None if
it has too many digits. -/
def roundTo? (n : Numeral) (e : Int) : Option Nat :=
  if n.coefficient = 0 then some 0
  else if e ≤ n.exponent then
    let shift := (n.exponent - e).toNat
    if precision < digitCount n.coefficient + shift then none
    else some (n.coefficient * 10 ^ shift)
  else
    let shift := (e - n.exponent).toNat
    if digitCount n.coefficient < shift then some 0
    else
      let c := roundHalfUp n.coefficient (10 ^ shift)
      if precision < digitCount c then none else some c

end Decimal
end Conveyor
