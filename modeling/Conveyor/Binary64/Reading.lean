import Conveyor.Binary64.Basic
import Conveyor.Text.Digit

/-!
# Decimal numerals

A numeral is a sign, digits, and an exponent of ten. It is read off its characters once, and then
taken as a double or as an exact decimal.
-/

namespace Conveyor

/-- `± coefficient · 10 ^ exponent`. -/
structure Numeral where
  negative : Bool
  coefficient : Nat
  exponent : Int
  deriving Repr

namespace Numeral

def toBinary64 (n : Numeral) : Binary64 := .ofDecimal n.negative n.coefficient n.exponent

/-- The leading digits of any script, by value. -/
def takeDigits : List Char → List Nat × List Char
  | [] => ([], [])
  | c :: rest =>
    match Text.decimalValue? c with
    | some d => let (ds, rest) := takeDigits rest; (d :: ds, rest)
    | none => ([], c :: rest)

/-- A sign, if there is one. -/
def takeSign : List Char → Bool × List Char
  | '-' :: rest => (true, rest)
  | '+' :: rest => (false, rest)
  | cs => (false, cs)

/-- The exponent part `e…`, which must then hold digits; without the mark the exponent is zero. -/
def takeExponent? : List Char → Option (Int × List Char)
  | c :: rest =>
    if c = 'e' ∨ c = 'E' then
      let (negative, rest) := takeSign rest
      match takeDigits rest with
      | ([], _) => none
      | (ds, rest) =>
        let n : Int := Text.ofDigits ds
        some (if negative then -n else n, rest)
    else some (0, c :: rest)
  | [] => some (0, [])

/-- A whole text read as digits with an optional point and exponent, at least one digit before
the exponent. -/
def read? (cs : List Char) : Option Numeral :=
  let (negative, cs) := takeSign cs
  let (whole, cs) := takeDigits cs
  let (part, cs) := match cs with
    | '.' :: rest => takeDigits rest
    | _ => ([], cs)
  if whole.isEmpty && part.isEmpty then none
  else match takeExponent? cs with
    | some (e, []) => some ⟨negative, Text.ofDigits (whole ++ part), e - part.length⟩
    | _ => none

end Numeral
end Conveyor
