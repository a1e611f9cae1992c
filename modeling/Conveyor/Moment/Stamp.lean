import Conveyor.Moment.Basic
import Conveyor.Text.Blank
import Conveyor.Text.Number

/-!
# Dates and times typed by people

A date of four digits, month and day, and perhaps a time with seconds after a `T` or blanks. Zeros
at the front of a part other than the year may be left out, and digits of every script are read
except where a zero or the first digit decides how long a part is.
-/

namespace Conveyor.Moment.Stamp

/-- A digit whose value is within bounds, written in ASCII. -/
def asciiBetween (low high : Nat) (c : Char) : Bool :=
  48 + low ≤ c.toNat && c.toNat ≤ 48 + high

def value (c : Char) : Nat := (Text.decimalValue? c).getD 0

/-- How the parts with up to two digits are written: the pairs and the single digits. -/
structure Part where
  pair : Char → Char → Bool
  single : Char → Bool

namespace Part

def month : Part where
  pair a b := (a = '1' && asciiBetween 0 2 b) || (a = '0' && asciiBetween 1 9 b)
  single := asciiBetween 1 9

/-- A day may have a blank in the place of a zero. -/
def day : Part where
  pair a b := (a = '3' && asciiBetween 0 1 b) || (asciiBetween 1 2 a && Text.isDecimal b)
    || (a = '0' && asciiBetween 1 9 b) || (a = ' ' && asciiBetween 1 9 b)
  single := asciiBetween 1 9

def hour : Part where
  pair a b := (a = '2' && asciiBetween 0 3 b) || (asciiBetween 0 1 a && Text.isDecimal b)
  single := Text.isDecimal

def minute : Part where
  pair a b := asciiBetween 0 5 a && Text.isDecimal b
  single := Text.isDecimal

def second : Part where
  pair a b := (a = '6' && asciiBetween 0 1 b) || (asciiBetween 0 5 a && Text.isDecimal b)
  single := Text.isDecimal

/-- Read a pair or else a single digit. -/
def read? (p : Part) : List Char → Option (Nat × List Char)
  | a :: b :: rest =>
    if p.pair a b then some (value a * 10 + value b, rest)
    else if p.single a then some (value a, b :: rest)
    else none
  | [a] => if p.single a then some (value a, []) else none
  | [] => none

end Part

/-- A character that has to follow. -/
def expect? (c : Char) : List Char → Option (List Char)
  | d :: rest => if c = d then some rest else none
  | [] => none

def year? : List Char → Option (Nat × List Char)
  | a :: b :: c :: d :: rest =>
    if [a, b, c, d].all Text.isDecimal then
      some (((value a * 10 + value b) * 10 + value c) * 10 + value d, rest)
    else none
  | _ => none

def date? (cs : List Char) : Option (Calendar.Date × List Char) := do
  let (year, cs) ← year? cs
  let (month, cs) ← Part.month.read? (← expect? '-' cs)
  let (day, cs) ← Part.day.read? (← expect? '-' cs)
  pure (⟨year, month, day⟩, cs)

/-- What follows the mark between date and time: a `T` in any case, or blanks. -/
def timeStart? : List Char → Option (List Char)
  | c :: rest =>
    if c = 'T' ∨ c = 't' then some rest
    else if Text.isBlank c then some (rest.dropWhile Text.isBlank)
    else none
  | [] => none

/-- The moment, without an offset, that a whole text writes. -/
def read? (s : String) : Option Moment := do
  let (date, rest) ← date? s.toList
  if rest.isEmpty then Moment.of? date 0 0 0 0 none
  else do
    let (hour, rest) ← Part.hour.read? (← timeStart? rest)
    let (minute, rest) ← Part.minute.read? (← expect? ':' rest)
    let (second, rest) ← Part.second.read? (← expect? ':' rest)
    if rest.isEmpty then Moment.of? date hour minute second 0 none else none

end Conveyor.Moment.Stamp
