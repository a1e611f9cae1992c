import Conveyor.Value.Basic
import Conveyor.Binary64.Shortest
import Conveyor.Text.Quoted

/-!
# Values in messages

How values appear in error messages and in text built from them. A text stands for itself at the
top and is quoted inside other values.
-/

namespace Conveyor

-- The power `^` is the core library's, whatever else is imported.
attribute [local instance (high)] instPowNat

/-- An integer in decimal. -/
def decimalText (n : Int) : List Char :=
  if n < 0 then '-' :: decimalDigits n.natAbs else decimalDigits n.natAbs

namespace Binary64

/-- A double as messages show it. -/
def display (x : Binary64) : List Char :=
  if x.isNan then "nan".toList
  else if x.isInfinite then if x.negative then "-inf".toList else "inf".toList
  else DecimalLayout.document.writeFinite x

def displayText (x : Binary64) : String := String.ofList x.display

end Binary64

namespace Value

mutual

/-- A value inside a message, with texts quoted. -/
def shown : Value → List Char
  | .null => "None".toList
  | .bool b => if b then "True".toList else "False".toList
  | .int n => decimalText n
  | .float x => x.display
  | .text s => (Text.quoted s).toList
  | .list items => '[' :: (shownItems items ++ [']'])
  | .object fs => '\x7b' :: (shownFields fs ++ ['\x7d'])
  | .sealed fs => "mappingproxy(".toList ++ '\x7b' :: (shownFields fs ++ ['\x7d', ')'])

def shownItems : List Value → List Char
  | [] => []
  | v :: rest => shown v ++ (if rest.isEmpty then [] else [',', ' ']) ++ shownItems rest

def shownFields : List (String × Value) → List Char
  | [] => []
  | (k, v) :: rest =>
    (Text.quoted k).toList ++ [':', ' '] ++ shown v
      ++ (if rest.isEmpty then [] else [',', ' ']) ++ shownFields rest

end

/-- A value as quoted in a message. -/
def quoted (v : Value) : String := String.ofList v.shown

/-- A value as text: a text is itself. -/
def displayed : Value → String
  | .text s => s
  | .sealed fs => String.ofList ('\x7b' :: (shownFields fs ++ ['\x7d']))
  | v => v.quoted

mutual

/-- Whether a value can be shown at all: no integer in it has more than 4300 digits. -/
def isShowable : Value → Bool
  | .int n => n.natAbs < (10 : Nat) ^ (4300 : Nat)
  | .list items => itemsAreShowable items
  | .object fs => fieldsAreShowable fs
  | .sealed fs => fieldsAreShowable fs
  | _ => true

def itemsAreShowable : List Value → Bool
  | [] => true
  | v :: rest => isShowable v && itemsAreShowable rest

def fieldsAreShowable : List (String × Value) → Bool
  | [] => true
  | (_, v) :: rest => isShowable v && fieldsAreShowable rest

end

/-- The text of a value, if it has one. -/
def text? (v : Value) : Option String := if v.isShowable then some v.displayed else none

theorem text?_eq_none_iff {v : Value} : v.text? = none ↔ v.isShowable = false := by
  unfold text?
  cases v.isShowable <;> simp

end Value
end Conveyor
