import Conveyor.Binary64.Basic
import Conveyor.Keyed

/-!
# Values

The data that records carry and steps exchange. Integers of any size and doubles are different
kinds; an object keeps the order of its fields. A sealed object is one that a run shares with all
of its steps and that none of them may change: it can be looked into, but it is not itself data
that can be written out.
-/

namespace Conveyor

inductive Value where
  | null
  | bool (b : Bool)
  | int (n : Int)
  | float (x : Binary64)
  | text (s : String)
  | list (items : List Value)
  | object (fields : List (String × Value))
  | sealed (fields : List (String × Value))
  deriving Inhabited

/-- The fields of an object. -/
abbrev Fields := Keyed Value

def Fields.values (fs : Fields) : List Value := fs.map (·.2)

namespace Value

/-- The fields of a value that can be looked into by name. -/
def fields? : Value → Option Fields
  | .object fs => some fs
  | .sealed fs => some fs
  | _ => none

/-- Whether a value counts as given: not null, not false, not zero and not empty. -/
def isTruthy : Value → Bool
  | .null => false
  | .bool b => b
  | .int n => n ≠ 0
  | .float x => !x.isZero
  | .text s => !s.isEmpty
  | .list items => !items.isEmpty
  | .object fs => !fs.isEmpty
  | .sealed fs => !fs.isEmpty

def isNull : Value → Bool
  | .null => true
  | _ => false

/-- The name of a value's kind. -/
def kindName : Value → String
  | .null => "NoneType"
  | .bool _ => "bool"
  | .int _ => "int"
  | .float _ => "float"
  | .text _ => "str"
  | .list _ => "list"
  | .object _ => "dict"
  | .sealed _ => "mappingproxy"

/-- Values of these kinds can be keys of a table; lists and objects cannot. -/
def isAtom : Value → Bool
  | .list _ | .object _ | .sealed _ => false
  | _ => true

mutual

/-- Whether a sealed object occurs in the value, so that it cannot be written as a document. -/
def holdsSealed : Value → Bool
  | .list items => listHoldsSealed items
  | .object fs => fieldsHoldSealed fs
  | .sealed _ => true
  | _ => false

def listHoldsSealed : List Value → Bool
  | [] => false
  | v :: rest => holdsSealed v || listHoldsSealed rest

def fieldsHoldSealed : List (String × Value) → Bool
  | [] => false
  | (_, v) :: rest => holdsSealed v || fieldsHoldSealed rest

end

mutual

/-- Whether a double that is no number of JSON occurs in the value. -/
def holdsNonFinite : Value → Bool
  | .float x => !x.isFinite
  | .list items => listHoldsNonFinite items
  | .object fs => fieldsHoldNonFinite fs
  | .sealed fs => fieldsHoldNonFinite fs
  | _ => false

def listHoldsNonFinite : List Value → Bool
  | [] => false
  | v :: rest => holdsNonFinite v || listHoldsNonFinite rest

def fieldsHoldNonFinite : List (String × Value) → Bool
  | [] => false
  | (_, v) :: rest => holdsNonFinite v || fieldsHoldNonFinite rest

end

/-- A value read as a number: booleans count as one and zero. -/
def number? : Value → Option (Int ⊕ Binary64)
  | .bool b => some (.inl (if b then 1 else 0))
  | .int n => some (.inl n)
  | .float x => some (.inr x)
  | _ => none

/-- The integer that a number equals. -/
def whole? (v : Value) : Option Int :=
  match v.number? with
  | some (.inl n) => some n
  | some (.inr x) => if x.isFinite && x.isIntegral then some x.truncate else none
  | none => none

end Value
end Conveyor
