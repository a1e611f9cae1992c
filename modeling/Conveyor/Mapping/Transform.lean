import Conveyor.Mapping.Coercion
import Conveyor.Moment.Pattern
import Conveyor.Decimal

/-!
# Transforms

What a mapping may do to a value before it is coerced. Every transform works on the text of the
value, except that rounding and dates read it as a number and a moment.
-/

namespace Conveyor.Mapping

-- The power `^` is the core library's, whatever else is imported.
attribute [local instance (high)] instPowNat

/-- The transforms there are. -/
inductive Transform where
  | uppercase | lowercase | trim | round | dateFormat | prepend | append
  deriving DecidableEq, Repr

namespace Transform

def all : List Transform :=
  [.uppercase, .lowercase, .trim, .round, .dateFormat, .prepend, .append]

def name : Transform → String
  | .uppercase => "uppercase"
  | .lowercase => "lowercase"
  | .trim => "trim"
  | .round => "round"
  | .dateFormat => "date_format"
  | .prepend => "prefix"
  | .append => "suffix"

def ofName? (s : String) : Option Transform := all.find? fun t => t.name = s

end Transform

/-- The places that a parameter asks for. -/
def places? (param : Option String) : Option Int :=
  match param with
  | none => some 0
  | some p => if p.isEmpty then some 0 else Text.readInteger? p

/-- The multiple of `10 ^ e` nearest to the number that a value denotes: an integer, unless decimal
places were asked for. -/
def nearest? (v : Value) (places e : Int) : Option Value := do
  match ← Decimal.read? (← v.text?) with
  | .finite n =>
    let c ← Decimal.roundTo? n e
    if places ≤ 0 then
      let r : Int := c * 10 ^ e.toNat
      some (.int (if n.negative then -r else r))
    else some (.float (.ofDecimal n.negative c e))
  | .nan => if places ≤ 0 then none else some (.float .nan)
  | _ => none

/-- Round a value to the number of places that the parameter gives, ties away from zero. Without
decimal places the result is an integer. The places are judged before the value. -/
def roundValue (v : Value) (param : Option String) : Except Decimal.RoundingError Value :=
  match v, places? param with
  | .bool _, _ => .error .impossible
  | _, none => .error .impossible
  | v, some places => do
    let e ← Decimal.lastDigit places
    match nearest? v places e with
    | some w => .ok w
    | none => .error .impossible

/-- The pattern that a parameter stands for: a pattern with directives, or one with the names of
the parts of a date. -/
def datePattern (param : Option String) : String :=
  match param with
  | none => "%Y-%m-%d"
  | some p =>
    if p.isEmpty then "%Y-%m-%d"
    else if p.toList.contains '%' then p
    else String.ofList (Moment.directivesOf 0 p.toList)

/-- The failure of a transform on a value that it does not take. -/
def untransformable (t : Transform) (field : String) : Failure :=
  .mapping (.untransformable field t.name)

/-- What a transform makes of the text of a value, which needs to have one. -/
def transformText (t : Transform) (f : String → String) (v : Value) (field : String) :
    Except Failure Value :=
  match v.text? with
  | some s => .ok (.text (f s))
  | none => .error (untransformable t field)

/-- Transform the value of a field. -/
def transform (t : Transform) (v : Value) (param : Option String) (field : String) :
    Except Failure Value :=
  match t with
  | .uppercase => transformText t Text.upper v field
  | .lowercase => transformText t Text.lower v field
  | .trim => transformText t Text.trim v field
  | .round => (roundValue v param).mapError fun
    | .impossible => untransformable t field
    | .overflow => .fault .numberRange
  | .dateFormat =>
    match moment? v with
    | some m => .ok (.text (m.format (datePattern param)))
    | none => .error (if isYearless v then .fault .yearRange else untransformable t field)
  | .prepend => transformText t (param.getD "" ++ ·) v field
  | .append => transformText t (· ++ param.getD "") v field

end Conveyor.Mapping
