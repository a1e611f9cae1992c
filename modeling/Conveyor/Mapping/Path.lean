import Conveyor.Failure
import Conveyor.Text.Digit

/-!
# Looking into a record

A path names a field of a record. A field of exactly that name wins; otherwise the path is cut at
its dots and followed step by step through objects by name and through lists by position.
-/

namespace Conveyor.Mapping

/-- The list position that a part of a path names. A part of digit signs that are not decimal
digits names no number at all, which is a fault of the path. -/
def position? (part : String) : Except Fault (Option Nat) :=
  let cs := part.toList
  if cs.isEmpty || !cs.all Text.isDigitSign then .ok none
  else if 4300 < cs.length then .error .badValue
  else match Text.natOfDigits? cs with
    | some n => .ok (some n)
    | none => .error .badValue

/-- One step along a path; none if there is nothing at that place. -/
def descend (v : Value) (part : String) : Except Fault (Option Value) :=
  match v with
  | .object fs => .ok (Keyed.get? part fs)
  | .sealed fs => .ok (Keyed.get? part fs)
  | .list items => do
    match ← position? part with
    | some i => pure items[i]?
    | none => pure none
  | _ => .ok none

/-- Follow the parts of a path from a value. -/
def follow (v : Value) : List String → Except Fault (Option Value)
  | [] => .ok (some v)
  | part :: rest => do
    match ← descend v part with
    | some w => follow w rest
    | none => pure none

/-- The value at a path of a record, or none. A null that is there is found. -/
def lookup (record : Fields) (path : String) : Except Fault (Option Value) :=
  match record.get? path with
  | some v => .ok (some v)
  | none =>
    if path.toList.contains '.' then follow (.object record) (Text.split '.' path) else .ok none

end Conveyor.Mapping
