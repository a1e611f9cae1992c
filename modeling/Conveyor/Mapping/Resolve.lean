import Conveyor.Mapping.Path
import Conveyor.Mapping.Transform
import Conveyor.Pipeline.Basic

/-!
# Resolving mappings

A record is taken to columns mapping by mapping, in the order of the mappings. A column may be
skipped, but none may be named twice.
-/

namespace Conveyor.Mapping

/-- A destination column with its value. -/
structure ResolvedField where
  column : String
  value : Value

/-- A source field without a value: the column is skipped, takes its default, or fails. -/
def fillMissing (m : FieldMapping) : Except Failure (Option Value) :=
  match m.nullHandling with
  | .skip => .ok none
  | .useDefault =>
    if m.defaultValue.isNull then .ok (some .null)
    else some <$> coerce m.defaultValue m.dataType m.sourceField
  | .required => .error (.mapping (.required m.sourceField))

/-- The transform that a mapping names; none if it names none. -/
def transformOf (m : FieldMapping) : Except Failure (Option Transform) :=
  match m.transformType with
  | none => .ok none
  | some name =>
    if name.isEmpty then .ok none
    else match Transform.ofName? name with
      | some t => .ok (some t)
      | none => .error (.validation (.unknownTransform name m.sourceField))

/-- A value that is there: transformed, then coerced. -/
def convert (m : FieldMapping) (v : Value) : Except Failure Value := do
  let v ← match ← transformOf m with
    | none => pure v
    | some t => transform t v m.transformParam m.sourceField
  coerce v m.dataType m.sourceField

/-- The value of one mapping's column, or none if the column is skipped. -/
def resolveField (record : Fields) (m : FieldMapping) : Except Failure (Option Value) := do
  match ← (lookup record m.sourceField).mapError Failure.fault with
  | none => fillMissing m
  | some .null => fillMissing m
  | some v => some <$> convert m v

/-- Resolve mappings in order; `seen` are the columns of the mappings before. -/
def resolveFrom (record : Fields) (seen : List String) :
    List FieldMapping → Except Failure (List ResolvedField)
  | [] => .ok []
  | m :: rest =>
    if seen.contains m.destinationColumn then
      .error (.validation (.mappedTwice m.destinationColumn))
    else do
      let v ← resolveField record m
      let more ← resolveFrom record (m.destinationColumn :: seen) rest
      pure (match v with
        | some v => ⟨m.destinationColumn, v⟩ :: more
        | none => more)

/-- The columns of a record. -/
def resolve (record : Fields) (mappings : List FieldMapping) :
    Except Failure (List ResolvedField) := resolveFrom record [] mappings

/-- Columns as an object. -/
def payload (fields : List ResolvedField) : Fields :=
  Keyed.ofPairs (fields.map fun f => (f.column, f.value))

end Conveyor.Mapping
