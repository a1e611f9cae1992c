import Conveyor.Schema.Scalar
import Conveyor.Pipeline.Basic
import Conveyor.Text.LetterCase

/-!
# Suggesting mappings

Fields and columns of one name belong together, whatever its case. Existing mappings stay first and
untouched, and no column is suggested twice.
-/

namespace Conveyor.Mapping

/-- What a destination says about one of its columns. -/
structure Column where
  name : String
  dataType : Option String := none
  isNullable : Option Bool := none

open Schema in
def Column.read (fs : Fields) : Checked Column :=
  Column.mk
    <$> required fs "name" text
    <*> optional fs "dataType" text
    <*> optional fs "isNullable" flag

/-- The first column of a field's name whose name is not mapped yet. -/
def matching? (columns : List Column) (mapped : List String) (field : String) : Option Column :=
  columns.find? fun c =>
    Text.lower c.name = Text.lower field && !mapped.contains (Text.lower c.name)

/-- Mapping of a field to the column of its name; a column without values may be skipped. -/
def suggestion (field : String) (c : Column) : FieldMapping where
  sourceField := field
  destinationColumn := c.name
  dataType := c.dataType
  nullHandling := if c.isNullable = some true then .skip else .required

/-- Suggestions for fields in order. `sources` and `mapped` are the fields and the lower-case
columns that are taken. -/
def suggestFrom (columns : List Column) (sources mapped : List String) :
    List String → List FieldMapping
  | [] => []
  | field :: rest =>
    if sources.contains field then suggestFrom columns sources mapped rest
    else match matching? columns mapped field with
      | none => suggestFrom columns sources mapped rest
      | some c =>
        suggestion field c
          :: suggestFrom columns (field :: sources) (Text.lower c.name :: mapped) rest

/-- The existing mappings and one for every field that has a column left. -/
def suggest (fields : List String) (columns : List Column) (existing : List FieldMapping) :
    List FieldMapping :=
  existing ++ suggestFrom columns (existing.map (·.sourceField))
    (existing.map fun m => Text.lower m.destinationColumn) fields

end Conveyor.Mapping
