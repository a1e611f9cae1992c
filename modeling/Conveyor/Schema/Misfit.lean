/-!
# Misfits

What can be wrong with a document as a whole: its text is not JSON, or some of its values are not
what their places ask for. A place is where something lies in a document: the names of fields and the
positions in lists on the way to it.
-/

namespace Conveyor

/-! ## Places -/

/-- One part of a place in a document. -/
inductive Mark where
  | field (name : String)
  | index (i : Nat)
  deriving DecidableEq, Repr

/-- A place in a document, outermost part first. -/
abbrev Place := List Mark

namespace Place

/-- The marks as they follow a text that names the place they start from. -/
def suffix : Place → String
  | [] => ""
  | .field name :: rest => "." ++ name ++ suffix rest
  | .index i :: rest => "[" ++ toString i ++ "]" ++ suffix rest

/-- The place as text. -/
def render : Place → String
  | .field name :: rest => name ++ suffix rest
  | marks => suffix marks

end Place

/-! ## Misfits -/

/-- The ways in which a value can fail to be what its place asks for. -/
inductive MisfitKind where
  | missing
  | notText
  | notInteger
  | unreadableInteger
  | fractionalInteger
  | oversizeInteger
  | infiniteInteger
  | notNumber
  | unreadableNumber
  | notFlag
  | unreadableFlag
  | unknownChoice
  | notList
  | notObject
  | notRecord
  | unreadableDocument
  | tooSmall
  | notMoment
  | unreadableMoment
  | unreadableDate
  | notJson
  deriving DecidableEq, Repr

/-- The code under which a misfit is reported. -/
def MisfitKind.code : MisfitKind → String
  | .missing => "missing"
  | .notText => "string_type"
  | .notInteger => "int_type"
  | .unreadableInteger => "int_parsing"
  | .fractionalInteger => "int_from_float"
  | .oversizeInteger => "int_parsing_size"
  | .infiniteInteger => "finite_number"
  | .notNumber => "float_type"
  | .unreadableNumber => "float_parsing"
  | .notFlag => "bool_type"
  | .unreadableFlag => "bool_parsing"
  | .unknownChoice => "literal_error"
  | .notList => "list_type"
  | .notObject => "dict_type"
  | .notRecord => "model_type"
  | .unreadableDocument => "value_error"
  | .tooSmall => "greater_than_equal"
  | .notMoment => "datetime_type"
  | .unreadableMoment => "datetime_parsing"
  | .unreadableDate => "datetime_from_date_parsing"
  | .notJson => "json_invalid"

/-- One value that does not fit, and where it is. -/
structure Misfit where
  place : Place
  kind : MisfitKind
  deriving Repr

/-- Why a document cannot be read. -/
inductive DocumentError where
  /-- The text is not a JSON document. -/
  | notJson
  /-- Some values do not fit. -/
  | misfits (all : List Misfit)

end Conveyor
