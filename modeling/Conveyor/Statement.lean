import Conveyor.Mapping.Resolve
import Conveyor.Text.Search

/-!
# Statements

The statement that writes one record to a table. Every value is a parameter; the text holds a
question mark for each, in the order of the parameters. Columns come in the order of the mappings,
and names of columns are always quoted.
-/

namespace Conveyor

open Mapping (ResolvedField)

/-- A statement's text and the values of its placeholders. -/
structure Statement where
  text : String
  params : List Value := []

/-- The table that a statement is about. -/
structure Target where
  dialect : Dialect := .ansi
  table : String
  schema : Option String := none

namespace Statement

def quoteMark : Dialect → String
  | .mysql => "`"
  | _ => "\""

/-- A name between the quotes of the dialect; a quote inside is doubled. -/
def quoteIdentifier (d : Dialect) (name : String) : String :=
  let mark := quoteMark d
  mark ++ Text.replace mark (mark ++ mark) name ++ mark

/-- The table with its schema. Only HANA quotes them; elsewhere they stand as they are given. -/
def tableText (t : Target) : String :=
  let schema := t.schema.getD ""
  let quote (s : String) : String := if t.dialect = .hana then quoteIdentifier .hana s else s
  if schema.isEmpty then quote t.table else quote schema ++ "." ++ quote t.table

/-- Operations that need to know the primary key. -/
def isKeyed : Operation → Bool
  | .update | .delete | .upsert => true
  | _ => false

/-- A name that is there and not empty. -/
def given (s : Option String) : Bool :=
  match s with
  | some s => !s.isEmpty
  | none => false

/-- What keeps an operation from being written in a dialect. -/
def operationIssue? (op : Operation) (d : Dialect) (primaryKey : Option String) :
    Option IssueCause :=
  if isKeyed op && !given primaryKey then some (.keyRequired op.name)
  else if op = .select ∧ d = .hana then some .selectUnsupported
  else none

/-- The value of the primary key column. -/
def keyValue (fields : List ResolvedField) (primaryKey : Option String) :
    Except Failure Value :=
  match fields.find? fun f => some f.column = primaryKey with
  | some f => .ok f.value
  | none => .error (.mapping (.keylessRecord primaryKey))

def columnNames (d : Dialect) (fields : List ResolvedField) : List String :=
  fields.map fun f => quoteIdentifier d f.column

/-- Question marks for so many values. -/
def placeholders (fields : List ResolvedField) : String :=
  Text.joinWith "," (fields.map fun _ => "?")

def values (fields : List ResolvedField) : List Value := fields.map (·.value)

/-- `verb table (columns) VALUES (placeholders)`. -/
def insertText (verb : String) (t : Target) (fields : List ResolvedField) : String :=
  verb ++ " " ++ tableText t ++ " (" ++ Text.joinWith "," (columnNames t.dialect fields)
    ++ ") VALUES (" ++ placeholders fields ++ ")"

def insert (t : Target) (fields : List ResolvedField) : Statement :=
  ⟨insertText "INSERT INTO" t fields, values fields⟩

/-- The fields that are not the primary key. -/
def nonKey (fields : List ResolvedField) (primaryKey : Option String) : List ResolvedField :=
  fields.filter fun f => some f.column ≠ primaryKey

/-- What an insert does instead if the key is there already. -/
def conflictText (d : Dialect) (fields : List ResolvedField) (primaryKey : Option String) :
    String :=
  let key := quoteIdentifier d (primaryKey.getD "")
  let others := columnNames d (nonKey fields primaryKey)
  let assign (f : String → String) : String := Text.joinWith ", " (others.map f)
  match d with
  | .mysql =>
    " ON DUPLICATE KEY UPDATE "
      ++ if others.isEmpty then key ++ " = " ++ key
        else assign fun c => c ++ " = VALUES(" ++ c ++ ")"
  | _ =>
    " ON CONFLICT (" ++ key ++ ") DO "
      ++ if others.isEmpty then "NOTHING"
        else "UPDATE SET " ++ assign fun c => c ++ " = EXCLUDED." ++ c

/-- Insert the record, or update it if its key is there already. -/
def upsert (t : Target) (fields : List ResolvedField) (primaryKey : Option String) :
    Except Failure Statement := do
  let _ ← keyValue fields primaryKey
  match t.dialect with
  | .hana => pure ⟨insertText "UPSERT" t fields ++ " WITH PRIMARY KEY", values fields⟩
  | d => pure ⟨insertText "INSERT INTO" t fields ++ conflictText d fields primaryKey,
      values fields⟩

/-- The condition that picks the record by its key. -/
def whereText (d : Dialect) (primaryKey : Option String) : String :=
  " WHERE " ++ quoteIdentifier d (primaryKey.getD "") ++ " = ?"

def delete (t : Target) (fields : List ResolvedField) (primaryKey : Option String) :
    Except Failure Statement := do
  let key ← keyValue fields primaryKey
  pure ⟨"DELETE FROM " ++ tableText t ++ whereText t.dialect primaryKey, [key]⟩

/-- Set every field but the key. -/
def update (t : Target) (fields : List ResolvedField) (primaryKey : Option String) :
    Except Failure Statement := do
  let key ← keyValue fields primaryKey
  let others := nonKey fields primaryKey
  if others.isEmpty then .error (.mapping (.nothingToSet primaryKey))
  else
    let sets := Text.joinWith ", "
      (others.map fun f => quoteIdentifier t.dialect f.column ++ " = ?")
    pure ⟨"UPDATE " ++ tableText t ++ " SET " ++ sets ++ whereText t.dialect primaryKey,
      values others ++ [key]⟩

/-- Select the whole table, or whatever the query of the author's own asks for. -/
def select (t : Target) (customQuery : Option String) : Statement :=
  match customQuery with
  | some q => if Text.isBlankText q then ⟨"SELECT * FROM " ++ tableText t, []⟩ else ⟨q, []⟩
  | none => ⟨"SELECT * FROM " ++ tableText t, []⟩

/-- The statement of an operation on one record. An operation under an unknown name updates. -/
def synthesize (t : Target) (fields : List ResolvedField) (op : Option Operation)
    (primaryKey customQuery : Option String) : Except Failure Statement :=
  match op.bind fun op => operationIssue? op t.dialect primaryKey with
  | some cause => .error (.config [⟨[.field "queryType"], cause⟩])
  | none =>
    match op with
    | some .select => .ok (select t customQuery)
    | some .insert => .ok (insert t fields)
    | some .upsert => upsert t fields primaryKey
    | some .delete => delete t fields primaryKey
    | _ => update t fields primaryKey

/-- Whether a driver's style of placeholders is the percent sign with a letter. -/
def isPercentStyle (style : String) : Bool := style = "format" || style = "pyformat"

/-- The text for a driver with placeholders of the given style: percent signs are doubled first, so
that only placeholders hold single ones. A text without parameters is sent as it is. -/
def driverText (s : Statement) (style : String) : String :=
  if isPercentStyle style && !s.params.isEmpty then
    Text.replace "?" "%s" (Text.replace "%" "%%" s.text)
  else s.text

end Statement
end Conveyor
