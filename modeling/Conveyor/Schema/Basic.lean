import Conveyor.Schema.Misfit
import Conveyor.Json.Reader
import Conveyor.Text.Blank

/-!
# Fitting documents to types

A document is read into a typed record field by field. Reading never stops at the first field that
does not fit: all misfits are listed, in the order of the fields, each with its place.

A field is named in camel case, or in lower case with underscores; if a document has both names the
first wins. Fields that a type does not know are passed over.
-/

namespace Conveyor

/-- A value that fits, or everything that does not. -/
inductive Checked (α : Type) where
  | fits (value : α)
  | misfits (all : List Misfit)

namespace Checked

variable {α β : Type}

def map (f : α → β) : Checked α → Checked β
  | .fits a => .fits (f a)
  | .misfits ms => .misfits ms

/-- Both values, or the misfits of both in order. -/
def seq : Checked (α → β) → Checked α → Checked β
  | .fits f, x => x.map f
  | .misfits ms, .fits _ => .misfits ms
  | .misfits ms, .misfits ns => .misfits (ms ++ ns)

instance : Applicative Checked where
  pure := .fits
  map f x := x.map f
  seq f x := f.seq (x ())

/-- The misfit of a value at its own place. -/
def refuse (kind : MisfitKind) : Checked α := .misfits [⟨[], kind⟩]

/-- The same, seen from outside a part of a document. -/
def within (mark : Mark) : Checked α → Checked α
  | .fits a => .fits a
  | .misfits ms => .misfits (ms.map fun m => { m with place := mark :: m.place })

/-- All values of a list, or the misfits of all. -/
def all : List (Checked α) → Checked (List α)
  | [] => .fits []
  | x :: rest => List.cons <$> x <*> all rest

def toExcept : Checked α → Except (List Misfit) α
  | .fits a => .ok a
  | .misfits ms => .error ms

def toOption : Checked α → Option α
  | .fits a => some a
  | .misfits _ => none

end Checked

/-- How a value is read into a type. -/
abbrev Reading (α : Type) := Value → Checked α

namespace Schema

variable {α : Type}

/-- The name in lower case with underscores of a name in camel case. -/
def plainName (name : String) : String :=
  String.ofList (name.toList.flatMap fun c => if c.isUpper then ['_', c.toLower] else [c])

/-- The value of a field that has two names, and the name under which it is given. -/
def find? (fs : Fields) (wire plain : String) : Option (String × Value) :=
  match fs.get? wire with
  | some v => some (wire, v)
  | none => (fs.get? plain).map (plain, ·)

/-- A field under either of two names, with what stands for it when it is absent. -/
def fieldNamed (fs : Fields) (wire plain : String) (read : Reading α) (absent : Checked α) :
    Checked α :=
  match find? fs wire plain with
  | some (name, v) => (read v).within (.field name)
  | none => absent

/-- A field that must be there. -/
def required (fs : Fields) (name : String) (read : Reading α) : Checked α :=
  fieldNamed fs name (plainName name) read ((Checked.refuse .missing).within (.field name))

/-- A field with a default. -/
def withDefault (fs : Fields) (name : String) (read : Reading α) (default : α) : Checked α :=
  fieldNamed fs name (plainName name) read (.fits default)

/-- A value or null. -/
def nullable (read : Reading α) : Reading (Option α)
  | .null => .fits none
  | v => (read v).map some

/-- A field that may be absent or null. -/
def optional (fs : Fields) (name : String) (read : Reading α) : Checked (Option α) :=
  withDefault fs name (nullable read) none

def anything : Reading Value := .fits

def text : Reading String
  | .text s => .fits s
  | _ => .refuse .notText

/-- One of several named alternatives. -/
def choice (alternatives : List α) (name : α → String) : Reading α
  | .text s =>
    match alternatives.find? fun a => name a = s with
    | some a => .fits a
    | none => .refuse .unknownChoice
  | _ => .refuse .unknownChoice

def listOf (read : Reading α) : Reading (List α)
  | .list items =>
    Checked.all (items.mapIdx fun i v => (read v).within (.index i))
  | _ => .refuse .notList

/-- An object with values of one type under any names. -/
def objectOf (read : Reading α) : Reading (Keyed α)
  | .object fs =>
    Checked.all (fs.map fun (k, v) => ((read v).map (k, ·)).within (.field k))
  | _ => .refuse .notObject

/-- A record of a type with named fields. -/
def record (read : Fields → Checked α) : Reading α
  | .object fs => read fs
  | _ => .refuse .notRecord

/-- A value that may also be given as the text of a JSON document; blank text stands for null. -/
def orDocument (read : Reading (Option α)) : Reading (Option α)
  | .text s =>
    if Text.isBlankText s then read .null
    else match Json.read? s with
      | some v => read v
      | none => .refuse .unreadableDocument
  | v => read v

end Schema
end Conveyor
