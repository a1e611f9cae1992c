import Conveyor.Failure
import Conveyor.Json.Printer
import Conveyor.Json.Reader
import Conveyor.Moment.Iso
import Conveyor.Text.Number
import Conveyor.Text.Blank
import Conveyor.Text.LetterCase
import Conveyor.Text.Search
import Conveyor.Keyed

/-!
# Coercion

Making a mapped value fit the family of its column's type. A value that already denotes what the
family asks for is converted; any other value is refused.
-/

/-!
## Data types

Destinations declare columns by the type names of their own world. All that mapping needs of a name
is the family it belongs to; a name of no family leaves values as they are.
-/

namespace Conveyor.Mapping

/-- What a column's type asks of a value. -/
inductive Family where
  | string | number | integer | boolean | json | date | datetime
  deriving DecidableEq, Repr

def Family.name : Family → String
  | .string => "string"
  | .number => "number"
  | .integer => "integer"
  | .boolean => "boolean"
  | .json => "json"
  | .date => "date"
  | .datetime => "datetime"

/-- Whether the values of a family are moments. -/
def Family.isTemporal : Family → Bool
  | .date | .datetime => true
  | _ => false

/-- The type names of each family. -/
def familyNames : List (Family × List String) :=
  [(.string, ["string", "char", "nchar", "varchar", "nvarchar", "character", "character varying",
      "text", "clob", "nclob", "alphanum", "shorttext"]),
    (.number, ["number", "decimal", "smalldecimal", "numeric", "float", "double",
      "double precision", "real", "money"]),
    (.integer, ["integer", "int", "tinyint", "smallint", "mediumint", "bigint", "serial",
      "bigserial"]),
    (.boolean, ["boolean", "bool", "bit"]),
    (.json, ["json", "jsonb"]),
    (.date, ["date"]),
    (.datetime, ["datetime", "timestamp", "timestamptz", "timestamp with time zone",
      "timestamp without time zone", "seconddate"])]

/-- The family of a plain type name. -/
def familyOfName? (name : String) : Option Family :=
  (familyNames.find? fun (_, names) => names.contains name).map (·.1)

/-- Leave out everything from an opening bracket to the next closing one on the same line.
`skip` characters belong to the part left out. -/
def dropBrackets (skip : Nat) : List Char → List Char
  | [] => []
  | c :: rest =>
    match skip with
    | n + 1 => dropBrackets n rest
    | 0 =>
      let inner := rest.takeWhile fun d => d ≠ ')' ∧ d ≠ '\n'
      if c = '(' ∧ rest[inner.length]? = some ')' then dropBrackets (inner.length + 1) rest
      else c :: dropBrackets 0 rest

/-- A type name without lengths, signedness, case and outer blanks. -/
def plainName (dataType : String) : String :=
  let name := Text.lower (Text.trim (String.ofList (dropBrackets 0 dataType.toList)))
  Text.trim (Text.replace " unsigned" "" name)

/-- The family of a type name: that of the whole name, or else of its first word. -/
def family? (dataType : String) : Option Family :=
  if dataType.isEmpty then none
  else
    let name := plainName dataType
    match familyOfName? name with
    | some f => some f
    | none => familyOfName? (Text.cut ' ' name).1

/-! ## Coercion -/

/-- The greatest count of seconds since 1970; above it a number counts milliseconds. -/
def secondsLimit : Int := 1000000000000

/-- The microseconds since 1970 that a number stands for. -/
def countedMicros? : Value → Option Int
  | .int n =>
    if secondsLimit < n then Moment.microsOfSeconds? (Binary64.ofRatio false n.toNat 1000)
    else some (n * Moment.secondMicros)
  | .float x =>
    if x.compareInt? secondsLimit == some .gt then Moment.microsOfSeconds? (x.divNat 1000)
    else Moment.microsOfSeconds? x
  | _ => none

/-- Whether a value counts to a second that is in no year of a clock. -/
def isYearless (v : Value) : Bool :=
  (countedMicros? v).any fun micros => Moment.isYearless (micros / Moment.secondMicros)

/-- The moment that a value denotes: a count of seconds or milliseconds since 1970, or ISO text in
which a final `Z` stands for universal time. -/
def moment? : Value → Option Moment
  | .int n => (countedMicros? (.int n)).bind Moment.ofEpochMicros?
  | .float x => (countedMicros? (.float x)).bind Moment.ofEpochMicros?
  | v => do
    let cs := Text.trimChars (← v.text?).toList
    match cs.getLast? with
    | some 'Z' => Moment.readIso? (cs.dropLast ++ "+00:00".toList)
    | _ => Moment.readIso? cs

/-- Whether a value can be written as a document: it is showable and holds no sealed object. -/
def isWritable (v : Value) : Bool := v.isShowable && !v.holdsSealed

/-- A value as text: lists and objects as JSON, booleans in lower case. -/
def toText? (v : Value) : Option String :=
  match v with
  | .bool b => some (if b then "true" else "false")
  | .list _ | .object _ => if isWritable v then some (Json.write .plain v) else none
  | v => v.text?

/-- A value as a number: numbers themselves, and texts that write one. -/
def toNumber? : Value → Option Value
  | .bool _ => none
  | .int n => some (.int n)
  | .float x => some (.float x)
  | v => do
    let s ← v.text?
    match Text.readInteger? s with
    | some n => some (.int n)
    | none => (Text.readDouble? s).map .float

/-- A value as an integer; a double must have no fraction. -/
def toInteger? (v : Value) : Option Int :=
  match toNumber? v with
  | some (.int n) => some n
  | some (.float x) => if x.isIntegral then some x.truncate else none
  | _ => none

def trueWords : List String := ["true", "1", "yes", "y", "on"]

def falseWords : List String := ["false", "0", "no", "n", "off"]

/-- The truth value that a word stands for. -/
def truthOf? (word : String) : Option Bool :=
  if trueWords.contains word then some true
  else if falseWords.contains word then some false
  else none

/-- A value as a truth value: booleans, the numbers zero and one, and words for yes and no. -/
def toBoolean? (v : Value) : Option Bool :=
  let byWord := v.text?.bind fun s => truthOf? (Text.lower (Text.trim s))
  match v with
  | .bool b => some b
  | .int n => if n = 0 then some false else if n = 1 then some true else byWord
  | .float x =>
    if x.compareInt? 0 == some .eq then some false
    else if x.compareInt? 1 == some .eq then some true
    else byWord
  | _ => byWord

/-- A value as a JSON document: a text must be one already. -/
def toDocument? : Value → Option String
  | .text s => if (Json.read? s).isSome then some s else none
  | v => if isWritable v then some (Json.write .plain v) else none

/-- The value that fits a family, if this one can be made to. -/
def coerceTo? (f : Family) (v : Value) : Option Value :=
  match f with
  | .string => (toText? v).map .text
  | .number => toNumber? v
  | .integer => (toInteger? v).map .int
  | .boolean => (toBoolean? v).map .bool
  | .json => (toDocument? v).map .text
  | .date => (moment? v).map fun m => .text (String.ofList (Moment.writeDate m.date))
  | .datetime => (moment? v).map fun m => .text m.isoText

/-- The failure of a value that does not fit a family. Its message shows the value, so there is none
for a value that cannot be shown. -/
def unfit (f : Family) (v : Value) (dataType field : String) : Failure :=
  if f.isTemporal && isYearless v then .fault .yearRange
  else if v.isShowable then .mapping (.uncoercible field v dataType)
  else .fault .badValue

/-- Make a value of a field fit a declared data type. A type of no family, and no type, leave the
value as it is. -/
def coerce (v : Value) (dataType : Option String) (field : String) : Except Failure Value :=
  match dataType with
  | none => .ok v
  | some t =>
    match family? t with
    | none => .ok v
    | some f =>
      match coerceTo? f v with
      | some w => .ok w
      | none => .error (unfit f v t field)

end Conveyor.Mapping
