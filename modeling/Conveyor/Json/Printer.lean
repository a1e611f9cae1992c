import Conveyor.Failure

/-!
# Writing values as JSON

One printer for all documents. A style fixes what the uses differ in: the text between items, the
order of keys, line breaks, and which characters are escaped. Infinities and NaN are written as
the words that the reader takes back. A sealed object has no JSON form of its own and is written
as the text that messages show for it. The documents that the program makes of its own records have
no such objects in them: it goes through all values of other forms before it writes any (`descend`).
-/

namespace Conveyor.Value

/-- How many values may stand inside each other where a document has room for any value, the
innermost one counted. -/
def maxDepth : Nat := 255

mutual

/-- Go through a value, with room for so many values inside each other. What is met first that has no
place in a document is what is wrong with the value. -/
def descend (room : Nat) (v : Value) : Except Fault Unit :=
  match room, v with
  | 0, _ => .error .badValue
  | room + 1, .list items => descendItems room items
  | room + 1, .object fs => descendFields room fs
  | _ + 1, .sealed _ => .error .unwritable
  | _ + 1, _ => .ok ()

def descendItems (room : Nat) : List Value → Except Fault Unit
  | [] => .ok ()
  | v :: rest => do
    descend room v
    descendItems room rest

def descendFields (room : Nat) : List (String × Value) → Except Fault Unit
  | [] => .ok ()
  | (_, v) :: rest => do
    descend room v
    descendFields room rest

end

/-- Go through the values of a document one after the other. -/
def descendAll (values : List Value) : Except Fault Unit := descendItems maxDepth values

end Conveyor.Value

namespace Conveyor.Json

/-- How a document is laid out. -/
structure Style where
  itemSeparator : List Char
  keySeparator : List Char
  sortKeys : Bool
  /-- Blanks per level if every item has a line of its own. -/
  indent : Option Nat
  /-- Whether only ASCII characters are written, all others as escapes. -/
  ascii : Bool
  layout : DecimalLayout
  /-- Whether infinities and NaN are written as words, or else as null. -/
  words : Bool

namespace Style

/-- Values inside other texts. -/
def plain : Style := ⟨[',', ' '], [':', ' '], false, none, true, .document, true⟩

/-- The one form of a document that depends on nothing but the value. -/
def canonical : Style := ⟨[','], [':'], true, none, true, .document, true⟩

/-- Documents for people: one item a line. -/
def indented (sortKeys : Bool) : Style :=
  ⟨[','], [':', ' '], sortKeys, some 2, true, .document, true⟩

/-- Requests and queued records: nothing but what is needed, in their own characters. -/
def compact : Style := ⟨[','], [':'], false, none, false, .listing, false⟩

end Style

/-- The escape of a UTF-16 unit. -/
def unitEscape (n : Nat) : List Char := '\\' :: 'u' :: Text.hexDigits 4 n

/-- One character inside a JSON text. -/
def escapeChar (ascii : Bool) (c : Char) : List Char :=
  if c = '"' then ['\\', '"']
  else if c = '\\' then ['\\', '\\']
  else if c = '\n' then ['\\', 'n']
  else if c = '\r' then ['\\', 'r']
  else if c = '\t' then ['\\', 't']
  else if c.toNat = 12 then ['\\', 'f']
  else if c.toNat = 8 then ['\\', 'b']
  else if c.toNat < 32 then unitEscape c.toNat
  else if c.toNat < 127 || !ascii then [c]
  else if c.toNat < 0x10000 then unitEscape c.toNat
  else
    let rest := c.toNat - 0x10000
    unitEscape (0xD800 + rest / 0x400) ++ unitEscape (0xDC00 + rest % 0x400)

/-- A text between JSON quotes. -/
def writeText (ascii : Bool) (s : String) : List Char :=
  '"' :: (s.toList.flatMap (escapeChar ascii) ++ ['"'])

/-- A double: its shortest decimal, or a word. -/
def writeFloat (st : Style) (x : Binary64) : List Char :=
  if x.isFinite then st.layout.writeFinite x
  else if !st.words then "null".toList
  else if x.isNan then "NaN".toList
  else if x.negative then "-Infinity".toList
  else "Infinity".toList

/-- The start of a line at the given depth, if items have their own lines. -/
def lineStart (st : Style) (depth : Nat) : List Char :=
  match st.indent with
  | none => []
  | some n => '\n' :: List.replicate (n * depth) ' '

mutual

/-- A value at the given depth. -/
def writeAt (st : Style) (depth : Nat) : Value → List Char
  | .null => "null".toList
  | .bool b => if b then "true".toList else "false".toList
  | .int n => decimalText n
  | .float x => writeFloat st x
  | .text s => writeText st.ascii s
  | .list [] => ['[', ']']
  | .list (v :: rest) =>
    '[' :: (lineStart st (depth + 1) ++ writeAt st (depth + 1) v
      ++ writeItems st (depth + 1) rest ++ lineStart st depth ++ [']'])
  | .object [] => ['\x7b', '\x7d']
  | .object (f :: rest) =>
    '\x7b' :: (lineStart st (depth + 1) ++ writeField st (depth + 1) f
      ++ writeFields st (depth + 1) rest ++ lineStart st depth ++ ['\x7d'])
  | .sealed fs => writeText st.ascii (Value.displayed (.sealed fs))

def writeItems (st : Style) (depth : Nat) : List Value → List Char
  | [] => []
  | v :: rest => st.itemSeparator ++ lineStart st depth ++ writeAt st depth v
      ++ writeItems st depth rest

def writeField (st : Style) (depth : Nat) : String × Value → List Char
  | (k, v) => writeText st.ascii k ++ st.keySeparator ++ writeAt st depth v

def writeFields (st : Style) (depth : Nat) : List (String × Value) → List Char
  | [] => []
  | f :: rest => st.itemSeparator ++ lineStart st depth ++ writeField st depth f
      ++ writeFields st depth rest

end

mutual

/-- The value with the fields of every object in the order of their names. -/
def sortKeys : Value → Value
  | .list items => .list (sortItems items)
  | .object fs => .object (Keyed.sorted (sortFields fs))
  | v => v

def sortItems : List Value → List Value
  | [] => []
  | v :: rest => sortKeys v :: sortItems rest

def sortFields : List (String × Value) → List (String × Value)
  | [] => []
  | (k, v) :: rest => (k, sortKeys v) :: sortFields rest

end

def writeChars (st : Style) (v : Value) : List Char :=
  writeAt st 0 (if st.sortKeys then sortKeys v else v)

/-- The value as a document of the given style. -/
def write (st : Style) (v : Value) : String := String.ofList (writeChars st v)

end Conveyor.Json
