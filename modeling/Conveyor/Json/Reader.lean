import Conveyor.Value.Basic
import Conveyor.Binary64.Reading
import Conveyor.Text.Encoding

/-!
# Reading JSON

Documents are read into values. A number without point and exponent is an integer of any size;
every other number is a double. The words for NaN and the infinities are taken. A name given twice
in an object keeps its first place and its last value. Anything else that the grammar does not
allow, and a number of more than 4300 digits, refuses the whole text.
-/

namespace Conveyor.Json

/-- What a reader takes beyond the grammar, or refuses of it. -/
inductive Dialect where
  /-- All numerals of the grammar, and the words for NaN and the infinities. An escape of half a
  character stands for the replacement character. -/
  | lenient
  /-- The same, but no escape of half a character, and no deeper nesting than 200 containers. -/
  | strict
  /-- Only those numerals as numbers that a settings file takes as such: a double needs a point, and
  its exponent a sign. Other numerals and words stand for themselves as texts. -/
  | settings
  deriving DecidableEq

/-- The most digits an integer may have. -/
def maxDigits : Nat := 4300

def isGap (c : Char) : Bool := c = ' ' || c = '\t' || c = '\n' || c = '\r'

def skipGaps (cs : List Char) : List Char := cs.dropWhile isGap

/-- What follows a word at the start of the input. -/
def afterWord? : List Char → List Char → Option (List Char)
  | [], cs => some cs
  | _ :: _, [] => none
  | w :: ws, c :: cs => if w = c then afterWord? ws cs else none

def hexValue? (c : Char) : Option Nat :=
  let n := c.toNat
  if 48 ≤ n ∧ n ≤ 57 then some (n - 48)
  else if 97 ≤ n ∧ n ≤ 102 then some (n - 87)
  else if 65 ≤ n ∧ n ≤ 70 then some (n - 55)
  else none

/-- The UTF-16 unit written by four hexadecimal digits. -/
def readUnit? : List Char → Option (Nat × List Char)
  | a :: b :: c :: d :: rest => do
    let a ← hexValue? a
    let b ← hexValue? b
    let c ← hexValue? c
    let d ← hexValue? d
    pure (((a * 16 + b) * 16 + c) * 16 + d, rest)
  | _ => none

/-- The character of one UTF-16 unit; a unit of a broken pair becomes the replacement character. -/
def unitChar (n : Nat) : Char :=
  if 0xD800 ≤ n ∧ n ≤ 0xDFFF then Char.ofNat 0xFFFD else Char.ofNat n

/-- The characters written by a `\u` escape, whose first unit has been read: a low unit escaped
right after a high one belongs to the same character. -/
def readEscapedUnit (high : Nat) (rest : List Char) : Char × List Char :=
  if 0xD800 ≤ high ∧ high ≤ 0xDBFF then
    match rest with
    | '\\' :: 'u' :: tail =>
      match readUnit? tail with
      | some (low, tail) =>
        if 0xDC00 ≤ low ∧ low ≤ 0xDFFF then
          (Char.ofNat (0x10000 + (high - 0xD800) * 0x400 + (low - 0xDC00)), tail)
        else (unitChar high, rest)
      | none => (unitChar high, rest)
    | _ => (unitChar high, rest)
  else (unitChar high, rest)

/-- The character of a one-letter escape. -/
def simpleEscape? (c : Char) : Option Char :=
  if c = '"' ∨ c = '\\' ∨ c = '/' then some c
  else if c = 'n' then some '\n'
  else if c = 'r' then some '\r'
  else if c = 't' then some '\t'
  else if c = 'b' then some (Char.ofNat 8)
  else if c = 'f' then some (Char.ofNat 12)
  else none

/-- Whether a unit is half of a character and was not read together with the other half. -/
def isBroken (unit : Nat) (c : Char) : Bool :=
  0xD800 ≤ unit && unit ≤ 0xDFFF && c.toNat = 0xFFFD

/-- The rest of a text after its opening quote. -/
def readTextTail (d : Dialect) : Nat → List Char → Option (List Char × List Char)
  | 0, _ => none
  | _ + 1, [] => none
  | fuel + 1, c :: rest =>
    if c = '"' then some ([], rest)
    else if c.toNat < 32 then none
    else if c = '\\' then
      match rest with
      | [] => none
      | 'u' :: tail => do
        let (unit, tail) ← readUnit? tail
        let (c, tail) := readEscapedUnit unit tail
        if d = .strict && isBroken unit c then none
        else do
          let (cs, tail) ← readTextTail d fuel tail
          pure (c :: cs, tail)
      | e :: tail => do
        let c ← simpleEscape? e
        let (cs, tail) ← readTextTail d fuel tail
        pure (c :: cs, tail)
    else do
      let (cs, tail) ← readTextTail d fuel rest
      pure (c :: cs, tail)

/-- The text after an opening quote. -/
def readText? (d : Dialect) (cs : List Char) : Option (String × List Char) :=
  (readTextTail d (cs.length + 1) cs).map fun (t, rest) => (String.ofList t, rest)

def isAsciiDigit (c : Char) : Bool := 48 ≤ c.toNat && c.toNat ≤ 57

def digitValue (c : Char) : Nat := c.toNat - 48

/-- The parts of a numeral: sign, whole digits, digits after a point, and the exponent. -/
structure NumeralParts where
  negative : Bool
  whole : List Char
  part : Option (List Char)
  /-- The exponent's sign character, if any, and its digits. -/
  exponent : Option (Option Char × List Char)

/-- A point and digits, if both are there. -/
def readPart : List Char → Option (List Char) × List Char
  | '.' :: rest =>
    let ds := rest.takeWhile isAsciiDigit
    if ds.isEmpty then (none, '.' :: rest) else (some ds, rest.dropWhile isAsciiDigit)
  | cs => (none, cs)

/-- An exponent, if it is complete. -/
def readExponent : List Char → Option (Option Char × List Char) × List Char
  | [] => (none, [])
  | e :: rest =>
    if e = 'e' ∨ e = 'E' then
      let (sign, tail) := match rest with
        | s :: tail => if s = '+' ∨ s = '-' then (some s, tail) else (none, rest)
        | [] => (none, [])
      let ds := tail.takeWhile isAsciiDigit
      if ds.isEmpty then (none, e :: rest) else (some (sign, ds), tail.dropWhile isAsciiDigit)
    else (none, e :: rest)

/-- The longest numeral at the start of the input. -/
def readNumeral? (cs : List Char) : Option (NumeralParts × List Char) :=
  let (negative, cs) := match cs with
    | '-' :: rest => (true, rest)
    | _ => (false, cs)
  let whole := match cs with
    | '0' :: _ => ['0']
    | _ => cs.takeWhile isAsciiDigit
  if whole.isEmpty then none
  else
    let (part, cs) := readPart (cs.drop whole.length)
    let (exponent, cs) := readExponent cs
    some (⟨negative, whole, part, exponent⟩, cs)

def numberOf (ds : List Char) : Nat := Text.ofDigits (ds.map digitValue)

/-- The double that the parts write. -/
def NumeralParts.toBinary64 (p : NumeralParts) : Binary64 :=
  let part := p.part.getD []
  let e : Int := match p.exponent with
    | some (some '-', ds) => -(numberOf ds : Int)
    | some (_, ds) => numberOf ds
    | none => 0
  .ofDecimal p.negative (numberOf (p.whole ++ part)) (e - part.length)

/-- The value of a numeral written as `raw`. -/
def NumeralParts.value? (d : Dialect) (raw : List Char) (p : NumeralParts) :
    Option Value :=
  match p.part, p.exponent with
  | none, none =>
    if maxDigits < p.whole.length then none
    else
      let n : Int := numberOf p.whole
      some (.int (if p.negative then -n else n))
  | part, exponent =>
    let asNumber := d ≠ .settings
      || (part.isSome && match exponent with
        | some (sign, _) => sign.isSome
        | none => true)
    some (if asNumber then .float p.toBinary64 else .text (String.ofList raw))

/-- The words that are values, longest first where one starts another. -/
def words (d : Dialect) : List (String × Value) :=
  [("null", .null), ("true", .bool true), ("false", .bool false)]
    ++ match d with
      | .lenient | .strict => [("NaN", .float .nan), ("Infinity", .float (.infinity false)),
          ("-Infinity", .float (.infinity true))]
      | .settings => ["NaN", "Infinity", "-Infinity"].map fun w => (w, .text w)

/-- A word or numeral at the start of the input. -/
def readPlain? (d : Dialect) (cs : List Char) : Option (Value × List Char) :=
  match (words d).findSome? fun (w, v) => (afterWord? w.toList cs).map (v, ·) with
  | some found => some found
  | none => do
    let (parts, rest) ← readNumeral? cs
    let v ← parts.value? d (cs.take (cs.length - rest.length))
    pure (v, rest)

mutual

/-- The value at the start of the input; `fuel` bounds nesting and length. -/
def readValue (d : Dialect) : Nat → List Char → Option (Value × List Char)
  | 0, _ => none
  | fuel + 1, cs =>
    match skipGaps cs with
    | [] => none
    | '"' :: rest => (readText? d rest).map fun (s, rest) => (.text s, rest)
    | '[' :: rest =>
      match skipGaps rest with
      | ']' :: rest => some (.list [], rest)
      | rest => (readItems d fuel rest).map fun (vs, rest) => (.list vs, rest)
    | '\x7b' :: rest =>
      match skipGaps rest with
      | '\x7d' :: rest => some (.object [], rest)
      | rest => (readFields d fuel rest).map fun (fs, rest) =>
          (.object (Keyed.ofPairs fs), rest)
    | cs => readPlain? d cs

/-- Items up to the closing bracket. -/
def readItems (d : Dialect) : Nat → List Char → Option (List Value × List Char)
  | 0, _ => none
  | fuel + 1, cs => do
    let (v, rest) ← readValue d fuel cs
    match skipGaps rest with
    | ',' :: rest =>
      let (vs, rest) ← readItems d fuel rest
      pure (v :: vs, rest)
    | ']' :: rest => pure ([v], rest)
    | _ => none

/-- Fields up to the closing brace. -/
def readFields (d : Dialect) :
    Nat → List Char → Option (List (String × Value) × List Char)
  | 0, _ => none
  | fuel + 1, cs =>
    match skipGaps cs with
    | '"' :: rest => do
      let (k, rest) ← readText? d rest
      match skipGaps rest with
      | ':' :: rest =>
        let (v, rest) ← readValue d fuel rest
        match skipGaps rest with
        | ',' :: rest =>
          let (fs, rest) ← readFields d fuel rest
          pure ((k, v) :: fs, rest)
        | '\x7d' :: rest => pure ([(k, v)], rest)
        | _ => none
      | _ => none
    | _ => none

end

/-- Whether a container ends where it starts. -/
def endsAtOnce (cs : List Char) : Bool :=
  match skipGaps cs with
  | c :: _ => c = ']' || c = '\x7d'
  | [] => false

/-- The most containers with items in them that are open at once in a text, counted on from
`deepest`; `depth` of them are open, and `quoted` tells whether a text in quotes is. -/
def nestingFrom (quoted : Bool) (depth deepest : Nat) : List Char → Nat
  | [] => deepest
  | c :: rest =>
    if quoted then
      if c = '\\' then
        match rest with
        | [] => deepest
        | _ :: rest => nestingFrom true depth deepest rest
      else nestingFrom (c ≠ '"') depth deepest rest
    else if c = '"' then nestingFrom true depth deepest rest
    else if c = '[' ∨ c = '\x7b' then
      nestingFrom false (depth + 1) (if endsAtOnce rest then deepest else max deepest (depth + 1))
        rest
    else if c = ']' ∨ c = '\x7d' then nestingFrom false (depth - 1) deepest rest
    else nestingFrom false depth deepest rest

/-- The most containers that the strict reader takes inside each other. -/
def maxNesting : Nat := 200

/-- Whether the containers of a text are nested too deeply. -/
def Dialect.isTooDeep (d : Dialect) (cs : List Char) : Bool :=
  d = .strict && maxNesting < nestingFrom false 0 0 cs

/-- The value that the whole text writes. -/
def readWith? (d : Dialect) (s : String) : Option Value :=
  let cs := s.toList
  if d.isTooDeep cs then none
  else match readValue d (cs.length + 2) cs with
  | some (v, rest) => if (skipGaps rest).isEmpty then some v else none
  | none => none

/-- The value that a JSON document writes. -/
def read? (s : String) : Option Value := readWith? .lenient s

/-! ## Documents as bytes

A document may be written in units of one, two or four bytes. Its first character is a plain one, so
that the bytes of it that are zero tell which. -/

/-- The text of a document in units of one byte, without the mark that may stand before it. -/
def withoutMark (s : String) : String :=
  match s.toList with
  | '\uFEFF' :: rest => String.ofList rest
  | _ => s

/-- The text that the bytes of a document write. -/
def textOfBytes? (bytes : List Nat) : Option String :=
  match bytes with
  | [0, _] => Text.ofWideUnits? true false bytes
  | [_, 0] => Text.ofWideUnits? false false bytes
  | 0 :: 0 :: _ :: _ :: _ => Text.ofWideUnits? true true bytes
  | 0 :: _ :: _ :: _ :: _ => Text.ofWideUnits? true false bytes
  | _ :: 0 :: 0 :: 0 :: _ => Text.ofWideUnits? false true bytes
  | _ :: 0 :: _ :: _ :: _ => Text.ofWideUnits? false false bytes
  | _ => some (withoutMark (Text.ofBytes bytes))

/-- The value that the bytes of a document write. -/
def readBytes? (bytes : List Nat) : Option Value := (textOfBytes? bytes).bind read?

end Conveyor.Json
