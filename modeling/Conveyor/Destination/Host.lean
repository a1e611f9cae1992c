import Conveyor.Json.Reader
import Conveyor.Text.Label
import Conveyor.Text.LetterCase
import Conveyor.Text.Encoding

/-!
# Hosts

The host of an address is a name, four numbers with points between them, or groups of hexadecimal
digits in brackets. A name is brought into lower case; one in another script than ours is written in
its plain form.
-/

/-!
## Percent escapes

In an address, a character that may not stand in its part is written as escapes of its bytes: a
percent sign and two hexadecimal digits each. Every part has its own characters that may stand.
-/

namespace Conveyor.Percent

def hexDigit (n : Nat) : Char := Char.ofNat (if n < 10 then 48 + n else 55 + n)

/-- The escape of a byte. -/
def escapeByte (b : Nat) : List Char := ['%', hexDigit (b / 16), hexDigit (b % 16)]

/-- The escapes of the bytes of a character. -/
def escapeChar (c : Char) : List Char := (Text.bytesOf (String.ofList [c])).flatMap escapeByte

/-- A text in which every character that is not safe is escaped. -/
def encode (safe : Char → Bool) (cs : List Char) : List Char :=
  cs.flatMap fun c => if safe c then [c] else escapeChar c

/-- The bytes of a text of plain characters, of which some are escapes. A percent sign that starts
no escape stands for itself. -/
def decodeBytes : List Char → List Nat
  | [] => []
  | '%' :: a :: b :: rest =>
    match Json.hexValue? a, Json.hexValue? b with
    | some high, some low => (high * 16 + low) :: decodeBytes rest
    | _, _ => '%'.toNat :: decodeBytes (a :: b :: rest)
  | c :: rest => c.toNat :: decodeBytes rest

/-- The text that a text of plain characters and escapes stands for. -/
def decode (cs : List Char) : String := Text.ofBytes (decodeBytes cs)

/-- The characters that need no escape anywhere. -/
def isUnreserved (c : Char) : Bool := c.isAlphanum || c = '-' || c = '.' || c = '_' || c = '~'

def isVisible (c : Char) : Bool := 0x20 < c.toNat && c.toNat < 0x7F

def isQuerySafe (c : Char) : Bool := isVisible c && !(['"', '#', '<', '>'].contains c)

def isFragmentSafe (c : Char) : Bool := isVisible c && !(['"', '<', '>', '\x60'].contains c)

def isPathSafe (c : Char) : Bool := isQuerySafe c && !(['?', '\x60', '\x7b', '\x7d'].contains c)

def isUserSafe (c : Char) : Bool :=
  isPathSafe c && !(['/', ';', '=', '@', '[', '\\', ']', '^', '|'].contains c)

def isHostSafe (c : Char) : Bool :=
  isVisible c && !(['#', '/', ':', '<', '>', '?', '@', '[', ']', '^'].contains c)

/-- A name or value of a query: blanks become plus signs. -/
def encodeField (s : String) : List Char :=
  s.toList.flatMap fun c =>
    if c = ' ' then ['+'] else if isUnreserved c then [c] else escapeChar c

end Conveyor.Percent

/-! ## Names and numbers -/

namespace Conveyor.Host

/-- A number up to 255 without leading zeros. -/
def isOctet (cs : List Char) : Bool :=
  !cs.isEmpty && cs.length ≤ 3 && cs.all Json.isAsciiDigit && (cs = ['0'] || cs.head? ≠ some '0')
    && Json.numberOf cs ≤ 255

/-- Four numbers with points between them. -/
def isNumeric (cs : List Char) : Bool :=
  let parts := Text.splitChars '.' cs
  parts.length = 4 && parts.all isOctet

/-- Whether a character leads from one place to another in four runs of digits with any one
character between two runs. An odd place is inside a run, an even one before it. -/
def leads (c : Char) (i j : Nat) : Bool :=
  if i % 2 = 0 then Json.isAsciiDigit c && j = i + 1
  else (Json.isAsciiDigit c && j = i) || (i < 7 && j = i + 1)

/-- Whether a text is made of four runs of digits with any one character between two runs, so that
it has to be a numeric host. -/
def looksNumeric (cs : List Char) : Bool :=
  (cs.foldl (fun places c => (List.range 8).filter fun j => places.any fun i => leads c i j)
    [0]).contains 7

def isHextet (cs : List Char) : Bool :=
  !cs.isEmpty && cs.length ≤ 4 && cs.all fun c => (Json.hexValue? c).isSome

/-- Hexadecimal groups with colons between them: eight of them, or fewer with one gap. Numbers with
points may stand for the last two groups. -/
def areHextets (cs : List Char) : Bool :=
  let parts := Text.splitChars ':' cs
  let last := parts.getLastD []
  let closesNumeric := last.contains '.'
  let groups := if closesNumeric then parts.dropLast ++ [['0'], ['0']] else parts
  let inner := groups.drop 1 |>.dropLast
  let sound := 3 ≤ parts.length && (!closesNumeric || isNumeric last) && groups.length ≤ 9
  match inner.findIdx? (·.isEmpty) with
  | none => sound && groups.length = 8 && groups.all isHextet
  | some i =>
    let before := groups.take (i + 1)
    let after := groups.drop (i + 2)
    let before := if before = [[]] then [] else before
    let after := if after = [[]] then [] else after
    sound && before.length + after.length ≤ 7 && before.all isHextet && after.all isHextet

/-- The text between the brackets of a host: hexadecimal groups, and perhaps a zone behind a percent
sign. -/
def isBracketed (cs : List Char) : Bool :=
  !cs.contains '/' && match Text.cutChars '%' cs with
    | (groups, none) => areHextets groups
    | (groups, some zone) => !zone.isEmpty && !zone.contains '%' && areHextets groups

/-- Why a text is no host. -/
inductive Problem where
  | numeric
  | bracketed
  | name
  deriving DecidableEq, Repr

def Problem.what : Problem → String
  | .numeric => "IPv4 address"
  | .bracketed => "IPv6 address"
  | .name => "IDNA hostname"

def isPlain (cs : List Char) : Bool := cs.all fun c => c.toNat < 128

/-- A host in its normal form, without brackets. -/
def normal (cs : List Char) : Except Problem (List Char) :=
  if cs.isEmpty then .ok []
  else if looksNumeric cs then if isNumeric cs then .ok cs else .error .numeric
  else if cs.head? = some '[' && 2 ≤ cs.length && cs.getLast? = some ']' then
    let groups := (cs.drop 1).dropLast
    if isBracketed groups then .ok groups else .error .bracketed
  else if isPlain cs then .ok (Percent.encode Percent.isHostSafe (cs.map Char.toLower))
  else match Text.plainHostName? (Text.lower (String.ofList cs)).toList with
    | some name => .ok name
    | none => .error .name

/-- A host as it stands in an address. -/
def render (host : List Char) : List Char :=
  if host.contains ':' then '[' :: host ++ [']'] else host

end Conveyor.Host
