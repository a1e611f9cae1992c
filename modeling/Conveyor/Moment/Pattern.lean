import Conveyor.Moment.Iso
import Conveyor.Value.Display

/-!
# Writing moments by a pattern

A pattern is text with directives: a percent sign, flags, a width, and a letter. Names of months
and days are English, and the clock is the moment's own. Microseconds, offset and zone name are
filled in first; what then stands after a percent sign and is no directive stays as it is. A
pattern ends at its first NUL, and a text that outgrows the room for its pattern is empty.
-/

namespace Conveyor.Moment

def dayNames : List String :=
  ["Monday", "Tuesday", "Wednesday", "Thursday", "Friday", "Saturday", "Sunday"]

def monthNames : List String :=
  ["January", "February", "March", "April", "May", "June", "July", "August", "September",
    "October", "November", "December"]

/-- The name of the moment's zone: the offset from universal time, or nothing without one. -/
def zoneName (m : Moment) : List Char :=
  match m.offset with
  | none => []
  | some 0 => "UTC".toList
  | some offset => "UTC".toList ++ writeOffset [':'] offset

/-- Fill in microseconds, offset and zone name, the directives that a plain clock does not know. -/
def fillZone (m : Moment) : List Char → List Char
  | [] => []
  | '%' :: 'f' :: rest => padded 6 m.microsecond ++ fillZone m rest
  | '%' :: 'z' :: rest =>
    (match m.offset with
      | some offset => writeOffset [] offset
      | none => []) ++ fillZone m rest
  | '%' :: 'Z' :: rest => m.zoneName ++ fillZone m rest
  | '%' :: c :: rest => '%' :: c :: fillZone m rest
  | c :: rest => c :: fillZone m rest

/-- What stands between a percent sign and its letter. -/
structure Directive where
  /-- How numbers are padded: by zeros, by blanks, or not at all. -/
  pad : Option Char := none
  raise : Bool := false
  swap : Bool := false
  width : Nat := 0
  modifier : Option Char := none

def readFlags : Directive → List Char → Directive × List Char
  | d, [] => (d, [])
  | d, c :: rest =>
    if c = '_' ∨ c = '-' ∨ c = '0' then readFlags { d with pad := some c } rest
    else if c = '^' then readFlags { d with raise := true } rest
    else if c = '#' then readFlags { d with swap := true } rest
    else (d, c :: rest)

/-- The room for the text that a pattern writes: 256 times the least power of two that is at least
four and the pattern's length. -/
def room (pattern : List Char) : Nat := 256 * (max 4 pattern.length).nextPowerOfTwo

/-- Flags, width and modifier at the start of the input. A width beyond `room` is as good as one
that fills it. -/
def readDirective (room : Nat) (cs : List Char) : Directive × List Char :=
  let (d, cs) := readFlags {} cs
  let width := cs.takeWhile isDigit
  let cs := cs.drop width.length
  let d := { d with width := min room (width.foldl (fun n c => n * 10 + (c.toNat - 48)) 0) }
  match cs with
  | 'E' :: rest => ({ d with modifier := some 'E' }, rest)
  | 'O' :: rest => ({ d with modifier := some 'O' }, rest)
  | _ => (d, cs)

/-- The text of a directive at its width. -/
def Directive.place (d : Directive) (text : List Char) : List Char :=
  List.replicate (d.width - text.length) (if d.pad = some '0' then '0' else ' ') ++ text

/-- A name in the case that the flags ask for. -/
def Directive.name (d : Directive) (raise : Bool) (s : String) : List Char :=
  d.place ((if raise then s.toUpper else s).toList)

/-- A number padded to a count of digits; `spaced` numbers are padded by blanks by themselves. -/
def Directive.padded (d : Directive) (spaced : Bool) (digits n : Nat) : List Char :=
  let pad := if spaced ∧ d.pad ≠ some '0' ∧ d.pad ≠ some '-' then some '_' else d.pad
  let plain := decimalDigits n
  if pad = some '-' then { d with pad }.place plain
  else List.replicate (digits - plain.length) (if pad = some '_' then ' ' else '0') ++ plain

/-- A number of at least so many digits and of at least the directive's width. -/
def Directive.number (d : Directive) (spaced : Bool) (digits n : Nat) : List Char :=
  d.padded spaced (max digits d.width) n

/-- Patterns that single letters stand for. -/
def abbreviation? (c : Char) : Option String :=
  match c with
  | 'c' => some "%a %b %e %H:%M:%S %Y"
  | 'D' | 'x' => some "%m/%d/%y"
  | 'F' => some "%Y-%m-%d"
  | 'R' => some "%H:%M"
  | 'r' => some "%I:%M:%S %p"
  | 'T' | 'X' => some "%H:%M:%S"
  | _ => none

/-- The hour on a clock of twelve hours. -/
def hour12 (m : Moment) : Nat := if m.hour % 12 = 0 then 12 else m.hour % 12

/-- Letters that take no modifier at all. -/
def takesNone (c : Char) : Bool := ['a', 'A', 'D', 'F'].contains c

/-- Letters that do not take the modifier for eras. -/
def takesNoEra (c : Char) : Bool := "bhBdeHIkljMmSUVgGWw".toList.contains c

/-- Letters that do not take the modifier for other digits. -/
def takesNoDigits (c : Char) : Bool := ['c', 'x', 'X', 'Y'].contains c

/-- Whether a letter takes the modifier of a directive. -/
def Directive.admits (d : Directive) (c : Char) : Bool :=
  match d.modifier with
  | none => true
  | some 'E' => !takesNone c && !takesNoEra c
  | some _ => !takesNone c && !takesNoDigits c

/-- What a letter writes; none for a letter that is no directive. -/
def field? (m : Moment) (d : Directive) (c : Char) : Option (List Char) :=
  let weekday := Calendar.weekday m.day
  let sunday := (weekday + 1) % 7
  let yearDay := (Calendar.yearOfDay m.day).2
  let (weekYear, week) := Calendar.weekOfDay m.day
  let year := m.date.year
  let half := if m.hour < 12 then "AM" else "PM"
  match c with
  | 'a' =>
    some (d.name (d.raise || d.swap) (String.ofList ((dayNames.getD weekday "").toList.take 3)))
  | 'A' => some (d.name (d.raise || d.swap) (dayNames.getD weekday ""))
  | 'b' | 'h' =>
    some (d.name (d.raise || d.swap)
      (String.ofList ((monthNames.getD (m.date.month - 1) "").toList.take 3)))
  | 'B' => some (d.name (d.raise || d.swap) (monthNames.getD (m.date.month - 1) ""))
  | 'C' => some (d.number false 1 (year / 100))
  | 'd' => some (d.number false 2 m.date.day)
  | 'e' => some (d.number true 2 m.date.day)
  | 'g' => some (d.number false 2 (weekYear % 100))
  | 'G' => some (d.number false 1 weekYear)
  | 'H' => some (d.number false 2 m.hour)
  | 'I' => some (d.number false 2 m.hour12)
  | 'j' => some (d.number false 3 (yearDay + 1))
  | 'k' => some (d.number true 2 m.hour)
  | 'l' => some (d.number true 2 m.hour12)
  | 'm' => some (d.number false 2 m.date.month)
  | 'M' => some (d.number false 2 m.minute)
  | 'n' => some (d.place ['\n'])
  | 'p' => some (if d.swap then d.place half.toLower.toList else d.name d.raise half)
  | 'P' => some (d.place half.toLower.toList)
  | 's' => some (d.place (decimalText ((m.wall - epochWall) / secondMicros)))
  | 'S' => some (d.number false 2 m.second)
  | 't' => some (d.place ['\t'])
  | 'u' => some (d.number false 1 (weekday + 1))
  | 'U' => some (d.number false 2 ((yearDay + 7 - sunday) / 7))
  | 'V' => some (d.number false 2 week)
  | 'w' => some (d.number false 1 sunday)
  | 'W' => some (d.number false 2 ((yearDay + 7 - weekday) / 7))
  | 'y' => some (d.number false 2 (year % 100))
  | 'Y' => some (d.number false 1 year)
  | 'z' => some []
  | 'Z' => some (d.place [])
  | _ => none

/-- The text of a letter, which may stand for a pattern of its own. -/
def text? (m : Moment) (expand : Char → Option (List Char)) (d : Directive) (c : Char) :
    Option (List Char) :=
  if d.admits c then
    match expand c with
    | some text => some (d.name d.raise (String.ofList text))
    | none => m.field? d c
  else none

/-- Fill in the directives of a pattern. `expand` gives the text of letters that stand for patterns,
`fuel` bounds the length of the pattern. What is no directive stays, at the width that it asks
for. -/
def fillWith (m : Moment) (room : Nat) (expand : Char → Option (List Char)) :
    Nat → List Char → List Char
  | 0, _ => []
  | _ + 1, [] => []
  | fuel + 1, c :: cs =>
    if c ≠ '%' then c :: fillWith m room expand fuel cs
    else
      let (d, rest) := readDirective room cs
      let plain (raise : Bool) (rest : List Char) : List Char :=
        d.name raise (String.ofList ('%' :: cs.take (cs.length - rest.length)))
      match rest with
      | [] => plain d.raise []
      | '%' :: rest => d.place ['%'] ++ fillWith m room expand fuel rest
      | letter :: rest =>
        let raise := d.raise || (d.swap && ['b', 'h', 'B'].contains letter)
        (text? m expand d letter).getD (plain raise rest) ++ fillWith m room expand fuel rest

/-- Fill in all directives of a pattern; nothing if the text outgrows the room for it. -/
def fillClock (m : Moment) (pattern : List Char) : List Char :=
  let room := room pattern
  let expand (c : Char) : Option (List Char) :=
    (abbreviation? c).map fun p => fillWith m room (fun _ => none) (p.length + 1) p.toList
  let text := fillWith m room expand (pattern.length + 1) pattern
  if text.length < room then text else []

/-- The moment written by a pattern. -/
def format (m : Moment) (pattern : String) : String :=
  String.ofList (m.fillClock (m.fillZone (pattern.toList.takeWhile fun c => c.toNat ≠ 0)))

/-- Names of parts of a moment that patterns for people use, with the directives for them. -/
def tokens : List (String × String) :=
  [("YYYY", "%Y"), ("YY", "%y"), ("MM", "%m"), ("DD", "%d"), ("HH", "%H"), ("mm", "%M"),
    ("ss", "%S")]

/-- Replace part names by directives, left to right; `skip` characters belong to the name before. -/
def directivesOf (skip : Nat) : List Char → List Char
  | [] => []
  | c :: rest =>
    match skip with
    | n + 1 => directivesOf n rest
    | 0 =>
      match tokens.find? fun (name, _) => name.toList.isPrefixOf (c :: rest) with
      | some (name, directive) => directive.toList ++ directivesOf (name.length - 1) rest
      | none => c :: directivesOf 0 rest

end Conveyor.Moment
