import Conveyor.Moment.Basic
import Conveyor.Binary64.Shortest
import Conveyor.Text.Blank

/-!
# Dates and times in ISO form

Writing a moment is canonical: `2024-06-01T12:00:00+00:00`, with microseconds only if there are
any. Reading accepts the calendar and week forms of dates, with and without separators, any one
character between date and time, times cut short from the right, and an offset.
-/

namespace Conveyor.Moment

-- The power `^` is the core library's, whatever else is imported.
attribute [local instance (high)] instPowNat

/-- A number in decimal, padded with zeros to a width. -/
def padded (width n : Nat) : List Char :=
  let digits := decimalDigits n
  List.replicate (width - digits.length) '0' ++ digits

def writeDate (d : Calendar.Date) : List Char :=
  padded 4 d.year ++ '-' :: padded 2 d.month ++ '-' :: padded 2 d.day

def writeTime (m : Moment) : List Char :=
  padded 2 m.hour ++ ':' :: padded 2 m.minute ++ ':' :: padded 2 m.second
    ++ (if m.microsecond = 0 then [] else '.' :: padded 6 m.microsecond)

/-- An offset from universal time; `colon` is what stands between its parts. -/
def writeOffset (colon : List Char) (offset : Int) : List Char :=
  let n := offset.natAbs
  let seconds := n / 1000000
  let micros := n % 1000000
  (if offset < 0 then '-' else '+') :: padded 2 (seconds / 3600) ++ colon
    ++ padded 2 (seconds / 60 % 60)
    ++ (if seconds % 60 = 0 ∧ micros = 0 then [] else colon ++ padded 2 (seconds % 60))
    ++ (if micros = 0 then [] else '.' :: padded 6 micros)

/-- The moment in ISO form. -/
def isoText (m : Moment) : String :=
  String.ofList (writeDate m.date ++ 'T' :: m.writeTime
    ++ (match m.offset with
      | some offset => writeOffset [':'] offset
      | none => []))

def isDigit (c : Char) : Bool := 48 ≤ c.toNat && c.toNat ≤ 57

/-- A number of exactly so many digits, and what follows it. -/
def readDigits? : Nat → Nat → List Char → Option (Nat × List Char)
  | 0, acc, cs => some (acc, cs)
  | _ + 1, _, [] => none
  | count + 1, acc, c :: cs =>
    if isDigit c then readDigits? count (acc * 10 + (c.toNat - 48)) cs else none

/-- The position of the character between date and time. -/
def separatorPosition (cs : List Char) : Nat :=
  let length := cs.length
  let at? (i : Nat) (c : Char) : Bool := cs[i]? == some c
  if length = 7 then 7
  else if at? 4 '-' then
    if at? 5 'W' then
      if at? 8 '-' then if ((cs[10]?).map isDigit).getD false then 8 else 10
      else 8
    else 10
  else if at? 4 'W' then
    let position := 7 + ((cs.drop 7).takeWhile isDigit).length
    if position < 9 then position else if position % 2 = 0 then 7 else 8
  else 8

/-- The date at the start of the input, whose date part has the given length. -/
def readDate? (length : Nat) (cs : List Char) : Option Calendar.Date := do
  let (year, rest) ← readDigits? 4 0 cs
  let separated := rest.head? == some '-'
  let rest := if separated then rest.drop 1 else rest
  match rest with
  | 'W' :: rest =>
    let (week, rest) ← readDigits? 2 0 rest
    if cs.length - rest.length < length then
      let rest ← if separated then
          match rest with
          | '-' :: rest => some rest
          | _ => none
        else some rest
      let (day, _) ← readDigits? 1 0 rest
      Calendar.dateOfWeek? year week day
    else Calendar.dateOfWeek? year week 1
  | _ =>
    let (month, rest) ← readDigits? 2 0 rest
    let rest ← if separated then
        match rest with
        | '-' :: rest => some rest
        | _ => none
      else some rest
    let (day, _) ← readDigits? 2 0 rest
    some ⟨year, month, day⟩

/-- Hours, minutes, seconds and microseconds, and whether anything follows them. -/
structure TimeParts where
  hour : Nat := 0
  minute : Nat := 0
  second : Nat := 0
  micro : Nat := 0
  deriving Repr

/-- The fraction of a second that starts here: six digits count and more are passed over. Every
character up to the end of the part must be a digit if there are fewer than six. The answer tells
whether the text goes on. -/
def readFraction? (length : Nat) (cs : List Char) : Option (Nat × Bool) := do
  let count := min length 6
  let (n, rest) ← readDigits? count 0 cs
  if count = 0 then none
  else some (n * 10 ^ (6 - count), !(rest.dropWhile isDigit).isEmpty)

/-- The parts of a time from the given one on (hours are part zero). `length` counts the characters
up to the end of the time, `separated` tells whether colons stand between the parts. -/
def readTimeParts? : Nat → Nat → Bool → TimeParts → Nat → List Char → Option (TimeParts × Bool)
  | 0, _, _, t, length, cs => do
    let (n, more) ← readFraction? length cs
    some ({ t with micro := n }, more)
  | fuel + 1, index, separated, t, length, cs => do
    let (n, rest) ← readDigits? 2 0 cs
    let t := match index with
      | 0 => { t with hour := n }
      | 1 => { t with minute := n }
      | _ => { t with second := n }
    match rest with
    | [] => some (t, false)
    | c :: rest =>
      let separated := if index = 0 then c == ':' else separated
      if length ≤ 3 then some (t, true)
      else if separated && c == ':' then
        readTimeParts? fuel (index + 1) separated t (length - 3) rest
      else if c == '.' || c == ',' then
        let (n, more) ← readFraction? (length - 3) rest
        some ({ t with micro := n }, more)
      else if !separated then
        readTimeParts? fuel (index + 1) separated t (length - 2) (c :: rest)
      else none

/-- A time of day that takes up the first `length` characters, and whether anything follows. -/
def readClock? (length : Nat) (cs : List Char) : Option (TimeParts × Bool) :=
  readTimeParts? 3 0 true {} length cs

/-- Where a time's offset starts, or the length of the input. -/
def offsetPosition (cs : List Char) : Nat :=
  (cs.takeWhile fun c => c != '+' && c != '-' && c != 'Z').length

/-- A time of day with an optional offset. -/
def readTime? (cs : List Char) : Option (TimeParts × Option Int) := do
  let position := offsetPosition cs
  let (t, more) ← readClock? position cs
  match cs.drop position with
  | [] => if more then none else some (t, none)
  | 'Z' :: rest => if rest.isEmpty then some (t, some 0) else none
  | sign :: rest =>
    let (o, more) ← readClock? rest.length rest
    if more then none
    else
      let n : Int := ((o.hour * 60 + o.minute) * 60 + o.second) * 1000000 + o.micro
      if n < dayMicros then some (t, some (if sign == '-' then -n else n)) else none

/-- Each character as often as it has bytes in UTF-8, in which lengths are counted. -/
def byteUnits (cs : List Char) : List Char := cs.flatMap fun c => List.replicate c.utf8Size c

/-- What follows the character between date and time. -/
def afterSeparator (cs : List Char) : List Char := cs.drop ((cs.head?.map Char.utf8Size).getD 1)

/-- The moment that ISO text writes. -/
def readIso? (cs : List Char) : Option Moment := do
  let cs := byteUnits cs
  if cs.length < 7 then none
  else
    let position := separatorPosition cs
    let date ← readDate? position cs
    let rest := cs.drop position
    if rest.isEmpty then Moment.of? date 0 0 0 0 none
    else
      let (t, offset) ← readTime? (afterSeparator rest)
      Moment.of? date t.hour t.minute t.second t.micro offset

end Conveyor.Moment
