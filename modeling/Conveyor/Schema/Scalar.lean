import Conveyor.Schema.Basic
import Conveyor.Text.Number
import Conveyor.Text.Search
import Conveyor.Moment.Iso

/-!
# Numbers, flags and moments in documents

Settings are read leniently: an integer may be written as a whole double or as text, a double as an
integer or as text, a flag as a word or as zero and one, a moment as ISO text or as a count of
seconds or milliseconds.
-/

namespace Conveyor.Schema

-- The power `^` is the core library's, whatever else is imported.
attribute [local instance (high)] instPowNat

/-- A text without spacing at its ends. -/
def trimSpacing (s : String) : List Char := Text.trimBy Text.isSpacing s.toList

/-- Leave out a point followed by zeros only. -/
def dropZeroPart (cs : List Char) : List Char :=
  let whole := cs.takeWhile (· ≠ '.')
  match cs.drop whole.length with
  | _ :: zeros => if !zeros.isEmpty && zeros.all (· = '0') then whole else cs
  | [] => cs

/-- What follows leading zeros, of which `last` was the last or an underscore after it. The number
that follows may have a minus sign of its own; before a point, and where nothing follows, `last`
stays. -/
def dropZerosAfter? (last : Char) : List Char → Option (List Char)
  | [] => some [last]
  | c :: rest =>
    if c = '0' ∨ c = '_' then dropZerosAfter? c rest
    else if Json.isAsciiDigit c ∨ c = '-' then some (c :: rest)
    else if c = '.' then some (last :: c :: rest)
    else none

/-- A number without its leading zeros and the underscores among them; none if it does not start
as a number does. -/
def dropZeros? : List Char → Option (List Char)
  | [] => none
  | c :: rest =>
    if c = '0' then dropZerosAfter? c rest
    else if Json.isAsciiDigit c ∨ c = '-' then some (c :: rest)
    else none

/-- Leave out underscores, if there are any and each stands alone between two other characters. -/
def dropUnderscores? (cs : List Char) : Option (List Char) :=
  if cs.contains '_' && cs.head? ≠ some '_' && cs.getLast? ≠ some '_'
      && !Text.occursIn ['_', '_'] cs
  then some (cs.filter (· ≠ '_'))
  else none

/-- The number with its sign, cleared of what may surround its digits. -/
def clearInteger? (s : String) : Option (List Char) := do
  let (negative, cs) := Numeral.takeSign (trimSpacing s)
  let cs := dropZeroPart (← dropZeros? cs)
  let cs := (dropUnderscores? cs).getD cs
  some (if negative then '-' :: cs else cs)

/-- An integer as JSON writes it. Digits beyond the limit are refused for their number, whatever
comes after them. -/
def plainInteger (cs : List Char) : Checked Int :=
  let (negative, cs) := match cs with
    | '-' :: rest => (true, rest)
    | _ => (false, cs)
  let digits := cs.takeWhile Json.isAsciiDigit
  let size := if negative then digits.length + 1 else digits.length
  if digits.isEmpty ∨ (digits.head? = some '0' ∧ 1 < digits.length) then
    .refuse .unreadableInteger
  else if Json.maxDigits < size then .refuse .oversizeInteger
  else if digits.length < cs.length then .refuse .unreadableInteger
  else
    let n : Int := Json.numberOf digits
    .fits (if negative then -n else n)

/-- The integer that a text in a document writes: spacing around it, a sign, leading zeros, single
underscores and a point followed by zeros are passed over. -/
def integerOfText (s : String) : Checked Int :=
  match clearInteger? s with
  | some cs => plainInteger cs
  | none => .refuse .unreadableInteger

/-- Whether an integer fits 64 bits with a sign. -/
def isWord (n : Int) : Bool := -9223372036854775808 ≤ n && n ≤ 9223372036854775807

/-- The integer that a double equals. -/
def integerOfDouble (x : Binary64) : Checked Int :=
  if !x.isFinite then .refuse .infiniteInteger
  else if !x.isIntegral then .refuse .fractionalInteger
  else
    let n := x.truncate
    if -9223372036854775808 < n ∧ n < 9223372036854775808 then .fits n
    else .refuse .oversizeInteger

def integer : Reading Int
  | .int n => .fits n
  | .bool b => .fits (if b then 1 else 0)
  | .float x => integerOfDouble x
  | .text s => integerOfText s
  | _ => .refuse .notInteger

/-- An integer of at least zero. -/
def count : Reading Int := fun v =>
  match integer v with
  | .fits n => if n < 0 then .refuse .tooSmall else .fits n
  | .misfits ms => .misfits ms

/-- The double that plain characters write: a word, or digits with an optional point and
exponent. -/
def plainDouble? (cs : List Char) : Option Binary64 :=
  if cs.all (·.toNat < 128) then
    match Text.wordNumber? cs with
    | some x => some x
    | none => (Numeral.read? cs).map Numeral.toBinary64
  else none

/-- The double that a text in a document writes: with spacing around it, or else with underscores
in it. -/
def doubleOfText (s : String) : Checked Binary64 :=
  match (plainDouble? (trimSpacing s)).or ((dropUnderscores? s.toList).bind plainDouble?) with
  | some x => .fits x
  | none => .refuse .unreadableNumber

/-- The double nearest to an integer, which must not be too great to have one. -/
def doubleOfInteger (n : Int) : Checked Binary64 :=
  let x := Binary64.ofInt n
  if x.isFinite then .fits x else .refuse .notNumber

def number : Reading Binary64
  | .float x => .fits x
  | .int n => doubleOfInteger n
  | .bool b => .fits (.ofInt (if b then 1 else 0))
  | .text s => doubleOfText s
  | _ => .refuse .notNumber

def yesWords : List String := ["true", "t", "yes", "y", "on", "1"]

def noWords : List String := ["false", "f", "no", "n", "off", "0"]

def flag : Reading Bool
  | .bool b => .fits b
  | .int n =>
    if n = 0 then .fits false
    else if n = 1 then .fits true
    else .refuse (if isWord n then .unreadableFlag else .notFlag)
  | .float x =>
    if x.compareInt? 0 == some .eq then .fits false
    else if x.compareInt? 1 == some .eq then .fits true
    else .refuse .notFlag
  | .text s =>
    let word := s.toLower
    if yesWords.contains word then .fits true
    else if noWords.contains word then .fits false
    else .refuse .unreadableFlag
  | _ => .refuse .notFlag

/-- The greatest count of seconds since 1970; beyond it a number counts milliseconds. -/
def secondsLimit : Int := 20000000000

/-- The first second of the year 1600, before which no count leads. -/
def firstSecond : Int := -11676096000

/-- A count of seconds or milliseconds since 1970, and microseconds to add. -/
def momentOfCount? (n : Int) (micros : Nat) : Option Moment :=
  let total :=
    if secondsLimit < n.natAbs then n * 1000 + micros else n * Moment.secondMicros + micros
  if total < firstSecond * Moment.secondMicros then none else Moment.ofEpochMicros? total

/-- The greatest integer that is at most a finite number. -/
def floorOf (x : Binary64) : Int :=
  let (n, d) := x.toRatio
  n.fdiv d

/-- A count of seconds or milliseconds with a fraction, which is taken to the nearest
microsecond. -/
def momentOfDouble? (x : Binary64) : Option Moment :=
  if !x.isFinite then none
  else
    let x := if x.abs.le (.ofInt secondsLimit) then x else x.divNat 1000
    let scaled := (x.sub (.ofInt (floorOf x))).mul (.ofInt Moment.secondMicros)
    let (n, d) := scaled.toRatio
    momentOfCount? (floorOf x) ((2 * n.toNat + d) / (2 * d))

/-- A count of seconds or milliseconds as text: digits, or with a point whatever a double may be. -/
def momentOfNumeral? (cs : List Char) : Option Moment :=
  let (negative, body) := Numeral.takeSign cs
  let digits := body.takeWhile Json.isAsciiDigit
  match body.drop digits.length with
  | [] =>
    let n : Int := Json.numberOf digits
    if digits.isEmpty then none else momentOfCount? (if negative then -n else n) 0
  | '.' :: _ => (plainDouble? cs).bind momentOfDouble?
  | _ => none

/-- Two digits. -/
def twoDigits? (cs : List Char) : Option (Nat × List Char) := Moment.readDigits? 2 0 cs

/-- The offset at the end of a moment, in microseconds. -/
def offsetOf? : List Char → Option (Option Int)
  | [] => some none
  | c :: rest =>
    if c = 'Z' ∨ c = 'z' then if rest.isEmpty then some (some 0) else none
    else if c = '+' ∨ c = '-' ∨ c.toNat = 0x2212 then do
      let (hour, rest) ← twoDigits? rest
      let rest := match rest with
        | ':' :: tail => tail
        | _ => rest
      let (minute, rest) ← twoDigits? rest
      let n : Int := (hour * 60 + minute : Nat) * 60000000
      if !rest.isEmpty ∨ 60 ≤ minute ∨ Moment.dayMicros ≤ n then none
      else some (some (if c = '+' then n else -n))
    else none

/-- Seconds and microseconds after a minute. -/
def secondsOf? : List Char → Option (Nat × Nat × List Char)
  | ':' :: rest => do
    let (second, rest) ← twoDigits? rest
    match rest with
    | c :: tail =>
      if c = '.' ∨ c = ',' then
        let ds := tail.takeWhile Moment.isDigit
        let (micro, _) ← Moment.readDigits? (min 6 ds.length) 0 ds
        if ds.isEmpty then none
        else some (second, micro * 10 ^ (6 - min 6 ds.length), tail.drop ds.length)
      else some (second, 0, rest)
    | [] => some (second, 0, [])
  | cs => some (0, 0, cs)

/-- A date written with dashes at the start of the input. -/
def dateOf? (cs : List Char) : Option (Calendar.Date × List Char) := do
  let (year, rest) ← Moment.readDigits? 4 0 cs
  match rest with
  | '-' :: rest =>
    let (month, rest) ← twoDigits? rest
    match rest with
    | '-' :: rest =>
      let (day, rest) ← twoDigits? rest
      if (Calendar.Date.mk year month day).isValid then some (⟨year, month, day⟩, rest) else none
    | _ => none
  | _ => none

/-- A date, one of the characters that set off a time, and a time with minutes. -/
def momentOfIso? (cs : List Char) : Option Moment := do
  let (date, rest) ← dateOf? cs
  match rest with
  | c :: rest =>
    if c = 'T' ∨ c = 't' ∨ c = ' ' ∨ c = '_' then
      let (hour, rest) ← twoDigits? rest
      match rest with
      | ':' :: rest =>
        let (minute, rest) ← twoDigits? rest
        let (second, micro, rest) ← secondsOf? rest
        let offset ← offsetOf? rest
        Moment.of? date hour minute second micro offset
      | _ => none
    else none
  | [] => none

/-- The moment that ISO text writes; a date alone is its midnight. -/
def momentOfDate? (cs : List Char) : Option Moment :=
  match momentOfIso? cs with
  | some m => some m
  | none =>
    match dateOf? cs with
    | some (date, []) => some ⟨(date.toDay : Int) * Moment.dayMicros, none⟩
    | _ => none

/-- Whether a text would be a moment but for its year, which is zero. -/
def isYearZero (cs : List Char) : Bool :=
  ['0', '0', '0', '0'].isPrefixOf cs && (momentOfDate? (['2', '0', '0', '0'] ++ cs.drop 4)).isSome

/-- The moment that a text in a document writes. -/
def momentOfText (s : String) : Checked Moment :=
  let cs := s.toList
  match (momentOfDate? cs).or (momentOfNumeral? cs) with
  | some m => .fits m
  | none => .refuse (if isYearZero cs then .unreadableMoment else .unreadableDate)

/-- A moment, or the misfit of a number that leads to none. -/
def orUnreadable : Option Moment → Checked Moment
  | some m => .fits m
  | none => .refuse .unreadableMoment

/-- A moment as ISO text or as a number. An integer of more than 64 bits is taken as a double, if it
has one. -/
def moment : Reading Moment
  | .text s => momentOfText s
  | .int n =>
    if isWord n then orUnreadable (momentOfCount? n 0)
    else if (Binary64.ofInt n).isFinite then .refuse .unreadableMoment
    else .refuse .notMoment
  | .float x => orUnreadable (momentOfDouble? x)
  | _ => .refuse .notMoment

/-- A moment in a document that is read off its text, where an integer has 64 bits at most. -/
def momentInText : Reading Moment
  | .int n => if isWord n then moment (.int n) else .refuse .notMoment
  | v => moment v

end Conveyor.Schema
