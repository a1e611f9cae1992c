/-!
# Punycode

Text of any script written with letters, digits and dashes. The plain characters come first; the
others follow in the order of their code points, each as a number that says how far on it lies,
counted in places of insertion. A number is written in digits of base 36, the least first; a digit
below the threshold of its place ends it, and the thresholds adapt to the numbers before.
-/

namespace Conveyor.Text.Punycode

def isPlain (c : Char) : Bool := c.toNat < 128

def digitChar (d : Nat) : Char := Char.ofNat (if d < 26 then 97 + d else 22 + d)

def digitValue? (c : Char) : Option Nat :=
  let n := c.toNat
  if 97 ≤ n ∧ n ≤ 122 then some (n - 97)
  else if 65 ≤ n ∧ n ≤ 90 then some (n - 65)
  else if 48 ≤ n ∧ n ≤ 57 then some (n - 22)
  else none

/-- The threshold of a place, which is counted in steps of 36: how far the place lies beyond the
bias, but at least 1 and at most 26. -/
def threshold (place bias : Nat) : Nat := max 1 (min 26 (place - bias))

theorem one_le_threshold (place bias : Nat) : 1 ≤ threshold place bias := Nat.le_max_left 1 _

/-- Scale a number down until it is small; `place` counts the steps. -/
def scaleDown (n place : Nat) : Nat × Nat :=
  if 455 < n then scaleDown (n / 35) (place + 36) else (n, place)
termination_by n
decreasing_by exact Nat.div_lt_self (by omega) (by omega)

/-- The bias after a number, when the text has so many characters. -/
def adapt (n size : Nat) (isFirst : Bool) : Nat :=
  let n := if isFirst then n / 700 else n / 2
  let (n, place) := scaleDown (n + n / size) 0
  place + 36 * n / (n + 38)

/-- The digits of a number. -/
def writeNumber (bias place n : Nat) : List Char :=
  let t := threshold place bias
  if n < t then [digitChar n]
  else digitChar (t + (n - t) % (36 - t)) :: writeNumber bias (place + 36) ((n - t) / (36 - t))
termination_by n
decreasing_by
  have := one_le_threshold place bias
  have := Nat.div_le_self (n - threshold place bias) (36 - threshold place bias)
  omega

/-- What has been written so far. -/
structure Writing where
  output : List Char
  /-- The places passed over since the last number. -/
  skipped : Nat
  bias : Nat
  /-- The number of characters written. -/
  size : Nat

/-- Go on to one character of the text, where characters of code point `n` are written. -/
def Writing.pass (plain n : Nat) (w : Writing) (c : Char) : Writing :=
  if c.toNat < n then { w with skipped := w.skipped + 1 }
  else if c.toNat = n then
    { output := w.output ++ writeNumber w.bias 36 w.skipped, skipped := 0,
      bias := adapt w.skipped (w.size + 1) (w.size = plain), size := w.size + 1 }
  else w

/-- Write the characters of each of the code points, which are in increasing order from `next`
on. -/
def writeRounds (cs : List Char) (plain : Nat) : List Nat → Nat → Writing → Writing
  | [], _, w => w
  | n :: rest, next, w =>
    let between := (n - next) * (w.size + 1)
    let w := cs.foldl (Writing.pass plain n) { w with skipped := w.skipped + between }
    writeRounds cs plain rest (n + 1) { w with skipped := w.skipped + 1 }

/-- A number in its place in a list in increasing order, once. -/
def insertOnce (n : Nat) : List Nat → List Nat
  | [] => [n]
  | m :: rest =>
    if n < m then n :: m :: rest
    else if n = m then m :: rest
    else m :: insertOnce n rest

def encode (cs : List Char) : List Char :=
  let plain := cs.filter isPlain
  let others := (cs.filter fun c => !isPlain c).foldl (fun ns c => insertOnce c.toNat ns) []
  let written := writeRounds cs plain.length others 128 ⟨[], 0, 72, plain.length⟩
  plain ++ (if plain.isEmpty then [] else ['-']) ++ written.output

/-- The number at the start of the input, added to `n`; its next digit counts `weight`. -/
def readNumber? (bias : Nat) : List Char → Nat → Nat → Nat → Option (Nat × List Char)
  | [], _, _, _ => none
  | c :: rest, place, weight, n => do
    let d ← digitValue? c
    let t := threshold place bias
    if d < t then some (n + d * weight, rest)
    else readNumber? bias rest (place + 36) (weight * (36 - t)) (n + d * weight)

theorem length_of_readNumber? {bias : Nat} {cs rest : List Char} {place weight n m : Nat}
    (h : readNumber? bias cs place weight n = some (m, rest)) : rest.length < cs.length := by
  induction cs generalizing place weight n with
  | nil => simp [readNumber?] at h
  | cons c cs ih =>
    simp only [readNumber?, Option.bind_eq_bind, Option.bind_eq_some_iff] at h
    obtain ⟨d, -, h⟩ := h
    split at h
    · simp only [Option.some.injEq, Prod.mk.injEq] at h
      simp [← h.2]
    · have := ih h
      simp only [List.length_cons]
      omega

/-- Insert the characters that numbers write into `output`; `next` and `place` say where the number
before ended. -/
def readInsertions (output : List Nat) (bias next place : Nat) (isFirst : Bool) (cs : List Char) :
    Option (List Nat) :=
  match cs with
  | [] => some output
  | c :: rest =>
    match h : readNumber? bias (c :: rest) 36 1 0 with
    | none => none
    | some (n, tail) =>
      let size := output.length + 1
      let code := next + (place + n) / size
      let place := (place + n) % size
      if 0x10FFFF < code then none
      else
        readInsertions (output.insertIdx place code) (adapt n size isFirst) code (place + 1) false
          tail
termination_by cs.length
decreasing_by simpa using length_of_readNumber? h

/-- The characters before the last dash, and those after it. -/
def splitAtDash (cs : List Char) : List Char × List Char :=
  let tail := (cs.reverse.takeWhile (· ≠ '-')).reverse
  (cs.take (cs.length - tail.length - 1), tail)

/-- The code points of a text, if it is one; they may be halves of characters. -/
def decode? (cs : List Char) : Option (List Nat) :=
  let (plain, tail) := splitAtDash cs
  readInsertions (plain.map Char.toNat) 72 128 0 true tail

end Conveyor.Text.Punycode
