import Conveyor.Binary64.Basic

/-!
# The shortest decimal of a double

The fewest digits that read back as the number, and among those the nearest to it. The interval
of fractions that round to the number is tested against the two neighbours of the number on the
decimal grids of one digit, two digits and so on, in natural numbers only.
-/

namespace Conveyor

-- The power `^` is the core library's, whatever else is imported.
attribute [local instance (high)] instPowNat

/-- The digits of `n` in base ten, most significant first; `fuel` bounds their number. -/
def decimalDigitsAux : Nat → Nat → List Char → List Char
  | 0, _, acc => acc
  | fuel + 1, n, acc =>
    let acc := Char.ofNat (48 + n % 10) :: acc
    if n < 10 then acc else decimalDigitsAux fuel (n / 10) acc

/-- A natural number in decimal. -/
def decimalDigits (n : Nat) : List Char := decimalDigitsAux (n.log2 + 1) n []

/-- The greatest `e` with `10 ^ e ≤ n / d`, for positive `n` and `d`. -/
def decimalExponent (n d : Nat) : Int :=
  let guess := (((n.log2 : Int) - d.log2) * 1233) / 4096
  let reaches (e : Int) : Bool :=
    if e < 0 then d ≤ n * 10 ^ (-e).toNat else d * 10 ^ e.toNat ≤ n
  if reaches (guess + 1) then guess + 1 else if reaches guess then guess else guess - 1

namespace Binary64

/-- The fractions that round to a number: `low` and `high` over `den`, ends included or not. -/
structure Basin where
  low : Nat
  mid : Nat
  high : Nat
  den : Nat
  closed : Bool

/-- Everything between the halfway points to the neighbours of a positive finite number. The
neighbour below a power of two is nearer. -/
def basin (x : Binary64) : Basin :=
  let m := x.significand
  let below := if x.fraction.val = 0 ∧ 1 < x.exponent.val then 1 else 2
  let q := x.scale - 2
  let (up, den) := if q < 0 then (1, 2 ^ (-q).toNat) else (2 ^ q.toNat, 1)
  ⟨(4 * m - below) * up, 4 * m * up, (4 * m + 2) * up, den, m % 2 = 0⟩

/-- Whether `c · 10 ^ p` lies in the basin. -/
def Basin.holds (b : Basin) (c : Nat) (p : Int) : Bool :=
  let (n, d) := if p < 0 then (c, 10 ^ (-p).toNat) else (c * 10 ^ p.toNat, 1)
  if b.closed then b.low * d ≤ n * b.den && n * b.den ≤ b.high * d
  else b.low * d < n * b.den && n * b.den < b.high * d

/-- The shortest decimal on the grids of `fuel` and fewer remaining digit counts, as a coefficient
and a power of ten. -/
def shortestFrom (b : Basin) (top : Int) (count : Nat) : Nat → Nat × Int
  | 0 => (0, 0)
  | fuel + 1 =>
    let p := top - count + 1
    let (n, d) := if p < 0 then (b.mid * 10 ^ (-p).toNat, b.den) else (b.mid, b.den * 10 ^ p.toNat)
    let c := n / d
    let r := n % d
    let nearest := if 2 * r < d ∨ (2 * r = d ∧ c % 2 = 0) then c else c + 1
    let other := if nearest = c then c + 1 else c
    if b.holds nearest p then (nearest, p)
    else if b.holds other p then (other, p)
    else shortestFrom b top (count + 1) fuel

/-- Drop the zeros at the end of a coefficient; `fuel` bounds their number. -/
def dropZeros : Nat → Nat × Int → Nat × Int
  | 0, r => r
  | fuel + 1, (c, p) => if c ≠ 0 ∧ c % 10 = 0 then dropZeros fuel (c / 10, p + 1) else (c, p)

/-- The coefficient and power of ten of the shortest decimal of a positive finite number. -/
def shortest (x : Binary64) : Nat × Int :=
  let b := x.basin
  dropZeros 20 (shortestFrom b (decimalExponent b.mid b.den) 1 18)

end Binary64

/-- How decimals are laid out: where positional writing ends and how exponents look. -/
structure DecimalLayout where
  /-- The least position of the point, before the first digit, that is written positionally. -/
  leastPoint : Int
  /-- The greatest position of the point that is written positionally. -/
  greatestPoint : Int
  /-- Whether a positive exponent has a sign. -/
  plus : Bool
  /-- The least number of digits of an exponent. -/
  exponentWidth : Nat

namespace DecimalLayout

/-- Numbers in messages and documents: positional from `0.0001` up to sixteen digits. -/
def document : DecimalLayout := ⟨-3, 16, true, 2⟩

/-- Numbers in request listings: positional from `0.00001` up to sixteen digits. -/
def listing : DecimalLayout := ⟨-4, 16, false, 1⟩

/-- An exponent of ten after its mark. -/
def exponentText (l : DecimalLayout) (e : Int) : List Char :=
  let digits := decimalDigits e.natAbs
  let padded := List.replicate (l.exponentWidth - digits.length) '0' ++ digits
  if e < 0 then '-' :: padded else if l.plus then '+' :: padded else padded

/-- Digits with the point `point` places after their start. A positional number always shows a
digit on both sides of the point. -/
def layOut (l : DecimalLayout) (digits : List Char) (point : Int) : List Char :=
  if l.leastPoint ≤ point ∧ point ≤ l.greatestPoint then
    if point ≤ 0 then '0' :: '.' :: (List.replicate (-point).toNat '0' ++ digits)
    else
      let whole := digits.take point.toNat
      let zeros := List.replicate (point.toNat - digits.length) '0'
      let part := digits.drop point.toNat
      whole ++ zeros ++ '.' :: (if part.isEmpty then ['0'] else part)
  else
    let tail := 'e' :: l.exponentText (point - 1)
    match digits with
    | [] => tail
    | [d] => d :: tail
    | d :: more => d :: '.' :: (more ++ tail)

/-- A finite number by its shortest decimal. -/
def writeFinite (l : DecimalLayout) (x : Binary64) : List Char :=
  let body :=
    if x.isZero then ['0', '.', '0']
    else
      let (c, p) := x.abs.shortest
      let digits := decimalDigits c
      l.layOut digits (digits.length + p)
  if x.negative then '-' :: body else body

end DecimalLayout
end Conveyor
