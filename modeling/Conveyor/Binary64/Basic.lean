/-!
# Double-precision numbers

The 64-bit binary numbers by their three fields. A finite number is `± significand · 2 ^ scale`
with natural significand, so comparison and arithmetic are done on integers, and equality of
fields tells the two zeros apart where equality of numbers does not.
-/

namespace Conveyor

/-- A double by its sign, biased exponent and fraction fields. -/
structure Binary64 where
  negative : Bool
  exponent : Fin 2048
  fraction : Fin 4503599627370496
  deriving DecidableEq, Repr

namespace Binary64

-- The power `^` and the zero are the core library's, whatever else is imported.
attribute [local instance (high)] instPowNat Zero.ofOfNat0

instance : NeZero 2048 := ⟨by decide⟩

instance : NeZero 4503599627370496 := ⟨by decide⟩

def zero : Binary64 := ⟨false, 0, 0⟩

def infinity (negative : Bool) : Binary64 := ⟨negative, 2047, 0⟩

def nan : Binary64 := ⟨false, 2047, 2251799813685248⟩

instance : Inhabited Binary64 := ⟨zero⟩

def isFinite (x : Binary64) : Bool := x.exponent.val ≠ 2047

def isNan (x : Binary64) : Bool := x.exponent.val = 2047 && x.fraction.val ≠ 0

def isInfinite (x : Binary64) : Bool := x.exponent.val = 2047 && x.fraction.val = 0

/-- The integer part of the finite number's binary form, before scaling. -/
def significand (x : Binary64) : Nat :=
  if x.exponent.val = 0 then x.fraction.val else 4503599627370496 + x.fraction.val

/-- The power of two that scales the significand. -/
def scale (x : Binary64) : Int :=
  if x.exponent.val = 0 then -1074 else (x.exponent.val : Int) - 1075

def isZero (x : Binary64) : Bool := x.isFinite && x.significand == 0

def neg (x : Binary64) : Binary64 := { x with negative := !x.negative }

def abs (x : Binary64) : Binary64 := { x with negative := false }

/-- The significand with the number's sign. -/
def signed (x : Binary64) : Int := if x.negative then -(x.significand : Int) else x.significand

/-- A finite number as a fraction of integers, the denominator a power of two. -/
def toRatio (x : Binary64) : Int × Nat :=
  if x.scale < 0 then (x.signed, 2 ^ (-x.scale).toNat)
  else (x.signed * 2 ^ x.scale.toNat, 1)

/-- The integer next to a finite number on the side of zero. -/
def truncate (x : Binary64) : Int :=
  let (n, d) := x.toRatio
  n.tdiv d

/-- Whether a finite number has no fractional part. -/
def isIntegral (x : Binary64) : Bool :=
  let (n, d) := x.toRatio
  x.isFinite && n.tmod d == 0

/-- Comparison of two fractions with positive denominators. -/
def compareRatio (a b : Int × Nat) : Ordering := compare (a.1 * b.2) (b.1 * a.2)

/-- The order of two numbers; a NaN has none with anything. -/
def compare? (x y : Binary64) : Option Ordering :=
  if x.isNan || y.isNan then none
  else if x.isFinite && y.isFinite then some (compareRatio x.toRatio y.toRatio)
  else if x.isInfinite && y.isInfinite && x.negative == y.negative then some .eq
  else if x.isInfinite then some (if x.negative then .lt else .gt)
  else some (if y.negative then .gt else .lt)

/-- The order of a number and an integer. -/
def compareInt? (x : Binary64) (n : Int) : Option Ordering :=
  if x.isNan then none
  else if x.isFinite then some (compareRatio x.toRatio (n, 1))
  else some (if x.negative then .lt else .gt)

def lt (x y : Binary64) : Bool := x.compare? y == some .lt

def le (x y : Binary64) : Bool := x.compare? y == some .lt || x.compare? y == some .eq

end Binary64

/-!
## Rounding to a double

Every operation computes its exact result as a fraction and rounds once, to the nearest double
and to the even significand between two.
-/

-- The power `^` is the core library's, whatever else is imported.
attribute [local instance (high)] instPowNat

/-- The integer nearest to `n / d`, the even one between two. -/
def roundHalfEven (n d : Nat) : Nat :=
  let q := n / d
  let r := n % d
  if d < 2 * r ∨ (2 * r = d ∧ q % 2 = 1) then q + 1 else q

namespace Binary64

/-- The double `± m · 2 ^ q`, for a significand `m ≤ 2 ^ 53` that is normal or has the least
scale; infinite beyond the range. -/
def assemble (negative : Bool) (m : Nat) (q : Int) : Binary64 :=
  let (m, q) := if 9007199254740992 ≤ m then (m / 2, q + 1) else (m, q)
  if m < 4503599627370496 then ⟨negative, 0, Fin.ofNat _ m⟩
  else if 971 < q then infinity negative
  else ⟨negative, Fin.ofNat _ (q + 1075).toNat, Fin.ofNat _ (m - 4503599627370496)⟩

/-- The fraction `n / d` divided by `2 ^ q`. -/
def scaleDown (n d : Nat) (q : Int) : Nat × Nat :=
  if q < 0 then (n * 2 ^ (-q).toNat, d) else (n, d * 2 ^ q.toNat)

/-- The scale at which `n / d` has a significand of 53 bits, or the least scale there is. -/
def scaleFor (n d : Nat) : Int :=
  let q := max ((n.log2 : Int) - d.log2 - 53) (-1074)
  let (a, b) := scaleDown n d q
  if 9007199254740992 ≤ a / b then q + 1 else q

/-- The double nearest to `± n / d`. -/
def ofRatio (negative : Bool) (n d : Nat) : Binary64 :=
  if n = 0 ∨ d = 0 then ⟨negative, 0, 0⟩
  else
    let q := scaleFor n d
    let (a, b) := scaleDown n d q
    assemble negative (roundHalfEven a b) q

/-- The double nearest to a signed fraction; zero comes out with the sign asked for. -/
def ofSigned (zeroSign : Bool) (n : Int) (d : Nat) : Binary64 :=
  if n = 0 then ⟨zeroSign, 0, 0⟩ else ofRatio (n < 0) n.natAbs d

/-- The double nearest to an integer; infinite beyond the range. -/
def ofInt (n : Int) : Binary64 := ofSigned false n 1

/-- The double nearest to `± digits · 10 ^ e`. Far beyond the range the power is not formed. -/
def ofDecimal (negative : Bool) (digits : Nat) (e : Int) : Binary64 :=
  if digits = 0 then ⟨negative, 0, 0⟩
  else if 400 < e then infinity negative
  else if e < 0 then
    if ((digits.log2 : Int) + 1) * 302 < (-e - 400) * 1000 then ⟨negative, 0, 0⟩
    else ofRatio negative digits (10 ^ (-e).toNat)
  else ofRatio negative (digits * 10 ^ e.toNat) 1

end Binary64
end Conveyor
