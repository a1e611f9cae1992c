import Conveyor.Binary64.Basic

/-!
# Arithmetic on doubles

Sum, product, quotient and integer power, each the exact result rounded once.
-/

namespace Conveyor.Binary64

-- The power `^` is the core library's, whatever else is imported.
attribute [local instance (high)] instPowNat

def add (x y : Binary64) : Binary64 :=
  if x.isNan || y.isNan then nan
  else if x.isInfinite then
    if y.isInfinite && x.negative != y.negative then nan else x
  else if y.isInfinite then y
  else
    let (a, b) := x.toRatio
    let (c, d) := y.toRatio
    ofSigned (x.negative && y.negative) (a * d + c * b) (b * d)

def sub (x y : Binary64) : Binary64 := x.add y.neg

def mul (x y : Binary64) : Binary64 :=
  let negative := x.negative != y.negative
  if x.isNan || y.isNan then nan
  else if x.isInfinite || y.isInfinite then
    if x.isZero || y.isZero then nan else infinity negative
  else
    let (a, b) := x.toRatio
    let (c, d) := y.toRatio
    ofRatio negative (a.natAbs * c.natAbs) (b * d)

/-- Division of a finite number by a positive integer. -/
def divNat (x : Binary64) (k : Nat) : Binary64 :=
  if x.isFinite then
    let (a, b) := x.toRatio
    ofRatio x.negative a.natAbs (b * k)
  else x

/-- The integer nearest to a finite number, the even one between two. -/
def roundToInt (x : Binary64) : Int :=
  let (a, b) := x.toRatio
  let m := roundHalfEven a.natAbs b
  if a < 0 then -(m : Int) else m

/-- A positive number `bits · 2 ^ scale` carried through a long product. -/
structure Wide where
  bits : Nat
  scale : Int

namespace Wide

/-- The number of bits kept in a product, far more than a double shows. -/
def width : Nat := 640

/-- Drop the bits that lie beyond the working width. -/
def shorten (w : Wide) : Wide :=
  let surplus := w.bits.log2 + 1 - width
  ⟨w.bits / 2 ^ surplus, w.scale + surplus⟩

def mul (a b : Wide) : Wide := shorten ⟨a.bits * b.bits, a.scale + b.scale⟩

/-- Powers by repeated squaring; `fuel` bounds the binary digits of the exponent. -/
def pow (fuel : Nat) (a : Wide) (n : Nat) : Wide :=
  match fuel with
  | 0 => ⟨1, 0⟩
  | fuel + 1 =>
    if n = 0 then ⟨1, 0⟩
    else
      let half := pow fuel (mul a a) (n / 2)
      if n % 2 = 1 then mul a half else half

/-- The double nearest to `± w`, or to `± 1 / w`. -/
def round (negative inverse : Bool) (w : Wide) : Binary64 :=
  let top := (w.bits.log2 : Int) + w.scale
  let exponent := if inverse then -top else top
  if 1100 < exponent then infinity negative
  else if exponent < -1200 then ⟨negative, 0, 0⟩
  else
    let (n, d) := if w.scale < 0 then (w.bits, 2 ^ (-w.scale).toNat)
      else (w.bits * 2 ^ w.scale.toNat, 1)
    if inverse then ofRatio negative d n else ofRatio negative n d

end Wide

/-- An integer power. The base zero has no negative power, which is not this function's concern:
it then answers an infinity. -/
def pow (x : Binary64) (n : Int) : Binary64 :=
  let negative := x.negative && n % 2 == 1
  if n = 0 then ofInt 1
  else if x.isNan then nan
  else if x.isInfinite || x.isZero then
    if x.isInfinite == (0 < n : Bool) then infinity negative else ⟨negative, 0, 0⟩
  else (Wide.pow (n.natAbs.log2 + 1) ⟨x.significand, x.scale⟩ n.natAbs).round negative (n < 0)

end Conveyor.Binary64
