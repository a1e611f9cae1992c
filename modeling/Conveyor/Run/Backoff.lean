import Conveyor.Binary64.Arithmetic
import Conveyor.Failure
import Conveyor.Schema.Scalar

/-!
# Backoff

The wait between two attempts grows as the powers of a base, and by chance a little more, up to a
limit.
-/

namespace Conveyor

-- The power `^` is the core library's, whatever else is imported.
attribute [local instance (high)] instPowNat

/-- What is drawn by chance: one of the `2 ^ 53` doubles that part the interval from zero to one
evenly, one itself left out. -/
structure Chance where
  parts : Fin 9007199254740992

namespace Chance

/-- The least that can be drawn. -/
def least : Chance := ⟨0, by decide⟩

/-- The double that was drawn. -/
def number (c : Chance) : Binary64 := .ofRatio false c.parts.val 9007199254740992

/-- The place in an interval from zero on that was drawn. -/
def within (width : Binary64) (c : Chance) : Binary64 := Binary64.zero.add (width.mul c.number)

end Chance

namespace Backoff

/-- A base as it is written: a whole number or a double. -/
abbrev Base := Int ⊕ Binary64

/-- A finite result; anything else has overflowed. -/
def finite (x : Binary64) : Except Fault Binary64 :=
  if x.isFinite then .ok x else .error .overflow

/-- A power of a double, whose exponent becomes a double as well. -/
def doublePower (x : Binary64) (n : Int) : Except Fault Binary64 := do
  let n := (← finite (.ofInt n)).truncate
  if x.isZero ∧ n < 0 then .error .zeroDivision
  else if x.isFinite then finite (x.pow n)
  else pure (x.pow n)

/-- A power of a whole number is exact before it becomes a double. -/
def power (base : Base) (n : Int) : Except Fault Binary64 :=
  match base with
  | .inl b =>
    if 0 ≤ n then finite (.ofInt (b ^ n.toNat)) else do doublePower (← finite (.ofInt b)) n
  | .inr x => doublePower x n

/-- A wait that is no longer than the limit, if there is one. -/
def capped (limit : Option Binary64) (d : Binary64) : Binary64 :=
  match limit with
  | some m => if m.lt d then m else d
  | none => d

/-- The seconds to wait after an attempt, given what is drawn. Nothing is drawn if there is no
power. -/
def delay (base : Base) (jitter : Binary64) (limit : Option Binary64) (attempt : Int) :
    Except Fault (Chance → Binary64) := do
  let d ← power base attempt
  pure fun chance => capped limit (d.add (chance.within jitter))

end Backoff

/-- How runs space out their attempts, and when they are taken to go round in circles. -/
structure ExecutorConfig where
  backoffBase : Binary64 := .ofRatio false 3 2
  jitter : Binary64 := .ofRatio false 1 2
  maxDelay : Binary64 := .ofInt 30
  maxTransitions : Int := 1000

/-- The seconds to wait after an attempt of a run, given what is drawn. -/
def ExecutorConfig.backoff (c : ExecutorConfig) (attempt : Int) :
    Except Fault (Chance → Binary64) :=
  Backoff.delay (.inr c.backoffBase) c.jitter (some c.maxDelay) attempt

open Schema in
def ExecutorConfig.read (fs : Fields) : Checked ExecutorConfig :=
  ExecutorConfig.mk
    <$> withDefault fs "retry_backoff_base" number (.ofRatio false 3 2)
    <*> withDefault fs "retry_jitter" number (.ofRatio false 1 2)
    <*> withDefault fs "retry_max_delay" number (.ofInt 30)
    <*> withDefault fs "max_step_transitions" integer 1000

end Conveyor
