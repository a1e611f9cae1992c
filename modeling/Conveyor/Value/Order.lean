import Conveyor.Value.Basic

/-!
# Equality and order of values

Two values are the same when they denote the same data: numbers by their value whatever their
kind, objects whatever the order of their fields. Numbers, texts and lists have an order among
their own kind; other values have none.
-/

namespace Conveyor.Value

/-- The order of two numbers; none if either is a NaN. -/
def compareNumbers? : Int ⊕ Binary64 → Int ⊕ Binary64 → Option Ordering
  | .inl a, .inl b => some (compare a b)
  | .inl a, .inr y => (y.compareInt? a).map Ordering.swap
  | .inr x, .inl b => x.compareInt? b
  | .inr x, .inr y => x.compare? y

mutual

/-- Whether two values denote the same data. -/
def same : Value → Value → Bool
  | .null, w => match w with
    | .null => true
    | _ => false
  | .bool a, w => match w.number? with
    | some y => compareNumbers? (.inl (if a then 1 else 0)) y == some .eq
    | none => false
  | .int a, w => match w.number? with
    | some y => compareNumbers? (.inl a) y == some .eq
    | none => false
  | .float x, w => match w.number? with
    | some y => compareNumbers? (.inr x) y == some .eq
    | none => false
  | .text a, w => match w with
    | .text b => a == b
    | _ => false
  | .list xs, w => match w with
    | .list ys => sameList xs ys
    | _ => false
  | .object fs, w => match w.fields? with
    | some gs => fs.length == gs.length && sameFields fs gs
    | none => false
  | .sealed fs, w => match w.fields? with
    | some gs => fs.length == gs.length && sameFields fs gs
    | none => false

def sameList : List Value → List Value → Bool
  | [], ys => ys.isEmpty
  | v :: rest, ys => match ys with
    | [] => false
    | w :: more => same v w && sameList rest more

/-- Whether every field on the left has an equal one on the right. -/
def sameFields : List (String × Value) → Fields → Bool
  | [], _ => true
  | (k, v) :: rest, gs =>
    (match gs.get? k with
      | some w => same v w
      | none => false) && sameFields rest gs

end

/-- The four comparisons. -/
inductive Relation where
  | less | lessOrEqual | greater | greaterOrEqual
  deriving DecidableEq

namespace Relation

/-- Whether an order fulfils the relation. -/
def admits : Relation → Ordering → Bool
  | .less, o => o == .lt
  | .lessOrEqual, o => o != .gt
  | .greater, o => o == .gt
  | .greaterOrEqual, o => o != .lt

end Relation

/-- Compare two texts by code points. -/
def compareText (a b : String) : Ordering :=
  if a < b then .lt else if b < a then .gt else .eq

/-- Whether a number stands in the relation to a value that is a number too. -/
def relateNumbers? (r : Relation) (x : Int ⊕ Binary64) (w : Value) : Option Bool :=
  w.number?.map fun y =>
    match compareNumbers? x y with
    | some o => r.admits o
    | none => false

mutual

/-- Whether `v` stands in the relation to `w`; none if the two have no order. Lists are compared
at the first place where they differ, and by length if there is none. -/
def relate? (r : Relation) : Value → Value → Option Bool
  | .text a, w => match w with
    | .text b => some (r.admits (compareText a b))
    | _ => none
  | .list xs, w => match w with
    | .list ys => relateLists? r xs ys
    | _ => none
  | .bool a, w => relateNumbers? r (.inl (if a then 1 else 0)) w
  | .int a, w => relateNumbers? r (.inl a) w
  | .float x, w => relateNumbers? r (.inr x) w
  | _, _ => none

def relateLists? (r : Relation) : List Value → List Value → Option Bool
  | [], ys => some (r.admits (if ys.isEmpty then .eq else .lt))
  | v :: rest, ys => match ys with
    | [] => some (r.admits .gt)
    | w :: more => if same v w then relateLists? r rest more else relate? r v w

end

end Conveyor.Value
