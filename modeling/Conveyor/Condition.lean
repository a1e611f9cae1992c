import Conveyor.Failure
import Conveyor.Mapping.Path
import Conveyor.Value.Order

/-!
# Conditions

A condition is an object: a comparison of one field, or `all`, `any` and `not` over conditions. It
is data of the author's, so it may be malformed; `problems` lists what is wrong with it beforehand,
and evaluation fails only where it meets a malformed part.
-/

namespace Conveyor.Condition

/-- What a comparison can ask. -/
inductive Comparison where
  | eq | neq | relation (r : Value.Relation) | contains | isIn | exists | notExists
  deriving DecidableEq

namespace Comparison

def all : List (String × Comparison) :=
  [("contains", .contains), ("eq", .eq), ("exists", .exists), ("gt", .relation .greater),
    ("gte", .relation .greaterOrEqual), ("in", .isIn), ("lt", .relation .less),
    ("lte", .relation .lessOrEqual), ("neq", .neq), ("not_exists", .notExists)]

/-- The comparison that an operator names. An operator that is a list or an object cannot even be
looked up. -/
def ofValue? : Value → Except Fault (Option Comparison)
  | .text s => .ok ((all.find? fun (name, _) => name = s).map (·.2))
  | .list _ => .error .wrongKind
  | .object _ => .error .wrongKind
  | .sealed _ => .error .wrongKind
  | _ => .ok none

end Comparison

/-- What is so of the texts of two values, both of which need to have one. -/
def ofTexts (test : String → String → Bool) (v w : Value) : Except Fault Bool :=
  match v.text?, w.text? with
  | some a, some b => .ok (test a b)
  | _, _ => .error .badValue

/-- Whether one value holds the other: as an item, as a field, or as a piece of its text. -/
def contains (actual expected : Value) : Except Fault Bool :=
  match actual with
  | .null => .ok false
  | .list items => .ok (items.any (·.same expected))
  | .object fs =>
    if !expected.isAtom then .error .wrongKind
    else .ok (match expected with
      | .text s => Keyed.has fs s
      | _ => false)
  | v => ofTexts Text.isPieceOf expected v

/-- Whether two values stand in a relation; values without a common order are compared as text. -/
def related (r : Value.Relation) (actual expected : Value) : Except Fault Bool :=
  match Value.relate? r actual expected with
  | some b => .ok b
  | none => ofTexts (fun a b => r.admits (Value.compareText a b)) actual expected

/-- Whether what was found, if anything, compares to the expected value. -/
def compare (c : Comparison) (actual : Option Value) (expected : Value) : Except Fault Bool :=
  match c, actual with
  | .eq, some v => .ok (v.same expected)
  | .eq, none => .ok false
  | .neq, some v => .ok (!v.same expected)
  | .neq, none => .ok true
  | .relation _, some .null => .ok false
  | .relation r, some v => related r v expected
  | .relation _, none => .ok false
  | .contains, some v => contains v expected
  | .contains, none => .ok false
  | .isIn, some v => match expected with
    | .list items => .ok (items.any fun w => v.same w)
    | _ => .ok false
  | .isIn, none => .ok false
  | .exists, v => .ok (v.any fun v => !v.isNull)
  | .notExists, v => .ok (v.all fun v => v.isNull)

/-- The value of the field that a comparison names, in data that has fields. -/
def actual? (data field : Value) : Except Fault (Option Value) :=
  match data.fields?, field with
  | some fs, .text path => Mapping.lookup fs path
  | some _, _ => .error .wrongKind
  | none, _ => .ok none

/-- A single comparison. -/
def evaluateComparison (fs : Fields) (data : Value) : Except Failure Bool := do
  let field := (fs.get? "field").getD .null
  let operator := (fs.get? "operator").getD (.text "eq")
  if !field.isTruthy then .error (.step (.invalidCondition fs))
  else match ← (Comparison.ofValue? operator).mapError Failure.fault with
    | none => .error (.step (.invalidCondition fs))
    | some c =>
      let actual ← (actual? data field).mapError Failure.fault
      (compare c actual ((fs.get? "value").getD .null)).mapError Failure.fault

/-- What a combinator's parts are: the items of a list. Text and objects have parts too, none of
which is a condition; other values have none at all. -/
def hasParts : Value → Bool
  | .list _ | .text _ | .object _ | .sealed _ => true
  | _ => false

/-- Whether a combinator over something that is not a list has no part, or parts that are no
conditions, or cannot be gone through. -/
def evaluateOther (empty : Bool) (v : Value) : Except Failure Bool :=
  if !hasParts v then .error (.fault .wrongKind)
  else if v.isTruthy then .error (.step .conditionNotObject)
  else .ok empty

mutual

/-- Whether a condition holds for some data. -/
def evaluate (data : Value) : Value → Except Failure Bool
  | .object fs => evaluateFields data fs fs
  | _ => .error (.step .conditionNotObject)

/-- The same for the fields of an object. `rest` are the fields still to be searched for a
combinator; `all` comes before `any`, and that before `not`, wherever they stand. -/
def evaluateFields (data : Value) (fs : Fields) : List (String × Value) → Except Failure Bool
  | [] => evaluateComparison fs data
  | (k, v) :: rest =>
    if k = "all" then
      match v with
      | .list items => evaluateAll data items
      | v => evaluateOther true v
    else if k = "any" ∧ !Keyed.has fs "all" then
      match v with
      | .list items => evaluateAny data items
      | v => evaluateOther false v
    else if k = "not" ∧ !Keyed.has fs "all" ∧ !Keyed.has fs "any" then
      (evaluate data v).map (!·)
    else evaluateFields data fs rest

def evaluateAll (data : Value) : List Value → Except Failure Bool
  | [] => .ok true
  | v :: rest => do
    if ← evaluate data v then evaluateAll data rest else pure false

def evaluateAny (data : Value) : List Value → Except Failure Bool
  | [] => .ok false
  | v :: rest => do
    if ← evaluate data v then pure true else evaluateAny data rest

end

/-- One thing that is wrong with a condition: where, below the condition, and what. -/
structure Problem where
  place : Place
  message : String
  deriving Repr

/-- The problem as a line, for a condition that is at the given path. -/
def Problem.text (path : String) (p : Problem) : String :=
  path ++ p.place.suffix ++ ": " ++ p.message

/-- The same problem, seen from outside a part of the condition. -/
def Problem.within (marks : Place) (p : Problem) : Problem := { p with place := marks ++ p.place }

/-- The names of all operators, as a message shows them. -/
def operatorNames : String :=
  (Value.list (Comparison.all.map fun (name, _) => .text name)).quoted

/-- What is wrong with a single comparison. -/
def comparisonProblems (fs : Fields) : Except Fault (List Problem) := do
  let field := match fs.get? "field" with
    | some (.text s) => !s.isEmpty
    | _ => false
  let operator := (fs.get? "operator").getD (.text "eq")
  let known ← Comparison.ofValue? operator
  let fieldProblems := if field then [] else [⟨[.field "field"], "required"⟩]
  let shown := operator.displayed
  let operatorProblems := if known.isSome then [] else
    [⟨[.field "operator"], s!"unsupported '{shown}'. Allowed: {operatorNames}"⟩]
  pure (fieldProblems ++ operatorProblems)

def notAnObject : Problem := ⟨[], "must be an object"⟩

def notAList (key : String) : Problem := ⟨[.field key], "must be a non-empty list"⟩

mutual

/-- Everything that is wrong with a condition, in the order of its parts. -/
def problems : Value → Except Fault (List Problem)
  | .object fs => problemsOfFields fs fs
  | _ => .ok [notAnObject]

def problemsOfFields (fs : Fields) : List (String × Value) → Except Fault (List Problem)
  | [] => comparisonProblems fs
  | (k, v) :: rest =>
    if k = "all" ∨ (k = "any" ∧ !Keyed.has fs "all") then
      match v with
      | .list [] => .ok [notAList k]
      | .list items => problemsOfItems k 0 items
      | _ => .ok [notAList k]
    else if k = "not" ∧ !Keyed.has fs "all" ∧ !Keyed.has fs "any" then do
      let ps ← problems v
      pure (ps.map (·.within [.field "not"]))
    else problemsOfFields fs rest

def problemsOfItems (key : String) (i : Nat) : List Value → Except Fault (List Problem)
  | [] => .ok []
  | v :: rest => do
    let ps ← problems v
    let more ← problemsOfItems key (i + 1) rest
    pure (ps.map (·.within [.field key, .index i]) ++ more)

end

end Conveyor.Condition
