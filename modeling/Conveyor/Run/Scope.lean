import Conveyor.Mapping.Path
import Conveyor.Text.Search

/-!
# Scope

What the steps of a run can refer to: the record that started it, the outputs of the steps before
under their names, and the latest output. Binding gives a new scope; an earlier one stays as it was.
-/

namespace Conveyor

structure Scope where
  /-- The payload of the record, which no step can change. -/
  trigger : Fields
  bindings : Keyed Value := []
  /-- The latest output; before the first step, the payload. -/
  last : Value

namespace Scope

/-- The name under which the payload is known. -/
def triggerName : String := "trigger"

def start (payload : Fields) : Scope := ⟨payload, [], .object payload⟩

/-- The scope with an output under every name that is not empty. -/
def bind (s : Scope) (output : Value) (names : List String) : Scope where
  trigger := s.trigger
  bindings := (names.filter fun n => !n.isEmpty).foldl (fun m n => m.put n output) s.bindings
  last := output

/-- What a name stands for by itself. -/
def root? (s : Scope) (name : String) : Option Value :=
  if name = triggerName then some (.sealed s.trigger) else s.bindings.get? name

/-- The value at a path below a root; an empty path is the root itself. -/
def below (root : Value) (path : String) : Except Fault (Option Value) :=
  if path.isEmpty then .ok (some root)
  else match root.fields? with
    | some fs => Mapping.lookup fs path
    | none => .ok none

/-- A reference without the dollar signs it starts with. -/
def bare (reference : String) : String := String.ofList (reference.toList.dropWhile (· = '$'))

/-- The value of a reference: a name, or a dotted path that starts with one. -/
def resolve (s : Scope) (reference : String) : Except Failure Value := do
  let (name, path) := Text.cut '.' (bare reference)
  match s.root? name with
  | none => .error (.mapping (.unboundReference reference))
  | some root =>
    match ← (below root path).mapError Failure.fault with
    | some v => pure v
    | none => .error (.mapping (.danglingReference reference))

/-- A text that refers to a value instead of being one. -/
def isReference (s : String) : Bool :=
  match s.toList with
  | '$' :: _ :: _ => true
  | _ => false

/-- The value that a setting denotes: what it refers to, or itself. -/
def resolveValue (s : Scope) : Value → Except Failure Value
  | .text t => if isReference t then s.resolve t else .ok (.text t)
  | v => .ok v

/-- The input of a step: an object of the values of its input mapping, or the latest output. -/
def renderInput (s : Scope) (inputMapping : Option Fields) : Except Failure Value :=
  match inputMapping with
  | none | some [] => .ok s.last
  | some settings =>
    Value.object <$> settings.mapM fun (k, v) => do pure (k, ← s.resolveValue v)

/-- What placeholders in a body can name. -/
def templateContext (s : Scope) (input : Value) : Fields :=
  (s.bindings.put triggerName (.sealed s.trigger)).put "input" input

end Scope
end Conveyor
