import Conveyor.Destination.Recording

/-!
# Scripts

The document that says how recording destinations answer: under `results` the prepared answers of
each destination, under `failures` how many calls are to fail after these, under `responses` the
data of successes, and under `delay` the seconds until an unprepared answer. Parts of another shape
say nothing.
-/

namespace Conveyor

namespace PreparedAnswer

/-- The fault that a script names. -/
def faultNamed (name : String) : Fault :=
  ([.badValue, .missingKey].find? fun f : Fault => f.name = name).getD .broken

/-- The answer of a script's item: a fault to raise or the fields of a result. -/
def answerOf (fs : Fields) : Answer :=
  match fs.get? "raise" with
  | some (.text name) => .fault (faultNamed name)
  | _ =>
    match CallResult.read fs with
    | .fits r => .result r
    | .misfits _ => .fault .badValue

/-- The number under a name, if it is not zero. -/
def secondsAt? (fs : Fields) (name : String) : Option Binary64 :=
  let seconds : Option Binary64 :=
    match fs.get? name with
    | some (.float x) => some x
    | some (.int n) => some (.ofInt n)
    | _ => none
  seconds.filter fun x => !x.isZero

def ofValue : Value → PreparedAnswer
  | .object fs => ⟨secondsAt? fs "sleep", answerOf fs⟩
  | _ => ⟨none, answerOf []⟩

end PreparedAnswer

namespace Recording

/-- The fields of an object under a name. -/
def part (fs : Fields) (name : String) : Fields :=
  match fs.get? name with
  | some (.object fs) => fs
  | _ => []

/-- Destinations that nothing has been sent to, and that follow a script. -/
def ofScript (fs : Fields) : Recording where
  prepared := (part fs "results").filterMap fun
    | (k, .list items) => some (k, items.map PreparedAnswer.ofValue)
    | _ => none
  failures := (part fs "failures").filterMap fun
    | (k, .int n) => some (k, n)
    | _ => none
  responses := part fs "responses"
  delay := PreparedAnswer.secondsAt? fs "delay"

end Recording
end Conveyor
