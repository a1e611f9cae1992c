import Conveyor.Run.Action
import Conveyor.Run.Backoff
import Conveyor.Run.Journal

/-!
# Runs

A run takes one record through the steps of a pipeline's plan. A step that succeeds binds its
output; a condition says where to go on, other steps go on with the next number. A step that fails
in a way that its error policy covers may be tried again or passed over; any other failure ends the
run. A run that takes too many steps is stopped.
-/

namespace Conveyor

inductive StepState where
  | succeeded | failed | skipped
  deriving DecidableEq, Repr

def StepState.name : StepState → String
  | .succeeded => "Succeeded"
  | .failed => "Failed"
  | .skipped => "Skipped"

/-- What became of a step. -/
structure StepOutcome where
  order : Int
  name : String
  state : StepState
  attempts : Nat := 0
  error : Option String := none

/-- How a run ended; a run without an error is complete. -/
structure RunResult where
  outcomes : List StepOutcome
  scope : Scope
  entry : Option LogEntry
  error : Option String

namespace RunResult

def isComplete (r : RunResult) : Bool := r.error.isNone

def status (r : RunResult) : String := if r.isComplete then "Completed" else "Aborted"

end RunResult

namespace Run

/-- The bookkeeping of a run under way. -/
structure Progress where
  entry : Option LogEntry
  outcomes : List StepOutcome := []
  dataSent : Value := .null
  dataReceived : Value := .null

/-- What a step that succeeded gives: its output, and for a condition whether it holds. -/
structure Output where
  value : Value
  holds : Bool

/-- The output of a call that succeeded: its data, or how it went. -/
def outputOf (r : CallResult) : Value :=
  if !r.data.isNull then r.data
  else match r.rowsAffected with
    | some n => .object [("rowsAffected", .int n)]
    | none => .object [("status", match r.httpStatus with
      | some n => .int n
      | none => .null)]

/-- What a failed call is reported with. -/
def callError (ref : DestinationRef) (r : CallResult) : String :=
  match r.error.filter fun e => !e.isEmpty with
  | some e => e
  | none => s!"{ref.text} call failed"

/-- Judge the answer of a call. Only a result is noted for the log. -/
def settle (ref : DestinationRef) (sent : Value) (p : Progress) :
    Answer → Progress × Except Failure Output
  | .fault f => (p, .error (.fault f))
  | .result r =>
    let p := { p with dataSent := sent, dataReceived := r.data }
    if r.success then (p, .ok ⟨outputOf r, true⟩)
    else (p, .error (.step (.destination (callError ref r))))

/-- Make a call within the time of a step. -/
def send (s : Step) (ref : DestinationRef) (request : Request) (sent : Value) (p : Progress) :
    Activity (Progress × Except Failure Output) := do
  match ← Activity.call s.timeout ref request with
  | some answer => pure (settle ref sent p answer)
  | none => pure (p, .error (.step (.timedOut s.timeout)))

/-- Do what a step does. -/
def perform (s : Step) (p : Progress) : Action → Activity (Progress × Except Failure Output)
  | .finish output holds => do
    Activity.turn s.timeout
    pure (p, .ok ⟨output, holds⟩)
  | .send ref request sent => send s ref request sent p
  | .pause seconds output => do
    Activity.wait seconds
    pure (p, .ok ⟨output, true⟩)

/-- What a step that has time left does. A step that cannot tell fails in its turn; a pause has no
turn. -/
def invokeInTime (s : Step) (scope : Scope) (p : Progress) :
    Activity (Progress × Except Failure Output) := do
  match s.action scope with
  | .ok action => perform s p action
  | .error e => do
    if s.kind ≠ .delay then Activity.turn s.timeout
    pure (p, .error e)

/-- Take a step once. Every step but a pause has to do with its time. -/
def invoke (s : Step) (scope : Scope) (p : Progress) :
    Activity (Progress × Except Failure Output) := do
  if s.kind ≠ .delay ∧ s.timeout.le .zero then
    Activity.turn s.timeout
    pure (p, .error (.step (.timedOut s.timeout)))
  else
    invokeInTime s scope p

/-- Log an attempt that failed, if the run is logged. -/
def noteRetry (p : Progress) (message : String) : Activity (Except Fault Progress) := do
  match p.entry with
  | none => pure (.ok p)
  | some e =>
    match ← Journal.retry e message with
    | .ok e => pure (.ok { p with entry := some e })
    | .error f => pure (.error f)

/-- How a step ended: with an output, or with a failure; and after how many attempts. -/
structure Attempted where
  progress : Progress
  attempts : Nat
  result : Except Failure Output

/-- Take a step until it succeeds, fails for good, or has no retries left. -/
def attemptFrom (c : ExecutorConfig) (s : Step) (scope : Scope) (attempt : Nat) (p : Progress) :
    Nat → Activity Attempted
  | 0 => do
    let (p, result) ← invoke s scope p
    pure ⟨p, attempt, result⟩
  | retries + 1 => do
    let (p, result) ← invoke s scope p
    match result with
    | .error (.step e) =>
      match ← noteRetry p s!"Step {s.order} attempt {attempt} failed: {e.message}" with
      | .error f => pure ⟨p, attempt, .error (.fault f)⟩
      | .ok p =>
        match c.backoff attempt with
        | .error f => pure ⟨p, attempt, .error (.fault f)⟩
        | .ok delay =>
          let chance ← Activity.draw
          Activity.wait (delay chance)
          attemptFrom c s scope (attempt + 1) p retries
    | result => pure ⟨p, attempt, result⟩

/-- How often a step may be repeated. -/
def retries (s : Step) : Nat := if s.onError = .retry then s.maxRetries.toNat else 0

def attempt (c : ExecutorConfig) (s : Step) (scope : Scope) (p : Progress) : Activity Attempted :=
  attemptFrom c s scope 1 p (retries s)

/-- A failure as the outcome of its step shows it. -/
def outcomeText : Failure → String
  | .mapping e => e.text
  | .validation e => e.message
  | .config issues => Issue.joined issues
  | .step e => e.message
  | .fault f => f.name

/-- A failure as the run reports it. -/
def errorText (f : Failure) : String :=
  match f with
  | .fault f => s!"unexpected error {f.name}"
  | f => outcomeText f

/-- The attempts that a failed step is reported with; only a failure that could have been tried
again counts them. -/
def attemptsOf (a : Attempted) (f : Failure) : Nat :=
  match f with
  | .step _ => a.attempts
  | _ => 1

/-- The number of the step to go on with. -/
def successor (s : Step) (holds : Bool) : Int :=
  if s.kind = .condition then
    (if holds then s.branch.onTrue else s.branch.onFalse).getD (s.order + 1)
  else s.order + 1

/-- The scope after a step. -/
def bindOutput (s : Step) (scope : Scope) (output : Value) : Scope :=
  scope.bind output (s.outputName :: s.outputVariable.toList)

def note (p : Progress) (o : StepOutcome) : Progress := { p with outcomes := p.outcomes ++ [o] }

/-- Where a run stands after a step: at the number of another step, or at its end. -/
inductive Next where
  | goOn (progress : Progress) (scope : Scope) (order : Int)
  | stop (progress : Progress) (scope : Scope) (error : Option String)

/-- Judge how a step ended. -/
def conclude (s : Step) (scope : Scope) (a : Attempted) : Next :=
  let outcome (state : StepState) (attempts : Nat) (error : Option String) : Progress :=
    note a.progress ⟨s.order, s.name, state, attempts, error⟩
  match a.result with
  | .ok out =>
    .goOn (outcome .succeeded a.attempts none) (bindOutput s scope out.value)
      (successor s out.holds)
  | .error f =>
    let attempts := attemptsOf a f
    match f, s.onError with
    | .step _, .skip =>
      .goOn (outcome .skipped attempts (some (outcomeText f))) scope (s.order + 1)
    | _, _ =>
      .stop (outcome .failed attempts (some (outcomeText f))) scope
        (some s!"Step {s.order} ({s.name}): {errorText f}")

/-- Take a step of the plan; one that is not active is passed over. -/
def advance (c : ExecutorConfig) (s : Step) (scope : Scope) (p : Progress) : Activity Next := do
  if s.isActive then
    pure (conclude s scope (← attempt c s scope p))
  else
    pure (.goOn (note p ⟨s.order, s.name, .skipped, 0, none⟩) scope (s.order + 1))

/-- The step of a number; of several, the last. -/
def stepAt? (plan : List Step) (order : Int) : Option Step :=
  plan.reverse.find? (·.order = order)

/-- The end of a run before its entry is closed. -/
structure Ended where
  progress : Progress
  scope : Scope
  error : Option String

/-- Go through a plan from the step of a number, taking at most `fuel` steps. -/
def loop (c : ExecutorConfig) (plan : List Step) (scope : Scope) (p : Progress) (order : Int) :
    Nat → Activity Ended
  | 0 =>
    match stepAt? plan order with
    | none => pure ⟨p, scope, none⟩
    | some _ =>
      pure ⟨p, scope, some s!"run exceeded {c.maxTransitions} step transitions"⟩
  | fuel + 1 =>
    match stepAt? plan order with
    | none => pure ⟨p, scope, none⟩
    | some s => do
      match ← advance c s scope p with
      | .goOn p scope order => loop c plan scope p order fuel
      | .stop p scope error => pure ⟨p, scope, error⟩

/-- Go through a plan from its first step. -/
def steps (c : ExecutorConfig) (plan : List Step) (scope : Scope) (p : Progress) : Activity Ended :=
  match plan with
  | [] => pure ⟨p, scope, none⟩
  | s :: _ => loop c plan scope p s.order c.maxTransitions.toNat

/-- Close the entry of a run that is logged. -/
def close (r : InboundRecord) (p : Pipeline) (w : Option Workflow) (e : Ended) :
    Activity (Except Fault (Option LogEntry)) := do
  match e.progress.entry with
  | none => pure (.ok none)
  | some entry =>
    let message := e.error.getD s!"Delivered {r.dataId} through pipeline {p.id}"
    let closed ← Journal.finish entry
      ⟨e.error.isNone, message, e.progress.dataSent, e.progress.dataReceived⟩ w
    pure (closed.map some)

/-- Open the entry of a run that is to be logged. -/
def openEntry (logged : Bool) (r : InboundRecord) (p : Pipeline) (w : Option Workflow) :
    Activity (Except Fault (Option LogEntry)) := do
  if logged then pure ((← Journal.start r p w).map some) else pure (.ok none)

end Run

/-- Run a record through a pipeline. A run whose entry cannot be opened or closed has no result. -/
def Pipeline.run (c : ExecutorConfig) (logged : Bool) (p : Pipeline) (r : InboundRecord)
    (w : Option Workflow) : Activity (Except Fault RunResult) := do
  match ← Run.openEntry logged r p w with
  | .error f => pure (.error f)
  | .ok entry =>
    let ended ← Run.steps c p.plan (Scope.start r.payload) { entry }
    match ← Run.close r p w ended with
    | .error f => pure (.error f)
    | .ok entry => pure (.ok ⟨ended.progress.outcomes, ended.scope, entry, ended.error⟩)

/-- The record of a payload that is given to a pipeline directly. -/
def InboundRecord.ofPayload (p : Pipeline) (payload : Fields) : Activity InboundRecord := do
  let dataId ← Activity.drawId
  pure
    { dataId
      sourceKind := p.sourceKind
      sourceId := p.sourceId.getD 0
      payload
      receivedAt := ← Activity.now }

end Conveyor
