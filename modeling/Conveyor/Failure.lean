import Conveyor.Schema.Misfit
import Conveyor.Value.Display
import Conveyor.Text.Label
import Conveyor.Text.Search

/-!
# What can go wrong

Every failure is a value that says what happened. Its wording is given once, by `message`. A
mapping failure ends the run of a record, a step failure is subject to the step's error policy,
and a validation failure or a list of issues means that a workflow should not have been accepted.
Faults are failures that no part of the program announces.
-/

namespace Conveyor

/-- Failures of a computation itself. -/
inductive Fault where
  | wrongKind
  | badValue
  | missingKey
  | badIndex
  | overflow
  | numberRange
  /-- A count of seconds that a clock holds and has no year for. -/
  | yearRange
  | zeroDivision
  | integrity
  | missingFile
  | directory
  | unreachable
  | broken
  | unwritable
  /-- A text with characters that do not fit where it goes. -/
  | unencodable
  /-- A text that is taken for a host name is none. -/
  | hostName (why : Text.LabelProblem)
  deriving DecidableEq, Repr

/-- The name under which a fault is reported. -/
def Fault.name : Fault → String
  | .wrongKind => "TypeError"
  | .badValue => "ValueError"
  | .missingKey => "KeyError"
  | .badIndex => "IndexError"
  | .overflow => "OverflowError"
  | .numberRange => "Overflow"
  | .yearRange => "OSError"
  | .zeroDivision => "ZeroDivisionError"
  | .integrity => "IntegrityError"
  | .missingFile => "FileNotFoundError"
  | .directory => "IsADirectoryError"
  | .unreachable => "ConnectionError"
  | .broken => "RuntimeError"
  | .unwritable => "SerializationError"
  | .unencodable => "UnicodeEncodeError"
  | .hostName .malformed => "IDNAError"
  | .hostName .character => "InvalidCodepoint"
  | .hostName .context => "InvalidCodepointContext"
  | .hostName .direction => "IDNABidiError"

/-- Why a record could not be mapped. -/
inductive MappingError where
  /-- A required source field has no value. -/
  | required (field : String)
  /-- A value does not fit the declared data type. -/
  | uncoercible (field : String) (value : Value) (dataType : String)
  /-- A transform refused a value. -/
  | untransformable (field transform : String)
  /-- The first name of a reference is not bound. -/
  | unboundReference (reference : String)
  /-- A reference leads nowhere below its first name. -/
  | danglingReference (reference : String)
  /-- The first name of a placeholder is not bound. -/
  | unboundPlaceholder (expression : String)
  /-- A placeholder leads nowhere below its first name. -/
  | danglingPlaceholder (expression : String)
  /-- The record has no value for the primary key column. -/
  | keylessRecord (column : Option String)
  /-- An update would set nothing but the primary key. -/
  | nothingToSet (column : Option String)

namespace MappingError

/-- The kind under which a mapping error is reported. -/
def kind : MappingError → String
  | .required _ | .keylessRecord _ | .nothingToSet _ => "MissingRequiredField"
  | .uncoercible .. | .untransformable .. => "TypeCoercion"
  | .unboundReference _ | .danglingReference _ | .unboundPlaceholder _ | .danglingPlaceholder _ =>
    "UnresolvedVariable"

/-- The field, reference or column concerned. -/
def field : MappingError → Option String
  | .required f | .uncoercible f _ _ | .untransformable f _ | .unboundReference f
  | .danglingReference f | .unboundPlaceholder f | .danglingPlaceholder f => some f
  | .keylessRecord c | .nothingToSet c => c

/-- A placeholder as it stands in a template. -/
def braced (expression : String) : String :=
  "\x7b\x7b" ++ expression ++ "\x7d\x7d"

def message : MappingError → String
  | .required f => s!"required field '{f}' is missing"
  | .uncoercible f v t => s!"cannot coerce {v.quoted} to {t} for field '{f}'"
  | .untransformable f t => s!"transform '{t}' failed for field '{f}'"
  | .unboundReference r => s!"variable '{r}' is not bound"
  | .danglingReference r => s!"'{r}' does not resolve to a value"
  | .unboundPlaceholder e => s!"'{braced e}' is not bound"
  | .danglingPlaceholder e => s!"'{braced e}' does not resolve to a value"
  | .keylessRecord c =>
    let shown := c.getD "None"
    s!"no value for primary key column '{shown}'"
  | .nothingToSet _ => "update has no columns to set besides the primary key"

/-- The message after its kind. -/
def text (e : MappingError) : String := s!"{e.kind}: {e.message}"

end MappingError

/-- What is wrong at one place of a workflow or an authoring graph. -/
inductive IssueCause where
  | duplicateColumn (column : String) (first : Nat)
  | duplicateSource (field : String)
  | unknownTransform (name : String)
  | keyRequired (operation : String)
  | selectUnsupported
  | keyUnmapped (column : String)
  | tableRequired
  | schemaRequired
  | mappingsRequired
  | invalidTemplate
  | negativeSetting
  | nonPositiveSetting
  | renamesRequired
  | condition (message : String)
  | danglingBranch (target : Int) (count : Nat)
  | destinationOfStep (kind : String)
  | sourceIdentity (kind : String)
  | destinationRequired
  | destinationIdentity (kind : String)
  | stepOrder (orders : List Int)
  | duplicatePipeline (id : String)
  | duplicateNode (id : String)
  | notASource (node : String)
  | notADestination (node : String)
  | edgeWithoutDestination
  | retention

namespace IssueCause

/-- The code under which an issue is reported. -/
def code : IssueCause → String
  | .duplicateColumn .. => "DuplicateDestinationColumn"
  | .duplicateSource _ => "DuplicateSourceField"
  | .unknownTransform _ => "UnknownTransform"
  | .keyRequired _ | .keyUnmapped _ => "MissingPrimaryKey"
  | .selectUnsupported => "UnsupportedOperation"
  | .tableRequired | .schemaRequired => "MissingTargetTable"
  | .mappingsRequired => "MissingFieldMappings"
  | .invalidTemplate | .negativeSetting | .nonPositiveSetting | .renamesRequired =>
    "InvalidStepSettings"
  | .condition _ => "InvalidCondition"
  | .danglingBranch .. => "DanglingStepReference"
  | .destinationOfStep _ | .destinationRequired | .destinationIdentity _ | .notADestination _
  | .edgeWithoutDestination => "UnresolvedDestination"
  | .sourceIdentity _ | .notASource _ => "UnresolvedSource"
  | .stepOrder _ => "InvalidStepOrder"
  | .duplicatePipeline _ => "DuplicatePipeline"
  | .duplicateNode _ => "DuplicateNode"
  | .retention => "InvalidRetention"

def message : IssueCause → String
  | .duplicateColumn c i => s!"column '{c}' is already mapped by fieldMappings[{i}]"
  | .duplicateSource f => s!"source field '{f}' is already mapped"
  | .unknownTransform t => s!"unknown transform '{t}'"
  | .keyRequired op => s!"'{op}' requires a primary key column"
  | .selectUnsupported => "'select' is only available for database destinations"
  | .keyUnmapped c => s!"primary key column '{c}' must be mapped"
  | .tableRequired => "target table is required"
  | .schemaRequired => "target schema is required"
  | .mappingsRequired => "at least one field mapping is required"
  | .invalidTemplate => "body template is not valid JSON"
  | .negativeSetting => "must be >= 0"
  | .nonPositiveSetting => "must be > 0"
  | .renamesRequired => "key map is required"
  | .condition m => m
  | .danglingBranch t n => s!"step {t} does not exist (valid: 1..{n})"
  | .destinationOfStep k => s!"{k} destination is required"
  | .sourceIdentity k => s!"'{k}' pipelines need exactly one source identity"
  | .destinationRequired => "destination is required"
  | .destinationIdentity k => s!"'{k}' pipelines need exactly one destination identity"
  | .stepOrder orders =>
    s!"stepOrder must be contiguous from 1, got {(Value.list (orders.map Value.int)).quoted}"
  | .duplicatePipeline id => s!"duplicate id '{id}'"
  | .duplicateNode id => s!"duplicate node id '{id}'"
  | .notASource n => s!"node '{n}' is not a sender app or MQTT source"
  | .notADestination n => s!"node '{n}' is not a destination"
  | .edgeWithoutDestination => "edge has no destination"
  | .retention => "retention must be greater than 0 hours"

end IssueCause

/-- One problem found while validating a workflow. -/
structure Issue where
  place : Place
  cause : IssueCause

namespace Issue

def code (i : Issue) : String := i.cause.code

def message (i : Issue) : String := i.cause.message

def field (i : Issue) : String := i.place.render

/-- The issue as one line. -/
def text (i : Issue) : String := s!"{i.field}: {i.message} [{i.code}]"

/-- All issues in one line. -/
def joined (issues : List Issue) : String := Text.joinWith "; " (issues.map text)

end Issue

/-- Why a document or a step's settings cannot be used. -/
inductive ValidationError where
  | malformedWorkflow (why : DocumentError)
  | malformedGraph (why : DocumentError)
  | invalidWorkflow (issues : List Issue)
  | unknownTransform (name field : String)
  | mappedTwice (column : String)
  | invalidTemplate
  | noDestination (order : Int)

namespace ValidationError

def message : ValidationError → String
  | .malformedWorkflow _ => "malformed workflow IR"
  | .malformedGraph _ => "malformed authoring graph"
  | .invalidWorkflow issues => s!"invalid workflow IR: {Issue.joined issues}"
  | .unknownTransform t f => s!"unknown transform '{t}' on field '{f}'"
  | .mappedTwice c => s!"destination column '{c}' is mapped twice"
  | .invalidTemplate => "body template is not valid JSON"
  | .noDestination n => s!"step {n} has no destination"

end ValidationError

/-- Why a step failed in a way that its error policy handles. -/
inductive StepError where
  | conditionNotObject
  | invalidCondition (fields : Fields)
  | needsObject (order : Int) (stepKind valueKind : String)
  /-- The destination answered with a failure, described by its own words. -/
  | destination (message : String)
  | timedOut (seconds : Binary64)

namespace StepError

def message : StepError → String
  | .conditionNotObject => "condition expression must be an object"
  | .invalidCondition fs => s!"invalid condition expression: {(Value.object fs).quoted}"
  | .needsObject n k got => s!"step {n} ({k}) needs an object input, got {got}"
  | .destination m => m
  | .timedOut t => s!"step timed out after {t.displayText}s"

end StepError

/-- Any failure of a step or of a statement about a record. -/
inductive Failure where
  | mapping (e : MappingError)
  | validation (e : ValidationError)
  | config (issues : List Issue)
  | step (e : StepError)
  | fault (f : Fault)

end Conveyor
