import Conveyor.FileName
import Conveyor.Log.Entry
import Conveyor.Mapping.Suggestion
import Conveyor.Moment.Stamp
import Conveyor.Text.Search

/-!
# Commands

What the command line can be asked to do. Commands are in groups; the name of the group is read
first, and what follows it only once the settings of the whole program have been looked at.
-/

/-!
## Arguments

Options and positional arguments of a command. An option takes the argument after it or the text
after an equals sign; a switch takes nothing and has a counterpart that turns it off. Two dashes
alone end the options, and a dash alone is no option.
-/

namespace Conveyor

/-- The options that a command knows, by their names without dashes. -/
structure Options where
  valued : List String := []
  switches : List String := []
  /-- Whether options may stand after positional arguments. -/
  interspersed : Bool := true

/-- The arguments of a command, each kind in the order given. -/
structure Arguments where
  values : List (String × String) := []
  switches : List (String × Bool) := []
  positional : List String := []

namespace Options

def named (name : String) : String := "--" ++ name

/-- The option of this spelling that takes a value. -/
def valued? (o : Options) (spelling : String) : Option String :=
  o.valued.find? fun name => named name = spelling

/-- The switch of this spelling, and what it is set to. -/
def switch? (o : Options) (spelling : String) : Option (String × Bool) :=
  match o.switches.find? fun name => named name = spelling with
  | some name => some (name, true)
  | none => (o.switches.find? fun name => named ("no-" ++ name) = spelling).map (·, false)

end Options

namespace Arguments

def isOption (arg : String) : Bool := Text.startsWith "-" arg && arg ≠ "-"

def withValue (name value : String) (a : Arguments) : Arguments :=
  { a with values := (name, value) :: a.values }

def withSwitch (s : String × Bool) (a : Arguments) : Arguments :=
  { a with switches := s :: a.switches }

def withPositional (arg : String) (a : Arguments) : Arguments :=
  { a with positional := arg :: a.positional }

/-- An option that stands for itself: with its value after an equals sign, or a switch. -/
def lone? (o : Options) (arg : String) : Option (Arguments → Arguments) :=
  match Text.cutChars '=' arg.toList with
  | (spelling, some value) =>
    (o.valued? (String.ofList spelling)).map fun name => withValue name (String.ofList value)
  | (_, none) => (o.switch? arg).map withSwitch

/-- Read arguments; none if an option is unknown, lacks its value, or has one that it does not
take. -/
def read? (o : Options) : List String → Option Arguments
  | [] => some {}
  | [arg] =>
    if arg = "--" then some {}
    else if isOption arg then (lone? o arg).map fun add => add {}
    else some { positional := [arg] }
  | arg :: next :: rest =>
    if arg = "--" then some { positional := next :: rest }
    else if isOption arg then
      match o.valued? arg with
      | some name => (read? o rest).map (withValue name next)
      | none => do
        let add ← lone? o arg
        pure (add (← read? o (next :: rest)))
    else if o.interspersed then (read? o (next :: rest)).map (withPositional arg)
    else some { positional := arg :: next :: rest }

/-- The value of an option; the last one given counts. -/
def value? (a : Arguments) (name : String) : Option String :=
  (a.values.reverse.find? fun (n, _) => n = name).map (·.2)

/-- All values of an option. -/
def valuesOf (a : Arguments) (name : String) : List String :=
  (a.values.filter fun (n, _) => n = name).map (·.2)

/-- Whether a switch is on; the last one given counts, and without any it is off. -/
def isOn (a : Arguments) (name : String) : Bool :=
  ((a.switches.reverse.find? fun (n, _) => n = name).map (·.2)).getD false

end Arguments

/-! ## What can be asked for -/

/-- Which log entries are listed, as it is asked for. -/
structure EntryCriteria where
  status : Option String := none
  source : Option String := none
  destination : Option String := none
  dateFrom : Option Moment := none
  dateTo : Option Moment := none

/-- The filter of criteria, if the status is one. -/
def EntryCriteria.filter (c : EntryCriteria) : Checked LogFilter :=
  let status : Checked (Option LogStatus) := match c.status with
    | none => .fits none
    | some s => ((Schema.choice LogStatus.all LogStatus.name (.text s)).map some).within
        (.field "status")
  status.map fun status =>
    { status
      source := c.source
      destination := c.destination
      dateFrom := c.dateFrom.map Moment.assumeUniversal
      dateTo := c.dateTo.map Moment.assumeUniversal }

inductive Command where
  /-- Compile the authoring graph in a file, and write or save the workflow. -/
  | compile (graph : String) (output : Option String) (save : Bool)
  /-- Check that a file holds a workflow. -/
  | validate (workflow : String)
  /-- Run the record in a file through the workflow in another. -/
  | run (workflow record : String) (dryRun : Bool)
  /-- Suggest mappings of fields to columns. -/
  | suggest (fields : List String) (columns : List Mapping.Column)
  /-- Start a worker on the saved workflows. -/
  | work (lifespan : Option Binary64) (queue : Option String)
  | listEntries (criteria : EntryCriteria) (limit offset : Int)
  | showStats
  | purge

namespace Command

/-- An option's value as something; absent without the option, refused if it cannot be read. -/
def optionAs {α : Type} (a : Arguments) (name : String) (read : String → Option α) :
    Option (Option α) :=
  match a.value? name with
  | none => some none
  | some s => (read s).map some

/-- A column as `name:type:nullable`, of which all but the name may be left out. -/
def columnOf (s : String) : Mapping.Column :=
  let (name, rest) := Text.cut ':' s
  let (dataType, nullable) := Text.cut ':' rest
  { name
    dataType := if dataType.isEmpty then none else some dataType
    isNullable :=
      if nullable.isEmpty then none
      else some (["1", "true", "yes"].contains (Text.lower nullable)) }

def readCompile (args : List String) : Option Command := do
  let a ← Arguments.read? { valued := ["output"], switches := ["save"] } args
  match a.positional with
  | [graph] =>
    pure (.compile (FileName.normal graph) ((a.value? "output").map FileName.normal)
      (a.isOn "save"))
  | _ => none

def readValidate (args : List String) : Option Command := do
  let a ← Arguments.read? {} args
  match a.positional with
  | [workflow] => pure (.validate (FileName.normal workflow))
  | _ => none

def readRun (args : List String) : Option Command := do
  let a ← Arguments.read? { switches := ["dry-run"] } args
  match a.positional with
  | [workflow, record] =>
    pure (.run (FileName.normal workflow) (FileName.normal record) (a.isOn "dry-run"))
  | _ => none

def readSuggest (args : List String) : Option Command := do
  let a ← Arguments.read? { valued := ["field", "column"] } args
  let fields := a.valuesOf "field"
  let columns := a.valuesOf "column"
  if !a.positional.isEmpty || fields.isEmpty || columns.isEmpty then none
  else pure (.suggest fields (columns.map columnOf))

def readWork (args : List String) : Option Command := do
  let a ← Arguments.read? { valued := ["lifespan", "queue"] } args
  let lifespan ← optionAs a "lifespan" Text.readDouble?
  if a.positional.isEmpty then pure (.work lifespan (a.value? "queue")) else none

def readListEntries (args : List String) : Option Command := do
  let a ← Arguments.read?
    { valued := ["status", "source", "destination", "date-from", "date-to", "limit", "offset"] }
    args
  let dateFrom ← optionAs a "date-from" Moment.Stamp.read?
  let dateTo ← optionAs a "date-to" Moment.Stamp.read?
  let limit ← optionAs a "limit" Text.readInteger?
  let offset ← optionAs a "offset" Text.readInteger?
  let criteria : EntryCriteria :=
    ⟨a.value? "status", a.value? "source", a.value? "destination", dateFrom, dateTo⟩
  if a.positional.isEmpty then pure (.listEntries criteria (limit.getD 50) (offset.getD 0))
  else none

/-- A command that takes no arguments. -/
def readBare (c : Command) (args : List String) : Option Command := do
  let a ← Arguments.read? {} args
  if a.positional.isEmpty then pure c else none

/-- The groups of commands. -/
inductive Group where
  | workflow | worker | logs
  deriving DecidableEq, Repr

namespace Group

def all : List Group := [.workflow, .worker, .logs]

def name : Group → String
  | .workflow => "workflow"
  | .worker => "worker"
  | .logs => "logs"

/-- How the arguments of each command of a group are read. -/
def readers : Group → Keyed (List String → Option Command)
  | .workflow => [("compile", readCompile), ("validate", readValidate), ("run", readRun),
      ("automap", readSuggest)]
  | .worker => [("start", readWork)]
  | .logs => [("list", readListEntries), ("stats", readBare .showStats),
      ("purge", readBare .purge)]

end Group

/-- What stands before a command's own name and arguments. -/
structure Invocation where
  logLevel : Option String
  group : Group
  rest : List String

/-- Read the options of the program and the name of a group. -/
def Invocation.read? (args : List String) : Option Invocation := do
  let a ← Arguments.read? { valued := ["log-level"], interspersed := false } args
  match a.positional with
  | [] => none
  | name :: rest =>
    let group ← Group.all.find? fun g => g.name = name
    pure ⟨a.value? "log-level", group, rest⟩

/-- Read a command of the group. -/
def Invocation.command? (i : Invocation) : Option Command := do
  let a ← Arguments.read? { interspersed := false } i.rest
  match a.positional with
  | [] => none
  | name :: rest => (← i.group.readers.get? name) rest

end Command
end Conveyor
