import Conveyor.Command.Basic
import Conveyor.Log.Entry
import Conveyor.Worker
import Conveyor.Site

/-!
# Running commands

Each command as what it prints and what it does to the site. A problem that the command is there to
find is printed and ends it with exit code 1; any other failure ends it as it is.
-/

/-!
## Sessions

A command prints lines while it works on a site. It may stop before its end, either because it says
so or because something failed; the lines printed until then stay.
-/

namespace Conveyor

/-- Why a command stops before its end. -/
inductive Stop where
  | exit (code : Nat)
  | failed (f : Failure)
  | misfits (ms : List Misfit)
  /-- It goes on for ever. -/
  | endless

structure Session where
  site : Site
  /-- The lines printed so far. -/
  lines : List String := []

/-- A command or a part of one. -/
abbrev Act := ExceptT Stop (StateM Session)

namespace Act

variable {α : Type}

def stop (s : Stop) : Act α := throw s

def say (line : String) : Act Unit := modify fun s => { s with lines := s.lines ++ [line] }

def sayAll (lines : List String) : Act Unit := modify fun s => { s with lines := s.lines ++ lines }

def site : Act Site := do pure (← get).site

def setSite (site : Site) : Act Unit := modify fun s => { s with site }

def orFailed : Except Failure α → Act α
  | .ok a => pure a
  | .error f => stop (.failed f)

def orFault (x : Except Fault α) : Act α := orFailed (x.mapError .fault)

/-- Something that may go on for ever. -/
def orEndless : Option α → Act α
  | some a => pure a
  | none => stop .endless

def orMisfits : Checked α → Act α
  | .fits a => pure a
  | .misfits ms => stop (.misfits ms)

/-- The configuration of the site. -/
def config : Act Config := do
  match (← site).config with
  | .ok c => pure c
  | .error (.misfits ms) => stop (.misfits ms)
  | .error (.fault f) => stop (.failed (.fault f))

/-- Open the log of a configuration. -/
def openLog (c : Config) : Act Unit := do
  setSite (← orFault ((← site).openLog c))

/-- The log in use; it is opened if there is none. -/
def log : Act OpenLog := do
  match (← site).log with
  | some l => pure l
  | none =>
    openLog (← config)
    match (← site).log with
    | some l => pure l
    | none => pure (.own (.memory {}))

def logContents : Act LogRepository := do
  let l ← log
  pure ((← site).contents l)

def putLogContents (r : LogRepository) : Act Unit := do
  let l ← log
  setSite ((← site).putContents l r)

end Act

namespace Command

open Act

/-! ## Documents -/

/-- Stop over a file that is not there. -/
def requireFile (name : String) : Act Unit := do
  if !((← site).leadsSomewhere name) then
    say s!"File not found: {name}"
    stop (.exit 1)

def readFile (name : String) : Act String := do orFault ((← site).readFile name)

/-- The document in a file; a file without one holds the empty document. -/
def readDocument (name : String) : Act Value := do
  requireFile name
  orFault (Config.documentOf (← readFile name))

/-- A document that may in turn be the text of one. -/
def documentIn : Value → Document
  | .text s => .text s
  | v => .value v

def issueLine (i : Issue) : String := s!"{i.code}\t{i.field}\t{i.message}"

/-- The result, or the end of the command over problems of a document. -/
def orReport {α : Type} : Except Failure α → Act α
  | .ok a => pure a
  | .error (.config issues) => do
    sayAll (issues.map issueLine)
    stop (.exit 1)
  | .error (.validation e) => do
    say e.message
    stop (.exit 1)
  | .error f => stop (.failed f)

/-! ## Workflows -/

def saveWorkflow (w : Workflow) : Act Unit := do
  let url := (← config).workflowStoreUrl
  let store ← orFailed (((← site).store url).save w)
  setSite ((← site).putStore url store)
  say s!"Saved workflow {w.id}"

def runCompile (graph : String) (output : Option String) (save : Bool) : Act Unit := do
  let g ← orReport (AuthoringGraph.load (documentIn (← readDocument graph)))
  let w ← orReport g.compile
  let document ← orFault w.documentText
  match output with
  | some name =>
    setSite (← orFault ((← site).writeFile name document))
    say s!"Wrote {w.id} to {name}"
  | none => say document
  if save then saveWorkflow w

def runValidate (workflow : String) : Act Unit := do
  requireFile workflow
  let w ← orReport (Workflow.load (.text (← readFile workflow)))
  say s!"Workflow {w.id} is valid ({w.pipelines.length} pipeline(s))"

def runSuggest (fields : List String) (columns : List Mapping.Column) : Act Unit :=
  say (Json.write (.indented false) (mappingsWire (Mapping.suggest fields columns [])))

/-! ## Runs -/

/-- The record of a document, which may draw an id. -/
def receive (v : Value) : Act InboundRecord := do
  let s ← site
  let (r, drawn) := World.readRecord s.now s.drawn v
  setSite { s with drawn }
  orMisfits r

/-- The memory that a run starts from; what a run adds to a table does not depend on its rows. -/
def memoryOf : LogRepository → MemoryLog
  | .memory l => l
  | .table _ => {}

/-- The log after a run. Entries that a table cannot hold are left out. -/
def afterRun (before : LogRepository) (l : MemoryLog) : LogRepository :=
  match before with
  | .memory _ => .memory l
  | .table t => .table (l.values.foldl (fun t e => (t.append e).toOption.getD t) t)

/-- Let something happen in a world that starts as the site is, and keep what it leaves behind. -/
def inWorld {σ α : Type} (destinations : σ) (f : World σ → Option (α × World σ)) : Act (α × σ) := do
  let before ← logContents
  let s ← site
  let world : World σ :=
    { now := s.now, drawn := s.drawn, chances := s.chances, log := memoryOf before, destinations }
  let (a, w) ← orEndless (f world)
  setSite { s with drawn := w.drawn, chances := w.chances }
  putLogContents (afterRun before w.log)
  pure (a, w.destinations)

/-- The results of running a record through a workflow, and what became of the destinations. -/
def handle {τ σ : Type} (a : Adapter τ σ) (destinations : σ) (c : Config) (w : Workflow)
    (r : InboundRecord) : Act (List RunResult × σ) := do
  let (results, destinations) ← inWorld destinations
    (Worker.handle a { executor := c.executor } (Arena.ofWorkflows [w]) r)
  pure (← orFault results, destinations)

def outcomeLine (o : StepOutcome) : String :=
  let line := s!"  {o.order}. {o.name}: {o.state.name}"
  match o.error.filter fun e => !e.isEmpty with
  | some e => s!"{line} ({e})"
  | none => line

def resultLines (r : RunResult) : List String :=
  let id := match r.entry with
    | some e => e.pipelineId.getD "None"
    | none => "-"
  s!"{id}\t{r.status}" :: r.outcomes.map outcomeLine

/-- The line of a recorded call; a request with a sealed part or a value nested too deeply cannot be
written. -/
def callLine (call : DestinationRef × Request) : Except Fault String := do
  (Value.descendAll call.2.freeValues).mapError fun _ => .unwritable
  pure s!"{call.1.text}\t{Json.write .compact call.2.document}"

def sayCalls : List (DestinationRef × Request) → Act Unit
  | [] => pure ()
  | call :: rest => do
    say (← orFault (callLine call))
    sayCalls rest

/-- Print results, and the calls that were recorded on the way. -/
def sayResults (results : List RunResult) (calls : List (DestinationRef × Request)) :
    Act Unit := do
  if results.isEmpty then say "DROPPED: no active pipeline for this source"
  else
    sayAll (results.flatMap resultLines)
    sayCalls calls
    if !results.all (·.isComplete) then stop (.exit 1)

def runRecord (workflow record : String) (dryRun : Bool) : Act Unit := do
  let w ← match Workflow.load (.text (← readFile workflow)) with
    | .error (.validation e) => do
      say e.message
      stop (.exit 1)
    | loaded => orFailed loaded
  let r ← receive (← readDocument record)
  let c ← config
  if dryRun then
    let (results, destinations) ← handle Recording.adapter {} c w r
    sayResults results destinations.calls
  else
    let (results, _) ← handle c.routing.offline () c w r
    sayResults results []

/-- Run a worker on the saved workflows. A queue in memory is empty when the program starts, under
whatever name; a queue elsewhere cannot be reached. -/
def runWork (lifespan : Option Binary64) : Act Unit := do
  let c ← config
  say "Starting worker"
  let workflows ← orFailed ((← site).store c.workflowStoreUrl).list
  openLog c
  match ← orFault (c.transportKind (← site).environment none) with
  | .redis => orFault (.error .unreachable)
  | .inMemory =>
    let (floor, _) ← inWorld () fun w =>
      match Worker.start c.routing.offline { executor := c.executor }
          (Arena.ofWorkflows workflows) lifespan [] w with
      | .ok f => f.map fun f => (.ok f, f.scene.world)
      | .error e => some (.error e, w)
    let floor ← orFault floor
    say s!"Worker stopped after {floor.returned} record(s)"

/-! ## The log -/

/-- A text that is shown, or what is shown in its place if there is none. -/
def shownOr (blank : String) (s : Option String) : String :=
  (s.filter fun t => !t.isEmpty).getD blank

def entryLine (e : LogEntry) : String :=
  Text.joinWith "\t" [e.createdAt.isoText, e.status.name, e.source, shownOr "-" e.destination,
    toString e.retryCount, shownOr "" e.message]

def runListEntries (criteria : EntryCriteria) (limit offset : Int) : Act Unit := do
  let repository ← logContents
  let filter ← orMisfits criteria.filter
  let page ← orFault (repository.query filter limit offset)
  if page.items.isEmpty then say "No log entries found"
  else
    sayAll (page.items.map entryLine)
    say s!"{page.items.length} of {page.total}"

def runShowStats : Act Unit := do
  let stats ← orFault ((← logContents).stats (← site).now)
  say (Json.write (.indented true) stats.wire)

def runPurge : Act Unit := do
  let (removed, repository) ← orFault ((← logContents).purge (← site).now)
  putLogContents repository
  say s!"Purged {removed} expired log entries"

/-! ## The command line -/

/-- Carry out a command. -/
def perform : Command → Act Unit
  | .compile graph output save => runCompile graph output save
  | .validate workflow => runValidate workflow
  | .run workflow record dryRun => runRecord workflow record dryRun
  | .suggest fields columns => runSuggest fields columns
  | .work lifespan _ => runWork lifespan
  | .listEntries criteria limit offset => runListEntries criteria limit offset
  | .showStats => runShowStats
  | .purge => runPurge

/-- The exit code of a command line that cannot be read. -/
def usageError : Stop := .exit 2

/-- Carry out a command line. Without a log level of its own it asks the configuration for one
before the command is read. -/
def performLine (args : List String) : Act Unit := do
  match Invocation.read? args with
  | none => stop usageError
  | some i =>
    if (i.logLevel.getD "").isEmpty then
      let _ ← config
    match i.command? with
    | none => stop usageError
    | some c => perform c

end Command

/-- What a command line comes to. -/
structure Report where
  lines : List String
  /-- Why it stopped before its end, if it did. -/
  stopped : Option Stop

namespace Report

def exitCode (r : Report) : Nat :=
  match r.stopped with
  | none => 0
  | some (.exit code) => code
  | some _ => 1

/-- The lines as one text. -/
def output (r : Report) : String := String.join (r.lines.map (· ++ "\n"))

end Report

/-- Carry out a command line on a site. -/
def Site.perform (s : Site) (args : List String) : Report × Site :=
  let (result, session) := ((Command.performLine args).run { site := s }).run
  let stopped := match result with
    | .ok _ => none
    | .error stop => some stop
  (⟨session.lines, stopped⟩, session.site)

end Conveyor
