import Conveyor.Config
import Conveyor.Log.Repository
import Conveyor.Store
import Conveyor.Json.Printer
import Conveyor.Log.Entry

/-!
# Sites

What commands work on: files and environment, the clock, and what earlier commands have left behind.
A database is known by the name of its file. The log that a command opens stays in use for those
that follow.
-/

namespace Conveyor

/-- The log in use: one that nobody else sees, or the one in a file. -/
inductive OpenLog where
  | own (r : LogRepository)
  | file (path : String)

structure Site where
  /-- The texts of files by their normal names. -/
  files : Keyed String := []
  /-- The normal names of directories that need not have files. -/
  directories : List String := []
  environment : Keyed String := []
  now : Moment
  /-- How many ids have been drawn. -/
  drawn : Nat := 0
  /-- What is drawn by chance from now on. -/
  chances : Nat → Chance := fun _ => .least
  log : Option OpenLog := none
  /-- The logs in files. -/
  tables : Keyed TableLog := []
  /-- The workflow stores in files. -/
  stores : Keyed WorkflowStore := []

namespace Site

/-! ## Files -/

/-- Whether a name is that of a directory. -/
def isDirectory (s : Site) (name : String) : Bool :=
  name = "." || s.directories.contains name || s.files.keys.any (FileName.isBelow name)

/-- Whether a name leads to anything. -/
def leadsSomewhere (s : Site) (name : String) : Bool := s.files.has name || s.isDirectory name

def readFile (s : Site) (name : String) : Except Fault String :=
  match s.files.get? name with
  | some text => .ok text
  | none => .error (if s.isDirectory name then .directory else .missingFile)

def writeFile (s : Site) (name text : String) : Except Fault Site :=
  if s.isDirectory name then .error .directory
  else if s.isDirectory (FileName.directory name) then
    .ok { s with files := s.files.put name text }
  else .error .missingFile

def config (s : Site) : Except Config.LoadError Config := Config.load s.files s.environment none

/-! ## The log -/

/-- A table that vanishes with the program. -/
def isPassing (path : String) : Bool := path.isEmpty || path = ":memory:"

/-- The log at a place, as it is opened. -/
def opened : Config.LogBackend → OpenLog
  | .memory => .own (.memory {})
  | .table path =>
    if isPassing path then .own (.table {}) else .file (FileName.normal path)

/-- Open the configured log, in the place of the one in use. -/
def openLog (s : Site) (c : Config) : Except Fault Site := do
  let backend ← c.logBackend s.environment none
  pure { s with log := some (opened backend) }

/-- What an open log holds. -/
def contents (s : Site) : OpenLog → LogRepository
  | .own r => r
  | .file path => .table ((s.tables.get? path).getD {})

/-- Let an open log hold something else. -/
def putContents (s : Site) (l : OpenLog) (r : LogRepository) : Site :=
  match l, r with
  | .file path, .table t => { s with tables := s.tables.put path t }
  | _, r => { s with log := some (.own r) }

/-! ## Workflow stores -/

/-- The file of the store at an address, unless it vanishes with the program. -/
def storeFile? (url : String) : Option String :=
  match Text.after? "sqlite+aiosqlite:///".toList url.toList with
  | some path =>
    let path := String.ofList path
    if isPassing path then none else some (FileName.normal path)
  | none => none

def store (s : Site) (url : String) : WorkflowStore :=
  ((storeFile? url).bind s.stores.get?).getD {}

def putStore (s : Site) (url : String) (w : WorkflowStore) : Site :=
  match storeFile? url with
  | some path => { s with stores := s.stores.put path w }
  | none => s

end Site

/-!
## Storage

The texts in which databases outlive the program: a workflow store as the documents of its workflows
and the index of their pipelines, a log as the documents of its entries.
-/

namespace WorkflowStore

open Schema

def document (s : WorkflowStore) : Value :=
  .object [("workflows", .object (s.documents.mapValues .text)),
    ("pipelines", .list (s.pipelines.map fun r =>
      .object [("id", .text r.id), ("workflowId", .text r.workflowId)]))]

def readRow (fs : Fields) : Checked PipelineRow :=
  PipelineRow.mk <$> required fs "id" Schema.text <*> required fs "workflowId" Schema.text

def read (fs : Fields) : Checked WorkflowStore :=
  WorkflowStore.mk
    <$> required fs "workflows" (objectOf Schema.text)
    <*> required fs "pipelines" (listOf (record readRow))

def text (s : WorkflowStore) : String := Json.write (.indented false) s.document

def ofText? (s : String) : Option WorkflowStore :=
  (Json.read? s).bind fun v => (record read v).toOption

end WorkflowStore

namespace TableLog

/-- The entries of a table; a row that is no entry is left out. -/
def entries (t : TableLog) : List LogEntry := t.rows.filterMap fun r => r.toEntry.toOption

def text (t : TableLog) : String :=
  Json.write (.indented false) (.list (t.entries.map LogEntry.wire))

/-- The entry of a document that leaves nothing out. -/
def entryOf? : Value → Option LogEntry :=
  fun v => (Schema.record (LogEntry.read "" ⟨0, none⟩) v).toOption

def ofText? (s : String) : Option TableLog := do
  match ← Json.read? s with
  | .list items =>
    let entries ← items.mapM entryOf?
    (entries.foldlM TableLog.append {}).toOption
  | _ => none

end TableLog

namespace Site

/-- The files of the databases that the configuration names: the workflow store's and the log's. -/
def databaseFiles (s : Site) : Option String × Option String :=
  match s.config with
  | .error _ => (none, none)
  | .ok c =>
    let log := match c.logBackend s.environment none with
      | .ok (.table path) => if isPassing path then none else some (FileName.normal path)
      | _ => none
    (storeFile? c.workflowStoreUrl, log)

/-- The site with the databases that its files hold. -/
def openDatabases (s : Site) : Site :=
  let (store, log) := s.databaseFiles
  let stored := (do
    let path ← store
    pure (path, ← WorkflowStore.ofText? (← s.files.get? path)))
  let logged := (do
    let path ← log
    pure (path, ← TableLog.ofText? (← s.files.get? path)))
  { s with stores := stored.toList, tables := logged.toList }

/-- The texts of all files once the databases have been written. -/
def filesAfter (s : Site) : Keyed String :=
  Keyed.merge s.files
    (Keyed.merge (s.stores.mapValues WorkflowStore.text) (s.tables.mapValues TableLog.text))

end Site
end Conveyor
