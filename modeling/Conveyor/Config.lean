import Conveyor.Destination.Routing
import Conveyor.FileName
import Conveyor.Run.Backoff

/-!
# Configuration

The settings of a program, from a file and the environment. The file is the one that is asked for,
or the one that the environment names, or one of a fixed name; a file that does not exist sets
nothing.
-/

namespace Conveyor

structure RedisConfig where
  host : String := "localhost"
  port : Int := 6379
  db : Int := 0
  password : Option String := none

/-- What records are taken from. -/
inductive TransportKind where
  | inMemory | redis
  deriving DecidableEq, Repr

def TransportKind.all : List TransportKind := [.inMemory, .redis]

def TransportKind.name : TransportKind → String
  | .inMemory => "inmemory"
  | .redis => "redis"

structure TransportConfig where
  backend : TransportKind := .inMemory
  redis : RedisConfig := {}
  queue : String := "nexusflow:inbound"

/-- The connections of destinations by number. -/
structure DestinationsConfig where
  database : List (Int × String) := []
  sap : List (Int × String) := []
  rest : RestConnections := []

structure Config where
  transport : TransportConfig := {}
  databaseUrl : Option String := none
  workflowStoreUrl : String := "sqlite+aiosqlite:///nexusflow.db"
  executor : ExecutorConfig := {}
  destinations : DestinationsConfig := {}
  logLevel : String := "INFO"

/-! ## Reading configurations -/

namespace Schema

/-- Put a value under a number; a later one takes the place of an earlier one. -/
def putNumbered {α : Type} (m : List (Int × α)) (n : Int) (a : α) : List (Int × α) :=
  if m.any fun (k, _) => k = n then m.map fun (k, b) => if k = n then (k, a) else (k, b)
  else m ++ [(n, a)]

/-- One entry of an object whose names are numbers; misfits of the name come first. -/
def numberedEntry {α : Type} (read : Reading α) (name : String) (v : Value) : Checked (Int × α) :=
  Prod.mk <$> ((integer (.text name)).within (.field "[key]")).within (.field name)
    <*> (read v).within (.field name)

/-- An object whose names are numbers. -/
def numbered {α : Type} (read : Reading α) : Reading (List (Int × α))
  | .object fs =>
    (Checked.all (fs.map fun (name, v) => numberedEntry read name v)).map fun entries =>
      entries.foldl (fun m (n, a) => putNumbered m n a) []
  | _ => .refuse .notObject

end Schema

open Schema

def RedisConfig.read (fs : Fields) : Checked RedisConfig :=
  RedisConfig.mk
    <$> withDefault fs "host" text "localhost"
    <*> withDefault fs "port" integer 6379
    <*> withDefault fs "db" integer 0
    <*> optional fs "password" text

def TransportConfig.read (fs : Fields) : Checked TransportConfig :=
  TransportConfig.mk
    <$> withDefault fs "backend" (choice TransportKind.all TransportKind.name) .inMemory
    <*> withDefault fs "redis" (record RedisConfig.read) {}
    <*> withDefault fs "queue" text "nexusflow:inbound"

def DestinationsConfig.read (fs : Fields) : Checked DestinationsConfig :=
  DestinationsConfig.mk
    <$> withDefault fs "database" (numbered text) []
    <*> withDefault fs "sap" (numbered text) []
    <*> withDefault fs "rest" (numbered (record RestConnection.read)) []

def Config.read (fs : Fields) : Checked Config :=
  Config.mk
    <$> withDefault fs "transport" (record TransportConfig.read) {}
    <*> optional fs "database_url" text
    <*> withDefault fs "workflow_store_url" text "sqlite+aiosqlite:///nexusflow.db"
    <*> withDefault fs "executor" (record ExecutorConfig.read) {}
    <*> withDefault fs "destinations" (record DestinationsConfig.read) {}
    <*> withDefault fs "log_level" text "INFO"

/-! ## Writing configurations -/

/-- A value that may be absent, as null. -/
def orNull : Option String → Value
  | some s => .text s
  | none => .null

/-- An object whose names are numbers. -/
def numberedDocument {α : Type} (f : α → Value) (m : List (Int × α)) : Value :=
  .object (m.map fun (n, a) => (toString n, f a))

def RestConnection.document (c : RestConnection) : Value :=
  .object [("base_url", .text c.baseUrl), ("method", .text c.method.name),
    ("headers", .object (c.headers.mapValues .text)), ("auth_token", orNull c.authToken),
    ("timeout", .float c.timeout)]

def RedisConfig.document (c : RedisConfig) : Value :=
  .object [("host", .text c.host), ("port", .int c.port), ("db", .int c.db),
    ("password", orNull c.password)]

def TransportConfig.document (c : TransportConfig) : Value :=
  .object [("backend", .text c.backend.name), ("redis", c.redis.document),
    ("queue", .text c.queue)]

def ExecutorConfig.document (c : ExecutorConfig) : Value :=
  .object [("retry_backoff_base", .float c.backoffBase), ("retry_jitter", .float c.jitter),
    ("retry_max_delay", .float c.maxDelay), ("max_step_transitions", .int c.maxTransitions)]

def DestinationsConfig.document (c : DestinationsConfig) : Value :=
  .object [("database", numberedDocument .text c.database),
    ("sap", numberedDocument .text c.sap),
    ("rest", numberedDocument RestConnection.document c.rest)]

/-- The document of a configuration, with all its fields. -/
def Config.document (c : Config) : Value :=
  .object [("transport", c.transport.document), ("database_url", orNull c.databaseUrl),
    ("workflow_store_url", .text c.workflowStoreUrl), ("executor", c.executor.document),
    ("destinations", c.destinations.document), ("log_level", .text c.logLevel)]

/-! ## Finding the configuration -/

namespace Config

/-- Why a configuration cannot be used. -/
inductive LoadError where
  | misfits (all : List Misfit)
  | fault (f : Fault)

/-- The value of an environment variable that is set to something. -/
def nonEmpty? (env : Keyed String) (name : String) : Option String :=
  (env.get? name).filter fun v => !v.isEmpty

/-- The file that the configuration is read from. -/
def fileName (env : Keyed String) (path : Option String) : String :=
  match path.filter fun p => !p.isEmpty with
  | some p => p
  | none => (env.get? "NEXUSFLOW_CONFIG").getD "nexusflow.yaml"

/-- The address of the log's database that the environment sets. -/
def databaseUrlOf (env : Keyed String) : Option String :=
  (nonEmpty? env "NEXUSFLOW_DATABASE_URL").or (nonEmpty? env "DATABASE_URL")

/-- The document of a file; a file without anything in it is the empty document. -/
def documentOf (content : String) : Except Fault Value :=
  if Text.isBlankText content then .ok (.object [])
  else match Json.readWith? .settings content with
    | some v => .ok (if v.isTruthy then v else .object [])
    | none => .error .badValue

/-- The configuration in the text of a file. -/
def ofText (content : String) : Except LoadError Config := do
  match ← (documentOf content).mapError LoadError.fault with
  | .object fs => (Config.read fs).toExcept.mapError .misfits
  | _ => .error (.fault .wrongKind)

/-- The configuration, given the files by their normal names and the environment. -/
def load (files env : Keyed String) (path : Option String) : Except LoadError Config := do
  let config ← match files.get? (FileName.normal (fileName env path)) with
    | some content => ofText content
    | none => pure {}
  match databaseUrlOf env with
  | some url => pure { config with databaseUrl := some url }
  | none => pure config

/-- Where the log is kept. -/
inductive LogBackend where
  | memory
  | table (path : String)
  deriving DecidableEq, Repr

/-- The log's place at an address. -/
def LogBackend.ofUrl (url : String) : Except Fault LogBackend :=
  match Text.after? "sqlite://".toList url.toList with
  | some path => .ok (.table (String.ofList path))
  | none => .error .badValue

/-- The log's place: what is asked for wins over the environment, and that over the
configuration. -/
def logBackend (c : Config) (env : Keyed String) (url : Option String) : Except Fault LogBackend :=
  match ((url.filter fun u => !u.isEmpty).or (databaseUrlOf env)).or
      (c.databaseUrl.filter fun u => !u.isEmpty) with
  | some url => LogBackend.ofUrl url
  | none => .ok .memory

/-- What records are taken from: what is asked for wins over the environment, and that over the
configuration. -/
def transportKind (c : Config) (env : Keyed String) (name : Option String) :
    Except Fault TransportKind :=
  let name := ((name.filter fun n => !n.isEmpty).or (nonEmpty? env "NEXUSFLOW_TRANSPORT")).getD
    c.transport.backend.name
  match TransportKind.all.find? fun k => k.name = Text.lower name with
  | some k => .ok k
  | none => .error .badValue

/-- The addresses of databases by destination. -/
def sqlConnections (c : Config) : SqlConnections :=
  c.destinations.database.map (fun (n, url) => ((DestinationRef.mk .database n).text, url))
    ++ c.destinations.sap.map fun (n, url) => ((DestinationRef.mk .sap n).text, url)

/-- Every kind of destination with its configured connections. -/
def routing (c : Config) : Routing where
  routes := [(.database, .sql), (.sap, .sql), (.rest, .rest)]
  rest := c.destinations.rest
  sql := c.sqlConnections

end Config
end Conveyor
