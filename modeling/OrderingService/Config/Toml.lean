import OrderingService.Config.Basic
import OrderingService.Toml.Parser
import OrderingService.Toml.Writer

/-!
# Configuration files

A configuration is written as one TOML table per section with all keys in a fixed order. Read
back, every section and every key may be absent and takes its default; unknown keys are ignored; a
known key must have exactly its type.

A section is normally a table. An array stands for the values of its keys in their order, and a
date is a section that sets no key.

A path is written as a text, so a configuration with a path that is none has no document.

## Main definitions

* `Config.ofTable?`, `Config.ofToml` — the configuration of a table and of a document
* `Config.toTable?`, `Config.toToml` — the table and the document of a configuration
-/

namespace OrderingService

namespace Config

/-! ### Reading -/

/-- The value that a section gives to its key number `position`; `none` if the section is not of
a kind that holds keys. -/
def sectionKey? (v : TomlValue) (position : Nat) (key : String) : Option (Option TomlValue) :=
  match v with
  | .table _ entries => some (TomlTable.lookup? entries key)
  | .array _ items => some items[position]?
  | .date => some none
  | _ => none

/-- A text. -/
def text? : TomlValue → Option String
  | .string text => some text
  | _ => none

/-- A path: a text. -/
def path? (v : TomlValue) : Option Path := (text? v).map .ofText

/-- A count: an integer that is not negative. -/
def count? : TomlValue → Option Nat
  | .integer n => if 0 ≤ n then some n.toNat else none
  | _ => none

/-- Whether a value is an empty table or array. -/
def isEmptyValue : TomlValue → Bool
  | .table _ entries => entries.isEmpty
  | .array _ items => items.isEmpty
  | _ => false

/-- A log format by its exact name, or as the only key of a table with an empty value. -/
def logFormat? : TomlValue → Option LogFormat
  | .string name => LogFormat.ofExactName? name
  | .table _ [(name, v)] => if isEmptyValue v then LogFormat.ofExactName? name else none
  | _ => none

/-- A key of a section, or its default when absent. -/
def keyOr {α : Type} (v : TomlValue) (position : Nat) (key : String)
    (read : TomlValue → Option α) (default : α) : Option α := do
  match ← sectionKey? v position key with
  | none => some default
  | some value => read value

/-- The key pair of a section. -/
def tls? (v : TomlValue) : Option TlsConfig := do
  return {
    certFile := ← keyOr v 0 "cert_file" (fun x => (path? x).map some) none
    keyFile := ← keyOr v 1 "key_file" (fun x => (path? x).map some) none }

/-- The server settings of a section. -/
def server? (v : TomlValue) : Option ServerConfig := do
  let default : ServerConfig := {}
  return {
    listenAddress := ← keyOr v 0 "listen_address" text? default.listenAddress
    connTimeoutSecs := ← keyOr v 1 "conn_timeout_secs" count? default.connTimeoutSecs
    maxRecvMessageSize := ← keyOr v 2 "max_recv_message_size" count? default.maxRecvMessageSize
    maxSendMessageSize := ← keyOr v 3 "max_send_message_size" count? default.maxSendMessageSize
    tls := ← keyOr v 4 "tls" tls? default.tls }

/-- The ledger settings of a section. -/
def ledger? (v : TomlValue) : Option LedgerConfig := do
  let default : LedgerConfig := {}
  return { dataDir := ← keyOr v 0 "data_dir" path? default.dataDir }

/-- The batching settings of a section. -/
def ordering? (v : TomlValue) : Option OrderingConfig := do
  let default : OrderingConfig := {}
  return {
    maxBatchSize := ← keyOr v 0 "max_batch_size" count? default.maxBatchSize
    batchTimeoutMs := ← keyOr v 1 "batch_timeout_ms" count? default.batchTimeoutMs
    hashAlgorithm := ← keyOr v 2 "hash_algorithm" text? default.hashAlgorithm
    mailboxCapacity := ← keyOr v 3 "mailbox_capacity" count? default.mailboxCapacity
    subscriberBuffer := ← keyOr v 4 "subscriber_buffer" count? default.subscriberBuffer }

/-- The logging settings of a section. -/
def logging? (v : TomlValue) : Option LoggingConfig := do
  let default : LoggingConfig := {}
  return {
    level := ← keyOr v 0 "level" text? default.level
    format := ← keyOr v 1 "format" logFormat? default.format }

/-- The configuration of a document's root table. -/
def ofTable? (t : TomlTable) : Option Config := do
  let root : TomlValue := .table .header t
  let default : Config := {}
  return {
    server := ← keyOr root 0 "server" server? default.server
    ledger := ← keyOr root 1 "ledger" ledger? default.ledger
    ordering := ← keyOr root 2 "ordering" ordering? default.ordering
    logging := ← keyOr root 3 "logging" logging? default.logging }

/-- The configuration of a document. -/
def ofToml (text : String) : Except ServiceError Config :=
  match (Toml.parse? text).bind ofTable? with
  | some c => .ok c
  | none => .error (.config "Failed to parse config")

/-! ### Writing -/

/-- A path as a value, if it is a text. -/
def ofPath? (path : Path) : Option TomlValue := path.text?.map .string

/-- A path that may be unset; nothing is written then. -/
def optionalPath? (key : String) : Option Path → Option TomlTable
  | none => some []
  | some path => do return [(key, ← ofPath? path)]

/-- The table of a key pair. -/
def tlsTable? (c : TlsConfig) : Option TomlTable := do
  return (← optionalPath? "cert_file" c.certFile) ++ (← optionalPath? "key_file" c.keyFile)

/-- The table of the server settings, with the table of its key pair. -/
def serverTable (c : ServerConfig) (tls : TomlTable) : TomlTable :=
  [("listen_address", .string c.listenAddress),
   ("conn_timeout_secs", .integer c.connTimeoutSecs),
   ("max_recv_message_size", .integer c.maxRecvMessageSize),
   ("max_send_message_size", .integer c.maxSendMessageSize),
   ("tls", .table .header tls)]

/-- The table of the ledger settings, with its path as a value. -/
def ledgerTable (dataDir : TomlValue) : TomlTable :=
  [("data_dir", dataDir)]

/-- The table of the batching settings. -/
def orderingTable (c : OrderingConfig) : TomlTable :=
  [("max_batch_size", .integer c.maxBatchSize),
   ("batch_timeout_ms", .integer c.batchTimeoutMs),
   ("hash_algorithm", .string c.hashAlgorithm),
   ("mailbox_capacity", .integer c.mailboxCapacity),
   ("subscriber_buffer", .integer c.subscriberBuffer)]

/-- The table of the logging settings. -/
def loggingTable (c : LoggingConfig) : TomlTable :=
  [("level", .string c.level), ("format", .string c.format.name)]

/-- The root table of a configuration, with the table of its key pair and the path of its ledger. -/
def rootTable (c : Config) (tls : TomlTable) (dataDir : TomlValue) : TomlTable :=
  [("server", .table .header (serverTable c.server tls)),
   ("ledger", .table .header (ledgerTable dataDir)),
   ("ordering", .table .header (orderingTable c.ordering)),
   ("logging", .table .header (loggingTable c.logging))]

/-- The root table of a configuration, if its paths are texts. -/
def toTable? (c : Config) : Option TomlTable := do
  return rootTable c (← tlsTable? c.server.tls) (← ofPath? c.ledger.dataDir)

/-- The document of a configuration, if its paths are texts and its counts fit 64 bits with sign. -/
def toToml (c : Config) : Option String := do Toml.write? (← toTable? c)

end Config

end OrderingService
