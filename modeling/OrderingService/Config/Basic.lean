import OrderingService.Error
import OrderingService.Hashing.Algorithm
import OrderingService.Net.SocketAddress
import OrderingService.Path

/-!
# Configuration

The settings of the service in four sections, their defaults, and the checks a service needs.
Limits, counts and times are natural numbers; the sources they are read from keep them below
`2 ^ 64`.

## Main definitions

* `Config` and its sections — the settings with their defaults
* `Config.resolvePaths` — relative paths taken from a directory
* `Config.validate` — the settings a service can run with
-/

namespace OrderingService

/-- The files of a key pair; encryption is on when both are set. -/
structure TlsConfig where
  /-- The certificate chain. -/
  certFile : Option Path := none
  /-- The private key. -/
  keyFile : Option Path := none
  deriving DecidableEq, Repr

/-- Settings of the server. -/
structure ServerConfig where
  /-- The address to listen on. -/
  listenAddress : String := "0.0.0.0:9443"
  /-- The connection timeout in seconds. -/
  connTimeoutSecs : Nat := 30
  /-- The largest message accepted from a client, in bytes. -/
  maxRecvMessageSize : Nat := 104857600
  /-- The largest message sent to a client, in bytes. -/
  maxSendMessageSize : Nat := 104857600
  /-- The key pair. -/
  tls : TlsConfig := {}
  deriving DecidableEq, Repr

/-- Settings of the ledger. -/
structure LedgerConfig where
  /-- The data directory. -/
  dataDir : Path := .ofText "data"
  deriving DecidableEq, Repr

/-- Settings of batching. -/
structure OrderingConfig where
  /-- The number of transactions that fills a batch. -/
  maxBatchSize : Nat := 100
  /-- How long a batch stays open, in milliseconds. -/
  batchTimeoutMs : Nat := 200
  /-- The name of the hash algorithm of batch trees. -/
  hashAlgorithm : String := "sha256"
  /-- The capacity of the sequencer's mailbox. -/
  mailboxCapacity : Nat := 1000
  /-- The number of ordered transactions kept for slow subscribers. -/
  subscriberBuffer : Nat := 1024
  deriving DecidableEq, Repr

/-- The form of log lines. -/
inductive LogFormat where
  /-- Lines for people. -/
  | text
  /-- One JSON object per line. -/
  | json
  deriving DecidableEq, Repr

/-- Settings of logging. -/
structure LoggingConfig where
  /-- The filter directives. -/
  level : String := "info"
  /-- The form of log lines. -/
  format : LogFormat := .text
  deriving DecidableEq, Repr

/-- The settings of the service. -/
structure Config where
  server : ServerConfig := {}
  ledger : LedgerConfig := {}
  ordering : OrderingConfig := {}
  logging : LoggingConfig := {}
  deriving DecidableEq, Repr

namespace LogFormat

/-- The name of a format. -/
def name : LogFormat → String
  | text => "text"
  | json => "json"

/-- The format with exactly this name. -/
def ofExactName? (name : String) : Option LogFormat :=
  [text, json].find? fun f => f.name == name

/-- The format with this name, up to ASCII case. -/
def ofName (name : String) : Except ServiceError LogFormat :=
  let lower := name.map Char.toLower
  match ofExactName? lower with
  | some f => .ok f
  | none => .error (.config ("Unknown log format: " ++ lower))

end LogFormat

namespace TlsConfig

/-- Whether encryption is on. -/
def isEnabled (c : TlsConfig) : Bool := c.certFile.isSome && c.keyFile.isSome

/-- The text of the error for half a key pair. -/
def unpairedText : String := "tls requires both cert_file and key_file"

end TlsConfig

namespace ServerConfig

/-- The listen address, read. -/
def socketAddress (c : ServerConfig) : Except ServiceError SocketAddress :=
  match SocketAddress.ofText? c.listenAddress with
  | some address => .ok address
  | none => .error .addressSyntax

/-- The connection timeout in milliseconds. -/
def connTimeoutMs (c : ServerConfig) : Nat := c.connTimeoutSecs * 1000

end ServerConfig

/-- The strategy of the configured hash algorithm. -/
def OrderingConfig.hashStrategy (c : OrderingConfig) : Except ServiceError HashStrategy :=
  (HashStrategy.ofName c.hashAlgorithm).mapError .merkle

namespace Config

/-- Take relative paths from a directory. -/
def resolvePaths (c : Config) (base : Path) : Config :=
  { c with
    ledger.dataDir := Path.resolve base c.ledger.dataDir
    server.tls.certFile := c.server.tls.certFile.map (Path.resolve base)
    server.tls.keyFile := c.server.tls.keyFile.map (Path.resolve base) }

/-- Refuse settings a service cannot run with. The listen address is looked at first, then the
hash algorithm, the limits and the key pair. -/
def validate (c : Config) : Except ServiceError Unit := do
  let _ ← c.server.socketAddress
  let _ ← c.ordering.hashStrategy
  if c.ordering.maxBatchSize = 0 then
    throw (.config "max_batch_size must be positive")
  if c.ordering.batchTimeoutMs = 0 then
    throw (.config "batch_timeout_ms must be positive")
  if c.ordering.mailboxCapacity = 0 ∨ c.ordering.subscriberBuffer = 0 then
    throw (.config "mailbox_capacity and subscriber_buffer must be positive")
  if c.server.tls.certFile.isSome ≠ c.server.tls.keyFile.isSome then
    throw (.config TlsConfig.unpairedText)

end Config

end OrderingService
