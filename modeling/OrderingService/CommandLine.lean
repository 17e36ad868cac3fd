import OrderingService.Config.Load

/-!
# The command line

Seven flags take a value, as the next word or after an equals sign; `-c` also takes it without a
space. The words are read from left to right and the first problem wins. A flag's value is looked
at only when the next flag is met or the words end, so a word that cannot be read at all is a
problem before the value that stands in front of it.

Words are bytes. A path is taken as it is; every other value has to be a text.

## Main definitions

* `Flag` — the flags
* `CommandLine` — the flags given, with their values
* `CommandLine.parse` — the flags of a list of words
* `CommandLine.apply` — a configuration with the flags applied
* `CommandLine.load` — the configuration of all layers, validated
-/

namespace OrderingService

/-- A flag that takes a value. -/
inductive Flag where
  | config
  | listenAddress
  | tlsCertFile
  | tlsPrivateKeyFile
  | dataDir
  | logLevel
  | logFormat
  deriving DecidableEq, Repr

/-- Why words are no command line, or what they ask for instead. -/
inductive UsageError where
  | unknownArgument
  | invalidValue
  /-- A value that has to be a text is none. -/
  | invalidUtf8
  | argumentConflict
  | tooManyValues
  | displayHelp
  | displayVersion
  deriving DecidableEq, Repr

/-- What is printed when the version is asked for. -/
def UsageError.versionText : String := "orderer-server 0.1.0\n"

/-- What is printed when help is asked for. -/
def UsageError.helpText : String :=
  "Orders transactions and streams their ids to subscribers\n\n" ++
  "Usage: orderer-server [OPTIONS]\n\n" ++
  "Options:\n" ++
  "  -c, --config <FILE>\n" ++
  "      --listen-address <ADDR>\n" ++
  "      --tls-cert-file <FILE>\n" ++
  "      --tls-private-key-file <FILE>\n" ++
  "      --data-dir <DIR>\n" ++
  "      --log-level <FILTER>\n" ++
  "      --log-format <LOG_FORMAT>\n" ++
  "  -h, --help\n" ++
  "  -V, --version\n"

namespace Flag

/-- All flags. -/
def all : List Flag :=
  [config, listenAddress, tlsCertFile, tlsPrivateKeyFile, dataDir, logLevel, logFormat]

/-- The name of a flag after its two hyphens. -/
def name : Flag → String
  | config => "config"
  | listenAddress => "listen-address"
  | tlsCertFile => "tls-cert-file"
  | tlsPrivateKeyFile => "tls-private-key-file"
  | dataDir => "data-dir"
  | logLevel => "log-level"
  | logFormat => "log-format"

/-- The flag with a name. -/
def ofName? (name : Bytes) : Option Flag := all.find? fun flag => Bytes.ofText flag.name == name

end Flag

/-- The flags given on a command line. -/
structure CommandLine where
  /-- The configuration file. -/
  config : Option Path := none
  /-- The address to listen on. -/
  listenAddress : Option String := none
  /-- The certificate chain. -/
  tlsCertFile : Option Path := none
  /-- The private key. -/
  tlsPrivateKeyFile : Option Path := none
  /-- The data directory. -/
  dataDir : Option Path := none
  /-- The filter directives of the log. -/
  logLevel : Option String := none
  /-- The form of log lines. -/
  logFormat : Option LogFormat := none
  deriving DecidableEq, Repr

namespace CommandLine

/-! ### Reading -/

/-- A path as a value: any bytes, but not none at all. -/
def pathOf (value : Bytes) : Except UsageError Path :=
  if value = [] then .error .invalidValue else .ok ⟨value⟩

/-- A text as a value. -/
def textOf (value : Bytes) : Except UsageError String :=
  match Bytes.toText? value with
  | some text => .ok text
  | none => .error .invalidUtf8

/-- A log format as a value. -/
def formatOf (value : Bytes) : Except UsageError LogFormat := do
  match LogFormat.ofExactName? (← textOf value) with
  | some format => return format
  | none => throw .invalidValue

/-- What a flag that is given with a value says, if it said nothing before. -/
def once {α : Type} (said : Option α) (read : Bytes → Except UsageError α) (value : Bytes) :
    Except UsageError (Option α) := do
  if said.isSome then throw .argumentConflict
  return some (← read value)

/-- Add a flag with its value, if it has one. A missing value is noticed before a repeated flag,
and that before a wrong value. -/
def give (l : CommandLine) (flag : Flag) : Option Bytes → Except UsageError CommandLine
  | none => throw .invalidValue
  | some value => do
    match flag with
    | .config => return { l with config := ← once l.config pathOf value }
    | .listenAddress => return { l with listenAddress := ← once l.listenAddress textOf value }
    | .tlsCertFile => return { l with tlsCertFile := ← once l.tlsCertFile pathOf value }
    | .tlsPrivateKeyFile =>
      return { l with tlsPrivateKeyFile := ← once l.tlsPrivateKeyFile pathOf value }
    | .dataDir => return { l with dataDir := ← once l.dataDir pathOf value }
    | .logLevel => return { l with logLevel := ← once l.logLevel textOf value }
    | .logFormat => return { l with logFormat := ← once l.logFormat formatOf value }

/-- How far a command line has been read. -/
structure Reading where
  /-- The flags whose values were looked at. -/
  settled : CommandLine := {}
  /-- The last flag that takes its value from the next word, with that word once it is read. -/
  waiting : Option (Flag × Option Bytes) := none
  /-- Whether a word `--` was read; nothing may follow it. -/
  closed : Bool := false
  deriving DecidableEq, Repr

namespace Reading

/-- Look at the value of the flag that waits. -/
def settle (r : Reading) : Except UsageError CommandLine :=
  match r.waiting with
  | none => .ok r.settled
  | some (flag, value) => r.settled.give flag value

/-- Read a flag, with its value if that is part of the same word. -/
def flag (r : Reading) (flag : Flag) (value : Option Bytes) : Except UsageError Reading := do
  let settled ← r.settle
  match value with
  | some value => return { settled := ← settled.give flag (some value) }
  | none => return { settled, waiting := some (flag, none) }

/-- Stop for what a switch asks for. -/
def stop (r : Reading) (request : UsageError) : Except UsageError Reading := do
  let _ ← r.settle
  throw request

/-- Read a name after two hyphens, with the value after its equals sign. -/
def long (r : Reading) (name : Bytes) (value : Option Bytes) : Except UsageError Reading :=
  let switch (request : UsageError) :=
    if value.isSome then .error .tooManyValues else r.stop request
  if name = Bytes.ofText "help" then switch .displayHelp
  else if name = Bytes.ofText "version" then switch .displayVersion
  else match Flag.ofName? name with
    | some flag => r.flag flag value
    | none => .error .unknownArgument

/-- The byte before a flag. -/
def hyphen : UInt8 := 0x2d

/-- The byte between a flag and its value. -/
def equals : UInt8 := 0x3d

/-- Read a letter after one hyphen, with what follows it in the same word. -/
def short (r : Reading) (letter : UInt8) (rest : Bytes) : Except UsageError Reading :=
  if [letter] = Bytes.ofText "c" then
    let value := if rest.head? = some equals then rest.tail else rest
    r.flag .config (if rest = [] then none else some value)
  else if [letter] = Bytes.ofText "h" then r.stop .displayHelp
  else if [letter] = Bytes.ofText "V" then r.stop .displayVersion
  else .error .unknownArgument

/-- Read a word that is no flag. -/
def plain (r : Reading) (w : Bytes) : Except UsageError Reading :=
  match r.waiting with
  | some (flag, none) => .ok { r with waiting := some (flag, some w) }
  | _ => .error .unknownArgument

/-- Read a word that starts with two hyphens, from there on. Nothing may follow if that is all. -/
def double (r : Reading) (rest : Bytes) : Except UsageError Reading :=
  if rest = [] then .ok { r with closed := true }
  else
    let value := match rest.dropWhile (· ≠ equals) with
      | _ :: value => some value
      | [] => none
    r.long (rest.takeWhile (· ≠ equals)) value

/-- Read a word. A single hyphen is an ordinary word. -/
def word (r : Reading) (w : Bytes) : Except UsageError Reading :=
  if r.closed then .error .unknownArgument
  else match w with
    | first :: second :: rest =>
      if first ≠ hyphen then r.plain w
      else if second = hyphen then r.double rest
      else r.short second rest
    | _ => r.plain w

end Reading

/-- The flags of a list of words. -/
def parse (words : List Bytes) : Except UsageError CommandLine := do
  (← words.foldlM Reading.word {}).settle

/-! ### Use -/

/-- A configuration with the flags applied. -/
def apply (l : CommandLine) (c : Config) : Config where
  server := { c.server with
    listenAddress := l.listenAddress.getD c.server.listenAddress
    tls.certFile := l.tlsCertFile.or c.server.tls.certFile
    tls.keyFile := l.tlsPrivateKeyFile.or c.server.tls.keyFile }
  ledger.dataDir := l.dataDir.getD c.ledger.dataDir
  ordering := c.ordering
  logging.level := l.logLevel.getD c.logging.level
  logging.format := l.logFormat.getD c.logging.format

/-- The configuration of defaults, file, environment and flags, validated; also the file that was
loaded. -/
def load {m : Type → Type} [Monad m] (host : Host m) (env : Environment) (l : CommandLine) :
    m (Except ServiceError (Config × Option Path)) := do
  let loaded ← Config.load host env l.config
  return do
    let (config, path) ← loaded
    let config := l.apply config
    config.validate
    return (config, path)

end CommandLine

end OrderingService
