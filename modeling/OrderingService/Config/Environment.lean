import OrderingService.Config.Basic
import OrderingService.PowerOfTwo
import OrderingService.Text.Digits

/-!
# Settings from the environment

Nine environment variables override settings. They are applied in a fixed order, each to its own
field and exactly as written; the first one that cannot be read stops the rest, and those before it
stay applied.

## Main definitions

* `Environment` — the values of variables by name
* `Config.overrides` — the variables with what each one sets
* `Config.applyEnvironment` — a configuration with the variables applied
-/

namespace OrderingService

/-- The values of environment variables by name; `none` where a variable is not set or is no
text. -/
abbrev Environment := String → Option String

namespace Config

/-- An environment variable and the setting that its value makes. -/
structure Override where
  /-- The name of the variable. -/
  name : String
  /-- The configuration with a value applied. -/
  set : String → Config → Except ServiceError Config

/-- A number below `2 ^ 64` in decimal digits, after at most one plus sign. -/
def wordOfText? (text : String) : Option Nat :=
  let digits := match text.toList with
    | '+' :: rest => rest
    | cs => cs
  if digits ≠ [] ∧ digits.all (Text.isDigit 10) ∧ Text.number 10 digits < 2 ^ 64 then
    some (Text.number 10 digits)
  else none

/-- A variable whose value is taken as it is. -/
def Override.text (name : String) (set : String → Config → Config) : Override :=
  ⟨name, fun value c => .ok (set value c)⟩

/-- A variable whose value has to be a number. -/
def Override.number (name : String) (set : Nat → Config → Config) : Override :=
  ⟨name, fun value c =>
    match wordOfText? value with
    | some n => .ok (set n c)
    | none => .error (.config ("Invalid value for " ++ name ++ ": " ++ value))⟩

/-- The variables in the order in which they are applied. -/
def overrides : List Override := [
  .text "ORDERER_LISTEN_ADDRESS" fun value c => { c with server.listenAddress := value },
  .text "ORDERER_TLS_CERT_FILE" fun value c =>
    { c with server.tls.certFile := some (.ofText value) },
  .text "ORDERER_TLS_KEY_FILE" fun value c =>
    { c with server.tls.keyFile := some (.ofText value) },
  .text "ORDERER_DATA_DIR" fun value c => { c with ledger.dataDir := .ofText value },
  .number "ORDERER_MAX_BATCH_SIZE" fun n c => { c with ordering.maxBatchSize := n },
  .number "ORDERER_BATCH_TIMEOUT_MS" fun n c => { c with ordering.batchTimeoutMs := n },
  .text "ORDERER_HASH_ALGORITHM" fun value c => { c with ordering.hashAlgorithm := value },
  .text "ORDERER_LOG_LEVEL" fun value c => { c with logging.level := value },
  ⟨"ORDERER_LOG_FORMAT", fun value c => do
    return { c with logging.format := ← LogFormat.ofName value }⟩]

/-- Apply overrides in order, up to the first whose value cannot be read. -/
def applyOverrides (env : Environment) : List Override → Config → Config × Except ServiceError Unit
  | [], c => (c, .ok ())
  | o :: rest, c =>
    match env o.name with
    | none => applyOverrides env rest c
    | some value =>
      match o.set value c with
      | .ok c => applyOverrides env rest c
      | .error e => (c, .error e)

/-- Apply the variables that are set. When one cannot be read, the configuration shows those
applied before it. -/
def applyEnvironment (c : Config) (env : Environment) : Config × Except ServiceError Unit :=
  applyOverrides env overrides c

end Config

end OrderingService
