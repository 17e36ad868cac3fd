import OrderingService.CommandLine
import OrderingService.Logging.Filter
import OrderingService.Sequencer.Basic
import OrderingService.Tls

/-!
# Starting the service

The service starts in stages, each with an exit code of its own. The first failing stage ends the
process with its code and one line that tells the stage and the chain of causes.

## Main definitions

* `Stage` — the stages, with their codes and texts
* `StageError` — a failure tagged with its stage
* `Startup.run` — the life of the process
-/

namespace OrderingService

/-- A stage in the life of the process. -/
inductive Stage where
  /-- Load and validate the configuration. -/
  | configuration
  /-- Set up the log. -/
  | logger
  /-- Make the data directory, the sequencer and the service. -/
  | creation
  /-- Bind the address and serve. -/
  | serving
  /-- Stop the sequencer. -/
  | shutdown
  deriving DecidableEq, Repr

namespace Stage

/-- The exit code when a stage fails. -/
def code : Stage → Nat
  | configuration => 3
  | logger => 4
  | creation => 6
  | serving => 7
  | shutdown => 9

/-- What is said when a stage fails. -/
def text : Stage → String
  | configuration => "failed to load configuration"
  | logger => "failed to create logger"
  | creation => "failed to create server"
  | serving => "failed to start server"
  | shutdown => "failed to shut down"

end Stage

/-- Why a stage failed. -/
inductive StageCause where
  /-- An operation of the service failed. -/
  | service (error : ServiceError)
  /-- The data directory could not be made. -/
  | dataDirectory (path : Path) (error : SystemError)
  /-- The address could not be bound. -/
  | listener (error : SystemError)
  deriving DecidableEq, Repr

/-- The texts of a cause and of the causes below it. -/
def StageCause.chain : StageCause → String
  | service error => error.chain
  | dataDirectory path error =>
    "Failed to create data directory " ++ path.display ++ ": " ++ error.message
  | listener error =>
    ": ".intercalate
      [ServiceError.transportText, "error creating server listener", error.message, error.message]

/-- A failure tagged with its stage. -/
structure StageError where
  stage : Stage
  cause : StageCause
  deriving DecidableEq, Repr

/-- The text of a failed stage. -/
def StageError.message (e : StageError) : String := e.stage.text ++ ": " ++ e.cause.chain

namespace Startup

/-- How the process ends. -/
inductive Outcome where
  /-- The words were no command line, or asked for help or the version. -/
  | usage (error : UsageError)
  /-- A stage failed. -/
  | failed (error : StageError)
  /-- More memory was asked for than can be addressed. -/
  | crashed
  /-- The process stopped as told. -/
  | stopped
  deriving DecidableEq, Repr

namespace Outcome

/-- The exit code. -/
def exitCode : Outcome → Nat
  | usage .displayHelp | usage .displayVersion => 0
  | usage _ => 2
  | failed e => e.stage.code
  | crashed => 101
  | stopped => 0

/-- What is written to standard output. -/
def output : Outcome → String
  | usage .displayHelp => UsageError.helpText
  | usage .displayVersion => UsageError.versionText
  | _ => ""

/-- The line that the service writes to the error output when it fails. It says nothing about a
crash, which ends the process on the spot. -/
def errorLine? : Outcome → Option String
  | failed e => some ("orderer-server: " ++ e.message)
  | crashed => some ""
  | usage _ | stopped => none

end Outcome

variable {m : Type → Type} [Monad m]

/-- A step of a stage; its error ends the process. -/
def step {α ε : Type} (stage : Stage) (cause : ε → StageCause) (x : m (Except ε α)) :
    ExceptT Outcome m α :=
  ExceptT.mk do return (← x).mapError fun e => .failed ⟨stage, cause e⟩

/-- A step that asks nothing of the machine. -/
def pureStep {α : Type} (stage : Stage) (x : Except ServiceError α) : ExceptT Outcome m α :=
  step stage .service (pure x)

/-- A fresh sequencer with these settings. -/
def sequencer (c : SequencerConfig) : ExceptT Outcome m Sequencer :=
  match Sequencer.new? c with
  | some s => return s
  | none => throw .crashed

/-- The stages in order. -/
def stages (host : Host m) (env : Environment) (l : CommandLine) : ExceptT Outcome m Unit := do
  let (config, _) ← step .configuration .service (l.load host env)
  pureStep .logger (LogFilter.check (env "RUST_LOG") config.logging)
  step .creation (.dataDirectory config.ledger.dataDir) (host.createDirAll config.ledger.dataDir)
  let sequencer ← sequencer (← pureStep .creation (SequencerConfig.ofOrdering config.ordering))
  let address ← pureStep .creation config.server.socketAddress
  step .creation .service (Tls.prepare host config.server.tls)
  step .serving .listener (host.serve address)
  let _ ← pureStep .shutdown (sequencer.handle 0 .shutdown).1

/-- The life of the process from its arguments on. -/
def run (host : Host m) (env : Environment) (arguments : List Bytes) : m Outcome :=
  match CommandLine.parse arguments with
  | .error e => return .usage e
  | .ok l => do
    match ← (stages host env l).run with
    | .error outcome => return outcome
    | .ok () => return .stopped

end Startup

end OrderingService
