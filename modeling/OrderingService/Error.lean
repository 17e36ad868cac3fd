import OrderingService.Merkle.Error

/-!
# Errors of the service

An error of the service names its layer and prints the text of its cause behind that name. Errors
that wrap another error also have a source, whose text follows when a chain is printed.
-/

namespace OrderingService

/-- Why an operation of the service failed. -/
inductive ServiceError where
  /-- A tree or a digest could not be made. -/
  | merkle (cause : MerkleError)
  /-- The sequencer is gone. -/
  | concurrency (text : String)
  /-- A setting is wrong. -/
  | config (text : String)
  /-- The operating system refused. -/
  | system (text : String)
  /-- The transport could not be set up; the causes below it, outermost first. -/
  | transport (causes : List String)
  /-- The listen address has no address syntax. -/
  | addressSyntax
  deriving DecidableEq, Repr

namespace ServiceError

/-- The text of a transport error itself. -/
def transportText : String := "transport error"

/-- The text of a wrong listen address. -/
def addressText : String := "invalid socket address syntax"

/-- The text of an error. -/
def message : ServiceError → String
  | merkle cause => "Merkle error: " ++ cause.message
  | concurrency text => "Concurrency error: " ++ text
  | config text => "Configuration error: " ++ text
  | system text => "IO error: " ++ text
  | transport _ => "Transport error: " ++ transportText
  | addressSyntax => "Invalid address: " ++ addressText

/-- The texts of the sources below an error, outermost first. -/
def sources : ServiceError → List String
  | merkle cause => [cause.message]
  | concurrency _ | config _ => []
  | system text => [text]
  | transport causes => transportText :: causes
  | addressSyntax => [addressText]

/-- The text of an error followed by those of its sources. -/
def chain (e : ServiceError) : String :=
  ": ".intercalate (e.message :: e.sources)

end ServiceError

end OrderingService
