import OrderingService.Config.Basic
import OrderingService.Host

/-!
# Transport encryption

A key pair is two files. Either both are set or none is; their contents are read when the service
is made, and an identity is made of them.
-/

namespace OrderingService

namespace Tls

variable {m : Type → Type} [Monad m]

/-- The content of a file of the pair. -/
def readFile (host : Host m) (path : Path) : m (Except ServiceError Bytes) := do
  return (← host.readFile path).mapError fun e =>
    .config ("Failed to read " ++ path.display ++ ": " ++ e.message)

/-- The contents of the certificate and the key, if encryption is on. -/
def load (host : Host m) (c : TlsConfig) : m (Except ServiceError (Option (Bytes × Bytes))) :=
  match c.certFile, c.keyFile with
  | some certFile, some keyFile => ExceptT.run do
    let cert ← ExceptT.mk (readFile host certFile)
    let key ← ExceptT.mk (readFile host keyFile)
    return some (cert, key)
  | none, none => return .ok none
  | _, _ => return .error (.config TlsConfig.unpairedText)

/-- Set up encryption as configured. -/
def prepare (host : Host m) (c : TlsConfig) : m (Except ServiceError Unit) := do
  return match ← load host c with
    | .ok none => .ok ()
    | .ok (some (cert, key)) => (host.identity cert key).mapError .transport
    | .error e => .error e

end Tls

end OrderingService
