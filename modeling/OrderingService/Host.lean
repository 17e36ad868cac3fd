import OrderingService.FileTree
import OrderingService.Net.SocketAddress

/-!
# Hosts

What starting the service asks of the machine it runs on. The steps of a start are written over
these operations alone, so they run on a real machine as well as on a value that stands for one.

## Main definitions

* `UserDirectories` — where the user's own files are
* `Host` — the operations
* `Host.undecoded` — the refusal of every key pair
* `Machine` — files, and the addresses that are in use
* `Machine.host` — the operations on a machine
-/

namespace OrderingService

/-- The directories of the user, as far as there are any. -/
structure UserDirectories where
  /-- The home directory. -/
  home : Option Path := none
  /-- The directory of configurations. -/
  configurations : Option Path := none
  deriving DecidableEq, Repr

/-- What starting the service asks of a machine. -/
structure Host (m : Type → Type) where
  /-- The directories of the user. -/
  user : UserDirectories
  /-- The content of a file. -/
  readFile : Path → m (Except SystemError Bytes)
  /-- Whether a path names a file. -/
  isFile : Path → m Bool
  /-- Make a directory and those above it that are missing. -/
  createDirAll : Path → m (Except SystemError Unit)
  /-- Make an identity of the contents of a certificate and a key; or else the causes of the
  refusal, outermost first. -/
  identity : Bytes → Bytes → Except (List String) Unit
  /-- Listen on an address until told to stop. -/
  serve : SocketAddress → m (Except SystemError Unit)

/-- Refuse every key pair, where there is no decoder for private keys. -/
def Host.undecoded (_cert _key : Bytes) : Except (List String) Unit :=
  .error ["Error parsing TLS private key - no RSA or PKCS8-encoded keys found."]

/-- A machine as a value. -/
structure Machine where
  /-- Its files and directories. -/
  files : FileTree := {}
  /-- The addresses, as written, that somebody listens on already. -/
  inUse : List String := []
  deriving Repr

/-- The operations on a machine as a value, for a user with some directories. Listening ends at
once. -/
def Machine.host (user : UserDirectories := {}) : Host (StateM Machine) where
  user
  readFile path := do return (← get).files.readFile path
  isFile path := do return (← get).files.isFile path
  createDirAll path := do
    let machine ← get
    let (files, result) := machine.files.createDirAll path
    set { machine with files }
    return result
  identity := Host.undecoded
  serve address := do
    if (← get).inUse.contains address.toText then return .error .addressInUse
    return .ok ()

end OrderingService
