import OrderingService.Config.Environment
import OrderingService.Config.Toml
import OrderingService.Host

/-!
# Loading the configuration

Settings come in layers: defaults, then a file, then the environment. The file is the one asked
for, or else the first that exists among the places where one is looked for. Relative paths in a
file are taken from the file's directory; values from the environment are kept as they are.

## Main definitions

* `Config.searchPaths` — where a file is looked for, first choice first
* `Config.ofFile` — the settings of one file
* `Config.load` — defaults, file and environment together
-/

namespace OrderingService

namespace Config

/-- The name of a configuration file. -/
def fileName : Path := .ofText "orderer.toml"

/-- The configuration file under a directory of configurations. -/
def fileUnder (directory : Path) : Path := (directory.join (.ofText "orderer")).join fileName

/-- Where a configuration file is looked for: the working directory, the user's directory of
configurations, and the usual one in the home directory if it is another. -/
def searchPaths (user : UserDirectories) : List Path :=
  let first := fileName :: (user.configurations.map fileUnder).toList
  let usual := user.home.map fun home => fileUnder (home.join (.ofText ".config"))
  first ++ usual.toList.filter fun path => !first.any path.same

/-- The directory of a file. -/
def directoryOf (path : Path) : Path := path.parent?.getD (.ofText ".")

/-- The settings of a file's content, its relative paths taken from the directory of `path`. -/
def ofContent (path : Path) (content : Bytes) : Except ServiceError Config := do
  let some text := Bytes.toText? content
    | throw (.system "stream did not contain valid UTF-8")
  return (← Config.ofToml text).resolvePaths (directoryOf path)

/-- The settings of a file. -/
def ofFile {m : Type → Type} [Monad m] (host : Host m) (path : Path) :
    m (Except ServiceError Config) := do
  match ← host.readFile path with
  | .ok content => return ofContent path content
  | .error e => return .error (.system e.message)

/-- The first of some paths that names a file. -/
def firstFile? {m : Type → Type} [Monad m] (host : Host m) : List Path → m (Option Path)
  | [] => return none
  | path :: rest => do
    if ← host.isFile path then return some path else firstFile? host rest

/-- The defaults, then the file asked for or found, then the environment; also the file that was
loaded. -/
def load {m : Type → Type} [Monad m] (host : Host m) (env : Environment)
    (explicit : Option Path) : m (Except ServiceError (Config × Option Path)) := do
  let path ← match explicit with
    | some path => pure (some path)
    | none => firstFile? host (searchPaths host.user)
  let config ← match path with
    | some path => ofFile host path
    | none => pure (.ok {})
  return do
    let (config, result) := (← config).applyEnvironment env
    result
    return (config, path)

end Config

end OrderingService
