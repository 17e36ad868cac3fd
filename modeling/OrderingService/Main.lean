import OrderingService.Startup

/-!
# The program

The outer layer: the operations of the real machine, the arguments and the environment. Files are
opened by paths that are texts. Serving waits until standard input ends.
-/

namespace OrderingService

/-- The refusal behind an error of the real machine. -/
def SystemError.ofRefusal : IO.Error → SystemError
  | .noFileOrDirectory .. => .notFound
  | .alreadyExists .. => .alreadyExists
  | .inappropriateType _ 20 _ => .notDirectory
  | .inappropriateType _ 21 _ => .isDirectory
  | .invalidArgument _ 36 _ => .nameTooLong
  | e => .other (toString e)

/-- Run an action of the real machine; a failure is a value. -/
def SystemError.guarded {α : Type} (x : IO α) : IO (Except SystemError α) := do
  try return .ok (← x) catch e => return .error (.ofRefusal e)

/-- Wait until standard input ends. -/
partial def waitForEnd (input : IO.FS.Stream) : IO Unit := do
  unless (← input.getLine).isEmpty do waitForEnd input

/-- The text by which a path is opened. -/
def Path.opened (path : Path) : IO String :=
  match path.text? with
  | some text => return text
  | none => throw (IO.userError "path is no text")

/-- The directories of the user, as far as the environment names them. -/
def realUser : IO UserDirectories := do
  let named (name : String) := return ((← IO.getEnv name).filter (· ≠ "")).map Path.ofText
  let home ← named "HOME"
  let configurations := (← named "XDG_CONFIG_HOME").filter Path.isAbsolute
  return { home, configurations := configurations <|> home.map (Path.join · (.ofText ".config")) }

/-- The operations of the real machine. -/
def realHost (user : UserDirectories) : Host IO where
  user
  readFile path := SystemError.guarded do return (← IO.FS.readBinFile (← path.opened)).data.toList
  isFile path := do
    match ← SystemError.guarded do IO.FS.readBinFile (← path.opened) with
    | .ok _ => return true
    | .error _ => return false
  createDirAll path := SystemError.guarded do IO.FS.createDirAll (← path.opened)
  identity := Host.undecoded
  serve _ := SystemError.guarded do waitForEnd (← IO.getStdin)

/-- The environment of the process, for the variables that are looked at. -/
def realEnvironment : IO Environment := do
  let names := "RUST_LOG" :: Config.overrides.map (·.name)
  let values ← names.mapM fun name => do return (name, ← IO.getEnv name)
  return fun name => (values.lookup name).join

end OrderingService

/-- Start the service with the arguments of the command line. -/
def main (arguments : List String) : IO UInt32 := do
  let host := OrderingService.realHost (← OrderingService.realUser)
  let outcome ← OrderingService.Startup.run host (← OrderingService.realEnvironment)
    (arguments.map OrderingService.Bytes.ofText)
  IO.print outcome.output
  if let some line := outcome.errorLine?.filter (· ≠ "") then IO.eprintln line
  return UInt32.ofNat outcome.exitCode
