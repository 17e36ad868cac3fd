import OrderingService.Bytes

/-!
# Paths

Paths are bytes with slashes. Most of them are texts, but the system takes any bytes, and only what
has to be a text makes a difference between the two. Joining and taking the parent keep the bytes as
they are wherever they can; comparing looks at the components only, so that repeated slashes, a
trailing slash and single dots after the start make no difference.

## Main definitions

* `Path` — the bytes of a path
* `Path.ofText`, `Path.text?`, `Path.display` — the path of a text, the text of a path that has one,
  and the text as which any path is shown
* `Path.isAbsolute`, `Path.join`, `Path.resolve`
* `Path.parent?` — the path without its last component
* `Path.components`, `Path.same`
-/

namespace OrderingService

/-- A path. -/
structure Path where
  bytes : Bytes
  deriving DecidableEq, Repr

namespace Path

/-! ### Paths and texts -/

/-- The path that a text is. -/
def ofText (text : String) : Path := ⟨Bytes.ofText text⟩

/-- The text that a path is, if it is one. -/
def text? (path : Path) : Option String := Bytes.toText? path.bytes

/-- The text as which a path is shown. -/
def display (path : Path) : String := Bytes.display path.bytes

@[simp]
theorem text?_ofText (text : String) : (ofText text).text? = some text := Bytes.toText?_ofText text

theorem ofText_of_text? {path : Path} {text : String} (h : path.text? = some text) :
    ofText text = path :=
  congrArg Path.mk (Bytes.ofText_of_toText? h)

@[simp]
theorem display_ofText (text : String) : (ofText text).display = text := Bytes.display_ofText text

/-! ### Joining -/

/-- The byte between components. -/
def slash : UInt8 := 0x2f

/-- The byte that, alone, names the directory itself. -/
def dot : UInt8 := 0x2e

/-- Whether a path starts at the root. -/
def isAbsolute (path : Path) : Bool := path.bytes.head? == some slash

/-- A path taken from a base: an absolute path stands for itself, a relative one is appended with
one slash, unless the base is empty or ends in one. -/
def join (base path : Path) : Path :=
  if path.isAbsolute then path
  else if base.bytes = [] ∨ base.bytes.getLast? = some slash then ⟨base.bytes ++ path.bytes⟩
  else ⟨base.bytes ++ slash :: path.bytes⟩

/-- A path resolved against a base. Absolute paths stay. -/
def resolve (base path : Path) : Path := if path.isAbsolute then path else join base path

/-! ### Components -/

/-- The length of what comes before the components: the slash of an absolute path, or a leading
dot that is a component of its own. -/
def startLength : Bytes → Nat
  | [] => 0
  | first :: rest =>
    if first = slash ∨ first = dot ∧ (rest = [] ∨ rest.head? = some slash) then 1 else 0

/-- The last component after the start, and how many bytes it takes with its slash. -/
def lastPart (path : Bytes) : Bytes × Nat :=
  let body := path.drop (startLength path)
  let part := (body.reverse.takeWhile (· != slash)).reverse
  (part, part.length + if part.length < body.length then 1 else 0)

/-- Drop empty and single-dot components from the end, `bound` at most. -/
def trimEnd : (bound : Nat) → Bytes → Bytes
  | 0, path => path
  | bound + 1, path =>
    if path.length ≤ startLength path then path
    else
      let (part, taken) := lastPart path
      if part = [] ∨ part = [dot] then trimEnd bound (path.take (path.length - taken)) else path

/-- The path without its last component. The root and the empty path have none. -/
def parent? (path : Path) : Option Path :=
  let trimmed := trimEnd path.bytes.length path.bytes
  if trimmed.length ≤ startLength trimmed then
    if trimmed.head? = some dot then some ⟨[]⟩ else none
  else
    let shorter := trimmed.take (trimmed.length - (lastPart trimmed).2)
    some ⟨trimEnd path.bytes.length shorter⟩

/-- What stands before, between and after the slashes. -/
def parts (path : Path) : List Bytes := path.bytes.splitOn slash

/-- Whether a path is absolute, whether it starts with a dot that counts as a component, and its
other components. -/
def components (path : Path) : Bool × Bool × List Bytes :=
  (path.isAbsolute, startLength path.bytes = 1 && !path.isAbsolute,
    path.parts.filter fun part => part ≠ [] && part ≠ [dot])

/-- Whether two paths have the same components. -/
def same (p q : Path) : Bool := components p == components q

end Path

end OrderingService
