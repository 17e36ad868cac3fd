import OrderingService.Text.Blank
import OrderingService.Text.Digits

/-!
# Elements of patterns

A pattern is a regular expression. Its smallest elements are single characters, sets of characters
and positions in the text, and the flags in force decide how each is written and which are there.
Tables of Unicode are not at hand, so while a pattern speaks of Unicode characters it has neither
letter case nor classes nor word boundaries; while it speaks of bytes it has them for ASCII, but
no set may hold a byte beyond ASCII, for it would match a part of a character.

## Main definitions

* `Pattern.Flags` — the flags in force
* `Pattern.Element`, `Pattern.escape` — what follows a backslash
* `Pattern.skip` — what a verbose pattern leaves out
-/

namespace OrderingService

namespace Pattern

/-- The flags that decide how a pattern is read. -/
structure Flags where
  ignoreCase : Bool
  /-- Characters of Unicode are matched, not bytes. -/
  unicode : Bool
  /-- Blanks and comments may stand between elements. -/
  verbose : Bool
  deriving DecidableEq, Repr

/-- The flags at the start of a pattern. -/
def Flags.initial : Flags := ⟨false, true, false⟩

/-- Whether letters would have to be folded by the tables of Unicode. -/
def Flags.foldsUnicode (f : Flags) : Bool := f.unicode && f.ignoreCase

/-- Drop blanks, and comments up to the ends of their lines. -/
def skipBlanks : (inComment : Bool) → List Char → List Char
  | _, [] => []
  | true, c :: cs => skipBlanks (c != '\n') cs
  | false, c :: cs =>
    if c = '#' then skipBlanks true cs
    else if Text.isBlank c then skipBlanks false cs
    else c :: cs

/-- Drop what is not read at this place. -/
def skip (f : Flags) (cs : List Char) : List Char :=
  if f.verbose then skipBlanks false cs else cs

/-- What an element of a pattern stands for. -/
inductive Element where
  | literal (c : Char)
  /-- A set of characters. -/
  | set
  /-- A place between characters. -/
  | position
  deriving DecidableEq, Repr

/-- A number of `count` hexadecimal digits, after those that make up `value`. -/
def hexCode (f : Flags) : (count value : Nat) → List Char → Option (Nat × List Char)
  | 0, value, cs => some (value, cs)
  | count + 1, value, cs =>
    match skip f cs with
    | c :: rest => do hexCode f count (16 * value + (← Text.digit? 16 c)) rest
    | [] => none

/-- A character written by its code. -/
def coded (f : Flags) (count : Nat) (cs : List Char) : Option (Char × List Char) := do
  let (code, rest) ← hexCode f count 0 cs
  if code.isValidChar then some (Char.ofNat code, rest) else none

/-- The letters that stand for control characters. -/
def controls : List (Char × Char) :=
  [('a', '\x07'), ('f', '\x0c'), ('t', '\t'), ('n', '\n'), ('r', '\r'), ('v', '\x0b')]

/-- The element after a backslash. A code of two digits is a byte in a pattern of bytes. -/
def escape (f : Flags) : List Char → Option (Element × List Char)
  | 'x' :: rest => do
    let (c, rest) ← coded f 2 rest
    if f.unicode || c.toNat < 0x80 then some (.literal c, rest) else none
  | 'u' :: rest => do
    let (c, rest) ← coded f 4 rest
    return (.literal c, rest)
  | 'U' :: rest => do
    let (c, rest) ← coded f 8 rest
    return (.literal c, rest)
  | c :: rest =>
    match controls.lookup c with
    | some control => some (.literal control, rest)
    | none =>
      if c = 'A' ∨ c = 'z' then some (.position, rest)
      else if ['b', 'B', '<', '>'].contains c then
        if f.unicode then none else some (.position, rest)
      else if ['d', 's', 'w'].contains c then if f.unicode then none else some (.set, rest)
      else if c.toNat < 0x80 ∧ ¬ c.isAlphanum then some (.literal c, rest)
      else none
  | [] => none

end Pattern

end OrderingService
