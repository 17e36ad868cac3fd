import OrderingService.Pattern.Bracketed
import OrderingService.Text.Alphanumeric

/-!
# Reading patterns

A pattern is read from left to right. Each group that is open keeps the flags, alternatives and
pieces of what is around it, and all that counts of a piece that has been read is how deep it is.
A pattern that is nested too deep is refused.

## Main definitions

* `Pattern.Level`, `Pattern.Reading` — what has been read
* `Pattern.depth?` — the depth of a pattern that can be read
* `Pattern.isValid` — whether a text is a pattern

## Implementation notes

A count in braces is never closed here: the fields of a filter end at the first closing brace. So
an opening brace that is not escaped is refused.
-/

namespace OrderingService

namespace Pattern

/-- The level of groups that is being read. -/
structure Level where
  flags : Flags
  /-- The depths of the alternatives before the current one. -/
  alternatives : List Nat
  /-- The depths of the pieces of the current alternative, last first. A change of flags has a
  place there, but no depth. -/
  pieces : List (Option Nat)
  deriving DecidableEq, Repr

namespace Level

/-- A level of which nothing has been read. -/
def empty (f : Flags) : Level := ⟨f, [], []⟩

/-- Add a piece. -/
def push (l : Level) (depth : Nat) : Level := { l with pieces := some depth :: l.pieces }

/-- The depth of the current alternative. -/
def alternative (l : Level) : Nat := nested (l.pieces.map (·.getD 0))

/-- The depth of all alternatives together. -/
def depth (l : Level) : Nat := nested (l.alternative :: l.alternatives)

/-- End the current alternative. -/
def next (l : Level) : Level :=
  { l with alternatives := l.alternative :: l.alternatives, pieces := [] }

/-- Repeat the last piece. There has to be one, and a change of flags is none. -/
def repeatLast (l : Level) : Option Level :=
  match l.pieces with
  | some depth :: pieces => some { l with pieces := some (depth + 1) :: pieces }
  | _ => none

/-- Add a single character. -/
def pushLiteral (l : Level) : Option Level :=
  if l.flags.foldsUnicode then none else some (l.push 0)

end Level

/-- A pattern that has been read in part: the innermost level, the levels around it, and the names
of the groups so far. -/
structure Reading where
  level : Level
  outer : List Level
  names : List (List Char)
  deriving DecidableEq, Repr

namespace Flags

/-- Set or clear a flag. The others change what is matched, but not what can be read. -/
def update (f : Flags) (flag : Char) (value : Bool) : Flags :=
  if flag = 'i' then { f with ignoreCase := value }
  else if flag = 'u' then { f with unicode := value }
  else if flag = 'x' then { f with verbose := value }
  else f

end Flags

/-- Flags, none of them twice, up to the colon or bracket after them: the new flags, whether any
was given, and what follows. The flags after a hyphen are cleared. -/
def flagList : (seen : List Char) → Flags → List Char → Option (Flags × Bool × List Char)
  | _, _, [] => none
  | seen, f, c :: rest =>
    if c = ':' ∨ c = ')' then
      if seen.head? = some '-' then none else some (f, !seen.isEmpty, c :: rest)
    else if seen.contains c ∨ ¬ ['-', 'i', 'm', 's', 'U', 'u', 'R', 'x'].contains c then none
    else flagList (c :: seen) (f.update c (!seen.contains '-')) rest

/-- Whether a text may name a group. -/
def isGroupName : List Char → Bool
  | [] => false
  | c :: cs =>
    (c == '_' || Text.isAlphabetic c) &&
      cs.all fun c => ['_', '.', '[', ']'].contains c || Text.isAlphanumeric c

namespace Reading

/-- Open a group with these flags. -/
def openGroup (r : Reading) (f : Flags) : Reading :=
  { r with level := .empty f, outer := r.level :: r.outer }

/-- Open a group whose name comes next. No two groups have the same name. -/
def openNamed (r : Reading) (cs : List Char) : Option (Reading × List Char) :=
  let name := cs.takeWhile (· != '>')
  match cs.dropWhile (· != '>') with
  | _ :: rest =>
    if isGroupName name ∧ name ∉ r.names then
      some ({ r with names := name :: r.names }.openGroup r.level.flags, rest)
    else none
  | [] => none

/-- Change the flags, for a group or for the rest of the level. -/
def changeFlags (r : Reading) (cs : List Char) : Option (Reading × List Char) := do
  match ← flagList [] r.level.flags cs with
  | (f, _, ':' :: rest) => return (r.openGroup f, rest)
  | (f, true, _ :: rest) =>
    return ({ r with level := { r.level with flags := f, pieces := none :: r.level.pieces } }, rest)
  | _ => none

/-- Go on after an opening bracket. There is no looking ahead or behind. -/
def openBracket (r : Reading) (cs : List Char) : Option (Reading × List Char) :=
  match skip r.level.flags cs with
  | '?' :: '<' :: '=' :: _ | '?' :: '<' :: '!' :: _ | '?' :: '=' :: _ | '?' :: '!' :: _ => none
  | '?' :: 'P' :: '<' :: rest | '?' :: '<' :: rest => r.openNamed rest
  | '?' :: rest => r.changeFlags rest
  | rest => some (r.openGroup r.level.flags, rest)

/-- Close the innermost group. -/
def closeGroup (r : Reading) : Option Reading :=
  match r.outer with
  | level :: outer => some { r with level := level.push (r.level.depth + 1), outer }
  | [] => none

/-- Put another level in the place of the innermost one. -/
def withLevel (r : Reading) (level : Level) : Reading := { r with level }

/-- Read one piece or one mark of at most `bound` characters. -/
def step (r : Reading) (bound : Nat) (cs : List Char) : Option (Reading × List Char) :=
  let level := r.level
  match cs with
  | [] => none
  | '(' :: rest => r.openBracket rest
  | ')' :: rest => do return (← r.closeGroup, rest)
  | '|' :: rest => some (r.withLevel level.next, rest)
  | '[' :: rest => do
    let (depth, rest) ← bracketed (2 * bound + 2) level.flags rest
    return (r.withLevel (level.push depth), rest)
  | '?' :: rest | '*' :: rest | '+' :: rest => do
    let r := r.withLevel (← level.repeatLast)
    match rest with
    | '?' :: rest => return (r, rest)
    | rest => return (r, rest)
  | '\x7b' :: _ => none
  | '^' :: rest | '$' :: rest => some (r.withLevel (level.push 0), rest)
  | '.' :: rest => if level.flags.unicode then some (r.withLevel (level.push 0), rest) else none
  | '\\' :: rest => do
    match ← escape level.flags rest with
    | (.literal _, rest) => return (r.withLevel (← level.pushLiteral), rest)
    | (_, rest) => return (r.withLevel (level.push 0), rest)
  | _ :: rest => do return (r.withLevel (← level.pushLiteral), rest)

/-- Read to the end of fewer than `bound` characters: the depth of the pattern. -/
def finish : (bound : Nat) → Reading → List Char → Option Nat
  | 0, _, _ => none
  | bound + 1, r, cs =>
    match skip r.level.flags cs with
    | [] => if r.outer.isEmpty then some r.level.depth else none
    | cs => do
      let (r, rest) ← r.step bound cs
      finish bound r rest

end Reading

/-- The depth of a pattern that can be read. -/
def depth? (cs : List Char) : Option Nat :=
  Reading.finish (cs.length + 1) ⟨.empty .initial, [], []⟩ cs

/-- The deepest nesting of a pattern. -/
def depthLimit : Nat := 250

/-- Whether a text is a pattern. -/
def isValid (cs : List Char) : Bool := (depth? cs).any (· ≤ depthLimit)

end Pattern

end OrderingService
