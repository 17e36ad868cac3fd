import OrderingService.Pattern.Basic

/-!
# Sets in brackets

A set of characters in brackets lists characters, ranges, named sets and further sets in brackets;
a caret at its start takes the complement, and two sets are joined by a doubled `&`, `-` or `~`. A
set is as deep as the sets within it, one level more for its own brackets, one for a list of
several items, and one for each of its operators.

## Main definitions

* `Pattern.nested` — the depth of a list
* `Pattern.bracketed` — a set after its opening bracket, and its depth
-/

namespace OrderingService

namespace Pattern

/-- The depth of a list of items of the given depths: a single item needs no list. -/
def nested : List Nat → Nat
  | [] => 0
  | [depth] => depth
  | depth :: depths => depths.foldl max depth + 1

/-- The names of sets that may stand between colons. -/
def setNames : List String :=
  ["alnum", "alpha", "ascii", "blank", "cntrl", "digit", "graph", "lower", "print", "punct",
    "space", "upper", "word", "xdigit"]

/-- A named set after its opening bracket: whether its complement is meant, and what follows. -/
def namedSet : List Char → Option (Bool × List Char)
  | ':' :: rest =>
    let (negated, rest) := match rest with
      | '^' :: rest => (true, rest)
      | rest => (false, rest)
    match rest.dropWhile (· != ':') with
    | ':' :: ']' :: after =>
      if setNames.contains (String.ofList (rest.takeWhile (· != ':'))) then some (negated, after)
      else none
    | _ => none
  | _ => none

/-- One element inside brackets. A pattern of bytes has only ASCII here. -/
def setElement (f : Flags) : List Char → Option (Element × List Char)
  | '\\' :: rest => do
    match ← escape f rest with
    | (.position, _) => none
    | (.set, rest) => some (.set, rest)
    | (.literal c, rest) =>
      if f.unicode || c.toNat < 0x80 then some (.literal c, rest) else none
  | c :: rest => if f.unicode || c.toNat < 0x80 then some (.literal c, rest) else none
  | [] => none

/-- The character after a hyphen. One comment sign is passed over there, but not what the comment
says. -/
def afterHyphen (f : Flags) (cs : List Char) : Option Char :=
  if f.verbose then
    match cs.dropWhile Text.isBlank with
    | '#' :: rest => (rest.dropWhile Text.isBlank).head?
    | rest => rest.head?
  else cs.head?

/-- What follows an element or a range inside brackets. The ends of a range are characters in
order; a hyphen before the closing bracket or before another hyphen makes no range. -/
def setRange (f : Flags) (cs : List Char) : Option (List Char) := do
  let (first, rest) ← setElement f cs
  match skip f rest with
  | '-' :: rest =>
    let next := afterHyphen f rest
    if next = some ']' ∨ next = some '-' then return '-' :: rest
    else
      match first, ← setElement f (skip f rest) with
      | .literal first, (.literal last, rest) => if first ≤ last then return rest else none
      | _, _ => none
  | rest => return rest

/-- The hyphens at the start of a set, which stand for themselves: their number and what
follows. -/
def leadingHyphens (f : Flags) : (bound : Nat) → List Char → Nat × List Char
  | 0, cs => (0, cs)
  | bound + 1, cs =>
    match skip f cs with
    | '-' :: rest => let (count, rest) := leadingHyphens f bound rest; (count + 1, rest)
    | rest => (0, rest)

/-- The start of a set with at most `bound` hyphens: the depths of the items read, and what follows.
A closing bracket that comes first stands for itself. -/
def setStart (f : Flags) (bound : Nat) (cs : List Char) : List Nat × List Char :=
  let (count, rest) := leadingHyphens f bound cs
  match count, rest with
  | 0, ']' :: rest => ([0], rest)
  | count, rest => (List.replicate count 0, rest)

/-- The depth of a set whose last operand has the given items, after the operands before it. -/
def operands (left : Option Nat) (items : List Nat) : Nat :=
  match left with
  | none => nested items
  | some left => max left (nested items) + 1

mutual

/-- A set after its opening bracket: its depth and what follows. -/
def bracketed : (bound : Nat) → Flags → List Char → Option (Nat × List Char)
  | 0, _, _ => none
  | bound + 1, f, cs =>
    if f.foldsUnicode then none
    else
      match skip f cs with
      | '^' :: rest =>
        if f.unicode then
          let (items, rest) := setStart f bound rest
          setItems bound f none items rest
        else none
      | rest =>
        let (items, rest) := setStart f bound rest
        setItems bound f none items rest

/-- The rest of a set after some operands and some items of the next one. -/
def setItems : (bound : Nat) → Flags → (left : Option Nat) → (items : List Nat) → List Char →
    Option (Nat × List Char)
  | 0, _, _, _, _ => none
  | bound + 1, f, left, items, cs =>
    match skip f cs with
    | '[' :: rest =>
      match namedSet rest with
      | some (negated, rest) =>
        if negated && !f.unicode then none else setItems bound f left (0 :: items) rest
      | none => do
        let (depth, rest) ← bracketed bound f rest
        setItems bound f left (depth :: items) rest
    | ']' :: rest => some (operands left items + 1, rest)
    | '&' :: '&' :: rest | '-' :: '-' :: rest | '~' :: '~' :: rest =>
      setItems bound f (some (operands left items)) [] rest
    | rest => do setItems bound f left (0 :: items) (← setRange f rest)

end

end Pattern

end OrderingService
