import OrderingService.Config.Basic
import OrderingService.Decimal.Numeral
import OrderingService.Pattern.Reader
import OrderingService.Text.Quoted

/-!
# Log filters

A filter is a list of directives with commas between them; empty ones are ignored. A directive
names a target, a span in brackets that may have a field in braces, a level, or a target or span
with a level after an equals sign. A directive that is a single word is always accepted, since a
word that is no level is a target. A field may be given a value after an equals sign: a number, or
a pattern for its text.

## Main definitions

* `LogFilter.isLevel` — the words for levels
* `LogFilter.isField` — what may stand in braces
* `LogFilter.isDirective`, `LogFilter.isFilter` — what is accepted
* `LogFilter.check` — the filter of the environment, or else the configured one
-/

namespace OrderingService

namespace LogFilter

/-- Whether a word is a number from 0 to 5; a plus sign and leading zeros do not matter. -/
def isLevelNumber (cs : List Char) : Bool :=
  let digits := match cs with
    | '+' :: rest => rest
    | cs => cs
  !digits.isEmpty && digits.all (Text.isDigit 10) && Text.number 10 digits ≤ 5

/-- Whether a word is a level: empty, a name in any case, or a number. -/
def isLevel (cs : List Char) : Bool :=
  cs.isEmpty || isLevelNumber cs ||
    ["trace", "debug", "info", "warn", "error", "off"].contains
      (String.ofList (cs.map Char.toLower))

/-- Whether a text may stand in braces: a name, or a name with a value. What follows a second
equals sign is ignored. -/
def isField (cs : List Char) : Bool :=
  match cs.dropWhile (· != '=') with
  | [] => !cs.isEmpty
  | _ :: rest =>
    let value := rest.takeWhile (· != '=')
    Decimal.isNumeral value || Pattern.isValid value

/-- What is left of a text after its first `count` bytes, unless they end within a character. -/
def dropBytes : (count : Nat) → List Char → Option (List Char)
  | 0, cs => some cs
  | _ + 1, [] => none
  | count + 1, c :: cs =>
    if c.utf8Size ≤ count + 1 then dropBytes (count + 1 - c.utf8Size) cs else none

/-- The first `count` bytes of a text, unless they end within a character. -/
def takeBytes (count : Nat) (cs : List Char) : Option (List Char) := do
  let rest ← dropBytes count cs
  return cs.take (cs.length - rest.length)

/-- How far a directive has been read. -/
inductive Position where
  | start
  /-- In a word that is a level or a target. -/
  | word
  /-- Inside the brackets of a span. -/
  | inSpan
  /-- In a field that starts at this byte of the directive. -/
  | inField (first : Nat)
  /-- After the braces of a span. -/
  | afterFields
  /-- After the brackets of a span. -/
  | afterSpan
  /-- In a level that starts at this byte of the directive. -/
  | inLevel (first : Nat)
  deriving DecidableEq, Repr

/-- Read the character at byte number `i` of a directive with the given text. -/
def Position.next (text : List Char) (p : Position) (i : Nat) (c : Char) : Option Position :=
  match p with
  | .start =>
    if c = '[' then some .inSpan
    else if ['-', ':', '_'].contains c || Text.isAlphanumeric c then some .word
    else none
  | .word => some (if c = '=' then .inLevel (i + 1) else if c = '[' then .inSpan else .word)
  | .inSpan =>
    some (if c = ']' then .afterSpan else if c = '\x7b' then .inField (i + 1) else .inSpan)
  | .inField first =>
    if c = '\x7d' then do
      let field ← takeBytes (i - first) (← dropBytes first text)
      if isField field then some .afterFields else none
    else some (.inField first)
  | .afterFields => if c = ']' then some .afterSpan else none
  | .afterSpan => if c = '=' then some (.inLevel (i + 1)) else none
  | .inLevel first => some (.inLevel first)

/-- Read a directive from its byte number `i` on. -/
def scan (text : List Char) : (i : Nat) → Position → List Char → Option Position
  | _, p, [] => some p
  | i, p, c :: rest => (p.next text i c).bind fun p => scan text (i + c.utf8Size) p rest

/-- Whether a directive is accepted. White space around it is skipped in the reading, but not in
counting where its field and its level stand. -/
def isDirective (cs : List Char) : Bool :=
  match scan cs 0 .start (Text.trimBlanks cs) with
  | some .word | some .afterSpan => true
  | some (.inLevel first) => (dropBytes first cs).any isLevel
  | _ => false

/-- Whether a filter is accepted. -/
def isFilter (filter : String) : Bool :=
  ((filter.toList.splitOn ',').filter (· ≠ [])).all isDirective

/-- Accept the filter of the environment if there is one that can be read; otherwise the
configured one has to be. -/
def check (environment : Option String) (c : LoggingConfig) : Except ServiceError Unit :=
  if environment.any isFilter || isFilter c.level then .ok ()
  else .error (.config ("Invalid log level " ++ Text.quoted c.level))

end LogFilter

end OrderingService
