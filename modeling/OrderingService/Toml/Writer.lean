import OrderingService.Toml.Value

/-!
# Writing TOML documents

A document of strings, integers and booleans in nested tables is written with one header per
table, followed by the table's own keys in order and then its sub-tables, and an empty line between
two tables. Keys are taken to be bare.

A string is written in the plainest form that needs no escapes: basic, literal, basic in triple
quotes, literal in triple quotes; failing that, basic with escapes. When it has several lines, the
first one starts on a line of its own.

## Main definitions

* `Toml.writeString` — a string in its written form
* `Toml.write?` — a table of tables as a document
-/

namespace OrderingService

namespace Toml

/-- The length of the longest run of a character. -/
def longestRun (c : Char) (cs : List Char) : Nat :=
  (cs.foldl (fun (best, run) d =>
    let run := if d = c then run + 1 else 0
    (max best run, run)) ((0 : Nat), (0 : Nat))).1

/-- Whether a character can only be written as an escape: a control other than tab and line
feed. -/
def needsEscape (c : Char) : Bool :=
  (c.toNat < 0x20 && c != '\t' && c != '\n') || c.toNat == 0x7f

/-- The escape of a control character without a letter of its own: four hexadecimal digits. -/
def unicodeEscape (c : Char) : List Char :=
  let digits := (Nat.toDigits 16 c.toNat).map Char.toUpper
  '\\' :: 'u' :: List.replicate (4 - digits.length) '0' ++ digits

/-- The characters of a basic string with escapes. Over several lines, line ends stand for
themselves, and so do up to two quotes in a row; `quotes` counts those just before. -/
def escapeBasic (severalLines : Bool) : (quotes : Nat) → List Char → List Char
  | _, [] => []
  | quotes, '"' :: rest =>
    if severalLines && quotes < 2 then '"' :: escapeBasic severalLines (quotes + 1) rest
    else '\\' :: '"' :: escapeBasic severalLines 0 rest
  | _, c :: rest =>
    let written :=
      if c = '\x08' then ['\\', 'b']
      else if c = '\t' then ['\\', 't']
      else if c = '\n' then if severalLines then ['\n'] else ['\\', 'n']
      else if c = '\x0c' then ['\\', 'f']
      else if c = '\r' then ['\\', 'r']
      else if c = '\\' then ['\\', '\\']
      else if needsEscape c then unicodeEscape c
      else [c]
    written ++ escapeBasic severalLines 0 rest

/-- A string in its written form. -/
def writeString (text : String) : String :=
  let cs := text.toList
  let codes := cs.any needsEscape
  let backslash := cs.contains '\\'
  let newline := cs.contains '\n'
  let double := longestRun '"' cs
  let single := longestRun '\'' cs
  let basic := String.ofList ('"' :: escapeBasic false 0 cs ++ ['"'])
  let start := if newline then "\n" else ""
  let basicLines := "\"\"\"" ++ start ++ String.ofList (escapeBasic true 0 cs) ++ "\"\"\""
  if !codes && !backslash && double == 0 && !newline then basic
  else if !codes && single == 0 && !newline then "'" ++ text ++ "'"
  else if !codes && !backslash && double ≤ 2 then basicLines
  else if !codes && single ≤ 2 then "'''" ++ start ++ text ++ "'''"
  else if newline then basicLines
  else basic

/-- The line of a key with a string, an integer of 64 bits with sign or a boolean; nothing for a
table. Other values cannot be written. -/
def writeLine? (key : String) : TomlValue → Option String
  | .string text => some (key ++ " = " ++ writeString text ++ "\n")
  | .integer n =>
    if -(2 ^ 63) ≤ n ∧ n < 2 ^ 63 then some (key ++ " = " ++ toString n ++ "\n") else none
  | .boolean b => some (key ++ " = " ++ (if b then "true" else "false") ++ "\n")
  | .table .. => some ""
  | _ => none

/-- The lines of a table's own keys. -/
def writeLines? : TomlTable → Option String
  | [] => some ""
  | (key, v) :: rest => do return (← writeLine? key v) ++ (← writeLines? rest)

mutual

/-- The written form of a table with this name, its sub-tables after it; nothing for other
values. -/
def writeTable? (name : String) : TomlValue → Option (List String)
  | .table _ entries => do
    return ("[" ++ name ++ "]\n" ++ (← writeLines? entries)) ::
      (← writeTables? (name ++ ".") entries)
  | _ => some []

/-- The written forms of the tables among some entries, their names after `path`. -/
def writeTables? (path : String) : TomlTable → Option (List String)
  | [] => some []
  | (key, v) :: rest => do return (← writeTable? (path ++ key) v) ++ (← writeTables? path rest)

end

/-- A table of tables as a document. -/
def write? (t : TomlTable) : Option String :=
  (writeTables? "" t).map fun blocks => "\n".intercalate blocks

end Toml

end OrderingService
