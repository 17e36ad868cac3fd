import OrderingService.Toml.Lexical

/-!
# Reading TOML documents

A document is a list of lines: blanks, comments, headers, and keys with their values. Each header
and each key changes the root table, and a change that is not allowed, such as defining a key
twice, makes the document invalid.

## Main definitions

* `Toml.value` — a value
* `Toml.parse?` — the root table of a document
-/

namespace OrderingService

namespace Toml

/-- Drop blanks, ends of lines and comments, up to `bound` of them. -/
def skipLines : (bound : Nat) → List Char → List Char
  | 0, cs => cs
  | bound + 1, cs =>
    let cs := skipBlanks cs
    match newline (skipComment cs) with
    | some rest => skipLines bound rest
    | none => cs

mutual

/-- A value, nested in `depth` more levels at most. -/
def value : (bound depth : Nat) → List Char → Option (TomlValue × List Char)
  | 0, _, _ => none
  | bound + 1, depth, cs =>
    match cs with
    | '"' :: _ | '\'' :: _ => do
      let (text, rest) ← string cs
      return (.string text, rest)
    | '[' :: rest =>
      match depth with
      | 0 => none
      | depth + 1 => do
        let (items, rest) ← arrayItems bound depth rest
        return (.array false items, rest)
    | '\x7b' :: rest =>
      match depth with
      | 0 => none
      | depth + 1 =>
        match skipBlanks rest with
        | '\x7d' :: rest => some (.table .inline [], rest)
        | _ => do
          let (entries, rest) ← inlineEntries bound depth [] rest
          return (.table .inline entries, rest)
    | 't' :: rest => do return (.boolean true, ← word ['r', 'u', 'e'] rest)
    | 'f' :: rest => do return (.boolean false, ← word ['a', 'l', 's', 'e'] rest)
    | _ => number cs

/-- The rest of an array after its opening bracket or a comma. -/
def arrayItems : (bound depth : Nat) → List Char → Option (List TomlValue × List Char)
  | 0, _, _ => none
  | bound + 1, depth, cs =>
    match skipLines (bound + 1) cs with
    | ']' :: rest => some ([], rest)
    | cs => do
      let (v, cs) ← value bound depth cs
      match skipLines (bound + 1) cs with
      | ']' :: rest => return ([v], rest)
      | ',' :: rest => do
        let (items, rest) ← arrayItems bound depth rest
        return (v :: items, rest)
      | _ => none

/-- One or more entries of an inline table, added to those before them, and its closing brace. -/
def inlineEntries : (bound depth : Nat) → TomlTable → List Char → Option (TomlTable × List Char)
  | 0, _, _, _ => none
  | bound + 1, depth, entries, cs => do
    let ((path, last), cs) ← key cs
    let (v, cs) ← value bound depth (skipBlanks (← word ['='] cs))
    let entries ← TomlTable.assign path last v entries
    match skipBlanks cs with
    | '\x7d' :: rest => return (entries, rest)
    | ',' :: rest => inlineEntries bound depth entries rest
    | _ => none

end

/-- A document being read: its root table, and the path of the header whose keys follow. -/
structure Document where
  root : TomlTable
  current : List String

namespace Document

/-- Give a key of the current table a value. -/
def assign (d : Document) (path : List String) (last : String) (v : TomlValue) :
    Option Document := do
  return { d with root := ← d.root.descend (TomlTable.assign path last v) d.current }

/-- Open the table of a header. -/
def openTable (d : Document) (path : List String) (last : String) : Option Document := do
  return ⟨← d.root.openTable path last, path ++ [last]⟩

/-- Open one more table of an array of tables. -/
def openElement (d : Document) (path : List String) (last : String) : Option Document := do
  return ⟨← d.root.openElement path last, path ++ [last]⟩

end Document

/-- One line that is not blank: a header or a key with its value. What is left of the document has
at most `bound` characters. -/
def line (bound : Nat) (d : Document) (cs : List Char) : Option (Document × List Char) :=
  match cs with
  | '[' :: '[' :: rest => do
    let ((path, last), rest) ← key rest
    let d ← d.openElement path last
    return (d, ← lineEnd (← word [']', ']'] rest))
  | '[' :: rest => do
    let ((path, last), rest) ← key rest
    let d ← d.openTable path last
    return (d, ← lineEnd (← word [']'] rest))
  | _ => do
    let ((path, last), rest) ← key cs
    let rest := skipBlanks (← word ['='] rest)
    let (v, rest) ← value (2 * bound + 2) (depthLimit - 1) rest
    let d ← d.assign path last v
    return (d, ← lineEnd rest)

/-- The lines of a document of fewer than `bound` characters. -/
def documentLines : (bound : Nat) → Document → List Char → Option Document
  | 0, _, _ => none
  | bound + 1, d, cs =>
    match skipBlanks cs with
    | [] => some d
    | '#' :: _ | '\n' :: _ | '\r' :: _ => do documentLines bound d (← lineEnd cs)
    | cs => do
      let (d, rest) ← line bound d cs
      documentLines bound d rest

/-- The root table of a document. A byte order mark at its start is skipped. -/
def parse? (text : String) : Option TomlTable :=
  let cs := match text.toList with
    | '\ufeff' :: rest => rest
    | cs => cs
  (documentLines (cs.length + 1) ⟨[], []⟩ cs).map Document.root

end Toml

end OrderingService
