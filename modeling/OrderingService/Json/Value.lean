import OrderingService.Text.Digits

/-!
# JSON values

A value keeps strings as they are written between their quotes, and numbers that are not plain
natural numbers as they are written, so that reading loses nothing and printing needs no rules
for escapes. `Json.unescape?` gives the text of a string.

## Main definitions

* `JsonValue` — a value
* `JsonValue.render` — its compact text
* `Json.unescape?` — the text that a written string stands for
-/

namespace OrderingService

/-- A JSON value. -/
inductive JsonValue where
  | null
  | bool (value : Bool)
  /-- A number written as digits only. -/
  | natural (value : Nat)
  /-- Any other number, as written: negative, with a fraction or with an exponent. -/
  | number (written : List Char)
  /-- A string, as written between its quotes. -/
  | string (written : List Char)
  | array (items : List JsonValue)
  /-- An object: its keys as written, in order, repetitions included. -/
  | object (members : List (List Char × JsonValue))
  deriving Repr

namespace JsonValue

mutual

/-- The compact text of a value. -/
def render : JsonValue → List Char
  | null => "null".toList
  | bool true => "true".toList
  | bool false => "false".toList
  | natural n => Nat.toDigits 10 n
  | number written => written
  | string written => '"' :: written ++ ['"']
  | array items => '[' :: renderItems items ++ [']']
  | object members => '\x7b' :: renderMembers members ++ ['\x7d']

/-- Values with commas between them. -/
def renderItems : List JsonValue → List Char
  | [] => []
  | [v] => render v
  | v :: rest => render v ++ ',' :: renderItems rest

/-- Members with commas between them. -/
def renderMembers : List (List Char × JsonValue) → List Char
  | [] => []
  | [(key, v)] => '"' :: key ++ '"' :: ':' :: render v
  | (key, v) :: rest => '"' :: key ++ '"' :: ':' :: render v ++ ',' :: renderMembers rest

end

end JsonValue

namespace Json

/-- The value of four hexadecimal digits. -/
def unit? (a b c d : Char) : Option Nat :=
  if [a, b, c, d].all (Text.isDigit 16) then some (Text.number 16 [a, b, c, d]) else none

/-- The characters that a backslash and a letter stand for. -/
def escapes : List (Char × Char) :=
  [('"', '"'), ('\\', '\\'), ('/', '/'), ('b', '\x08'), ('f', '\x0c'), ('n', '\n'), ('r', '\r'),
   ('t', '\t')]

/-- The text of a written string. A surrogate stands for a character only as the first or second
half of a pair, so a string with half a pair alone has no text. -/
def unescape? : List Char → Option (List Char)
  | '\\' :: 'u' :: a :: b :: c :: d :: rest => do
    let high ← unit? a b c d
    if high < 0xD800 ∨ 0xDFFF < high then
      return Char.ofNat high :: (← unescape? rest)
    else if 0xDC00 ≤ high then none
    else match rest with
      | '\\' :: 'u' :: e :: f :: g :: h :: rest => do
        let low ← unit? e f g h
        if low < 0xDC00 ∨ 0xDFFF < low then none
        else
          return Char.ofNat (0x10000 + (high - 0xD800) * 0x400 + (low - 0xDC00)) ::
            (← unescape? rest)
      | _ => none
  | '\\' :: e :: rest => do
    return (← escapes.lookup e) :: (← unescape? rest)
  | '\\' :: [] => none
  | c :: rest => do return c :: (← unescape? rest)
  | [] => some []

end Json

end OrderingService
