import OrderingService.Text.Digits
import OrderingService.Toml.Value

/-!
# TOML strings, numbers, dates and keys

Readers of the front of a text for the tokens of TOML 1.0. Each answers what it read and the rest
of the text, or nothing.

## Main definitions

* `Toml.string` — strings in their four forms
* `Toml.number` — integers and floats
* `Toml.date` — dates and times
* `Toml.key` — bare, quoted and dotted keys
* `Toml.lineEnd` — blanks, a comment, the end of the line
-/

namespace OrderingService

namespace Toml

/-- A reader of the front of a text. -/
abbrev Reader (α : Type) := List Char → Option (α × List Char)

/-- Drop spaces and tabs. -/
def skipBlanks (cs : List Char) : List Char := cs.dropWhile fun c => c == ' ' || c == '\t'

/-- What follows a word that must come next. -/
def word (w cs : List Char) : Option (List Char) :=
  if w.isPrefixOf cs then some (cs.drop w.length) else none

/-- The end of a line. -/
def newline : List Char → Option (List Char)
  | '\n' :: rest => some rest
  | '\r' :: '\n' :: rest => some rest
  | _ => none

/-- Whether a character may stand in a comment or, unless it ends the string, in a literal
string. -/
def isPlain (c : Char) : Bool := c == '\t' || (0x20 ≤ c.toNat && c.toNat != 0x7f)

/-- Drop a comment, if one comes next. -/
def skipComment : List Char → List Char
  | '#' :: rest => rest.dropWhile isPlain
  | cs => cs

/-- Blanks, a comment if there is one, and the end of the line or of the text. -/
def lineEnd (cs : List Char) : Option (List Char) :=
  match skipComment (skipBlanks cs) with
  | [] => some []
  | rest => newline rest

/-! ### Strings -/

/-- The character of a scalar value written in hexadecimal. -/
def scalar? (digits : List Char) : Option Char :=
  let n := Text.number 16 digits
  if digits.all (Text.isDigit 16) && (n < 0xD800 || (0xDFFF < n && n < 0x110000)) then
    some (Char.ofNat n)
  else none

/-- The character after a backslash. -/
def escape : Reader Char
  | 'b' :: rest => some ('\x08', rest)
  | 't' :: rest => some ('\t', rest)
  | 'n' :: rest => some ('\n', rest)
  | 'f' :: rest => some ('\x0c', rest)
  | 'r' :: rest => some ('\r', rest)
  | '"' :: rest => some ('"', rest)
  | '\\' :: rest => some ('\\', rest)
  | 'u' :: a :: b :: c :: d :: rest => do return (← scalar? [a, b, c, d], rest)
  | 'U' :: a :: b :: c :: d :: e :: f :: g :: h :: rest => do
    return (← scalar? [a, b, c, d, e, f, g, h], rest)
  | _ => none

/-- The rest of a basic string after its opening quote. -/
def basicBody : (bound : Nat) → Reader (List Char)
  | 0, _ => none
  | _ + 1, '"' :: rest => some ([], rest)
  | bound + 1, '\\' :: rest => do
    let (c, rest) ← escape rest
    let (body, rest) ← basicBody bound rest
    return (c :: body, rest)
  | bound + 1, c :: rest =>
    if isPlain c then do
      let (body, rest) ← basicBody bound rest
      return (c :: body, rest)
    else none
  | _ + 1, [] => none

/-- The rest of a literal string after its opening quote. -/
def literalBody (cs : List Char) : Option (List Char × List Char) :=
  let isContent c := isPlain c && c != '\''
  match cs.dropWhile isContent with
  | '\'' :: rest => some (cs.takeWhile isContent, rest)
  | _ => none

/-- What follows a backslash that ends a line: the first character that is not a blank or the end
of a line. -/
def afterEscapedLineEnd (cs : List Char) : Option (List Char) :=
  (newline (skipBlanks cs)).map dropLines
where
  /-- Drop blanks and ends of lines. -/
  dropLines : List Char → List Char
    | ' ' :: rest => dropLines rest
    | '\t' :: rest => dropLines rest
    | '\n' :: rest => dropLines rest
    | '\r' :: '\n' :: rest => dropLines rest
    | cs => cs

/-- The rest of a string of several lines after its opening quotes: a basic one if `escapes`, else
a literal one. Up to two quotes may stand before the closing three. -/
def linesBody (quote : Char) (escapes : Bool) : (bound : Nat) → Reader (List Char)
  | 0, _ => none
  | _ + 1, [] => none
  | bound + 1, c :: rest =>
    let more (content : List Char) (rest : List Char) : Option (List Char × List Char) := do
      let (body, rest) ← linesBody quote escapes bound rest
      return (content ++ body, rest)
    if c = quote then
      let run := (c :: rest).takeWhile (· == quote)
      if run.length < 3 then more run ((c :: rest).drop run.length)
      else
        let extra := min (run.length - 3) 2
        some (List.replicate extra quote, (c :: rest).drop (extra + 3))
    else if escapes && c == '\\' then
      match afterEscapedLineEnd rest with
      | some rest => more [] rest
      | none => do
        let (c, rest) ← escape rest
        more [c] rest
    else match newline (c :: rest) with
      | some rest => more ['\n'] rest
      | none => if isPlain c then more [c] rest else none

/-- A string of several lines after its opening quotes; a line end right after them is dropped. -/
def lines (quote : Char) (escapes : Bool) (cs : List Char) : Option (List Char × List Char) :=
  let cs := (newline cs).getD cs
  linesBody quote escapes (cs.length + 1) cs

/-- A string on one line. -/
def lineString : Reader String
  | '"' :: rest => do
    let (body, rest) ← basicBody (rest.length + 1) rest
    return (String.ofList body, rest)
  | '\'' :: rest => do
    let (body, rest) ← literalBody rest
    return (String.ofList body, rest)
  | _ => none

/-- A string in any of its four forms. -/
def string : Reader String
  | '"' :: '"' :: '"' :: rest => do
    let (body, rest) ← lines '"' true rest
    return (String.ofList body, rest)
  | '\'' :: '\'' :: '\'' :: rest => do
    let (body, rest) ← lines '\'' false rest
    return (String.ofList body, rest)
  | cs => lineString cs

/-! ### Numbers -/

/-- The rest of a run of digits with single underscores between them. -/
def digitsTail (radix : Nat) : Reader (List Char)
  | '_' :: d :: rest =>
    if Text.isDigit radix d then do
      let (ds, rest) ← digitsTail radix rest
      return (d :: ds, rest)
    else none
  | ['_'] => none
  | d :: rest =>
    if Text.isDigit radix d then do
      let (ds, rest) ← digitsTail radix rest
      return (d :: ds, rest)
    else some ([], d :: rest)
  | [] => some ([], [])

/-- A run of digits with single underscores between them, which are dropped. -/
def digits (radix : Nat) : Reader (List Char)
  | d :: rest =>
    if Text.isDigit radix d then do
      let (ds, rest) ← digitsTail radix rest
      return (d :: ds, rest)
    else none
  | [] => none

/-- A sign, if there is one, and whether it is a minus. -/
def sign : List Char → Bool × List Char
  | '-' :: rest => (true, rest)
  | '+' :: rest => (false, rest)
  | cs => (false, cs)

/-- The digits of a decimal integer: zero alone, or digits that do not start with zero. -/
def wholeDigits : Reader (List Char)
  | '0' :: rest => some (['0'], rest)
  | cs => digits 10 cs

/-- An integer that fits 64 bits with sign. -/
def ranged (n : Int) : Option TomlValue :=
  if -(2 ^ 63) ≤ n ∧ n < 2 ^ 63 then some (.integer n) else none

/-- The digits of an integer written with the mark of its radix. -/
def marked (radix : Nat) (cs : List Char) : Option (TomlValue × List Char) := do
  let (ds, rest) ← digits radix cs
  return (← ranged (Text.number radix ds), rest)

/-- An integer. -/
def integer : Reader TomlValue
  | '0' :: 'x' :: rest => marked 16 rest
  | '0' :: 'o' :: rest => marked 8 rest
  | '0' :: 'b' :: rest => marked 2 rest
  | cs => do
    let (negative, cs) := sign cs
    let (ds, rest) ← wholeDigits cs
    let n : Int := Text.number 10 ds
    return (← ranged (if negative then -n else n), rest)

/-- The exponent of a float. -/
def exponent : Reader Int
  | c :: rest =>
    if c = 'e' ∨ c = 'E' then do
      let (negative, rest) := sign rest
      let (ds, rest) ← digits 10 rest
      let n : Int := Text.number 10 ds
      return (if negative then -n else n, rest)
    else none
  | [] => none

/-- Whether `mantissa * 10 ^ power` rounds to infinity as a double: whether it is at least halfway
from the greatest double to the next power of two. -/
def overflows (mantissa : Nat) (power : Int) : Bool :=
  let size : Int := (Nat.toDigits 10 mantissa).length + power
  mantissa != 0 && (310 < size || (300 < size &&
    (if 0 ≤ power then (2 ^ 1024 - 2 ^ 970) ≤ mantissa * 10 ^ power.toNat
     else (2 ^ 1024 - 2 ^ 970) * 10 ^ (-power).toNat ≤ mantissa)))

/-- A float with a fraction, an exponent or both; one too great for a double is refused. -/
def finiteFloat (cs : List Char) : Option (TomlValue × List Char) := do
  let (negative, cs) := sign cs
  let (whole, cs) ← wholeDigits cs
  let (fraction, cs) ← match cs with
    | '.' :: rest => digits 10 rest
    | cs => some ([], cs)
  let (power, rest) ← match exponent cs with
    | some (power, rest) => some (power, rest)
    | none => if fraction.isEmpty then none else some (0, cs)
  if !negative && overflows (Text.number 10 (whole ++ fraction)) (power - fraction.length) then
    none
  else some (.float, rest)

/-- Infinity or not-a-number. -/
def specialFloat (cs : List Char) : Option (TomlValue × List Char) := do
  let rest := (sign cs).2
  let rest ← word ['i', 'n', 'f'] rest <|> word ['n', 'a', 'n'] rest
  return (.float, rest)

/-! ### Dates -/

/-- Exactly `count` decimal digits whose value lies in a range. -/
def fixedDigits (count low high : Nat) (cs : List Char) : Option (Nat × List Char) :=
  let ds := cs.take count
  let n := Text.number 10 ds
  if ds.length = count ∧ ds.all (Text.isDigit 10) ∧ low ≤ n ∧ n ≤ high then
    some (n, cs.drop count)
  else none

/-- The number of days of a month. -/
def daysInMonth (year month : Nat) : Nat :=
  if month = 2 then
    if year % 4 = 0 ∧ (year % 100 ≠ 0 ∨ year % 400 = 0) then 29 else 28
  else if month = 4 ∨ month = 6 ∨ month = 9 ∨ month = 11 then 30 else 31

/-- A date. -/
def fullDate (cs : List Char) : Option (List Char) := do
  let (year, cs) ← fixedDigits 4 0 9999 cs
  let (month, cs) ← fixedDigits 2 1 12 (← word ['-'] cs)
  let (_, rest) ← fixedDigits 2 1 (daysInMonth year month) (← word ['-'] cs)
  return rest

/-- Hours and minutes. -/
def hourMinute (cs : List Char) : Option (List Char) := do
  let (_, cs) ← fixedDigits 2 0 23 cs
  let (_, rest) ← fixedDigits 2 0 59 (← word [':'] cs)
  return rest

/-- A time of day, with a fraction of a second if there is one. -/
def timeOfDay (cs : List Char) : Option (List Char) := do
  let cs ← hourMinute cs
  let (_, rest) ← fixedDigits 2 0 60 (← word [':'] cs)
  match rest with
  | '.' :: d :: more =>
    if Text.isDigit 10 d then return more.dropWhile (Text.isDigit 10) else return rest
  | _ => return rest

/-- The offset of a time, if there is one. -/
def skipOffset (cs : List Char) : List Char :=
  match cs with
  | 'Z' :: rest | 'z' :: rest => rest
  | '+' :: rest | '-' :: rest => (hourMinute rest).getD cs
  | _ => cs

/-- The time of a date, if there is one. -/
def skipTime (cs : List Char) : List Char :=
  match cs with
  | c :: rest =>
    if c = 'T' ∨ c = 't' ∨ c = ' ' then ((timeOfDay rest).map skipOffset).getD cs else cs
  | [] => []

/-- A date with or without a time and an offset, or a time of day. -/
def date (cs : List Char) : Option (TomlValue × List Char) :=
  ((fullDate cs).map skipTime <|> timeOfDay cs).map fun rest => (.date, rest)

/-- A date, a float or an integer. -/
def number (cs : List Char) : Option (TomlValue × List Char) :=
  date cs <|> finiteFloat cs <|> specialFloat cs <|> integer cs

/-! ### Keys -/

/-- Whether a character may stand in a bare key. -/
def isBareKey (c : Char) : Bool :=
  c.isAlphanum || c == '-' || c == '_'

/-- One part of a key. -/
def simpleKey (cs : List Char) : Option (String × List Char) :=
  match cs with
  | '"' :: _ | '\'' :: _ => lineString cs
  | _ =>
    let bare := cs.takeWhile isBareKey
    if bare.isEmpty then none else some (String.ofList bare, cs.drop bare.length)

/-- The most parts a key may have, plus one; also a bound for nested values. -/
def depthLimit : Nat := 80

/-- The parts of a dotted key, `room` at most, with blanks around them. -/
def keyParts : (room : Nat) → Reader (List String)
  | 0, _ => none
  | room + 1, cs => do
    let (part, cs) ← simpleKey (skipBlanks cs)
    match skipBlanks cs with
    | '.' :: rest => do
      let (parts, rest) ← keyParts room rest
      return (part :: parts, rest)
    | rest => return ([part], rest)

/-- A key: the path of its tables, and its last part. -/
def key (cs : List Char) : Option ((List String × String) × List Char) := do
  let (parts, rest) ← keyParts (depthLimit - 1) cs
  return ((parts.dropLast, ← parts.getLast?), rest)

end Toml

end OrderingService
