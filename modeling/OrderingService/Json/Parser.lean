import OrderingService.Json.Value

/-!
# Reading JSON

A reader for the grammar of RFC 8259: one value with nothing but blanks around it. Numbers have no
leading zeros, strings hold no control characters, and only the listed escapes occur in them.

## Implementation notes

The readers recurse on a bound that the length of the text makes large enough: a value takes two
steps at most for each of its characters.
-/

namespace OrderingService

namespace Json

/-- The blanks between tokens. -/
def isBlank (c : Char) : Bool := c == ' ' || c == '\t' || c == '\n' || c == '\r'

/-- Drop blanks. -/
def skip (cs : List Char) : List Char := cs.dropWhile isBlank

/-- A decimal digit. -/
def isDigit (c : Char) : Bool := Text.isDigit 10 c

/-- The rest of a string after its opening quote: what is written up to the closing quote, and
what follows it. -/
def stringBody : List Char → Option (List Char × List Char)
  | '"' :: rest => some ([], rest)
  | '\\' :: 'u' :: a :: b :: c :: d :: rest => do
    let _ ← unit? a b c d
    let (body, rest) ← stringBody rest
    return ('\\' :: 'u' :: a :: b :: c :: d :: body, rest)
  | '\\' :: e :: rest => do
    let _ ← escapes.lookup e
    let (body, rest) ← stringBody rest
    return ('\\' :: e :: body, rest)
  | c :: rest =>
    if c.toNat < 0x20 then none
    else do
      let (body, rest) ← stringBody rest
      return (c :: body, rest)
  | [] => none

/-- A part of a number: a leading mark, and one or more digits after it. Nothing is read when the
mark is not there. -/
def digitsAfter (mark : Char → Bool) : List Char → Option (List Char × List Char)
  | c :: rest =>
    if mark c then
      let digits := rest.takeWhile isDigit
      if digits.isEmpty then none else some (c :: digits, rest.dropWhile isDigit)
    else some ([], c :: rest)
  | [] => some ([], [])

/-- The exponent of a number, if there is one. -/
def exponent : List Char → Option (List Char × List Char)
  | e :: sign :: rest =>
    if (e == 'e' || e == 'E') && (sign == '+' || sign == '-') then do
      let (digits, rest) ← digitsAfter (fun _ => true) (sign :: rest)
      return (e :: digits, rest)
    else digitsAfter (fun c => c == 'e' || c == 'E') (e :: sign :: rest)
  | cs => digitsAfter (fun c => c == 'e' || c == 'E') cs

/-- The whole part of a number: zero, or digits that do not start with zero. -/
def wholePart : List Char → Option (List Char × List Char)
  | '0' :: rest =>
    match rest with
    | c :: _ => if isDigit c then none else some (['0'], rest)
    | [] => some (['0'], rest)
  | cs =>
    let digits := cs.takeWhile isDigit
    if digits.isEmpty then none else some (digits, cs.dropWhile isDigit)

/-- A number. -/
def number (cs : List Char) : Option (JsonValue × List Char) := do
  let (sign, cs) := match cs with
    | '-' :: rest => (['-'], rest)
    | cs => ([], cs)
  let (whole, cs) ← wholePart cs
  let (fraction, cs) ← digitsAfter (· == '.') cs
  let (power, cs) ← exponent cs
  if sign.isEmpty && fraction.isEmpty && power.isEmpty then
    return (.natural (Text.number 10 whole), cs)
  else return (.number (sign ++ whole ++ fraction ++ power), cs)

/-- What follows a word that must come next. -/
def word (w cs : List Char) : Option (List Char) :=
  if w.isPrefixOf cs then some (cs.drop w.length) else none

mutual

/-- A value, with blanks allowed before it. -/
def value : Nat → List Char → Option (JsonValue × List Char)
  | 0, _ => none
  | bound + 1, cs =>
    match skip cs with
    | '[' :: rest =>
      match skip rest with
      | ']' :: rest => some (.array [], rest)
      | rest => do
        let (values, rest) ← items bound rest
        return (.array values, rest)
    | '\x7b' :: rest =>
      match skip rest with
      | '\x7d' :: rest => some (.object [], rest)
      | rest => do
        let (pairs, rest) ← members bound rest
        return (.object pairs, rest)
    | '"' :: rest => do
      let (body, rest) ← stringBody rest
      return (.string body, rest)
    | 'n' :: rest => do return (.null, ← word ['u', 'l', 'l'] rest)
    | 't' :: rest => do return (.bool true, ← word ['r', 'u', 'e'] rest)
    | 'f' :: rest => do return (.bool false, ← word ['a', 'l', 's', 'e'] rest)
    | rest => number rest

/-- One or more values with commas between them, and the closing bracket. -/
def items : Nat → List Char → Option (List JsonValue × List Char)
  | 0, _ => none
  | bound + 1, cs => do
    let (v, cs) ← value bound cs
    match skip cs with
    | ',' :: rest => do
      let (values, rest) ← items bound rest
      return (v :: values, rest)
    | ']' :: rest => some ([v], rest)
    | _ => none

/-- One or more members with commas between them, and the closing brace. -/
def members : Nat → List Char → Option (List (List Char × JsonValue) × List Char)
  | 0, _ => none
  | bound + 1, cs =>
    match skip cs with
    | '"' :: rest => do
      let (key, rest) ← stringBody rest
      match skip rest with
      | ':' :: rest => do
        let (v, rest) ← value bound rest
        match skip rest with
        | ',' :: rest => do
          let (pairs, rest) ← members bound rest
          return ((key, v) :: pairs, rest)
        | '\x7d' :: rest => some ([(key, v)], rest)
        | _ => none
      | _ => none
    | _ => none

end

/-- The value of a whole text, if the text is one value with blanks around it. -/
def parse? (cs : List Char) : Option JsonValue := do
  let (v, rest) ← value (2 * cs.length + 2) cs
  if (skip rest).isEmpty then some v else none

end Json

end OrderingService
