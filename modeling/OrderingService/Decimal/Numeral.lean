import OrderingService.Text.Digits

/-!
# Numerals

The texts that are read as a number: a sign or none, then digits with a point or none among them
and an exponent or none, or one of the words for infinity and for a value that is no number.
-/

namespace OrderingService

namespace Decimal

/-- Drop one sign. -/
def dropSign : List Char → List Char
  | '+' :: rest | '-' :: rest => rest
  | cs => cs

/-- Drop a run of decimal digits, and tell how many there were. -/
def dropDigits (cs : List Char) : Nat × List Char :=
  ((cs.takeWhile (Text.isDigit 10)).length, cs.dropWhile (Text.isDigit 10))

/-- Whether a text is nothing, or an exponent of ten. -/
def isExponent : List Char → Bool
  | [] => true
  | mark :: rest =>
    let (count, rest) := dropDigits (dropSign rest)
    (mark == 'e' || mark == 'E') && count != 0 && rest.isEmpty

/-- Whether a text without a sign is digits, with a point before, among or after them, and an
exponent after them. -/
def isUnsigned (cs : List Char) : Bool :=
  match dropDigits cs with
  | (whole, '.' :: rest) =>
    let (fraction, rest) := dropDigits rest
    whole + fraction != 0 && isExponent rest
  | (whole, rest) => whole != 0 && isExponent rest

/-- Whether a text is read as a number. -/
def isNumeral (cs : List Char) : Bool :=
  let cs := dropSign cs
  ["inf", "infinity", "nan"].contains (String.ofList (cs.map Char.toLower)) || isUnsigned cs

end Decimal

end OrderingService
