import OrderingService.Text.Printable

/-!
# Quoted texts

A text between double quotes, for a person to read. Tab, carriage return, line feed, zero, the
quote and the backslash are escaped by letter, and a character without a picture of its own by
its number in hexadecimal.
-/

namespace OrderingService

namespace Text

/-- A character as it stands between double quotes. -/
def quoteChar (c : Char) : List Char :=
  if c = '\x00' then ['\\', '0']
  else if c = '\t' then ['\\', 't']
  else if c = '\r' then ['\\', 'r']
  else if c = '\n' then ['\\', 'n']
  else if c = '"' ∨ c = '\\' then ['\\', c]
  else if isPrintable c then [c]
  else ['\\', 'u', '\x7b'] ++ Nat.toDigits 16 c.toNat ++ ['\x7d']

/-- A text between double quotes. -/
def quoted (s : String) : String :=
  String.ofList ('"' :: s.toList.flatMap quoteChar ++ ['"'])

end Text

end OrderingService
