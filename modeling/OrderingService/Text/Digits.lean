/-!
# Digits

Digits in a radix up to sixteen, ASCII only, in either case.

## Main definitions

* `Text.digit?` — the value of a digit
* `Text.number` — the value of a run of digits
-/

namespace OrderingService

namespace Text

/-- The value of a digit in a radix, if the character is one. -/
def digit? (radix : Nat) (c : Char) : Option Nat :=
  let value :=
    if '0' ≤ c ∧ c ≤ '9' then some (c.toNat - 48)
    else if 'a' ≤ c ∧ c ≤ 'f' then some (c.toNat - 87)
    else if 'A' ≤ c ∧ c ≤ 'F' then some (c.toNat - 55)
    else none
  value.filter (· < radix)

/-- Whether a character is a digit in a radix. -/
def isDigit (radix : Nat) (c : Char) : Bool := (digit? radix c).isSome

/-- The value of a run of digits, highest first. -/
def number (radix : Nat) (digits : List Char) : Nat :=
  digits.foldl (fun n c => radix * n + (digit? radix c).getD 0) 0

end Text

end OrderingService
