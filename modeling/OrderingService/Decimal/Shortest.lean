import OrderingService.PowerOfTwo

/-!
# Shortest decimal text of a float

A finite float stands for all real numbers that round to it; the two ends of that interval belong
to it when the float's significand is even. Its text is the point of the coarsest decimal grid that
has a point in the interval; of two such points the nearer to the float, and the upper one if they
are equally near. The point is written out in full, without an exponent and without a fraction of
zeros.

## Main definitions

* `Binary` — a positive number as a significand and an exponent of two
* `Binary.shortest` — the decimal point that stands for it
* `Decimal.ofFloat` — the text of a float
-/

namespace OrderingService

/-- The positive number `significand * 2 ^ exponent`. -/
structure Binary where
  significand : Nat
  exponent : Int
  /-- Whether the next smaller float is only half as far away as the next larger one. -/
  narrowBelow : Bool
  deriving DecidableEq, Repr

namespace Binary

/-- A number of quarters of the significand's unit, as a fraction of a grid of `10 ^ k`. -/
def onGrid (b : Binary) (quarters : Nat) (k : Int) : Nat × Nat :=
  let q := b.exponent - 2
  (quarters * 2 ^ q.toNat * 10 ^ (-k).toNat, 2 ^ (-q).toNat * 10 ^ k.toNat)

/-- The lower end of the interval, in quarters. -/
def lower (b : Binary) : Nat := 4 * b.significand - if b.narrowBelow then 1 else 2

/-- The upper end of the interval, in quarters. -/
def upper (b : Binary) : Nat := 4 * b.significand + 2

/-- Whether point number `c` of the grid of `10 ^ k` rounds to the number. -/
def holds (b : Binary) (c : Nat) (k : Int) : Bool :=
  let (low, den) := b.onGrid b.lower k
  let (high, _) := b.onGrid b.upper k
  if b.significand % 2 = 0 then low ≤ c * den && c * den ≤ high
  else low < c * den && c * den < high

/-- The point of the grid of `10 ^ k` that stands for the number, if one does. -/
def point? (b : Binary) (k : Int) : Option Nat :=
  let (num, den) := b.onGrid (4 * b.significand) k
  let below := num / den
  match b.holds below k, b.holds (below + 1) k with
  | true, true => some (if 2 * (num % den) < den then below else below + 1)
  | true, false => some below
  | false, true => some (below + 1)
  | false, false => none

/-- The first grid from `10 ^ k` downwards that has a point for the number, `fuel` grids at most,
with that point. -/
def search (b : Binary) : (fuel : Nat) → (k : Int) → Nat × Int
  | 0, k => (0, k)
  | fuel + 1, k =>
    match b.point? k with
    | some c => (c, k)
    | none => b.search fuel (k - 1)

/-- A grid coarser than the number. -/
def coarse (b : Binary) : Nat :=
  let (num, den) := b.onGrid (4 * b.significand) 0
  (Nat.toDigits 10 (num / den)).length

/-- The coefficient and the exponent of ten of the decimal that stands for the number. -/
def shortest (b : Binary) : Nat × Int := b.search (b.coarse + 345) b.coarse

end Binary

namespace Decimal

/-- A coefficient with an exponent of ten, written out. -/
def positional (coefficient : Nat) (exponent : Int) : String :=
  let digits := Nat.toDigits 10 coefficient
  if 0 ≤ exponent then String.ofList (digits ++ List.replicate exponent.toNat '0')
  else
    let places := (-exponent).toNat
    let padded := List.replicate (places + 1 - digits.length) '0' ++ digits
    let whole := padded.length - places
    String.ofList (padded.take whole ++ '.' :: padded.drop whole)

/-- The positive number with these significand and exponent bits. -/
def binaryOfBits (exponent fraction : Nat) : Binary :=
  if exponent = 0 then ⟨fraction, -1074, false⟩
  else ⟨2 ^ 52 + fraction, exponent - 1075, fraction = 0 && 1 < exponent⟩

/-- The text of a float. -/
def ofFloat (x : Float) : String :=
  let bits := x.toBits.toNat
  let exponent := bits / 2 ^ 52 % 2 ^ 11
  let fraction := bits % 2 ^ 52
  let sign := if bits / 2 ^ 63 = 1 then "-" else ""
  if exponent = 2047 then if fraction = 0 then sign ++ "inf" else "NaN"
  else if exponent = 0 ∧ fraction = 0 then sign ++ "0"
  else
    let (coefficient, k) := (binaryOfBits exponent fraction).shortest
    sign ++ positional coefficient k

end Decimal

end OrderingService
