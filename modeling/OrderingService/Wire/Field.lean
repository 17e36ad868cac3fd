import OrderingService.Wire.Varint

/-!
# Fields on the wire

A message is a sequence of fields. A field starts with a key, which tells its number and the form
of its value; the form is enough to find where the value ends, so a reader can step over fields
that it does not know. Groups hold fields up to a matching end key, at most a hundred deep.

## Main definitions

* `Field`, `FieldValue` — a field that was read
* `Field.readAll?` — the fields of a message
* `Field.varint`, `Field.bytes` — the bytes of a field
-/

namespace OrderingService

/-- The form of a value on the wire. -/
inductive WireForm where
  | varint
  | fixed64
  | bytes
  | startGroup
  | endGroup
  | fixed32
  deriving DecidableEq, Repr

namespace WireForm

/-- The number of a form in a key. -/
def number : WireForm → Nat
  | varint => 0
  | fixed64 => 1
  | bytes => 2
  | startGroup => 3
  | endGroup => 4
  | fixed32 => 5

/-- The form with a number. -/
def ofNumber? : Nat → Option WireForm
  | 0 => some varint
  | 1 => some fixed64
  | 2 => some bytes
  | 3 => some startGroup
  | 4 => some endGroup
  | 5 => some fixed32
  | _ => none

end WireForm

/-- The value of a field. What no message here has a use for is not kept. -/
inductive FieldValue where
  | varint (n : Nat)
  | bytes (b : Bytes)
  | fixed
  | group
  deriving DecidableEq, Repr

/-- A field of a message. -/
structure Field where
  number : Nat
  value : FieldValue
  deriving DecidableEq, Repr

namespace Field

/-! ### Writing -/

/-- The key of a field. -/
def key (number : Nat) (form : WireForm) : Bytes := Varint.encode (8 * number + form.number)

/-- A field with a number as its value. -/
def varint (number n : Nat) : Bytes := key number .varint ++ Varint.encode n

/-- A field with a byte string as its value. -/
def bytes (number : Nat) (b : Bytes) : Bytes :=
  key number .bytes ++ Varint.encode b.length ++ b

/-! ### Reading -/

/-- Read a key: a field number from 1 on and a form, below `2 ^ 32` together. -/
def key? (bs : Bytes) : Option ((Nat × WireForm) × Bytes) := do
  let (n, bs) ← Varint.decode? bs
  guard (n < 2 ^ 32 ∧ 0 < n / 8)
  return ((n / 8, ← WireForm.ofNumber? (n % 8)), bs)

/-- Split off a number of bytes, if there are as many. -/
def split? (n : Nat) (bs : Bytes) : Option (Bytes × Bytes) :=
  let taken := bs.take n
  if taken.length = n then some (taken, bs.drop n) else none

/-- Read a value that is no group. -/
def plain? (form : WireForm) (bs : Bytes) : Option (FieldValue × Bytes) :=
  match form with
  | .varint => (Varint.decode? bs).map fun (n, bs) => (.varint n, bs)
  | .fixed64 => (split? 8 bs).map fun (_, bs) => (.fixed, bs)
  | .bytes => do
    let (n, bs) ← Varint.decode? bs
    (split? n bs).map fun (b, bs) => (.bytes b, bs)
  | .fixed32 => (split? 4 bs).map fun (_, bs) => (.fixed, bs)
  | .startGroup | .endGroup => none

/-- Step over the fields of a group up to its end key. At most `depth` groups may be open inside
it, and in the innermost one no field at all. `fuel` bounds the number of keys. -/
def skipGroup? : (fuel depth number : Nat) → Bytes → Option Bytes
  | 0, _, _, _ => none
  | fuel + 1, depth, number, bs => do
    let ((inner, form), bs) ← key? bs
    match form, depth with
    | .endGroup, _ => if inner = number then some bs else none
    | _, 0 => none
    | .startGroup, depth + 1 =>
      let bs ← skipGroup? fuel depth inner bs
      skipGroup? fuel (depth + 1) number bs
    | form, depth + 1 =>
      let (_, bs) ← plain? form bs
      skipGroup? fuel (depth + 1) number bs

/-- How many groups may be open inside a group of a message. -/
def groupDepth : Nat := 99

/-- Read a field. When it is a group, `fuel` bounds the number of keys inside it. -/
def read? (fuel : Nat) (bs : Bytes) : Option (Field × Bytes) := do
  let ((number, form), bs) ← key? bs
  match form with
  | .startGroup =>
    let bs ← skipGroup? fuel groupDepth number bs
    return (⟨number, .group⟩, bs)
  | form =>
    let (value, bs) ← plain? form bs
    return (⟨number, value⟩, bs)

/-- Read the fields of a message. No more than `fuel` keys are read in a row of fields, and as many
in each group. -/
def readUpTo? : (fuel : Nat) → Bytes → Option (List Field)
  | _, [] => some []
  | 0, _ => none
  | fuel + 1, bs => do
    let (field, rest) ← read? fuel bs
    return field :: (← readUpTo? fuel rest)

/-- The fields of a message, in order. A key takes at least one byte. -/
def readAll? (bs : Bytes) : Option (List Field) := readUpTo? bs.length bs

end Field

end OrderingService
