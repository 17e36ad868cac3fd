import OrderingService.Merkle.Witness

/-!
# Edits of a witness

What somebody without the hash strategy can do to a witness: replace a field, a sibling or a bit,
and change the number or the order of the siblings. Edits at a place the witness does not have
change nothing.
-/

namespace OrderingService

/-- A byte string inside a witness. -/
inductive WitnessPart where
  | root
  | leaf
  | sibling (level : Nat)
  deriving DecidableEq, Repr

/-- One change to a witness. -/
inductive WitnessEdit where
  | setLeafIndex (value : Nat)
  | setLeafCount (value : Nat)
  | replace (part : WitnessPart) (value : Bytes)
  /-- Flip one bit, counted from the lowest, of one byte. -/
  | flip (part : WitnessPart) (byte bit : Nat)
  | pushSibling (value : Bytes)
  | popSibling
  | reversePath
  deriving DecidableEq, Repr

/-- Flip one bit of one byte. -/
def Bytes.flipBit (b : Bytes) (byte bit : Nat) : Bytes :=
  b.modify byte (· ^^^ (1 <<< bit.toUInt8))

namespace Witness

/-- Change one byte string of a witness. -/
def modifyPart (w : Witness) (part : WitnessPart) (f : Bytes → Bytes) : Witness :=
  match part with
  | .root => { w with root := f w.root }
  | .leaf => { w with leaf := f w.leaf }
  | .sibling level => { w with path := w.path.modify level f }

/-- Make one change. -/
def edit (w : Witness) : WitnessEdit → Witness
  | .setLeafIndex value => { w with leafIndex := value }
  | .setLeafCount value => { w with leafCount := value }
  | .replace part value => w.modifyPart part fun _ => value
  | .flip part byte bit => w.modifyPart part fun b => Bytes.flipBit b byte bit
  | .pushSibling value => { w with path := w.path ++ [value] }
  | .popSibling => { w with path := w.path.dropLast }
  | .reversePath => { w with path := w.path.reverse }

end Witness

end OrderingService
