/-!
# Errors of hashing, tree building and proving

Checking a witness has no error: it answers `false`.
-/

namespace OrderingService

/-- Why a digest, a tree or a witness could not be made. -/
inductive MerkleError where
  /-- An accumulator refused a write, with this text. -/
  | hashWriteFailed (text : String)
  /-- A level above which a parent level was due had an odd number of nodes. -/
  | structuralViolation (level nodes : Nat)
  /-- No leaf has the wanted digest. -/
  | leafNotFound
  /-- The wanted position is past the last leaf. -/
  | leafIndexOutOfRange (index leafCount : Nat)
  /-- A tree was to be built of no leaves. -/
  | emptyLeaves
  /-- No hash algorithm has this name. -/
  | unsupportedHashAlgorithm (name : String)
  deriving DecidableEq, Repr

/-- The text of an error. The text of a refused write is passed on unchanged. -/
def MerkleError.message : MerkleError → String
  | hashWriteFailed text => text
  | structuralViolation level nodes =>
    s!"number of nodes is not even: {nodes} nodes at level {level}"
  | leafNotFound => "hash not found in tree"
  | leafIndexOutOfRange index leafCount =>
    s!"leaf index {index} out of range ({leafCount} leaves)"
  | emptyLeaves => "empty leaf hashes"
  | unsupportedHashAlgorithm name => s!"unsupported hash algorithm: {name}"

end OrderingService
