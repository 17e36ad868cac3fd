import OrderingService.Json.Parser
import OrderingService.Merkle.Witness

/-!
# Witnesses as JSON

A witness is written as an object with its five fields in a fixed order, byte strings as arrays of
integers. Read back, the fields may come in any order and among others, but each exactly once; an
array of exactly the five values in the fixed order is read as well. Integers are written without
sign, fraction or exponent and fit their width.

## Main definitions

* `Witness.toJson`, `Witness.ofJson?` — between witnesses and values
* `Witness.toJsonText`, `Witness.ofJsonText?` — between witnesses and texts
-/

namespace OrderingService

namespace Witness

/-! ### Writing -/

/-- A byte string as an array of integers. -/
def bytesToJson (b : Bytes) : JsonValue := .array (b.map fun x => .natural x.toNat)

/-- The fields of a witness as keys and values. -/
def jsonFields (w : Witness) : List (List Char × JsonValue) :=
  [("root".toList, bytesToJson w.root),
   ("leaf".toList, bytesToJson w.leaf),
   ("path".toList, .array (w.path.map bytesToJson)),
   ("leaf_index".toList, .natural w.leafIndex),
   ("leaf_count".toList, .natural w.leafCount)]

/-- A witness as an object. -/
def toJson (w : Witness) : JsonValue := .object w.jsonFields

/-- The compact text of a witness. -/
def toJsonText (w : Witness) : String := String.ofList w.toJson.render

/-! ### Reading -/

/-- A natural number below a bound. -/
def naturalBelow? (bound : Nat) : JsonValue → Option Nat
  | .natural n => if n < bound then some n else none
  | _ => none

/-- The items of an array, each read by `read`. -/
def items? {α : Type} (read : JsonValue → Option α) : JsonValue → Option (List α)
  | .array items => items.mapM read
  | _ => none

/-- A byte string from an array of integers. -/
def bytes? (v : JsonValue) : Option Bytes :=
  items? (fun v => (naturalBelow? 256 v).map UInt8.ofNat) v

/-- A position or count from an integer of 64 bits. -/
def count? (v : JsonValue) : Option Nat := naturalBelow? (2 ^ 64) v

/-- A witness from the values of its five fields. -/
def ofValues? (root leaf path leafIndex leafCount : JsonValue) : Option Witness := do
  return {
    root := ← bytes? root
    leaf := ← bytes? leaf
    path := ← items? bytes? path
    leafIndex := ← count? leafIndex
    leafCount := ← count? leafCount }

/-- The value of a field that occurs exactly once. -/
def uniqueField? (members : List (List Char × JsonValue)) (name : String) : Option JsonValue :=
  match members.filter fun m => m.1 == name.toList with
  | [m] => some m.2
  | _ => none

/-- The members of an object with their keys read. -/
def readKeys? (members : List (List Char × JsonValue)) : Option (List (List Char × JsonValue)) :=
  members.mapM fun m => (Json.unescape? m.1).map fun key => (key, m.2)

/-- A witness from an object that has each of the five fields once, or from an array of their
values. -/
def ofJson? : JsonValue → Option Witness
  | .object members => do
    let members ← readKeys? members
    ofValues? (← uniqueField? members "root") (← uniqueField? members "leaf")
      (← uniqueField? members "path") (← uniqueField? members "leaf_index")
      (← uniqueField? members "leaf_count")
  | .array [root, leaf, path, leafIndex, leafCount] =>
    ofValues? root leaf path leafIndex leafCount
  | _ => none

/-- A witness from a text. -/
def ofJsonText? (text : String) : Option Witness :=
  (Json.parse? text.toList).bind ofJson?

end Witness

end OrderingService
