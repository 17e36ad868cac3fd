import OrderingService.PowerOfTwo

/-!
# TOML values and tables

A document is a table: keys with values, in order. How a table came about decides whether later
lines may add to it, so each table remembers its origin, and arrays of tables are told apart from
other arrays.

## Main definitions

* `TomlValue`, `TomlTable` — values and tables
* `TomlTable.lookup?`, `TomlTable.update` — reading and changing one key
* `TomlTable.openTable`, `TomlTable.openElement`, `TomlTable.assign` — what a header and a line of
  a document do to it
-/

namespace OrderingService

/-- How a table of a document came about. -/
inductive TomlOrigin where
  /-- By its own header. -/
  | header
  /-- By the header of a table below it. -/
  | implied
  /-- By a dotted key. -/
  | dotted
  /-- Written between braces. -/
  | inline
  deriving DecidableEq, Repr

/-- A TOML value. Of floats and dates only the kind is kept. -/
inductive TomlValue where
  | string (text : String)
  | integer (value : Int)
  | float
  | boolean (value : Bool)
  | date
  /-- An array; `ofTables` tells an array of tables that headers made. -/
  | array (ofTables : Bool) (items : List TomlValue)
  | table (origin : TomlOrigin) (entries : List (String × TomlValue))
  deriving Repr

/-- The keys and values of a table, in order. -/
abbrev TomlTable := List (String × TomlValue)

namespace TomlTable

/-- The value of a key. -/
def lookup? (t : TomlTable) (key : String) : Option TomlValue :=
  (t.find? fun entry => entry.1 == key).map (·.2)

/-- Change the value of a key, which may be absent. -/
def update (key : String) (f : Option TomlValue → Option TomlValue) : TomlTable → Option TomlTable
  | [] => do return [(key, ← f none)]
  | (k, v) :: rest =>
    if k = key then do return (k, ← f (some v)) :: rest
    else do return (k, v) :: (← update key f rest)

/-- Change the last item of a list. -/
def modifyLast (f : TomlValue → Option TomlValue) : List TomlValue → Option (List TomlValue)
  | [] => none
  | [v] => do return [← f v]
  | v :: rest => do return v :: (← modifyLast f rest)

/-! ### Headers -/

/-- Change the table that the path of a header leads to. Tables on the way are made when absent;
an array of tables stands for its last table. -/
def descend (f : TomlTable → Option TomlTable) : List String → TomlTable → Option TomlTable
  | [], t => f t
  | key :: path, t =>
    t.update key fun
      | none => do return .table .implied (← descend f path [])
      | some (.table .inline _) => none
      | some (.table origin sub) => do return .table origin (← descend f path sub)
      | some (.array true items) => do
        let items ← modifyLast (fun
          | .table origin sub => do return .table origin (← descend f path sub)
          | _ => none) items
        return .array true items
      | some _ => none

/-- Open the table of a header: it must be absent, or exist only because of headers below it. -/
def openTable (path : List String) (key : String) (t : TomlTable) : Option TomlTable :=
  descend (fun parent => parent.update key fun
    | none => some (.table .header [])
    | some (.table .implied sub) => some (.table .header sub)
    | some _ => none) path t

/-- Open one more table of an array of tables. -/
def openElement (path : List String) (key : String) (t : TomlTable) : Option TomlTable :=
  descend (fun parent => parent.update key fun
    | none => some (.array true [.table .header []])
    | some (.array true items) => some (.array true (items ++ [.table .header []]))
    | some _ => none) path t

/-! ### Keys -/

/-- Give an absent key a value. -/
def insertNew (key : String) (v : TomlValue) (t : TomlTable) : Option TomlTable :=
  t.update key fun
    | none => some v
    | some _ => none

/-- Give a key below a dotted path a value. The last table of the path must be one that dotted
keys made, those before it must not have a header of their own. -/
def assign : List String → String → TomlValue → TomlTable → Option TomlTable
  | [], key, v, t => t.insertNew key v
  | [last], key, v, t =>
    t.update last fun
      | none => do return .table .dotted (← insertNew key v [])
      | some (.table .dotted sub) => do return .table .dotted (← insertNew key v sub)
      | some _ => none
  | first :: path, key, v, t =>
    t.update first fun
      | none => do return .table .dotted (← assign path key v [])
      | some (.table .dotted sub) => do return .table .dotted (← assign path key v sub)
      | some (.table .implied sub) => do return .table .implied (← assign path key v sub)
      | some (.array true items) => do
        let items ← modifyLast (fun
          | .table origin sub => do return .table origin (← assign path key v sub)
          | _ => none) items
        return .array true items
      | some _ => none

end TomlTable

end OrderingService
