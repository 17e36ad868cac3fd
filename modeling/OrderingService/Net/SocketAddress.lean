import OrderingService.PowerOfTwo
import OrderingService.Text.Digits

/-!
# Socket addresses

An address and a port: `a.b.c.d:port`, or `[groups]:port` with an optional decimal scope after a
percent sign. Octets have no leading zeros. An address of version 6 has eight groups of up to four
hexadecimal digits; one `::` stands for one or more zero groups, and the last two groups may be
written as an address of version 4, though not before a `::`.

Printing is canonical: lower case, no leading zeros, the longest run of two or more zero groups
(the first one on ties) as `::`, and the dotted form for mapped addresses of version 4.

## Main definitions

* `SocketAddress`, `SocketAddress.ofText?`, `SocketAddress.toText`
-/

namespace OrderingService

/-- An internet address with a port. -/
inductive SocketAddress where
  /-- An address of version 4. -/
  | ipv4 (octets : List UInt8) (port : UInt16)
  /-- An address of version 6; scope zero means no scope. -/
  | ipv6 (groups : List UInt16) (scope : UInt32) (port : UInt16)
  deriving DecidableEq, Repr

namespace SocketAddress

/-- A reader of the front of a text. -/
abbrev Reader (α : Type) := List Char → Option (α × List Char)

/-! ### Reading -/

/-- One or more digits in a radix, with their value. -/
def digits (radix : Nat) : Reader (List Char × Nat) := fun cs =>
  let ds := cs.takeWhile (Text.isDigit radix)
  if ds.isEmpty then none else some ((ds, Text.number radix ds), cs.drop ds.length)

/-- A decimal number below a bound, leading zeros allowed. -/
def decimalBelow (bound : Nat) : Reader Nat := fun cs => do
  let ((_, n), rest) ← digits 10 cs
  if n < bound then some (n, rest) else none

/-- A character that must come next. -/
def char (c : Char) : List Char → Option (List Char)
  | d :: rest => if c = d then some rest else none
  | [] => none

/-- An octet: one to three digits without a leading zero. -/
def octet : Reader UInt8 := fun cs => do
  let ((ds, n), rest) ← digits 10 cs
  if ds.length ≤ 3 ∧ (ds.head? ≠ some '0' ∨ ds.length = 1) ∧ n < 256 then
    some (UInt8.ofNat n, rest)
  else none

/-- Four octets with dots between them. -/
def dotted : Reader (List UInt8) := fun cs => do
  let (a, cs) ← octet cs
  let (b, cs) ← octet (← char '.' cs)
  let (c, cs) ← octet (← char '.' cs)
  let (d, cs) ← octet (← char '.' cs)
  return ([a, b, c, d], cs)

/-- A group: one to four hexadecimal digits. -/
def group : Reader UInt16 := fun cs => do
  let ((ds, n), rest) ← digits 16 cs
  if ds.length ≤ 4 then some (UInt16.ofNat n, rest) else none

/-- The two groups of four octets. -/
def groupsOfOctets : List UInt8 → List UInt16
  | a :: b :: rest => (a.toUInt16 <<< 8 ||| b.toUInt16) :: groupsOfOctets rest
  | _ => []

/-- Read `item` after a colon, or at once if it is the first. -/
def separated {α : Type} (first : Bool) (item : Reader α) : Reader α := fun cs =>
  if first then item cs else (char ':' cs).bind item

/-- As many groups as there are, `room` at most, and whether they end in a dotted address, which
takes the room of two groups. -/
def groups (first : Bool) : (room : Nat) → List Char → List UInt16 × Bool × List Char
  | 0, cs => ([], false, cs)
  | room + 1, cs =>
    match if room = 0 then none else separated first dotted cs with
    | some (octets, rest) => (groupsOfOctets octets, true, rest)
    | none =>
      match separated first group cs with
      | none => ([], false, cs)
      | some (g, rest) =>
        let (gs, isDotted, rest) := groups false room rest
        (g :: gs, isDotted, rest)

/-- The eight groups of an address of version 6. -/
def eightGroups : Reader (List UInt16) := fun cs =>
  let (head, isDotted, rest) := groups true 8 cs
  if head.length = 8 then some (head, rest)
  else if isDotted then none
  else do
    let rest ← char ':' (← char ':' rest)
    let (tail, _, rest) := groups true (7 - head.length) rest
    return (head ++ List.replicate (8 - head.length - tail.length) 0 ++ tail, rest)

/-- The port and the end of the text. -/
def portAtEnd (cs : List Char) : Option UInt16 := do
  let (port, rest) ← decimalBelow (2 ^ 16) (← char ':' cs)
  if rest.isEmpty then some (UInt16.ofNat port) else none

/-- An address of version 4 with its port. -/
def readIpv4 (cs : List Char) : Option SocketAddress := do
  let (octets, rest) ← dotted cs
  return .ipv4 octets (← portAtEnd rest)

/-- A scope, or zero if none can be read. -/
def scope (cs : List Char) : Nat × List Char :=
  ((char '%' cs).bind (decimalBelow (2 ^ 32))).getD (0, cs)

/-- An address of version 6 with its port. -/
def readIpv6 (cs : List Char) : Option SocketAddress := do
  let (gs, rest) ← eightGroups (← char '[' cs)
  let (s, rest) := scope rest
  return .ipv6 gs (UInt32.ofNat s) (← portAtEnd (← char ']' rest))

/-- The address that a whole text is. -/
def ofText? (text : String) : Option SocketAddress :=
  readIpv4 text.toList <|> readIpv6 text.toList

/-! ### Printing -/

/-- Octets with dots between them. -/
def octetsText (octets : List UInt8) : String :=
  ".".intercalate (octets.map fun o => toString o.toNat)

/-- A group in hexadecimal. -/
def groupText (g : UInt16) : String := String.ofList (Nat.toDigits 16 g.toNat)

/-- Groups with colons between them. -/
def groupsText (gs : List UInt16) : String := ":".intercalate (gs.map groupText)

/-- The length of the run of zero groups at the front. -/
def zeroRun (gs : List UInt16) : Nat := (gs.takeWhile (· == 0)).length

/-- The start and length of the longest run of zero groups, the first one on ties; length zero if
there is none. -/
def longestZeroRun (gs : List UInt16) : Nat × Nat :=
  (List.range gs.length).foldl (fun best start =>
    let length := zeroRun (gs.drop start)
    if best.2 < length then (start, length) else best) (0, 0)

/-- The two octets of a group. -/
def octetsOfGroup (g : UInt16) : List UInt8 := [(g >>> 8).toUInt8, g.toUInt8]

/-- The text of eight groups. -/
def ipv6Text (gs : List UInt16) : String :=
  if gs.take 6 = [0, 0, 0, 0, 0, 0xffff] then
    "::ffff:" ++ octetsText ((gs.drop 6).flatMap octetsOfGroup)
  else
    let (start, length) := longestZeroRun gs
    if 1 < length then
      groupsText (gs.take start) ++ "::" ++ groupsText (gs.drop (start + length))
    else groupsText gs

/-- The canonical text of an address. -/
def toText : SocketAddress → String
  | ipv4 octets port => octetsText octets ++ ":" ++ toString port.toNat
  | ipv6 gs scope port =>
    let scopeText := if scope = 0 then "" else "%" ++ toString scope.toNat
    "[" ++ ipv6Text gs ++ scopeText ++ "]:" ++ toString port.toNat

/-- The port. -/
def port : SocketAddress → UInt16
  | ipv4 _ port => port
  | ipv6 _ _ port => port

/-- Whether the address has version 6. -/
def isIpv6 : SocketAddress → Bool
  | ipv4 .. => false
  | ipv6 .. => true

end SocketAddress

end OrderingService
