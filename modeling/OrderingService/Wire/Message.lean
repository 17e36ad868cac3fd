import OrderingService.Wire.Field

/-!
# Messages

The four messages of the service. Written fields stand in the order of their numbers; a field with
its default value is not written, except the chosen one of a delivery answer. In reading, unknown
fields are skipped, the last of several equal fields counts, and a known field with a value of
another form is an error.

## Main definitions

* `ReplyStatus` — the status numbers that have a meaning
* `BroadcastRequest`, `BroadcastResponse`, `DeliverRequest`, `DeliverResponse`
* `encode` and `decode?` of each
-/

namespace OrderingService

/-- The meaning of a status number. -/
inductive ReplyStatus where
  | invalid
  | success
  deriving DecidableEq, Repr

namespace ReplyStatus

/-- The status number. -/
def number : ReplyStatus → Int32
  | invalid => 0
  | success => 1

/-- The name in the schema. -/
def name : ReplyStatus → String
  | invalid => "STATUS_INVALID"
  | success => "STATUS_SUCCESS"

/-- The meaning of a status number. -/
def ofNumber? (n : Int32) : Option ReplyStatus := [invalid, success].find? fun s => s.number == n

/-- The status with a name. -/
def ofName? (name : String) : Option ReplyStatus := [invalid, success].find? fun s => s.name == name

end ReplyStatus

/-- A request to order a payload. -/
structure BroadcastRequest where
  payload : Bytes := []
  signature : Bytes := []
  deriving DecidableEq, Repr

/-- A request to be sent what is ordered. -/
structure DeliverRequest where
  payload : Bytes := []
  signature : Bytes := []
  deriving DecidableEq, Repr

/-- An answer to a broadcast request. -/
structure BroadcastResponse where
  status : Int32 := 0
  info : String := ""
  deriving DecidableEq, Repr

/-- An answer of a deliver stream. -/
inductive DeliverResponse where
  /-- Neither field is set. -/
  | unset
  | status (number : Int32)
  | txid (id : Bytes)
  deriving DecidableEq, Repr

namespace Wire

/-- The number that stands for a status on the wire: negative ones wrap at `2 ^ 64`. -/
def statusToWire (n : Int32) : Nat := (n.toInt % 2 ^ 64).toNat

/-- The status for a number on the wire: its low 32 bits. -/
def statusOfWire (n : Nat) : Int32 := Int32.ofInt n

/-- A byte string field, unless it is empty. -/
def bytesUnlessEmpty (number : Nat) (b : Bytes) : Bytes :=
  if b = [] then [] else Field.bytes number b

end Wire

namespace BroadcastRequest

/-- The bytes of a request. -/
def encode (r : BroadcastRequest) : Bytes :=
  Wire.bytesUnlessEmpty 1 r.payload ++ Wire.bytesUnlessEmpty 2 r.signature

/-- A request with one more field read. -/
def update? (r : BroadcastRequest) (field : Field) : Option BroadcastRequest :=
  match field.number, field.value with
  | 1, .bytes b => some { r with payload := b }
  | 2, .bytes b => some { r with signature := b }
  | 1, _ | 2, _ => none
  | _, _ => some r

/-- The request of some bytes. -/
def decode? (bs : Bytes) : Option BroadcastRequest := do
  (← Field.readAll? bs).foldlM update? {}

end BroadcastRequest

namespace DeliverRequest

/-- The bytes of a request. -/
def encode (r : DeliverRequest) : Bytes :=
  Wire.bytesUnlessEmpty 1 r.payload ++ Wire.bytesUnlessEmpty 2 r.signature

/-- A request with one more field read. -/
def update? (r : DeliverRequest) (field : Field) : Option DeliverRequest :=
  match field.number, field.value with
  | 1, .bytes b => some { r with payload := b }
  | 2, .bytes b => some { r with signature := b }
  | 1, _ | 2, _ => none
  | _, _ => some r

/-- The request of some bytes. -/
def decode? (bs : Bytes) : Option DeliverRequest := do
  (← Field.readAll? bs).foldlM update? {}

end DeliverRequest

namespace BroadcastResponse

/-- An answer with a status. -/
def withStatus (status : ReplyStatus) (info : String) : BroadcastResponse := ⟨status.number, info⟩

/-- What the status number means; a number without a meaning counts as invalid. -/
def meaning (r : BroadcastResponse) : ReplyStatus :=
  (ReplyStatus.ofNumber? r.status).getD .invalid

/-- The bytes of an answer. -/
def encode (r : BroadcastResponse) : Bytes :=
  (if r.status = 0 then [] else Field.varint 1 (Wire.statusToWire r.status)) ++
    Wire.bytesUnlessEmpty 2 (Bytes.ofText r.info)

/-- An answer with one more field read. -/
def update? (r : BroadcastResponse) (field : Field) : Option BroadcastResponse :=
  match field.number, field.value with
  | 1, .varint n => some { r with status := Wire.statusOfWire n }
  | 2, .bytes b => (Bytes.toText? b).map fun info => { r with info }
  | 1, _ | 2, _ => none
  | _, _ => some r

/-- The answer of some bytes. -/
def decode? (bs : Bytes) : Option BroadcastResponse := do
  (← Field.readAll? bs).foldlM update? {}

end BroadcastResponse

namespace DeliverResponse

/-- An answer with a status. -/
def withStatus (s : ReplyStatus) : DeliverResponse := status s.number

/-- The bytes of an answer. -/
def encode : DeliverResponse → Bytes
  | unset => []
  | status n => Field.varint 1 (Wire.statusToWire n)
  | txid id => Field.bytes 2 id

/-- An answer with one more field read. -/
def update? (r : DeliverResponse) (field : Field) : Option DeliverResponse :=
  match field.number, field.value with
  | 1, .varint n => some (status (Wire.statusOfWire n))
  | 2, .bytes b => some (txid b)
  | 1, _ | 2, _ => none
  | _, _ => some r

/-- The answer of some bytes. -/
def decode? (bs : Bytes) : Option DeliverResponse := do
  (← Field.readAll? bs).foldlM update? unset

end DeliverResponse

end OrderingService
