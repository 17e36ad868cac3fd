import OrderingService.Proofs.Wire.Fields

/-!
# Messages survive the wire

A message is written, read again, and is the same. What makes this less than obvious is that the
writer leaves things out. A plain field at its default is not written at all, and the reader starts
from a message whose fields are all at their defaults, so what was left out is there before anything
is read. The answer of a deliver stream works the other way round: which of its members is chosen is
part of its meaning, so the chosen one is written even when it is at its default, and an answer
without a member is the only one that takes no bytes.

Nothing is asked of a message but that its byte strings have lengths that the wire has room for.

## Main definitions

* `Bytes.Holdable` — the wire has room for a length
* `Wire.requestFields`, `BroadcastResponse.fields`, `DeliverResponse.fields` — the fields of the
  messages, those at their defaults included

## Main results

* `Wire.read_request` — requests of either kind
* `Wire.messages_roundTrip` — all four messages survive; what is written of them, and what is not
-/

namespace OrderingService

open OrderingService.Field (Spells)

/-- The length of a byte string has room on the wire. No machine holds a longer byte string. -/
def Bytes.Holdable (b : Bytes) : Prop := b.length < 2 ^ 64

instance (b : Bytes) : Decidable b.Holdable := inferInstanceAs (Decidable (_ < _))

namespace Wire

variable {payload signature : Bytes}

/-- The fields of a request of either kind. -/
def requestFields (payload signature : Bytes) : List Field :=
  [⟨1, .bytes payload⟩, ⟨2, .bytes signature⟩]

/-- **What is written of a request:** its fields, but for empty ones. -/
theorem request_spells (hpayload : payload.Holdable) (hsignature : signature.Holdable) :
    Spells (bytesUnlessEmpty 1 payload ++ bytesUnlessEmpty 2 signature)
      (Field.written (requestFields payload signature)) := by
  have hfirst : Spells (bytesUnlessEmpty 1 payload) (Field.written [⟨1, .bytes payload⟩]) :=
    bytesUnlessEmpty_spells ⟨by decide, by decide⟩ hpayload
  have hsecond : Spells (bytesUnlessEmpty 2 signature) (Field.written [⟨2, .bytes signature⟩]) :=
    bytesUnlessEmpty_spells ⟨by decide, by decide⟩ hsignature
  have hboth := hfirst.append hsecond
  rwa [Field.written, Field.written, ← List.filter_append] at hboth

/-- **A request is read from the fields of a request,** whichever kind wrote them. The fields that
were left out are at their defaults before reading starts. -/
theorem read_request {α : Type} {update? : α → Field → Option α} (make : Bytes → Bytes → α)
    (hfirst : ∀ p s b, update? (make p s) ⟨1, .bytes b⟩ = some (make b s))
    (hsecond : ∀ p s b, update? (make p s) ⟨2, .bytes b⟩ = some (make p b))
    (hpayload : payload.Holdable) (hsignature : signature.Holdable) :
    (Field.readAll? (bytesUnlessEmpty 1 payload ++ bytesUnlessEmpty 2 signature) >>=
      fun fields => fields.foldlM update? (make [] [])) = some (make payload signature) := by
  rw [(request_spells hpayload hsignature).readAll?_eq]
  show (Field.written (requestFields payload signature)).foldlM update? (make [] []) = _
  by_cases hempty : payload = [] <;> by_cases hempty' : signature = [] <;>
    simp [Field.written, requestFields, FieldValue.isDefault, hempty, hempty', hfirst, hsecond]

end Wire

open Wire (requestFields request_spells)

/-! ### The messages one by one -/

theorem BroadcastRequest.decode?_request {payload signature : Bytes} (hpayload : payload.Holdable)
    (hsignature : signature.Holdable) :
    decode? (Wire.bytesUnlessEmpty 1 payload ++ Wire.bytesUnlessEmpty 2 signature)
      = some ⟨payload, signature⟩ :=
  Wire.read_request mk (fun _ _ _ => rfl) (fun _ _ _ => rfl) hpayload hsignature

theorem DeliverRequest.decode?_request {payload signature : Bytes} (hpayload : payload.Holdable)
    (hsignature : signature.Holdable) :
    decode? (Wire.bytesUnlessEmpty 1 payload ++ Wire.bytesUnlessEmpty 2 signature)
      = some ⟨payload, signature⟩ :=
  Wire.read_request mk (fun _ _ _ => rfl) (fun _ _ _ => rfl) hpayload hsignature

namespace BroadcastResponse

/-- The fields of an answer to a broadcast request. -/
def fields (r : BroadcastResponse) : List Field :=
  [⟨1, .varint (Wire.statusToWire r.status)⟩, ⟨2, .bytes (Bytes.ofText r.info)⟩]

/-- **What is written of an answer:** its fields, but for the number zero and the empty text. -/
theorem encode_spells {r : BroadcastResponse} (hinfo : (Bytes.ofText r.info).Holdable) :
    Spells r.encode (Field.written r.fields) := by
  have hstatus : Spells (if r.status = 0 then [] else Field.varint 1 (Wire.statusToWire r.status))
      (Field.written [⟨1, .varint (Wire.statusToWire r.status)⟩]) :=
    Wire.status_spells ⟨by decide, by decide⟩
  have htext : Spells (Wire.bytesUnlessEmpty 2 (Bytes.ofText r.info))
      (Field.written [⟨2, .bytes (Bytes.ofText r.info)⟩]) :=
    Wire.bytesUnlessEmpty_spells ⟨by decide, by decide⟩ hinfo
  have hboth := hstatus.append htext
  rwa [Field.written, Field.written, ← List.filter_append] at hboth

theorem foldlM_written (r : BroadcastResponse) :
    (Field.written r.fields).foldlM update? {} = some r := by
  obtain ⟨status, info⟩ := r
  have hinfo : Bytes.ofText info = [] → info = "" := by
    intro h
    have hread := Bytes.toText?_ofText info
    rw [h] at hread
    exact (Option.some.inj hread).symm
  by_cases hstatus : status = 0 <;> by_cases hempty : Bytes.ofText info = [] <;>
    simp_all [Field.written, fields, FieldValue.isDefault, Wire.statusToWire_eq_zero_iff,
      Wire.statusOfWire_statusToWire, Bytes.toText?_ofText, update?]

theorem decode?_encode {r : BroadcastResponse} (hinfo : (Bytes.ofText r.info).Holdable) :
    decode? r.encode = some r := by
  rw [decode?, (encode_spells hinfo).readAll?_eq]
  exact foldlM_written r

end BroadcastResponse

namespace DeliverResponse

/-- The fields of an answer of a deliver stream: the member that was chosen, if one was. -/
def fields : DeliverResponse → List Field
  | unset => []
  | status n => [⟨1, .varint (Wire.statusToWire n)⟩]
  | txid id => [⟨2, .bytes id⟩]

/-- The byte string in an answer has room on the wire, if there is one. -/
def Holdable : DeliverResponse → Prop
  | unset | status _ => True
  | txid id => id.Holdable

/-- **What is written of an answer:** the member that was chosen, also when it is at its default. -/
theorem encode_spells {r : DeliverResponse} (hr : r.Holdable) : Spells r.encode r.fields := by
  cases r with
  | unset => exact .nil
  | status n =>
    rw [encode, ← List.append_nil (Field.varint 1 _)]
    exact .varint ⟨by decide, by decide⟩ (Wire.statusToWire_lt n) .nil
  | txid id =>
    rw [encode, ← List.append_nil (Field.bytes 2 id)]
    exact .bytes ⟨by decide, by decide⟩ hr .nil

theorem decode?_encode {r : DeliverResponse} (hr : r.Holdable) : decode? r.encode = some r := by
  rw [decode?, (encode_spells hr).readAll?_eq]
  cases r with
  | unset => rfl
  | status n => simp [fields, update?, Wire.statusOfWire_statusToWire]
  | txid id => simp [fields, update?]

end DeliverResponse

/-! ### All messages -/

namespace Wire

/-- **Messages survive the wire.** Each is read back as it was, a request of one kind is read as the
same request of the other kind, and what is written are the plain fields that are not at their
defaults, and the chosen member of an answer whatever it holds. So an answer without a member, one
with the status number zero and one with an empty id are written as three different things. -/
theorem messages_roundTrip :
    (∀ r : BroadcastRequest, r.payload.Holdable → r.signature.Holdable →
      BroadcastRequest.decode? r.encode = some r ∧
      DeliverRequest.decode? r.encode = some ⟨r.payload, r.signature⟩ ∧
      Spells r.encode (Field.written (requestFields r.payload r.signature))) ∧
    (∀ r : DeliverRequest, r.payload.Holdable → r.signature.Holdable →
      DeliverRequest.decode? r.encode = some r ∧
      BroadcastRequest.decode? r.encode = some ⟨r.payload, r.signature⟩ ∧
      Spells r.encode (Field.written (requestFields r.payload r.signature))) ∧
    (∀ r : BroadcastResponse, (Bytes.ofText r.info).Holdable →
      BroadcastResponse.decode? r.encode = some r ∧ Spells r.encode (Field.written r.fields)) ∧
    (∀ r : DeliverResponse, r.Holdable →
      DeliverResponse.decode? r.encode = some r ∧ Spells r.encode r.fields) ∧
    [DeliverResponse.unset, .withStatus .invalid, .txid []].map DeliverResponse.encode
      = [[], [8, 0], [18, 0]] := by
  refine ⟨?broadcastRequest, ?deliverRequest, ?broadcastResponse, ?deliverResponse, ?distinct⟩
  case broadcastRequest =>
    intro r hpayload hsignature
    exact ⟨BroadcastRequest.decode?_request hpayload hsignature,
      DeliverRequest.decode?_request hpayload hsignature, request_spells hpayload hsignature⟩
  case deliverRequest =>
    intro r hpayload hsignature
    exact ⟨DeliverRequest.decode?_request hpayload hsignature,
      BroadcastRequest.decode?_request hpayload hsignature, request_spells hpayload hsignature⟩
  case broadcastResponse =>
    intro r hinfo
    exact ⟨BroadcastResponse.decode?_encode hinfo, BroadcastResponse.encode_spells hinfo⟩
  case deliverResponse =>
    intro r hr
    exact ⟨DeliverResponse.decode?_encode hr, DeliverResponse.encode_spells hr⟩
  case distinct => cbv

/-- An empty payload before a signature whose length takes two bytes, a negative status number with
a text beyond ASCII, and an empty id. -/
theorem messages_roundTrip_mixed :
    let request : BroadcastRequest := ⟨[], List.replicate 200 7⟩
    let answer : BroadcastResponse := ⟨-2, "é"⟩
    let delivered : DeliverResponse := .txid []
    (request.payload.Holdable ∧ request.signature.Holdable ∧ (Bytes.ofText answer.info).Holdable ∧
      delivered.Holdable) ∧
    BroadcastRequest.decode? request.encode = some request ∧
    DeliverRequest.decode? request.encode = some ⟨[], List.replicate 200 7⟩ ∧
    BroadcastResponse.decode? answer.encode = some answer ∧
    DeliverResponse.decode? delivered.encode = some delivered := by
  intro request answer delivered
  obtain ⟨hrequests, -, hanswers, hdelivered, -⟩ := messages_roundTrip
  have hpayload : request.payload.Holdable := by decide
  have hsignature : request.signature.Holdable := by decide +kernel
  have hinfo : (Bytes.ofText answer.info).Holdable := by decide +kernel
  have hid : Bytes.Holdable [] := by decide
  obtain ⟨hrequest, hother, -⟩ := hrequests request hpayload hsignature
  exact ⟨⟨hpayload, hsignature, hinfo, hid⟩, hrequest, hother, (hanswers answer hinfo).1,
    (hdelivered delivered hid).1⟩

end Wire

end OrderingService
