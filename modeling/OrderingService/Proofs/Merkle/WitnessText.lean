import OrderingService.Merkle.WitnessJson
import OrderingService.Proofs.Json.Grammar

/-!
# Witnesses survive JSON

A text of a witness need not be the one that was written. Other writers put the fields in another
order, add fields of their own and set blanks where they like; a key may be spelled with escapes.
All of these texts are described at once, by what an object with these members says of a witness:
the members whose keys name one of the five fields are the five fields of the witness, in some
order. Whatever else is among the members is not looked at, not even at its value.

Positions and counts are integers of 64 bits and are read as such. Nothing about them goes through
a number with a fraction, so the integers that such a number cannot tell apart are kept apart.

## Main definitions

* `Witness.Describes` — the texts of a witness

## Main results

* `Witness.ofJson?_object` — five fields in some order and among others are read
* `Witness.kept_in_json` — the written text describes the witness, and every text that does is read
  as the witness
-/

namespace OrderingService

namespace Witness

variable {w : Witness}

/-! ### Values -/

theorem mapM_map_eq {α β : Type} {read : β → Option α} {write : α → β} {xs : List α}
    (hread : ∀ x ∈ xs, read (write x) = some x) : (xs.map write).mapM read = some xs := by
  induction xs with
  | nil => rfl
  | cons x xs ih =>
    rw [List.forall_mem_cons] at hread
    rw [List.map_cons, List.mapM_cons, hread.1, ih hread.2]
    rfl

/-- An array whose items are read one by one. -/
theorem items?_array {α : Type} {read : JsonValue → Option α} {write : α → JsonValue} {xs : List α}
    (hread : ∀ x ∈ xs, read (write x) = some x) : items? read (.array (xs.map write)) = some xs :=
  mapM_map_eq hread

theorem bytes?_bytesToJson (b : Bytes) : bytes? (bytesToJson b) = some b := by
  refine items?_array fun x _ => ?_
  rw [naturalBelow?, if_pos x.toNat_lt, Option.map_some, UInt8.ofNat_toNat]

theorem count?_natural {n : Nat} (hn : n < 2 ^ 64) : count? (.natural n) = some n := if_pos hn

theorem spells_bytesToJson (b : Bytes) :
    Json.Spells (.value (bytesToJson b)) (bytesToJson b).render := by
  refine Json.spells_array fun v hv => ?_
  obtain ⟨x, -, rfl⟩ := List.mem_map.mp hv
  exact Json.spells_natural _

/-! ### Fields -/

/-- The keys of a witness. -/
def fieldNames : List (List Char) :=
  ["root", "leaf", "path", "leaf_index", "leaf_count"].map String.toList

theorem isPlain_of_mem_fieldNames {name : List Char} (hname : name ∈ fieldNames) :
    name.all Json.isPlain = true :=
  List.all_eq_true.mp (show fieldNames.all (·.all Json.isPlain) = true by decide) name hname

theorem map_fst_jsonFields (w : Witness) : w.jsonFields.map (·.1) = fieldNames := rfl

theorem fst_mem_fieldNames {m : List Char × JsonValue} (hm : m ∈ w.jsonFields) :
    m.1 ∈ fieldNames :=
  w.map_fst_jsonFields ▸ List.mem_map_of_mem hm

/-- Keys without escapes are read as they are written. -/
theorem readKeys?_of_isPlain {members : List (List Char × JsonValue)}
    (hmembers : ∀ m ∈ members, m.1.all Json.isPlain = true) :
    readKeys? members = some members := by
  have hkeys : ∀ m ∈ members, ((Json.unescape? m.1).map fun key => (key, m.2)) = some m := by
    intro m hm
    rw [Json.unescape?_of_isPlain (hmembers m hm)]
    rfl
  rw [readKeys?]
  nth_rewrite 1 [← List.map_id members]
  exact mapM_map_eq hkeys

theorem isPlain_of_mem_jsonFields {m : List Char × JsonValue} (hm : m ∈ w.jsonFields) :
    m.1.all Json.isPlain = true :=
  isPlain_of_mem_fieldNames (fst_mem_fieldNames hm)

/-- The values of a witness are written in the grammar. -/
theorem spells_of_mem_jsonFields {m : List Char × JsonValue} (hm : m ∈ w.jsonFields) :
    Json.Spells (.value m.2) m.2.render := by
  have hpath : Json.Spells (.value (.array (w.path.map bytesToJson)))
      (JsonValue.array (w.path.map bytesToJson)).render := by
    refine Json.spells_array fun v hv => ?_
    obtain ⟨b, -, rfl⟩ := List.mem_map.mp hv
    exact spells_bytesToJson b
  simp only [jsonFields, List.mem_cons, List.not_mem_nil, or_false] at hm
  rcases hm with rfl | rfl | rfl | rfl | rfl
  · exact spells_bytesToJson w.root
  · exact spells_bytesToJson w.leaf
  · exact hpath
  · exact Json.spells_natural w.leafIndex
  · exact Json.spells_natural w.leafCount

theorem spells_toJson (w : Witness) : Json.Spells (.value w.toJson) w.toJson.render :=
  Json.spells_object fun _ hm =>
    ⟨Json.stringBody_of_isPlain (isPlain_of_mem_jsonFields hm), spells_of_mem_jsonFields hm⟩

/-- Among members with the five fields in some order, each of the five occurs once. -/
theorem uniqueField?_of_perm {fields : List (List Char × JsonValue)} {name : String} {v : JsonValue}
    (hfields : (fields.filter (fieldNames.contains ·.1)).Perm w.jsonFields)
    (hname : name.toList ∈ fieldNames)
    (hv : w.jsonFields.filter (fun m => m.1 == name.toList) = [(name.toList, v)]) :
    uniqueField? fields name = some v := by
  have hsame : (fields.filter (fieldNames.contains ·.1)).filter (fun m => m.1 == name.toList)
      = fields.filter fun m => m.1 == name.toList := by
    rw [List.filter_filter]
    refine List.filter_congr fun m _ => ?_
    by_cases hm : m.1 = name.toList
    · simp [hm, hname]
    · simp [hm]
  have honly := hfields.filter fun m => m.1 == name.toList
  rw [hsame, hv, List.perm_singleton] at honly
  rw [uniqueField?, honly]

/-- **Five fields in some order and among others are read.** -/
theorem ofJson?_object {members fields : List (List Char × JsonValue)}
    (hindex : w.leafIndex < 2 ^ 64) (hcount : w.leafCount < 2 ^ 64)
    (hkeys : readKeys? members = some fields)
    (hfields : (fields.filter (fieldNames.contains ·.1)).Perm w.jsonFields) :
    ofJson? (.object members) = some w := by
  have hroot : uniqueField? fields "root" = some (bytesToJson w.root) :=
    uniqueField?_of_perm hfields (by decide) rfl
  have hleaf : uniqueField? fields "leaf" = some (bytesToJson w.leaf) :=
    uniqueField?_of_perm hfields (by decide) rfl
  have hpath : uniqueField? fields "path" = some (.array (w.path.map bytesToJson)) :=
    uniqueField?_of_perm hfields (by decide) rfl
  have hindexField : uniqueField? fields "leaf_index" = some (.natural w.leafIndex) :=
    uniqueField?_of_perm hfields (by decide) rfl
  have hcountField : uniqueField? fields "leaf_count" = some (.natural w.leafCount) :=
    uniqueField?_of_perm hfields (by decide) rfl
  have hread : ofValues? (bytesToJson w.root) (bytesToJson w.leaf)
      (.array (w.path.map bytesToJson)) (.natural w.leafIndex) (.natural w.leafCount) = some w := by
    rw [ofValues?, bytes?_bytesToJson, bytes?_bytesToJson,
      items?_array fun b _ => bytes?_bytesToJson b, count?_natural hindex, count?_natural hcount]
    rfl
  rw [ofJson?, hkeys, Option.bind_eq_bind, Option.bind_some, hroot, hleaf, hpath, hindexField,
    hcountField]
  exact hread

/-! ### Texts -/

/-- The texts of a witness: those of an object whose members include the five fields of the witness,
each once and in any order, and no other member with one of their keys. -/
def Describes (w : Witness) (text : String) : Prop :=
  ∃ members fields, Json.IsText (.object members) text.toList ∧ readKeys? members = some fields ∧
    (fields.filter (fieldNames.contains ·.1)).Perm w.jsonFields

theorem describes_toJsonText (w : Witness) : w.Describes w.toJsonText := by
  refine ⟨w.jsonFields, w.jsonFields, ?_,
    readKeys?_of_isPlain fun _ hm => isPlain_of_mem_jsonFields hm, ?_⟩
  · refine ⟨[], w.toJson.render, [], Json.blanks_nil, w.spells_toJson, Json.blanks_nil, ?_⟩
    simp [toJsonText]
  · rw [List.filter_eq_self.mpr fun m hm => by simpa using fst_mem_fieldNames hm]

theorem Describes.ofJsonText?_eq {text : String} (h : w.Describes text)
    (hindex : w.leafIndex < 2 ^ 64) (hcount : w.leafCount < 2 ^ 64) :
    ofJsonText? text = some w := by
  obtain ⟨members, fields, htext, hkeys, hfields⟩ := h
  rw [ofJsonText?, htext.parse?_eq]
  exact ofJson?_object hindex hcount hkeys hfields

/-- **Witnesses survive JSON.** The written text is a text of the witness, and every text of the
witness is read as the witness, whatever the order of its fields and whatever stands among them. So
the witness that was read verifies just as the one that was written does. -/
theorem kept_in_json (hindex : w.leafIndex < 2 ^ 64) (hcount : w.leafCount < 2 ^ 64) :
    w.Describes w.toJsonText ∧ ∀ text, w.Describes text →
      ofJsonText? text = some w ∧
      ∀ H h, (ofJsonText? text).map (·.verify H h) = some (w.verify H h) := by
  refine ⟨w.describes_toJsonText, fun text htext => ?_⟩
  have hread := htext.ofJsonText?_eq hindex hcount
  exact ⟨hread, fun H h => by rw [hread, Option.map_some]⟩

/-- A text with the fields the other way round, a field of its own that holds one of the five keys,
and a line break at its end. The position is the first integer that a number of double precision
cannot hold, the count the largest of 64 bits. -/
theorem kept_in_json_reversed :
    let w : Witness := ⟨[1], [], [[], [255]], 9007199254740993, 18446744073709551615⟩
    let text := "\x7b\"note\":\x7b\"root\":null\x7d,\"leaf_count\":18446744073709551615,"
      ++ "\"leaf_index\":9007199254740993,\"path\":[[],[255]],\"leaf\":[],\"root\":[1]\x7d\n"
    w.leafIndex < 2 ^ 64 ∧ w.leafCount < 2 ^ 64 ∧ w.Describes text ∧ ofJsonText? text = some w := by
  intro w text
  have hindex : w.leafIndex < 2 ^ 64 := by decide
  have hcount : w.leafCount < 2 ^ 64 := by decide
  let note : List Char × JsonValue := ("note".toList, .object [("root".toList, .null)])
  let members := note :: w.jsonFields.reverse
  have hplain : ∀ m ∈ members, m.1.all Json.isPlain = true :=
    List.all_eq_true.mp (show members.all (·.1.all Json.isPlain) = true by decide)
  have hnote : Json.Spells (.value note.2) note.2.render :=
    Json.spells_object fun m hm => by
      obtain rfl := List.mem_singleton.mp hm
      exact ⟨Json.stringBody_of_isPlain (by decide), .null⟩
  have hspells : Json.Spells (.value (.object members)) (JsonValue.object members).render := by
    refine Json.spells_object fun m hm => ⟨Json.stringBody_of_isPlain (hplain m hm), ?_⟩
    rcases List.mem_cons.mp hm with rfl | hm
    · exact hnote
    · exact spells_of_mem_jsonFields (List.mem_reverse.mp hm)
  have htext : text.toList = (JsonValue.object members).render ++ ['\n'] := by decide +kernel
  have hdescribes : w.Describes text := by
    refine ⟨members, members, ⟨[], _, ['\n'], Json.blanks_nil, hspells, ?_, htext⟩,
      readKeys?_of_isPlain hplain, ?_⟩
    · simp [Json.Blanks, Json.isBlank]
    · have hfields : members.filter (fieldNames.contains ·.1) = w.jsonFields.reverse := rfl
      rw [hfields]
      exact List.reverse_perm w.jsonFields
  exact ⟨hindex, hcount, hdescribes, ((kept_in_json hindex hcount).2 text hdescribes).1⟩

end Witness

end OrderingService
