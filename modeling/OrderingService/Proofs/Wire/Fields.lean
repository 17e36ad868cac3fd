import OrderingService.Wire.Message

/-!
# Fields that were written

A message on the wire is fields one after the other, and nothing marks where it ends. So reading
back is a statement about a field with anything behind it, and the whole message follows by going
from field to field. The reader counts its steps with the bytes it was given; each field takes at
least one, so the count is never what stops it.

`Field.Spells` is the writing side alone: it says which fields some bytes are made of and does not
look at the reader. It is what lets "this field is not written" be said without decoding anything.

## Main definitions

* `Field.Spells` — the fields that some bytes are made of
* `Field.written` — the plain fields that are written, those not at their default

## Main results

* `Field.read?_varint_append`, `Field.read?_bytes_append` — one field is read back
* `Field.Spells.readAll?_eq` — all fields are read back
* `Wire.statusOfWire_statusToWire` — a status number survives its 64-bit form
-/

namespace OrderingService

theorem Varint.encode_ne_nil (n : Nat) : Varint.encode n ≠ [] := by
  rw [Varint.encode]
  split
  · simp
  · simp

namespace WireForm

@[simp] theorem ofNumber?_number (form : WireForm) : ofNumber? form.number = some form := by
  cases form <;> rfl

theorem number_lt (form : WireForm) : form.number < 8 := by
  cases form <;> decide

end WireForm

namespace Field

variable {number n : Nat} {b : Bytes}

/-! ### One field -/

/-- A field number that a key has room for. -/
def Numbered (number : Nat) : Prop := 0 < number ∧ number < 2 ^ 29

theorem key?_key_append (hnumber : Numbered number) (form : WireForm) (rest : Bytes) :
    key? (key number form ++ rest) = some ((number, form), rest) := by
  obtain ⟨hpos, hlt⟩ := hnumber
  have hform := form.number_lt
  have hread : Varint.decode? (key number form ++ rest) = some (8 * number + form.number, rest) :=
    Varint.decode?_encode_append _ _ (by omega)
  have hdiv : (8 * number + form.number) / 8 = number := by omega
  have hmod : (8 * number + form.number) % 8 = form.number := by omega
  have hbounds : (guard (8 * number + form.number < 2 ^ 32 ∧
      0 < (8 * number + form.number) / 8) : Option Unit) = some () :=
    if_pos ⟨by omega, by rwa [hdiv]⟩
  rw [key?, hread, Option.bind_eq_bind, Option.bind_some]
  dsimp only
  rw [hbounds, Option.bind_eq_bind, Option.bind_some, hmod, hdiv, WireForm.ofNumber?_number]
  rfl

theorem key_append_ne_nil (number : Nat) (form : WireForm) (rest : Bytes) :
    key number form ++ rest ≠ [] := by
  intro h
  exact Varint.encode_ne_nil _ (List.append_eq_nil_iff.mp h).1

theorem split?_append (b rest : Bytes) : split? b.length (b ++ rest) = some (b, rest) := by
  simp [split?]

/-- **A field with a number is read back,** with what follows it. -/
theorem read?_varint_append (hnumber : Numbered number) (hn : n < 2 ^ 64) (fuel : Nat)
    (rest : Bytes) : read? fuel (varint number n ++ rest) = some (⟨number, .varint n⟩, rest) := by
  have hplain : plain? .varint (Varint.encode n ++ rest) = some (.varint n, rest) := by
    rw [plain?, Varint.decode?_encode_append n rest hn]
    rfl
  rw [read?, varint, List.append_assoc, key?_key_append hnumber, Option.bind_eq_bind,
    Option.bind_some]
  dsimp only
  rw [hplain]
  rfl

/-- **A field with a byte string is read back,** with what follows it. -/
theorem read?_bytes_append (hnumber : Numbered number) (hb : b.length < 2 ^ 64) (fuel : Nat)
    (rest : Bytes) : read? fuel (bytes number b ++ rest) = some (⟨number, .bytes b⟩, rest) := by
  have hplain : plain? .bytes (Varint.encode b.length ++ (b ++ rest)) = some (.bytes b, rest) := by
    simp only [plain?, Varint.decode?_encode_append b.length _ hb, Option.bind_eq_bind,
      Option.bind_some, split?_append]
    rfl
  rw [read?, bytes, List.append_assoc, List.append_assoc, key?_key_append hnumber,
    Option.bind_eq_bind, Option.bind_some]
  dsimp only
  rw [hplain]
  rfl

/-! ### All fields -/

/-- The fields that some bytes are made of, in order. -/
inductive Spells : Bytes → List Field → Prop
  | nil : Spells [] []
  | varint {number n : Nat} {rest : Bytes} {fields : List Field} (hnumber : Numbered number)
    (hn : n < 2 ^ 64) (tail : Spells rest fields) :
    Spells (varint number n ++ rest) (⟨number, .varint n⟩ :: fields)
  | bytes {number : Nat} {b rest : Bytes} {fields : List Field} (hnumber : Numbered number)
    (hb : b.length < 2 ^ 64) (tail : Spells rest fields) :
    Spells (bytes number b ++ rest) (⟨number, .bytes b⟩ :: fields)

variable {bs bs' : Bytes} {fields fields' : List Field}

theorem Spells.append (h : Spells bs fields) (h' : Spells bs' fields') :
    Spells (bs ++ bs') (fields ++ fields') := by
  induction h with
  | nil => exact h'
  | varint hnumber hn _ ih =>
    rw [List.append_assoc]
    exact .varint hnumber hn ih
  | bytes hnumber hb _ ih =>
    rw [List.append_assoc]
    exact .bytes hnumber hb ih

/-- A field that takes at least one byte costs one step of the reader. -/
theorem readUpTo?_append {field : Field} {head rest : Bytes} (hne : head ≠ [])
    (hread : ∀ fuel, read? fuel (head ++ rest) = some (field, rest))
    (htail : ∀ fuel, rest.length ≤ fuel → readUpTo? fuel rest = some fields) :
    ∀ fuel, (head ++ rest).length ≤ fuel → readUpTo? fuel (head ++ rest) = some (field :: fields) := by
  intro fuel hfuel
  obtain ⟨x, xs, rfl⟩ := List.exists_cons_of_ne_nil hne
  cases fuel with
  | zero => simp at hfuel
  | succ fuel =>
    have hrest : readUpTo? fuel rest = some fields := by
      refine htail fuel ?_
      simp only [List.length_append, List.length_cons] at hfuel
      omega
    rw [readUpTo?, hread fuel, Option.bind_eq_bind, Option.bind_some]
    · dsimp only
      rw [hrest]
      rfl
    · simp

theorem Spells.readUpTo?_eq (h : Spells bs fields) :
    ∀ fuel, bs.length ≤ fuel → readUpTo? fuel bs = some fields := by
  induction h with
  | nil =>
    intro fuel _
    rw [readUpTo?]
  | varint hnumber hn _ ih =>
    exact readUpTo?_append (key_append_ne_nil _ _ _)
      (fun fuel => read?_varint_append hnumber hn fuel _) ih
  | bytes hnumber hb _ ih =>
    refine readUpTo?_append ?_ (fun fuel => read?_bytes_append hnumber hb fuel _) ih
    rw [Field.bytes, List.append_assoc]
    exact key_append_ne_nil _ _ _

/-- **The fields that bytes are made of are the fields that are read.** -/
theorem Spells.readAll?_eq (h : Spells bs fields) : readAll? bs = some fields :=
  h.readUpTo?_eq bs.length (Nat.le_refl _)

end Field

/-! ### Plain fields -/

/-- Whether a value is the default of its form. -/
def FieldValue.isDefault : FieldValue → Bool
  | .varint n => n == 0
  | .bytes b => b.isEmpty
  | .fixed | .group => false

/-- The fields that are written of a message whose fields are all plain: those that are not at
their default. -/
def Field.written (fields : List Field) : List Field := fields.filter (!·.value.isDefault)

namespace Wire

open OrderingService.Field (Numbered Spells)

variable {number : Nat}

theorem bytesUnlessEmpty_spells {b : Bytes} (hnumber : Numbered number) (hb : b.length < 2 ^ 64) :
    Spells (bytesUnlessEmpty number b) (Field.written [⟨number, .bytes b⟩]) := by
  rw [bytesUnlessEmpty]
  split
  next h =>
    subst h
    exact .nil
  next h =>
    have hkept : Field.written [⟨number, .bytes b⟩] = [⟨number, .bytes b⟩] := by
      simp [Field.written, FieldValue.isDefault, h]
    rw [hkept, ← List.append_nil (Field.bytes number b)]
    exact .bytes hnumber hb .nil

/-! ### Status numbers -/

theorem statusToWire_lt (n : Int32) : statusToWire n < 2 ^ 64 := by
  rw [statusToWire]
  omega

/-- **A status number survives its 64-bit form,** the sign of a negative one included. -/
theorem statusOfWire_statusToWire (n : Int32) : statusOfWire (statusToWire n) = n := by
  have hlow := n.le_toInt
  have hhigh := n.toInt_lt
  rw [statusOfWire, statusToWire, Int32.ofInt_eq_iff_bmod_eq_toInt, Int.bmod_def]
  omega

theorem statusToWire_eq_zero_iff {n : Int32} : statusToWire n = 0 ↔ n = 0 := by
  constructor
  · intro h
    rw [← statusOfWire_statusToWire n, h]
    rfl
  · rintro rfl
    rfl

theorem status_spells {n : Int32} (hnumber : Numbered number) :
    Spells (if n = 0 then [] else Field.varint number (statusToWire n))
      (Field.written [⟨number, .varint (statusToWire n)⟩]) := by
  split
  next h =>
    subst h
    exact .nil
  next h =>
    have hkept : Field.written [⟨number, .varint (statusToWire n)⟩]
        = [⟨number, .varint (statusToWire n)⟩] := by
      simp [Field.written, FieldValue.isDefault, statusToWire_eq_zero_iff, h]
    rw [hkept, ← List.append_nil (Field.varint number _)]
    exact .varint hnumber (statusToWire_lt n) .nil

end Wire

end OrderingService
