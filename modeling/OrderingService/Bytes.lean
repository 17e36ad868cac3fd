/-!
# Byte strings

Payloads, digests, keys on the wire and file contents are all byte strings. They are lists, so
that a statement about them is a statement about lists.

## Main definitions

* `Bytes.toHex` — lower-case hexadecimal text, two digits a byte
* `Bytes.ofText`, `Bytes.toText?` — the UTF-8 bytes of a text, and the text of valid UTF-8 bytes
* `Bytes.display` — the text as which any bytes are shown

## Main statements

* `Bytes.toHex_inj` — different byte strings have different hexadecimal texts
* `Bytes.toText?_ofText` — every text is read back from its bytes
* `Bytes.display_ofText` — the bytes of a text are shown as that text
-/

namespace OrderingService

/-- A byte string. -/
abbrev Bytes := List UInt8

namespace Bytes

/-- The lower-case hexadecimal digit of a number below sixteen. -/
def hexDigit (n : UInt8) : Char :=
  Char.ofNat (if n < 10 then 48 + n.toNat else 87 + n.toNat)

/-- Lower-case hexadecimal text, two digits a byte. -/
def toHex (b : Bytes) : String :=
  String.ofList (b.flatMap fun x => [hexDigit (x / 16), hexDigit (x % 16)])

/-- The UTF-8 bytes of a text. -/
def ofText (s : String) : Bytes := s.toUTF8.data.toList

/-- The text whose UTF-8 bytes these are, if there is one. -/
def toText? (b : Bytes) : Option String := String.fromUTF8? (ByteArray.mk b.toArray)

theorem toNat_hexDigit {n : UInt8} (hn : n < 16) :
    (hexDigit n).toNat = if n < 10 then 48 + n.toNat else 87 + n.toNat := by
  have hlt : n.toNat < 16 := hn
  have hvalid : (if n < 10 then 48 + n.toNat else 87 + n.toNat).isValidChar := by
    split
    · exact Or.inl (by omega)
    · exact Or.inl (by omega)
  rw [hexDigit, Char.ofNat, dif_pos hvalid]
  rfl

theorem hexDigit_inj {m n : UInt8} (hm : m < 16) (hn : n < 16) (h : hexDigit m = hexDigit n) :
    m = n := by
  have hchars := congrArg Char.toNat h
  rw [toNat_hexDigit hm, toNat_hexDigit hn] at hchars
  have hm : m.toNat < 16 := hm
  have hn : n.toNat < 16 := hn
  have hten : (10 : UInt8).toNat = 10 := rfl
  refine UInt8.toNat_inj.mp ?_
  simp only [UInt8.lt_iff_toNat_lt, hten] at hchars
  split at hchars <;> split at hchars <;> omega

theorem div_sixteen_lt (x : UInt8) : x / 16 < 16 := by
  have hlt := x.toNat_lt
  show x.toNat / 16 < 16
  omega

theorem mod_sixteen_lt (x : UInt8) : x % 16 < 16 := Nat.mod_lt x.toNat (by decide)

/-- Different byte strings have different hexadecimal texts. -/
theorem toHex_inj {a b : Bytes} (h : toHex a = toHex b) : a = b := by
  induction a generalizing b with
  | nil =>
    cases b with
    | nil => rfl
    | cons y b => simp [toHex] at h
  | cons x a ih =>
    cases b with
    | nil => simp [toHex] at h
    | cons y b =>
      have h := String.ofList_inj.mp h
      simp only [List.flatMap_cons, List.cons_append, List.nil_append, List.cons.injEq] at h
      obtain ⟨hhigh, hlow, hrest⟩ := h
      have hhigh : x.toNat / 16 = y.toNat / 16 :=
        congrArg UInt8.toNat (hexDigit_inj (div_sixteen_lt x) (div_sixteen_lt y) hhigh)
      have hlow : x.toNat % 16 = y.toNat % 16 :=
        congrArg UInt8.toNat (hexDigit_inj (mod_sixteen_lt x) (mod_sixteen_lt y) hlow)
      have hxy : x = y := UInt8.toNat_inj.mp (by omega)
      rw [hxy, ih (String.ofList_inj.mpr hrest)]

/-- Every text is read back from its bytes. -/
theorem toText?_ofText (s : String) : toText? (ofText s) = some s := by
  rw [toText?, ofText, Array.toArray_toList, String.toUTF8_eq_toByteArray, String.fromUTF8?,
    dif_pos s.isValidUTF8]
  rfl

theorem ofText_of_toText? {b : Bytes} {s : String} (h : toText? b = some s) : ofText s = b := by
  rw [toText?, String.fromUTF8?] at h
  split at h
  next =>
    cases h
    rfl
  next => cases h

/-! ### Texts to be shown -/

/-- Whether a byte continues a character. -/
def isContinuation (x : UInt8) : Bool := 0x80 ≤ x && x ≤ 0xbf

/-- Whether a byte may be the second of a character of three or four bytes. After the least and the
greatest first bytes, and after the one of the surrogates, fewer may. -/
def mayFollow (lead x : UInt8) : Bool :=
  if lead = 0xe0 then 0xa0 ≤ x && x ≤ 0xbf
  else if lead = 0xed then 0x80 ≤ x && x ≤ 0x9f
  else if lead = 0xf0 then 0x90 ≤ x && x ≤ 0xbf
  else if lead = 0xf4 then 0x80 ≤ x && x ≤ 0x8f
  else 0xe0 ≤ lead && lead ≤ 0xf4 && isContinuation x

/-- How many bytes are shown as one where no character stands at the front: as many as could have
begun one, and at least one. -/
def brokenLength : Bytes → Nat
  | lead :: second :: rest =>
    if mayFollow lead second then
      match rest with
      | third :: _ => if 0xf0 ≤ lead && isContinuation third then 3 else 2
      | [] => 2
    else 1
  | _ => 1

/-- The characters as which bytes are shown, `bound` of them at most. -/
def shown : (bound : Nat) → Bytes → List Char
  | 0, _ => []
  | bound + 1, b =>
    if b = [] then []
    else match b.toByteArray.utf8DecodeChar? 0 with
      | some c => c :: shown bound (b.drop c.utf8Size)
      | none => '\ufffd' :: shown bound (b.drop (brokenLength b))

/-- The text as which bytes are shown: what belongs to no character is replaced. -/
def display (b : Bytes) : String := String.ofList (shown b.length b)

theorem ofText_eq_flatMap (s : String) : ofText s = s.toList.flatMap String.utf8EncodeChar := by
  rw [ofText, String.toUTF8_eq_toByteArray, ← String.utf8Encode_toList, List.utf8Encode,
    List.data_toByteArray]

theorem shown_flatMap {bound : Nat} {cs : List Char}
    (h : (cs.flatMap String.utf8EncodeChar).length ≤ bound) :
    shown bound (cs.flatMap String.utf8EncodeChar) = cs := by
  induction bound generalizing cs with
  | zero =>
    cases cs with
    | nil => rfl
    | cons c cs =>
      have hpos := c.utf8Size_pos
      rw [List.flatMap_cons, List.length_append, String.length_utf8EncodeChar] at h
      omega
  | succ bound ih =>
    cases cs with
    | nil => rfl
    | cons c cs =>
      have hpos := c.utf8Size_pos
      have hlength := String.length_utf8EncodeChar c
      have hdecode : ((c :: cs).flatMap String.utf8EncodeChar).toByteArray.utf8DecodeChar? 0
          = some c := List.utf8DecodeChar?_utf8Encode_cons
      have hdrop : ((c :: cs).flatMap String.utf8EncodeChar).drop c.utf8Size
          = cs.flatMap String.utf8EncodeChar := by
        rw [List.flatMap_cons, ← hlength, List.drop_left]
      rw [List.flatMap_cons, List.length_append, hlength] at h
      rw [shown, if_neg (by simp), hdecode]
      dsimp only
      rw [hdrop, ih (by omega)]

/-- A text is shown as it is. -/
theorem display_ofText (s : String) : display (ofText s) = s := by
  rw [display, ofText_eq_flatMap, shown_flatMap (Nat.le_refl _), String.ofList_toList]

example : display [0x61, 0xf1, 0x80, 0x80, 0xe1, 0x80, 0xc2, 0x62, 0x80, 0x63, 0xed, 0xa0, 0x64]
    = "a\ufffd\ufffd\ufffdb\ufffdc\ufffd\ufffdd" := by decide +kernel

end Bytes

end OrderingService
