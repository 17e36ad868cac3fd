import Mathlib.Data.List.DropRight
import OrderingService.Json.Parser
import OrderingService.Proofs.Text.Numerals

/-!
# The grammar of JSON

Which texts are texts of a value is said here apart from how they are read. The grammar is that of
RFC 8259, one rule for each form of a value, with blanks where they are allowed; the reader looks at
one character at a time and counts its steps down. What is shown is that the reader misses nothing:
a text that the grammar allows is read as the value that the grammar says, whatever stands behind
it.

Two things carry the induction. The first is the bound: two steps for each character are enough, and
an array or an object gives up two characters before it looks inside. The second is what may follow.
A string or an array ends by itself, but a number goes on as long as there are digits, so a value is
read to its end only when something follows that no number goes on with. In a text that is always a
blank, a comma, a closing bracket or the end.

## Main definitions

* `Json.Spells` — the texts of a value, of the items of an array and of the members of an object
* `Json.IsText` — the texts of a value with blanks around it

## Main results

* `Json.number_append`, `Json.stringBody_append` — tokens are read to their end
* `Json.Spells.readFrom` — what the grammar allows is read
* `Json.IsText.parse?_eq` — a text of a value is read as that value
* `Json.spells_natural`, `Json.spells_array`, `Json.spells_object` — what is written is in the
  grammar
-/

namespace OrderingService

namespace Json

/-! ### The grammar -/

/-- Nothing but blanks. -/
def Blanks (cs : List Char) : Prop := ∀ c ∈ cs, isBlank c = true

/-- What may stand between the quotes of a string. -/
inductive StringBody : List Char → Prop
  | nil : StringBody []
  | plain {c : Char} {cs : List Char} (hcontrol : 0x20 ≤ c.toNat) (hquote : c ≠ '"')
    (hbackslash : c ≠ '\\') (tail : StringBody cs) : StringBody (c :: cs)
  | escape {e : Char} {cs : List Char} (he : e ∈ ['"', '\\', '/', 'b', 'f', 'n', 'r', 't'])
    (tail : StringBody cs) : StringBody ('\\' :: e :: cs)
  | unicode {a b c d : Char} {cs : List Char}
    (hdigits : ∀ x ∈ [a, b, c, d], Text.isDigit 16 x = true) (tail : StringBody cs) :
    StringBody ('\\' :: 'u' :: a :: b :: c :: d :: cs)

/-- One or more digits. -/
def Digits (cs : List Char) : Prop := cs ≠ [] ∧ ∀ c ∈ cs, isDigit c = true

/-- The whole part of a number: zero alone, or digits that do not start with zero. -/
inductive Whole : List Char → Prop
  | zero : Whole ['0']
  | digits {d : Char} {ds : List Char} (hd : d ≠ '0') (hds : Digits (d :: ds)) : Whole (d :: ds)

/-- The fraction of a number, if there is one. -/
inductive Fraction : List Char → Prop
  | none : Fraction []
  | digits {ds : List Char} (hds : Digits ds) : Fraction ('.' :: ds)

/-- The exponent of a number, if there is one. -/
inductive Exponent : List Char → Prop
  | none : Exponent []
  | digits {mark : Char} {sign ds : List Char} (hmark : mark ∈ ['e', 'E'])
    (hsign : sign ∈ [[], ['+'], ['-']]) (hds : Digits ds) : Exponent (mark :: (sign ++ ds))

/-- A part of a text: a value, or what stands between the brackets of an array or of an object. -/
inductive Phrase where
  | value (v : JsonValue)
  | items (values : List JsonValue)
  | members (members : List (List Char × JsonValue))

/-- The texts of a phrase. Blanks may stand around all tokens; those around a value belong to what
it stands in. -/
inductive Spells : Phrase → List Char → Prop
  | null : Spells (.value .null) ['n', 'u', 'l', 'l']
  | true : Spells (.value (.bool true)) ['t', 'r', 'u', 'e']
  | false : Spells (.value (.bool false)) ['f', 'a', 'l', 's', 'e']
  | natural {whole : List Char} (hwhole : Whole whole) :
    Spells (.value (.natural (Text.number 10 whole))) whole
  | number {sign whole fraction power : List Char} (hsign : sign ∈ [[], ['-']])
    (hwhole : Whole whole) (hfraction : Fraction fraction) (hpower : Exponent power)
    (hother : ¬ (sign = [] ∧ fraction = [] ∧ power = [])) :
    Spells (.value (.number (sign ++ whole ++ fraction ++ power)))
      (sign ++ whole ++ fraction ++ power)
  | string {body : List Char} (hbody : StringBody body) :
    Spells (.value (.string body)) ('"' :: (body ++ ['"']))
  | emptyArray {blanks : List Char} (hblanks : Blanks blanks) :
    Spells (.value (.array [])) ('[' :: (blanks ++ [']']))
  | array {values : List JsonValue} {cs : List Char} (inside : Spells (.items values) cs) :
    Spells (.value (.array values)) ('[' :: (cs ++ [']']))
  | emptyObject {blanks : List Char} (hblanks : Blanks blanks) :
    Spells (.value (.object [])) ('\x7b' :: (blanks ++ ['\x7d']))
  | object {members : List (List Char × JsonValue)} {cs : List Char}
    (inside : Spells (.members members) cs) :
    Spells (.value (.object members)) ('\x7b' :: (cs ++ ['\x7d']))
  | lastItem {v : JsonValue} {before cs after : List Char} (hbefore : Blanks before)
    (head : Spells (.value v) cs) (hafter : Blanks after) :
    Spells (.items [v]) (before ++ cs ++ after)
  | item {v : JsonValue} {values : List JsonValue} {before cs after rest : List Char}
    (hbefore : Blanks before) (head : Spells (.value v) cs) (hafter : Blanks after)
    (tail : Spells (.items values) rest) :
    Spells (.items (v :: values)) (before ++ cs ++ after ++ ',' :: rest)
  | lastMember {key : List Char} {v : JsonValue} {before colon middle cs after : List Char}
    (hbefore : Blanks before) (hkey : StringBody key) (hcolon : Blanks colon)
    (hmiddle : Blanks middle) (head : Spells (.value v) cs) (hafter : Blanks after) :
    Spells (.members [(key, v)])
      (before ++ '"' :: key ++ '"' :: colon ++ ':' :: middle ++ cs ++ after)
  | member {key : List Char} {v : JsonValue} {members : List (List Char × JsonValue)}
    {before colon middle cs after rest : List Char}
    (hbefore : Blanks before) (hkey : StringBody key) (hcolon : Blanks colon)
    (hmiddle : Blanks middle) (head : Spells (.value v) cs) (hafter : Blanks after)
    (tail : Spells (.members members) rest) :
    Spells (.members ((key, v) :: members))
      (before ++ '"' :: key ++ '"' :: colon ++ ':' :: middle ++ cs ++ after ++ ',' :: rest)

variable {cs rest : List Char}

/-! ### Tokens -/

theorem skip_append (hblanks : Blanks cs) (rest : List Char) : skip (cs ++ rest) = skip rest :=
  List.dropWhile_append_of_pos hblanks

theorem skip_cons {c : Char} (hc : isBlank c = false) (rest : List Char) :
    skip (c :: rest) = c :: rest := List.dropWhile_cons_of_neg (by simp [hc])

/-- Blanks are skipped up to the next token. -/
theorem skip_append_cons (hblanks : Blanks cs) {c : Char} (hc : isBlank c = false)
    (rest : List Char) : skip (cs ++ c :: rest) = c :: rest := by
  rw [skip_append hblanks, skip_cons hc]

theorem skip_skip (cs : List Char) : skip (skip cs) = skip cs :=
  List.dropWhile_idempotent isBlank cs

/-- The letters after a backslash, but for the one that four digits follow. -/
theorem exists_lookup_escapes {e : Char} (he : e ∈ ['"', '\\', '/', 'b', 'f', 'n', 'r', 't']) :
    e ≠ 'u' ∧ ∃ c, escapes.lookup e = some c := by
  have hall : ['"', '\\', '/', 'b', 'f', 'n', 'r', 't'].all
      (fun e => e != 'u' && (escapes.lookup e).isSome) = Bool.true := by decide
  have hlookup := List.all_eq_true.mp hall e he
  rw [Bool.and_eq_true, bne_iff_ne, Option.isSome_iff_exists] at hlookup
  exact hlookup

/-- **A string is read to its closing quote.** -/
theorem stringBody_append (hbody : StringBody cs) (rest : List Char) :
    stringBody (cs ++ '"' :: rest) = some (cs, rest) := by
  induction hbody with
  | nil => rfl
  | plain hcontrol hquote hbackslash _ ih =>
    rw [List.cons_append, stringBody, ih, if_neg (Nat.not_lt.mpr hcontrol)]
    · rfl
    all_goals simp_all
  | escape he _ ih =>
    obtain ⟨hu, c, hc⟩ := exists_lookup_escapes he
    rw [List.cons_append, List.cons_append, stringBody, hc, ih]
    · rfl
    · simp_all
  | unicode hdigits _ ih =>
    have hunit : [_, _, _, _].all (Text.isDigit 16) = Bool.true := List.all_eq_true.mpr hdigits
    simp [stringBody, unit?, hunit, ih]

/-! ### Numbers -/

/-- What follows does not go on with a character of some kind. -/
def StopsAt (p : Char → Bool) (rest : List Char) : Prop := ∀ c ∈ rest.head?, p c = Bool.false

theorem stopsAt_cons {p : Char → Bool} {c : Char} (hc : p c = Bool.false) :
    StopsAt p (c :: rest) := by
  intro d hd
  obtain rfl : c = d := by simpa using hd
  exact hc

theorem takeWhile_append (hds : ∀ c ∈ cs, isDigit c = Bool.true) (hrest : StopsAt isDigit rest) :
    (cs ++ rest).takeWhile isDigit = cs ∧ (cs ++ rest).dropWhile isDigit = rest := by
  rw [List.takeWhile_append_of_pos hds, List.dropWhile_append_of_pos hds]
  cases rest with
  | nil => simp
  | cons c rest =>
    have hc := hrest c rfl
    simp [hc]

theorem wholePart_append (hwhole : Whole cs) (hrest : StopsAt isDigit rest) :
    wholePart (cs ++ rest) = some (cs, rest) := by
  cases hwhole with
  | zero =>
    cases rest with
    | nil => rfl
    | cons c rest => simp [wholePart, hrest c rfl]
  | @digits d ds hd hds =>
    obtain ⟨htake, hdrop⟩ := takeWhile_append hds.2 hrest
    rw [List.cons_append] at htake hdrop ⊢
    rw [wholePart, htake, hdrop]
    · rfl
    · simp_all

theorem digitsAfter_append {mark : Char → Bool} {c : Char} (hc : mark c = Bool.true)
    (hds : Digits cs) (hrest : StopsAt isDigit rest) :
    digitsAfter mark (c :: (cs ++ rest)) = some (c :: cs, rest) := by
  obtain ⟨htake, hdrop⟩ := takeWhile_append hds.2 hrest
  rw [digitsAfter, if_pos hc, htake, hdrop, if_neg (by simpa using hds.1)]

theorem digitsAfter_of_stopsAt {mark : Char → Bool} (hrest : StopsAt mark rest) :
    digitsAfter mark rest = some ([], rest) := by
  cases rest with
  | nil => rfl
  | cons c rest => rw [digitsAfter, if_neg (by simp [hrest c rfl])]

/-- The marks of an exponent. -/
def isMark (c : Char) : Bool := c == 'e' || c == 'E'

theorem exponent_of_stopsAt (hmark : StopsAt isMark rest) : exponent rest = some ([], rest) := by
  have hplain : digitsAfter isMark rest = some ([], rest) := digitsAfter_of_stopsAt hmark
  rw [exponent.eq_def]
  split
  next e sign rest =>
    have he : isMark e = Bool.false := hmark e rfl
    rw [if_neg (by rw [← isMark, he, Bool.false_and]; exact Bool.false_ne_true)]
    exact hplain
  next => exact hplain

theorem exponent_append (hpower : Exponent cs) (hrest : StopsAt isDigit rest)
    (hmark : StopsAt isMark rest) : exponent (cs ++ rest) = some (cs, rest) := by
  cases hpower with
  | none => exact exponent_of_stopsAt hmark
  | @digits mark sign ds hmark hsign hds =>
    have hmark : isMark mark = Bool.true :=
      List.all_eq_true.mp (show ['e', 'E'].all isMark = Bool.true by decide) mark hmark
    rw [List.cons_append, List.append_assoc]
    simp only [List.mem_cons, List.not_mem_nil, or_false] at hsign
    rcases hsign with rfl | rfl | rfl
    · obtain ⟨d, ds, rfl⟩ := List.exists_cons_of_ne_nil hds.1
      have hd : isDigit d = Bool.true := hds.2 d List.mem_cons_self
      have hsigns : (d == '+' || d == '-') = Bool.false := by
        by_contra hsigns
        simp only [Bool.not_eq_false, Bool.or_eq_true, beq_iff_eq] at hsigns
        rcases hsigns with rfl | rfl <;> exact absurd hd (by decide)
      rw [List.nil_append, List.cons_append, exponent, hsigns, Bool.and_false,
        if_neg Bool.false_ne_true]
      exact digitsAfter_append hmark hds hrest
    all_goals
      rw [List.singleton_append, exponent, ← isMark, hmark, if_pos (by decide),
        digitsAfter_append rfl hds hrest]
      rfl

/-- What may follow a number. -/
structure EndsNumber (rest : List Char) : Prop where
  digit : StopsAt isDigit rest
  point : StopsAt (· == '.') rest
  mark : StopsAt isMark rest

theorem Exponent.stopsAt {p : Char → Bool} (hpower : Exponent cs) (hrest : StopsAt p rest)
    (he : p 'e' = Bool.false) (hE : p 'E' = Bool.false) : StopsAt p (cs ++ rest) := by
  cases hpower with
  | none => exact hrest
  | digits hmark =>
    simp only [List.mem_cons, List.not_mem_nil, or_false] at hmark
    rcases hmark with rfl | rfl
    · exact stopsAt_cons he
    · exact stopsAt_cons hE

theorem Fraction.stopsAt {p : Char → Bool} (hfraction : Fraction cs) (hrest : StopsAt p rest)
    (hpoint : p '.' = Bool.false) : StopsAt p (cs ++ rest) := by
  cases hfraction with
  | none => exact hrest
  | digits => exact stopsAt_cons hpoint

theorem fraction_append (hfraction : Fraction cs) (hdigit : StopsAt isDigit rest)
    (hpoint : StopsAt (· == '.') rest) :
    digitsAfter (· == '.') (cs ++ rest) = some (cs, rest) := by
  cases hfraction with
  | none => exact digitsAfter_of_stopsAt hpoint
  | digits hds => exact digitsAfter_append rfl hds hdigit

/-- **A number is read to its end,** and what it is read as depends on whether it has anything
besides its whole part. -/
theorem number_append {sign whole fraction power : List Char} (hsign : sign ∈ [[], ['-']])
    (hwhole : Whole whole) (hfraction : Fraction fraction) (hpower : Exponent power)
    (hrest : EndsNumber rest) :
    number (sign ++ whole ++ fraction ++ power ++ rest)
      = some (if sign.isEmpty && fraction.isEmpty && power.isEmpty
          then .natural (Text.number 10 whole)
          else .number (sign ++ whole ++ fraction ++ power), rest) := by
  have hafter : StopsAt isDigit (power ++ rest) :=
    hpower.stopsAt hrest.digit (by decide) (by decide)
  have hbody : wholePart (whole ++ (fraction ++ (power ++ rest)))
      = some (whole, fraction ++ (power ++ rest)) :=
    wholePart_append hwhole (hfraction.stopsAt hafter (by decide))
  have hfraction := fraction_append hfraction hafter
    (hpower.stopsAt hrest.point (by decide) (by decide))
  have hpower := exponent_append hpower hrest.digit hrest.mark
  obtain ⟨d, ds, rfl, hd⟩ : ∃ d ds, whole = d :: ds ∧ d ≠ '-' := by
    cases hwhole with
    | zero => exact ⟨_, _, rfl, by decide⟩
    | digits _ hds =>
      refine ⟨_, _, rfl, fun hminus => ?_⟩
      have hdigit := hds.2 _ List.mem_cons_self
      rw [hminus] at hdigit
      exact absurd hdigit (by decide)
  simp only [List.mem_cons, List.not_mem_nil, or_false] at hsign
  rcases hsign with rfl | rfl
  · simp only [List.nil_append, List.append_assoc]
    rw [List.cons_append] at hbody ⊢
    rw [number]
    · simp only [hbody, hfraction, hpower, Option.bind_eq_bind, Option.bind_some]
      split <;> simp_all
    · simpa using hd
  · simp only [List.append_assoc, List.cons_append, List.nil_append] at hbody ⊢
    rw [number]
    dsimp only
    rw [hbody]
    simp only [hfraction, hpower, Option.bind_eq_bind, Option.bind_some]
    split <;> simp_all

/-! ### Values -/

variable {v : JsonValue} {values : List JsonValue} {members : List (List Char × JsonValue)}
  {bound : Nat}

theorem value_skip (bound : Nat) (cs : List Char) : value bound (skip cs) = value bound cs := by
  cases bound with
  | zero => rw [value, value]
  | succ bound => rw [value, value, skip_skip]

theorem items_skip (bound : Nat) (cs : List Char) : items bound (skip cs) = items bound cs := by
  cases bound with
  | zero => rw [items, items]
  | succ bound => rw [items, items, value_skip]

theorem members_skip (bound : Nat) (cs : List Char) :
    Json.members bound (skip cs) = Json.members bound cs := by
  cases bound with
  | zero => rw [Json.members, Json.members]
  | succ bound => rw [Json.members, Json.members, skip_skip]

/-- A value that starts like a number is one. -/
theorem value_of_isDigit {c : Char} (hskip : skip cs = c :: rest)
    (hc : c = '-' ∨ isDigit c = Bool.true) : value (bound + 1) cs = number (c :: rest) := by
  have hother : ∀ d ∈ ['[', '\x7b', '"', 'n', 't', 'f'], c ≠ d := by
    have hall : ['[', '\x7b', '"', 'n', 't', 'f'].all
        (fun d => d != '-' && !isDigit d) = Bool.true := by decide
    rintro d hd rfl
    have hnone := List.all_eq_true.mp hall c hd
    simp_all
  rw [value, hskip]
  split <;> first | rfl | simp_all

/-- What may follow a value: nothing, a blank, a comma or a closing bracket. -/
def Closes (rest : List Char) : Prop :=
  ∀ c ∈ rest.head?, isBlank c = Bool.true ∨ c ∈ [',', ']', '\x7d']

theorem closes_cons {c : Char} (hc : c ∈ [',', ']', '\x7d']) : Closes (c :: rest) := by
  intro d hd
  obtain rfl : c = d := by simpa using hd
  exact Or.inr hc

theorem Blanks.closes (hblanks : Blanks cs) (hrest : Closes rest) : Closes (cs ++ rest) := by
  cases cs with
  | nil => exact hrest
  | cons c cs =>
    intro d hd
    obtain rfl : c = d := by simpa using hd
    exact Or.inl (hblanks c List.mem_cons_self)

theorem Closes.endsNumber (hrest : Closes rest) : EndsNumber rest := by
  have hall : [' ', '\t', '\n', '\r', ',', ']', '\x7d'].all
      (fun c => !isDigit c && c != '.' && !isMark c) = Bool.true := by decide
  have hstop : ∀ c ∈ rest.head?, isDigit c = Bool.false ∧ (c == '.') = Bool.false ∧
      isMark c = Bool.false := by
    intro c hc
    have hmem : c ∈ [' ', '\t', '\n', '\r', ',', ']', '\x7d'] := by
      rcases hrest c hc with hblank | hclose
      · simp only [isBlank, Bool.or_eq_true, beq_iff_eq] at hblank
        rcases hblank with ((rfl | rfl) | rfl) | rfl <;> decide
      · simp only [List.mem_cons, List.not_mem_nil, or_false] at hclose ⊢
        tauto
    simpa [and_assoc] using List.all_eq_true.mp hall c hmem
  exact ⟨fun c hc => (hstop c hc).1, fun c hc => (hstop c hc).2.1, fun c hc => (hstop c hc).2.2⟩

theorem value_append (hbefore : Blanks cs) (bound : Nat) (rest : List Char) :
    value bound (cs ++ rest) = value bound rest := by
  rw [← value_skip, skip_append hbefore, value_skip]

/-- What a number starts with. -/
theorem Whole.exists_cons {sign : List Char} (hsign : sign ∈ [[], ['-']]) (hwhole : Whole cs) :
    ∃ c tail, sign ++ cs = c :: tail ∧ (c = '-' ∨ isDigit c = Bool.true) := by
  simp only [List.mem_cons, List.not_mem_nil, or_false] at hsign
  rcases hsign with rfl | rfl
  · cases hwhole with
    | zero => exact ⟨_, _, rfl, Or.inr (by decide)⟩
    | digits _ hds => exact ⟨_, _, rfl, Or.inr (hds.2 _ List.mem_cons_self)⟩
  · exact ⟨_, _, rfl, Or.inl rfl⟩

theorem isBlank_of_isDigit {c : Char} (hc : c = '-' ∨ isDigit c = Bool.true) :
    isBlank c = Bool.false := by
  by_contra hblank
  simp only [isBlank, Bool.not_eq_false, Bool.or_eq_true, beq_iff_eq] at hblank
  rcases hblank with ((rfl | rfl) | rfl) | rfl <;> exact absurd hc (by decide)

/-- A value is at least one character long, and starts with neither a blank nor a closing
bracket. -/
theorem Spells.exists_cons (h : Spells (.value v) cs) :
    ∃ c tail, cs = c :: tail ∧ isBlank c = Bool.false ∧ c ≠ ']' := by
  have hnumber : ∀ {sign whole : List Char} (more : List Char), sign ∈ [[], ['-']] → Whole whole →
      ∃ c tail, sign ++ whole ++ more = c :: tail ∧ isBlank c = Bool.false ∧ c ≠ ']' := by
    intro sign whole more hsign hwhole
    obtain ⟨c, tail, heq, hc⟩ := hwhole.exists_cons hsign
    refine ⟨c, tail ++ more, by rw [heq, List.cons_append], isBlank_of_isDigit hc, ?_⟩
    rintro rfl
    exact absurd hc (by decide)
  cases h with
  | natural hwhole =>
    obtain ⟨c, tail, heq, hc⟩ := hnumber [] (show [] ∈ [[], ['-']] by decide) hwhole
    exact ⟨c, tail, by simpa using heq, hc⟩
  | number hsign hwhole =>
    obtain ⟨c, tail, heq, hc⟩ := hnumber (_ ++ _) hsign hwhole
    exact ⟨c, tail, by simpa using heq, hc⟩
  | _ => exact ⟨_, _, rfl, by decide, by decide⟩

/-! ### Reading what the grammar allows -/

/-- A phrase is read from a text, whatever follows it. Two steps are enough for each character, and
one more for what stands between brackets. -/
def ReadFrom : Phrase → List Char → Prop
  | .value v, cs => ∀ bound rest, 2 * cs.length ≤ bound → Closes rest →
    value bound (cs ++ rest) = some (v, rest)
  | .items values, cs => ∀ bound rest, 2 * cs.length + 1 ≤ bound →
    items bound (cs ++ ']' :: rest) = some (values, rest)
  | .members members, cs => ∀ bound rest, 2 * cs.length + 1 ≤ bound →
    Json.members bound (cs ++ '\x7d' :: rest) = some (members, rest)

/-- A value between blanks, in front of something that is no blank. -/
theorem ReadFrom.between {before after : List Char} (h : ReadFrom (.value v) cs)
    (hbefore : Blanks before) (hafter : Blanks after) (c : Char) (rest : List Char)
    (hc : c ∈ [',', ']', '\x7d']) (hbound : 2 * cs.length ≤ bound) : ∃ rest',
      skip rest' = c :: rest ∧
      value bound (before ++ cs ++ after ++ c :: rest) = some (v, rest') := by
  have hall : [',', ']', '\x7d'].all (!isBlank ·) = Bool.true := by decide
  have hblank : isBlank c = Bool.false := by simpa using List.all_eq_true.mp hall c hc
  refine ⟨after ++ c :: rest, skip_append_cons hafter hblank rest, ?_⟩
  rw [List.append_assoc, List.append_assoc, value_append hbefore]
  exact h bound _ hbound (hafter.closes (closes_cons hc))

theorem readFrom_lastItem {before after : List Char} (hbefore : Blanks before)
    (head : ReadFrom (.value v) cs) (hafter : Blanks after) :
    ReadFrom (.items [v]) (before ++ cs ++ after) := by
  intro bound rest hbound
  obtain ⟨bound, rfl⟩ : ∃ n, bound = n + 1 := ⟨bound - 1, by omega⟩
  simp only [List.length_append] at hbound
  obtain ⟨rest', hskip, hvalue⟩ := head.between hbefore hafter ']' rest (by decide)
    (show 2 * cs.length ≤ bound by omega)
  rw [items, hvalue, Option.bind_eq_bind, Option.bind_some]
  dsimp only
  rw [hskip]
  rfl

theorem readFrom_item {before after more : List Char} (hbefore : Blanks before)
    (head : ReadFrom (.value v) cs) (hafter : Blanks after)
    (tail : ReadFrom (.items values) more) :
    ReadFrom (.items (v :: values)) (before ++ cs ++ after ++ ',' :: more) := by
  intro bound rest hbound
  obtain ⟨bound, rfl⟩ : ∃ n, bound = n + 1 := ⟨bound - 1, by omega⟩
  simp only [List.length_append, List.length_cons] at hbound
  obtain ⟨rest', hskip, hvalue⟩ := head.between hbefore hafter ',' (more ++ ']' :: rest) (by decide)
    (show 2 * cs.length ≤ bound by omega)
  rw [List.append_assoc, List.cons_append, items, hvalue, Option.bind_eq_bind, Option.bind_some]
  dsimp only
  rw [hskip]
  show (items bound (more ++ ']' :: rest)).bind (fun x => some (v :: x.1, x.2)) = _
  rw [tail bound rest (by omega)]
  rfl

/-- A member up to its value. -/
theorem members_append {key before colon : List Char} (hbefore : Blanks before)
    (hkey : StringBody key) (hcolon : Blanks colon) (bound : Nat) (middle rest : List Char) :
    Json.members (bound + 1) (before ++ '"' :: key ++ '"' :: colon ++ ':' :: middle ++ rest)
      = (value bound (middle ++ rest)).bind fun x => match skip x.2 with
        | ',' :: rest => do
          let (pairs, rest) ← Json.members bound rest
          return ((key, x.1) :: pairs, rest)
        | '\x7d' :: rest => some ([(key, x.1)], rest)
        | _ => none := by
  have hcolon : skip (colon ++ ':' :: (middle ++ rest)) = ':' :: (middle ++ rest) :=
    skip_append_cons hcolon (by decide) _
  simp only [List.append_assoc, List.cons_append]
  rw [Json.members, skip_append_cons hbefore (by decide)]
  split
  next hcons =>
    cases hcons
    rw [stringBody_append hkey, Option.bind_eq_bind, Option.bind_some]
    dsimp only
    rw [hcolon]
    rfl
  next hother => exact absurd rfl (hother _)

theorem readFrom_lastMember {key before colon middle after : List Char} (hbefore : Blanks before)
    (hkey : StringBody key) (hcolon : Blanks colon) (hmiddle : Blanks middle)
    (head : ReadFrom (.value v) cs) (hafter : Blanks after) :
    ReadFrom (.members [(key, v)])
      (before ++ '"' :: key ++ '"' :: colon ++ ':' :: middle ++ cs ++ after) := by
  intro bound rest hbound
  obtain ⟨bound, rfl⟩ : ∃ n, bound = n + 1 := ⟨bound - 1, by omega⟩
  simp only [List.length_append, List.length_cons] at hbound
  obtain ⟨rest', hskip, hvalue⟩ := head.between hmiddle hafter '\x7d' rest (by decide)
    (show 2 * cs.length ≤ bound by omega)
  simp only [List.append_assoc] at hvalue
  have hmembers := members_append hbefore hkey hcolon bound middle (cs ++ (after ++ '\x7d' :: rest))
  rw [hvalue, Option.bind_some, hskip] at hmembers
  rw [List.append_assoc, List.append_assoc]
  exact hmembers

theorem readFrom_member {key before colon middle after more : List Char} (hbefore : Blanks before)
    (hkey : StringBody key) (hcolon : Blanks colon) (hmiddle : Blanks middle)
    (head : ReadFrom (.value v) cs) (hafter : Blanks after)
    (tail : ReadFrom (.members members) more) :
    ReadFrom (.members ((key, v) :: members))
      (before ++ '"' :: key ++ '"' :: colon ++ ':' :: middle ++ cs ++ after ++ ',' :: more) := by
  intro bound rest hbound
  obtain ⟨bound, rfl⟩ : ∃ n, bound = n + 1 := ⟨bound - 1, by omega⟩
  simp only [List.length_append, List.length_cons] at hbound
  obtain ⟨rest', hskip, hvalue⟩ := head.between hmiddle hafter ',' (more ++ '\x7d' :: rest)
    (by decide) (show 2 * cs.length ≤ bound by omega)
  simp only [List.append_assoc] at hvalue
  have hmembers := members_append hbefore hkey hcolon bound middle
    (cs ++ (after ++ ',' :: (more ++ '\x7d' :: rest)))
  rw [hvalue, Option.bind_some, hskip] at hmembers
  rw [List.append_assoc, List.append_assoc, List.append_assoc, List.cons_append, hmembers]
  show (Json.members bound (more ++ '\x7d' :: rest)).bind (fun x => some ((key, v) :: x.1, x.2)) = _
  rw [tail bound rest (by omega)]
  rfl

/-- What stands between the brackets of an array that is not empty does not start like one that
is. -/
theorem Spells.skip_items (h : Spells (.items values) cs) (rest : List Char) :
    ∃ c tail, skip (cs ++ rest) = c :: tail ∧ c ≠ ']' := by
  have hfirst : ∀ {v : JsonValue} {before cs more : List Char}, Blanks before →
      Spells (.value v) cs → ∃ c tail, skip (before ++ cs ++ more) = c :: tail ∧ c ≠ ']' := by
    intro v before cs more hbefore head
    obtain ⟨c, tail, rfl, hblank, hc⟩ := head.exists_cons
    refine ⟨c, tail ++ more, ?_, hc⟩
    rw [List.append_assoc, List.cons_append, skip_append_cons hbefore hblank]
  cases h with
  | lastItem hbefore head =>
    rw [List.append_assoc]
    exact hfirst hbefore head
  | item hbefore head =>
    rw [List.append_assoc, List.append_assoc]
    exact hfirst hbefore head

theorem Spells.skip_members (h : Spells (.members members) cs) (rest : List Char) :
    ∃ tail, skip (cs ++ rest) = '"' :: tail := by
  cases h with
  | lastMember hbefore | member hbefore =>
    simp only [List.append_assoc, List.cons_append]
    exact ⟨_, skip_append_cons hbefore (by decide) _⟩

theorem readFrom_number {sign whole fraction power : List Char} (hsign : sign ∈ [[], ['-']])
    (hwhole : Whole whole) (hfraction : Fraction fraction) (hpower : Exponent power) :
    ReadFrom (.value (if sign.isEmpty && fraction.isEmpty && power.isEmpty
      then .natural (Text.number 10 whole) else .number (sign ++ whole ++ fraction ++ power)))
      (sign ++ whole ++ fraction ++ power) := by
  intro bound rest hbound hrest
  obtain ⟨c, tail, hcons, hc⟩ := hwhole.exists_cons hsign
  have hlength := congrArg List.length hcons
  simp only [List.length_append, List.length_cons] at hbound hlength
  obtain ⟨bound, rfl⟩ : ∃ n, bound = n + 1 := ⟨bound - 1, by omega⟩
  have hnumber := number_append hsign hwhole hfraction hpower hrest.endsNumber
  rw [hcons] at hnumber ⊢
  simp only [List.cons_append] at hnumber ⊢
  rw [value_of_isDigit (skip_cons (isBlank_of_isDigit hc) _) hc, hnumber]

/-- A value that is read in one step, as a matter of its own characters alone. -/
theorem readFrom_of_succ (hne : cs ≠ [])
    (h : ∀ bound rest, value (bound + 1) (cs ++ rest) = some (v, rest)) :
    ReadFrom (.value v) cs := by
  intro bound rest hbound _
  have hpos := List.length_pos_iff.mpr hne
  obtain ⟨bound, rfl⟩ : ∃ n, bound = n + 1 := ⟨bound - 1, by omega⟩
  exact h bound rest

theorem readFrom_string {body : List Char} (hbody : StringBody body) :
    ReadFrom (.value (.string body)) ('"' :: (body ++ ['"'])) := by
  refine readFrom_of_succ (List.cons_ne_nil _ _) fun bound rest => ?_
  rw [List.cons_append, List.append_assoc, List.singleton_append, value, skip_cons (by decide)]
  show (stringBody (body ++ '"' :: rest)).bind (fun x => some (JsonValue.string x.1, x.2)) = _
  rw [stringBody_append hbody]
  rfl

theorem readFrom_emptyArray {blanks : List Char} (hblanks : Blanks blanks) :
    ReadFrom (.value (.array [])) ('[' :: (blanks ++ [']'])) := by
  refine readFrom_of_succ (List.cons_ne_nil _ _) fun bound rest => ?_
  have hskip : skip (blanks ++ ']' :: rest) = ']' :: rest :=
    skip_append_cons hblanks (by decide) rest
  rw [List.cons_append, List.append_assoc, List.singleton_append, value, skip_cons (by decide)]
  split <;> simp_all

theorem readFrom_array (inside : Spells (.items values) cs) (ih : ReadFrom (.items values) cs) :
    ReadFrom (.value (.array values)) ('[' :: (cs ++ [']'])) := by
  intro bound rest hbound _
  simp only [List.length_cons, List.length_append] at hbound
  obtain ⟨bound, rfl⟩ : ∃ n, bound = n + 1 := ⟨bound - 1, by omega⟩
  obtain ⟨c, tail, hskip, hc⟩ := inside.skip_items (']' :: rest)
  have hread := ih bound rest (by omega)
  rw [← items_skip, hskip] at hread
  rw [List.cons_append, List.append_assoc, List.singleton_append, value, skip_cons (by decide)]
  split <;> simp_all

theorem readFrom_emptyObject {blanks : List Char} (hblanks : Blanks blanks) :
    ReadFrom (.value (.object [])) ('\x7b' :: (blanks ++ ['\x7d'])) := by
  refine readFrom_of_succ (List.cons_ne_nil _ _) fun bound rest => ?_
  have hskip : skip (blanks ++ '\x7d' :: rest) = '\x7d' :: rest :=
    skip_append_cons hblanks (by decide) rest
  rw [List.cons_append, List.append_assoc, List.singleton_append, value, skip_cons (by decide)]
  split <;> simp_all

theorem readFrom_object (inside : Spells (.members members) cs)
    (ih : ReadFrom (.members members) cs) :
    ReadFrom (.value (.object members)) ('\x7b' :: (cs ++ ['\x7d'])) := by
  intro bound rest hbound _
  simp only [List.length_cons, List.length_append] at hbound
  obtain ⟨bound, rfl⟩ : ∃ n, bound = n + 1 := ⟨bound - 1, by omega⟩
  obtain ⟨tail, hskip⟩ := inside.skip_members ('\x7d' :: rest)
  have hread := ih bound rest (by omega)
  rw [← members_skip, hskip] at hread
  rw [List.cons_append, List.append_assoc, List.singleton_append, value, skip_cons (by decide)]
  split <;> simp_all

/-- **What the grammar allows is read.** One case for each form of a phrase. -/
theorem Spells.readFrom {phrase : Phrase} (h : Spells phrase cs) : ReadFrom phrase cs := by
  induction h with
  | null =>
    refine readFrom_of_succ (by decide) fun bound rest => ?_
    simp [value, skip_cons (show isBlank 'n' = Bool.false by decide), word]
  | true =>
    refine readFrom_of_succ (by decide) fun bound rest => ?_
    simp [value, skip_cons (show isBlank 't' = Bool.false by decide), word]
  | false =>
    refine readFrom_of_succ (by decide) fun bound rest => ?_
    simp [value, skip_cons (show isBlank 'f' = Bool.false by decide), word]
  | natural hwhole =>
    simpa using readFrom_number (show [] ∈ [[], ['-']] by decide) hwhole .none .none
  | number hsign hwhole hfraction hpower hother =>
    have hread := readFrom_number hsign hwhole hfraction hpower
    rwa [if_neg (by simpa using hother)] at hread
  | string hbody => exact readFrom_string hbody
  | emptyArray hblanks => exact readFrom_emptyArray hblanks
  | array inside ih => exact readFrom_array inside ih
  | emptyObject hblanks => exact readFrom_emptyObject hblanks
  | object inside ih => exact readFrom_object inside ih
  | lastItem hbefore _ hafter ih => exact readFrom_lastItem hbefore ih hafter
  | item hbefore _ hafter _ ih ihtail => exact readFrom_item hbefore ih hafter ihtail
  | lastMember hbefore hkey hcolon hmiddle _ hafter ih =>
    exact readFrom_lastMember hbefore hkey hcolon hmiddle ih hafter
  | member hbefore hkey hcolon hmiddle _ hafter _ ih ihtail =>
    exact readFrom_member hbefore hkey hcolon hmiddle ih hafter ihtail

/-- The texts of a value: one of its phrases with blanks around it. -/
def IsText (v : JsonValue) (text : List Char) : Prop :=
  ∃ before cs after, Blanks before ∧ Spells (.value v) cs ∧ Blanks after ∧
    text = before ++ cs ++ after

/-- **A text of a value is read as that value.** -/
theorem IsText.parse?_eq {text : List Char} (h : IsText v text) : parse? text = some v := by
  obtain ⟨before, cs, after, hbefore, hcs, hafter, rfl⟩ := h
  have hbound : 2 * cs.length ≤ 2 * (before ++ cs ++ after).length + 2 := by
    simp only [List.length_append]
    omega
  have hend : Closes [] := fun c hc => by simp at hc
  have hread := hcs.readFrom _ after hbound (List.append_nil after ▸ hafter.closes hend)
  rw [parse?, List.append_assoc, value_append hbefore, ← List.append_assoc, hread,
    Option.bind_eq_bind, Option.bind_some]
  have hskip : skip after = [] := by
    have hall := skip_append hafter []
    rwa [List.append_nil] at hall
  dsimp only
  rw [hskip]
  rfl

/-! ### Written values -/

/-- A number written as digits. -/
theorem spells_natural (n : Nat) :
    Spells (.value (.natural n)) (JsonValue.natural n).render := by
  have hdigits : Digits (Nat.toDigits 10 n) :=
    ⟨Nat.toDigits_ne_nil, fun c hc => Text.isDigit_of_mem_toDigits hc⟩
  have hwhole : Whole (Nat.toDigits 10 n) := by
    rcases Text.toDigits_cases n with hzero | ⟨d, ds, hds, hd⟩
    · rw [hzero]
      exact .zero
    · rw [hds] at hdigits ⊢
      exact .digits hd hdigits
  have hspells := Spells.natural hwhole
  rwa [Text.number_toDigits] at hspells

theorem blanks_nil : Blanks [] := fun c hc => by simp at hc

/-- A character that stands in a string for itself. -/
def isPlain (c : Char) : Bool := decide (0x20 ≤ c.toNat) && c != '"' && c != '\\'

theorem isPlain_iff {c : Char} : isPlain c = Bool.true ↔ 0x20 ≤ c.toNat ∧ c ≠ '"' ∧ c ≠ '\\' := by
  simp [isPlain, and_assoc]

theorem stringBody_of_isPlain (hcs : cs.all isPlain = Bool.true) : StringBody cs := by
  induction cs with
  | nil => exact .nil
  | cons c cs ih =>
    rw [List.all_cons, Bool.and_eq_true, isPlain_iff] at hcs
    obtain ⟨⟨hcontrol, hquote, hbackslash⟩, hrest⟩ := hcs
    exact .plain hcontrol hquote hbackslash (ih hrest)

theorem unescape?_of_isPlain (hcs : cs.all isPlain = Bool.true) : unescape? cs = some cs := by
  induction cs with
  | nil => rfl
  | cons c cs ih =>
    rw [List.all_cons, Bool.and_eq_true, isPlain_iff] at hcs
    obtain ⟨⟨-, -, hbackslash⟩, hrest⟩ := hcs
    rw [unescape?, ih hrest]
    · rfl
    all_goals simp_all

/-- An array is written without blanks. -/
theorem spells_array (hvalues : ∀ v ∈ values, Spells (.value v) v.render) :
    Spells (.value (.array values)) (JsonValue.array values).render := by
  have hitems : values ≠ [] → Spells (.items values) (JsonValue.renderItems values) := by
    intro hne
    induction values with
    | nil => exact absurd rfl hne
    | cons v values ih =>
      rw [List.forall_mem_cons] at hvalues
      cases values with
      | nil => simpa [JsonValue.renderItems] using Spells.lastItem blanks_nil hvalues.1 blanks_nil
      | cons next values =>
        have htail := ih hvalues.2 (List.cons_ne_nil next values)
        simpa [JsonValue.renderItems] using Spells.item blanks_nil hvalues.1 blanks_nil htail
  cases values with
  | nil => exact .emptyArray blanks_nil
  | cons v values => exact .array (hitems (List.cons_ne_nil v values))

/-- An object is written without blanks. -/
theorem spells_object (hmembers : ∀ m ∈ members, StringBody m.1 ∧ Spells (.value m.2) m.2.render) :
    Spells (.value (.object members)) (JsonValue.object members).render := by
  have hinside : members ≠ [] → Spells (.members members) (JsonValue.renderMembers members) := by
    intro hne
    induction members with
    | nil => exact absurd rfl hne
    | cons m members ih =>
      obtain ⟨key, v⟩ := m
      rw [List.forall_mem_cons] at hmembers
      obtain ⟨⟨hkey, hv⟩, hrest⟩ := hmembers
      cases members with
      | nil =>
        simpa [JsonValue.renderMembers] using
          Spells.lastMember blanks_nil hkey blanks_nil blanks_nil hv blanks_nil
      | cons next members =>
        have htail := ih hrest (List.cons_ne_nil next members)
        simpa [JsonValue.renderMembers] using
          Spells.member blanks_nil hkey blanks_nil blanks_nil hv blanks_nil htail
  cases members with
  | nil => exact .emptyObject blanks_nil
  | cons m members => exact .object (hinside (List.cons_ne_nil m members))

end Json

end OrderingService
