import OrderingService.Proofs.Text.Numerals
import OrderingService.Toml.Lexical

/-!
# Integers survive TOML

An integer starts like much else. Four digits may be the year of a date, two the hour of a time, and
a zero may announce another radix; a fraction or an exponent would make it a float. All of this is
tried first. What rules it out is how the written digits end: the line ends behind them, and no
other digit comes after a zero at the front.

## Main definitions

* `Toml.Whole` — the digits that a number is written with
* `Toml.minus` — the sign of an integer as it is written

## Main results

* `Toml.date_eq_none` — an integer is not the front of a date or of a time
* `Toml.number_append` — an integer is read to the end of its line
* `Toml.toList_toString` — every integer is written as a sign and digits
-/

namespace OrderingService

namespace Toml

variable {cs ds rest : List Char}

/-- Digits that a number is written with: zero alone, or digits that do not start with zero. -/
def Whole (ds : List Char) : Prop :=
  (∀ c ∈ ds, Text.isDigit 10 c = true) ∧ (ds = ['0'] ∨ ∃ d more, ds = d :: more ∧ d ≠ '0')

theorem whole_toDigits (n : Nat) : Whole (Nat.toDigits 10 n) :=
  ⟨fun _ hc => Text.isDigit_of_mem_toDigits hc, Text.toDigits_cases n⟩

theorem digitsTail_append (hds : ∀ c ∈ ds, Text.isDigit 10 c = true) (rest : List Char) :
    digitsTail 10 (ds ++ '\n' :: rest) = some (ds, '\n' :: rest) := by
  induction ds with
  | nil => rfl
  | cons d ds ih =>
    rw [List.forall_mem_cons] at hds
    have hunderscore : d ≠ '_' := by
      rintro rfl
      exact absurd hds.1 (by decide)
    rw [List.cons_append, digitsTail, if_pos hds.1, ih hds.2]
    · rfl
    · simp_all
    · simp_all

theorem wholeDigits_append (hds : Whole ds) (rest : List Char) :
    wholeDigits (ds ++ '\n' :: rest) = some (ds, '\n' :: rest) := by
  obtain ⟨hdigits, rfl | ⟨d, more, rfl, hd⟩⟩ := hds
  · rfl
  · rw [List.forall_mem_cons] at hdigits
    rw [List.cons_append, wholeDigits, digits, if_pos hdigits.1, digitsTail_append hdigits.2]
    · rfl
    · simp_all

theorem fixedDigits_eq_some {count low high n : Nat}
    (h : fixedDigits count low high cs = some (n, rest)) :
    (∀ c ∈ cs.take count, Text.isDigit 10 c = true) ∧ rest = cs.drop count := by
  rw [fixedDigits] at h
  split at h
  next hall => exact ⟨List.all_eq_true.mp hall.2.1, (Prod.ext_iff.mp (Option.some.inj h)).2.symm⟩
  next => cases h

/-- What follows the first digits of a number is another digit or the end of the line. -/
theorem word_after_fixedDigits {count low high n : Nat} {mark : Char}
    (hds : ∀ c ∈ ds, Text.isDigit 10 c = true)
    (h : fixedDigits count low high (ds ++ '\n' :: rest) = some (n, cs))
    (hmark : Text.isDigit 10 mark = false) (hline : mark ≠ '\n') : word [mark] cs = none := by
  obtain ⟨hall, rfl⟩ := fixedDigits_eq_some h
  have hword : ∀ c more, c ≠ mark → word [mark] (c :: more) = none := by
    intro c more hc
    simp [word, hc.symm]
  rcases Nat.lt_or_ge ds.length count with hlt | hge
  · obtain ⟨more, rfl⟩ : ∃ more, count = ds.length + (more + 1) := ⟨count - ds.length - 1, by omega⟩
    rw [List.take_length_add_append] at hall
    exact absurd (hall '\n' (by simp)) (by decide)
  · rw [List.drop_append_of_le_length hge]
    cases hdrop : ds.drop count with
    | nil => exact hword _ _ hline.symm
    | cons c more =>
      refine hword _ _ ?_
      rintro rfl
      have hdigit := hds c (List.mem_of_mem_drop (hdrop ▸ List.mem_cons_self))
      rw [hmark] at hdigit
      cases hdigit

/-- The sign of an integer as it is written. -/
def minus (negative : Bool) : List Char := if negative then ['-'] else []

/-- Digits with a mark behind them are not at the front of an integer. -/
theorem bind_word_eq_none {α : Type} (negative : Bool) (hds : ∀ c ∈ ds, Text.isDigit 10 c = true)
    {mark : Char} (hmark : Text.isDigit 10 mark = false) (hline : mark ≠ '\n')
    (count low high : Nat) (f : Nat → List Char → Option α) :
    ((fixedDigits (count + 1) low high (minus negative ++ (ds ++ '\n' :: rest))).bind fun x =>
      (word [mark] x.2).bind (f x.1)) = none := by
  cases h : fixedDigits (count + 1) low high (minus negative ++ (ds ++ '\n' :: rest)) with
  | none => rfl
  | some x =>
    rw [Option.bind_some]
    cases negative with
    | true => exact absurd ((fixedDigits_eq_some h).1 '-' (by simp [minus])) (by decide)
    | false => rw [word_after_fixedDigits hds h hmark hline, Option.bind_none]

/-- An integer is not the front of a date or of a time. -/
theorem date_eq_none (negative : Bool) (hds : ∀ c ∈ ds, Text.isDigit 10 c = true)
    (rest : List Char) : date (minus negative ++ (ds ++ '\n' :: rest)) = none := by
  have hdate : fullDate (minus negative ++ (ds ++ '\n' :: rest)) = none :=
    bind_word_eq_none negative hds (by decide) (by decide) 3 0 9999 fun year cs =>
      (fixedDigits 2 1 12 cs).bind fun x => (word ['-'] x.2).bind fun cs =>
        (fixedDigits 2 1 (daysInMonth year x.1) cs).bind fun x => some x.2
  have hclock : hourMinute (minus negative ++ (ds ++ '\n' :: rest)) = none :=
    bind_word_eq_none negative hds (by decide) (by decide) 1 0 23 fun _ cs =>
      (fixedDigits 2 0 59 cs).bind fun x => some x.2
  rw [date, timeOfDay, hdate, hclock]
  rfl

theorem sign_append (negative : Bool) (hds : Whole ds) (rest : List Char) :
    sign (minus negative ++ (ds ++ rest)) = (negative, ds ++ rest) := by
  cases negative with
  | true => rfl
  | false =>
    have hfirst : ∀ c more, ds = c :: more → c ≠ '-' ∧ c ≠ '+' := by
      rintro c more rfl
      have hdigit := hds.1 c List.mem_cons_self
      constructor <;> rintro rfl <;> exact absurd hdigit (by decide)
    rw [minus, if_neg Bool.false_ne_true, List.nil_append]
    obtain ⟨-, rfl | ⟨d, more, rfl, -⟩⟩ := hds
    · rfl
    · obtain ⟨hminus, hplus⟩ := hfirst d more rfl
      rw [List.cons_append, sign] <;> simp_all

theorem Whole.exists_cons (hds : Whole ds) :
    ∃ d more, ds = d :: more ∧ Text.isDigit 10 d = true := by
  obtain ⟨hdigits, rfl | ⟨d, more, rfl, -⟩⟩ := hds
  · exact ⟨'0', [], rfl, by decide⟩
  · exact ⟨d, more, rfl, hdigits d List.mem_cons_self⟩

/-- A zero at the front of an integer stands alone, so no mark of another radix follows it. -/
theorem ne_marked (negative : Bool) (hds : Whole ds) {mark : Char} (hmark : mark ≠ '\n')
    (more : List Char) : minus negative ++ (ds ++ '\n' :: rest) ≠ '0' :: mark :: more := by
  intro heq
  cases negative with
  | true => exact absurd (List.cons.inj heq).1 (by decide)
  | false =>
    obtain ⟨-, rfl | ⟨d, ds, rfl, hd⟩⟩ := hds
    · exact hmark (List.cons.inj (List.cons.inj heq).2).1.symm
    · exact hd (List.cons.inj heq).1

/-- **An integer is read to the end of its line.** -/
theorem number_append (negative : Bool) (hds : Whole ds) (rest : List Char) :
    number (minus negative ++ (ds ++ '\n' :: rest))
      = (ranged (if negative then -(Text.number 10 ds : Int) else Text.number 10 ds)).map
          fun v => (v, '\n' :: rest) := by
  have hsign := sign_append negative hds ('\n' :: rest)
  have hwhole := wholeDigits_append hds rest
  have hfinite : finiteFloat (minus negative ++ (ds ++ '\n' :: rest)) = none := by
    rw [finiteFloat, hsign]
    dsimp only
    rw [hwhole]
    rfl
  have hspecial : specialFloat (minus negative ++ (ds ++ '\n' :: rest)) = none := by
    obtain ⟨d, more, rfl, hd⟩ := hds.exists_cons
    have hletters : 'i' ≠ d ∧ 'n' ≠ d := by
      constructor <;> rintro rfl <;> exact absurd hd (by decide)
    rw [specialFloat, hsign]
    simp [word, hletters]
  have hinteger : integer (minus negative ++ (ds ++ '\n' :: rest))
      = (ranged (if negative then -(Text.number 10 ds : Int) else Text.number 10 ds)).map
          fun v => (v, '\n' :: rest) := by
    rw [integer, hsign]
    · dsimp only
      rw [hwhole, Option.bind_eq_bind, Option.bind_some]
      cases ranged (if negative then -(Text.number 10 ds : Int) else Text.number 10 ds) <;> rfl
    all_goals exact fun more heq => ne_marked negative hds (by decide) more heq
  rw [number, date_eq_none negative hds.1, hfinite, hspecial, hinteger]
  rfl

/-- What an integer is written as. -/
theorem toList_toString (n : Int) : ∃ negative ds, (toString n).toList = minus negative ++ ds ∧
    Whole ds ∧ (if negative then -(Text.number 10 ds : Int) else Text.number 10 ds) = n := by
  cases n with
  | ofNat n =>
    refine ⟨false, Nat.toDigits 10 n, Nat.toList_repr, whole_toDigits n, ?_⟩
    rw [Text.number_toDigits]
    rfl
  | negSucc n =>
    refine ⟨true, Nat.toDigits 10 (n + 1), ?_, whole_toDigits (n + 1), ?_⟩
    · show ("-" ++ (n + 1).repr).toList = _
      rw [String.toList_append, Nat.toList_repr]
      rfl
    · rw [Text.number_toDigits]
      rfl

end Toml

end OrderingService
