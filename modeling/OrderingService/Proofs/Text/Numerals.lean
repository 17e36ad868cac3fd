import OrderingService.Text.Digits

/-!
# Decimal numerals

A natural number is written in decimal without leading zeros, and read back digit by digit. Both
formats that configurations and witnesses are written in agree on this much, so the facts are here
once.

## Main results

* `Text.number_toDigits` — a number is read back from its digits
* `Text.toDigits_cases` — there is no leading zero
-/

namespace OrderingService

namespace Text

theorem digit?_digitChar {d : Nat} (hd : d < 10) : digit? 10 (Nat.digitChar d) = some d := by
  have hall : ∀ d : Fin 10, digit? 10 (Nat.digitChar d) = some d.val := by decide
  exact hall ⟨d, hd⟩

/-- **A number is read back from its digits.** The induction is on the number without its last
digit. -/
theorem number_toDigits (n : Nat) : number 10 (Nat.toDigits 10 n) = n := by
  induction n using Nat.strongRecOn with
  | ind n ih =>
    rw [Nat.toDigits_eq_if (by decide)]
    split
    next hlt => simp [number, digit?_digitChar hlt]
    next hge =>
      have hrest := ih (n / 10) (by omega)
      have hlast := digit?_digitChar (Nat.mod_lt n (show 0 < 10 by decide))
      rw [number] at hrest ⊢
      rw [List.foldl_append, hrest, List.foldl_cons, List.foldl_nil, hlast, Option.getD_some]
      omega

theorem isDigit_of_mem_toDigits {n : Nat} {c : Char} (hc : c ∈ Nat.toDigits 10 n) :
    isDigit 10 c = true := by
  induction n using Nat.strongRecOn with
  | ind n ih =>
    rw [Nat.toDigits_eq_if (by decide)] at hc
    split at hc
    next hlt =>
      obtain rfl := List.mem_singleton.mp hc
      rw [isDigit, digit?_digitChar hlt, Option.isSome_some]
    next hge =>
      rcases List.mem_append.mp hc with hc | hc
      · exact ih (n / 10) (by omega) hc
      · obtain rfl := List.mem_singleton.mp hc
        rw [isDigit, digit?_digitChar (Nat.mod_lt n (by decide)), Option.isSome_some]

/-- **There is no leading zero:** a number is written as zero alone, or starts with another
digit. -/
theorem toDigits_cases (n : Nat) :
    Nat.toDigits 10 n = ['0'] ∨ ∃ d ds, Nat.toDigits 10 n = d :: ds ∧ d ≠ '0' := by
  induction n using Nat.strongRecOn with
  | ind n ih =>
    rw [Nat.toDigits_eq_if (by decide)]
    split
    next hlt =>
      rcases Nat.eq_zero_or_pos n with rfl | hpos
      · exact Or.inl rfl
      · refine Or.inr ⟨_, [], rfl, fun hzero => ?_⟩
        have hread := digit?_digitChar hlt
        rw [hzero] at hread
        have hn : (0 : Nat) = n := Option.some.inj hread
        omega
    next hge =>
      rcases ih (n / 10) (by omega) with hzero | ⟨d, ds, hds, hd⟩
      · have hread := number_toDigits (n / 10)
        rw [hzero] at hread
        have hquotient : 0 = n / 10 := hread
        omega
      · exact Or.inr ⟨d, ds ++ [(n % 10).digitChar], by rw [hds, List.cons_append], hd⟩

end Text

end OrderingService
