import TierTagger.Text.Numeral

/-!
# Decimal numerals

What is known of the digits that a natural is written with.
-/

namespace TierTagger.Text.Numeral

/-- The decimal digits of a number stand for it. -/
theorem value_toDigits (n : Nat) : value 10 (Nat.toDigits 10 n) = n := by
  have digit : ∀ d < 10, (digit? (Nat.digitChar d)).getD 0 = d := by decide
  induction n using Nat.strongRecOn with
  | ind n ih =>
    by_cases small : n < 10
    · rw [Nat.toDigits_of_lt_base small]
      have := value_concat 10 [] (Nat.digitChar n)
      rw [List.nil_append] at this
      rw [this, digit n small]
      simp
    · rw [Nat.toDigits_of_base_le (by decide) (by omega), value_concat, ih (n / 10) (by omega),
        digit (n % 10) (by omega)]
      omega

/-- A numeral has no zero in front, unless it is zero. -/
theorem head?_toDigits {n : Nat} (positive : 0 < n) : (Nat.toDigits 10 n).head? ≠ some '0' := by
  have digit : ∀ d < 10, 0 < d → Nat.digitChar d ≠ '0' := by decide
  induction n using Nat.strongRecOn with
  | ind n ih =>
    by_cases small : n < 10
    · rw [Nat.toDigits_of_lt_base small]
      simpa using digit n small positive
    · have before := ih (n / 10) (by omega) (by omega)
      rw [Nat.toDigits_of_base_le (by decide) (by omega)]
      cases digits : Nat.toDigits 10 (n / 10) with
      | nil => exact absurd digits Nat.toDigits_ne_nil
      | cons c cs =>
        rw [digits] at before
        exact before

end TierTagger.Text.Numeral
