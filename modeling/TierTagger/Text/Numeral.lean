/-!
# Numerals

Digits of a base up to 16, in either case, and the number that a sequence of them stands for. `value_concat`
is the rule of a positional system.
-/

namespace TierTagger.Text.Numeral

/-- The value of a digit. -/
def digit? (c : Char) : Option Nat :=
  if c.isDigit then some (c.toNat - '0'.toNat)
  else if 'a' ≤ c ∧ c ≤ 'f' then some (c.toNat - 'a'.toNat + 10)
  else if 'A' ≤ c ∧ c ≤ 'F' then some (c.toNat - 'A'.toNat + 10)
  else none

/-- Whether a character is a digit of a base. -/
def isDigit (base : Nat) (c : Char) : Bool := (digit? c).any (· < base)

/-- The number that digits of a base stand for. -/
def value (base : Nat) (ds : List Char) : Nat :=
  ds.foldl (fun n d => n * base + (digit? d).getD 0) 0

@[simp] theorem value_nil (base : Nat) : value base [] = 0 := rfl

/-- A further digit moves the others up one place. -/
theorem value_concat (base : Nat) (ds : List Char) (d : Char) :
    value base (ds ++ [d]) = value base ds * base + (digit? d).getD 0 := by
  simp [value]

end TierTagger.Text.Numeral
