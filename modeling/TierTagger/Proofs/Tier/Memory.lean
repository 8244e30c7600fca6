import Mathlib
import TierTagger.Proofs.Tier.Steps

/-!
# The tier above an amount of memory

What holds of the tiers of all doubles, whatever their bits are.

- `value?`: what a double stands for, among the real numbers and the infinities.
- `proper_ofBits`: bits are read as a magnitude and an exponent that a double can have.
- `memoryExponent_mono`: a larger amount has no smaller tier, across the points just under the powers of two
  where the rounded logarithm is ahead.
- `Graded`, `tiers_graded`: the tiers are powers of two, grow with the amount and are above it.
-/

namespace TierTagger

/-- What a double stands for, if it is a number. -/
noncomputable def Binary64.value? : Binary64 → Option EReal
  | .finite s m q => some (real s m q : ℝ)
  | .infinite s => some (if s then ⊥ else ⊤)
  | .nan => none

namespace Tier

open Binary64 (Fits RoundsLog2 floorLog2 ofBits order real value?)

/-! ## Bits -/

/-- A double as it is read from bits. -/
def Proper (x : Binary64) : Prop := ∀ s m q, x = .finite s m q → Fits m q

theorem proper_ofBits (bits : Nat) : Proper (ofBits bits) := by
  intro s m q same
  have fraction : bits % Nat.pow 2 52 < 2 ^ 52 := Nat.mod_lt _ (by decide)
  have exponent : bits / Nat.pow 2 52 % Nat.pow 2 11 < 2 ^ 11 := Nat.mod_lt _ (by decide)
  unfold Binary64.ofBits at same
  simp only at same
  split_ifs at same
  · cases same
    exact ⟨by omega, le_refl _, by decide⟩
  · cases same
    refine ⟨by rw [Nat.pow_eq]; omega, ?_, ?_⟩
    · unfold Binary64.lowestExponent
      omega
    · unfold Binary64.highestExponent
      omega

/-! ## Growth -/

section
variable {x y : Binary64} {v w : EReal}

theorem memoryExponent_large {m : Nat} {q : Int} (one : 1 ≤ real false m q) :
    memoryExponent (.finite false m q) = min (floorLog2 m q + 1) 23 :=
  if_pos (order_nonneg_iff.mpr one)

theorem memoryExponent_bounds (x : Binary64) : 1 ≤ memoryExponent x ∧ memoryExponent x ≤ 23 := by
  unfold memoryExponent maxMemoryExponent
  split
  · split_ifs <;> omega
  · decide
  · decide

/-- An amount that is no number or below one counts as one. -/
theorem memoryExponent_small (small : ∀ v, value? x = some v → v < 1) : memoryExponent x = 1 := by
  match x with
  | .nan | .infinite true | .finite true _ _ => rfl
  | .infinite false => exact absurd (small ⊤ rfl) not_top_lt
  | .finite false m q =>
    have below : ((real false m q : ℝ) : EReal) < 1 := small _ rfl
    refine if_neg fun large => ?_
    have one := order_nonneg_iff.mp large
    exact absurd (by exact_mod_cast below) one.not_gt

/-- An amount of at least one megabyte is a number with a logarithm, or infinite. -/
theorem large_cases (proper : Proper x) (value : value? x = some v) (one : 1 ≤ v) :
    (∃ m q, x = .finite false m q ∧ Fits m q ∧ 1 ≤ real false m q ∧ v = (real false m q : ℝ)) ∨
      x = .infinite false ∧ v = ⊤ := by
  match x with
  | .nan => cases value
  | .infinite true =>
    cases value
    exact absurd one (EReal.bot_lt_coe 1).not_ge
  | .infinite false =>
    cases value
    exact .inr ⟨rfl, rfl⟩
  | .finite true m q =>
    cases value
    have above : (1 : ℝ) ≤ real true m q := by exact_mod_cast one
    linarith [Binary64.real_true_nonpos m q]
  | .finite false m q =>
    cases value
    exact .inl ⟨m, q, rfl, proper _ _ _ rfl, by exact_mod_cast one, rfl⟩

/-- A larger amount has no smaller tier. -/
theorem memoryExponent_mono (proper : Proper x) (proper' : Proper y) (value : value? x = some v)
    (value' : value? y = some w) (le : v ≤ w) : memoryExponent x ≤ memoryExponent y := by
  rcases lt_or_ge v 1 with small | one
  · rw [memoryExponent_small fun u same => by rw [value] at same; cases same; exact small]
    exact (memoryExponent_bounds y).1
  rcases large_cases proper' value' (one.trans le) with ⟨n, p, rfl, fits', large', rfl⟩ | ⟨rfl, rfl⟩
  · rcases large_cases proper value one with ⟨m, q, rfl, fits, large, rfl⟩ | ⟨rfl, rfl⟩
    · have grown := Binary64.floorLog2_mono fits large fits' (by exact_mod_cast le)
      rw [memoryExponent_large large, memoryExponent_large large']
      omega
    · exact absurd le (by simp)
  · exact (memoryExponent_bounds x).2

/-- Under the cap the tier is above the amount. -/
theorem lt_memoryExponent (proper : Proper x) (value : value? x = some v) (small : v < (2 ^ 23 : ℝ)) :
    v < ((2 ^ memoryExponent x : Nat) : ℝ) := by
  rcases lt_or_ge v 1 with below | one
  · rw [memoryExponent_small fun u same => by rw [value] at same; cases same; exact below]
    exact below.trans (by exact_mod_cast (by norm_num : (1 : ℝ) < ((2 ^ 1 : Nat) : ℝ)))
  rcases large_cases proper value one with ⟨m, q, rfl, fits, large, rfl⟩ | ⟨rfl, rfl⟩
  · have small : real false m q < 2 ^ 23 := by exact_mod_cast small
    obtain ⟨low, -⟩ := Binary64.order_le_floorLog2 m q
    have capped := Binary64.order_lt_of_lt fits large small
    have power : (2 : ℝ) ^ (order m q + 1) ≤ 2 ^ memoryExponent (.finite false m q) := by
      refine pow_le_pow_right₀ one_le_two ?_
      rw [memoryExponent_large large]
      omega
    have above := (Binary64.order_bounds fits large).2.trans_le power
    exact_mod_cast above
  · exact absurd small (by simp)

end

/-! ## The tiers of all doubles -/

/-- The tiers of all doubles, and the steps to them with a logarithm. -/
structure Graded (log2 : Binary64 → Binary64) : Prop where
  /-- The steps in machine arithmetic come to the tier. -/
  steps : ∀ bits : UInt64, Steps.memory log2 (ofBits bits.toNat) = nextMemory (ofBits bits.toNat)
  /-- A tier is a power of two. -/
  power : ∀ bits : UInt64, ∃ j, 1 ≤ j ∧ j ≤ 23 ∧ nextMemory (ofBits bits.toNat) = ofNat (2 ^ j)
  /-- A larger amount has no smaller tier. -/
  grows : ∀ (bits bits' : UInt64) v w, value? (ofBits bits.toNat) = some v → value? (ofBits bits'.toNat) = some w →
    v ≤ w → ∃ s t, nextMemory (ofBits bits.toNat) = ofNat s ∧ nextMemory (ofBits bits'.toNat) = ofNat t ∧ s ≤ t
  /-- An amount that is no number or below one has the tier of one. -/
  least : ∀ bits : UInt64, (∀ v, value? (ofBits bits.toNat) = some v → v < 1) →
    nextMemory (ofBits bits.toNat) = nextMemory (ofBits 0x3ff0000000000000)
  /-- Under the cap the tier is above the amount. -/
  above : ∀ (bits : UInt64) v, value? (ofBits bits.toNat) = some v → v < (2 ^ 23 : ℝ) →
    ∃ t : Nat, nextMemory (ofBits bits.toNat) = ofNat t ∧ v < (t : ℝ)

/-- **The tiers of all doubles are graded**, with a logarithm that is rounded to a nearest double. -/
theorem tiers_graded {log2 : Binary64 → Binary64} (rounds : RoundsLog2 log2) : Graded log2 := by
  constructor
  case steps => exact fun bits => steps_memory rounds (proper_ofBits bits.toNat)
  case power =>
    intro bits
    obtain ⟨low, high⟩ := memoryExponent_bounds (ofBits bits.toNat)
    exact ⟨_, low, high, rfl⟩
  case grows =>
    intro bits bits' v w value value' le
    have exponents := memoryExponent_mono (proper_ofBits _) (proper_ofBits _) value value' le
    exact ⟨_, _, rfl, rfl, Nat.pow_le_pow_right (by decide) exponents⟩
  case least =>
    intro bits small
    have one : memoryExponent (ofBits 0x3ff0000000000000) = 1 := by decide +kernel
    rw [nextMemory, nextMemory, memoryExponent_small small, one]
  case above =>
    intro bits v value small
    exact ⟨_, rfl, lt_memoryExponent (proper_ofBits _) value small⟩

/-- The double before `2 ^ 20` has the tier of `2 ^ 20`, the one a few places before it does not. -/
theorem tiers_graded_ahead : Graded Binary64.roundedLog2 ∧
    Steps.memory Binary64.roundedLog2 (ofBits 0x412fffffffffffff) = ⟨"2097152"⟩ ∧
    Steps.memory Binary64.roundedLog2 (ofBits 0x412ffffffffffff4) = ⟨"1048576"⟩ := by
  have graded : Graded Binary64.roundedLog2 := tiers_graded Binary64.rounds_roundedLog2
  refine ⟨graded, ?_, ?_⟩
  · refine (graded.steps 0x412fffffffffffff).trans ?_
    decide +kernel
  · refine (graded.steps 0x412ffffffffffff4).trans ?_
    decide +kernel

end Tier
end TierTagger
