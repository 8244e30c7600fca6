import Mathlib
import TierTagger.Binary64.Basic

/-!
# Rounding to doubles

What a double stands for, and which doubles are as near as can be to a number.

- `real`: the number that a sign, a magnitude and an exponent stand for. `Fits` says that a double can
  hold them.
- `Nearest`: a double than which no other is nearer. On a tie there are two of them, so what is proved of
  a nearest double holds whichever way ties are broken.
- `le_of_nearest`, `lt_of_nearest`: on which side of a double the nearest one is.
- `nearest_ofNat`: `Binary64.ofNat` is a nearest double.
-/

namespace TierTagger.Binary64

/-! ## Values -/

/-- A magnitude and an exponent that a double can have. -/
structure Fits (m : Nat) (q : Int) : Prop where
  small : m < 2 ^ 53
  lowest : lowestExponent ≤ q
  highest : q ≤ highestExponent

/-- The number `m * 2 ^ q`, negated if `negative`. -/
noncomputable def real (negative : Bool) (m : Nat) (q : Int) : ℝ :=
  (if negative then -1 else 1) * (m * (2 : ℝ) ^ q)

/-- The numbers that doubles stand for. -/
def Representable (v : ℝ) : Prop := ∃ s m q, Fits m q ∧ v = real s m q

/-- No number of a double is nearer to `y` than `r`. -/
def Closest (y r : ℝ) : Prop := ∀ v, Representable v → |r - y| ≤ |v - y|

/-- No double is nearer to `y` than `x`. -/
def Nearest (y : ℝ) (x : Binary64) : Prop := ∃ s m q, x = .finite s m q ∧ Fits m q ∧ Closest y (real s m q)

variable {m : Nat} {q : Int} {s : Bool} {y : ℝ}

theorem real_false (m : Nat) (q : Int) : real false m q = m * (2 : ℝ) ^ q := by
  simp [real]

theorem Fits.representable (fits : Fits m q) (s : Bool) : Representable (real s m q) := ⟨s, m, q, fits, rfl⟩

theorem representable_natCast {n : Nat} (small : n < 2 ^ 53) : Representable (n : ℝ) :=
  ⟨false, n, 0, ⟨small, by decide, by decide⟩, by simp [real_false]⟩

theorem real_true_nonpos (m : Nat) (q : Int) : real true m q ≤ 0 := by
  have magnitude : (0 : ℝ) ≤ m * 2 ^ q := mul_nonneg m.cast_nonneg (zpow_pos two_pos q).le
  simp only [real, if_true]
  linarith

/-! ## Sides -/

namespace Closest

variable {a b r : ℝ} (closest : Closest y r)
include closest

/-- The nearest number is below a number if there is a nearer one below that. -/
theorem lt (low : Representable a) (order : a < b) (below : 2 * y < a + b) : r < b := by
  by_contra above
  have above : b ≤ r := not_lt.mp above
  have nearer := closest a low
  rw [abs_of_pos (by linarith)] at nearer
  rcases abs_cases (a - y) with ⟨same, -⟩ | ⟨same, -⟩ <;> rw [same] at nearer <;> linarith

/-- The nearest number is not below a number that is nearer than all below it. -/
theorem le (exact_ : Representable r) (high : Representable b) (above : a + b < 2 * y)
    (alone : ∀ v, Representable v → a < v → b ≤ v) : b ≤ r := by
  by_contra below
  have below : r < b := not_le.mp below
  have low : r ≤ a := not_lt.mp fun between => below.not_ge (alone _ exact_ between)
  have nearer := closest b high
  rw [abs_of_neg (by linarith)] at nearer
  rcases abs_cases (b - y) with ⟨same, -⟩ | ⟨same, -⟩ <;> rw [same] at nearer <;> linarith

/-- A number that is represented is nearest to itself. -/
theorem eq_self (exact_ : Representable y) : r = y := by
  have zero := closest y exact_
  rw [sub_self, abs_zero] at zero
  linarith [abs_nonpos_iff.mp zero]

/-- Rounding does not pass a number that is represented. -/
theorem ge (low : Representable a) (above : a ≤ y) : a ≤ r := by
  by_contra below
  have below : r < a := not_le.mp below
  have nearer := closest a low
  rw [abs_of_neg (by linarith), abs_of_nonpos (by linarith)] at nearer
  linarith

/-- Rounding does not pass a number that is represented. -/
theorem le_of_le (high : Representable b) (below : y ≤ b) : r ≤ b := by
  by_contra above
  have above : b < r := not_le.mp above
  have nearer := closest b high
  rw [abs_of_pos (by linarith), abs_of_nonneg (by linarith)] at nearer
  linarith

end Closest

/-! ## Existence -/

/-- Every number has a nearest double. -/
theorem exists_nearest (y : ℝ) : ∃ x, Nearest y x := by
  have finite : {v : Bool × Nat × Int | Fits v.2.1 v.2.2}.Finite := by
    refine Set.Finite.subset (Set.finite_univ.prod
      ((Set.finite_Iio (2 ^ 53)).prod (Set.finite_Icc lowestExponent highestExponent))) ?_
    rintro ⟨s, m, q⟩ fits
    exact ⟨trivial, fits.small, fits.lowest, fits.highest⟩
  obtain ⟨⟨s, m, q⟩, fits, least⟩ := Set.exists_min_image _ (fun v : Bool × Nat × Int => |real v.1 v.2.1 v.2.2 - y|)
    finite ⟨(false, 0, 0), ⟨by decide, by decide, by decide⟩⟩
  refine ⟨.finite s m q, s, m, q, rfl, fits, ?_⟩
  rintro v ⟨s', m', q', fits', rfl⟩
  exact least (s', m', q') fits'

/-! ## The grid -/

/-- A number of at least `2 ^ (52 + p)` is a multiple of `2 ^ p`. -/
theorem exists_multiple {p : Int} {v : ℝ} (exact_ : Representable v) (large : (2 : ℝ) ^ (52 + p) ≤ v) :
    ∃ c : Nat, v = c * (2 : ℝ) ^ p := by
  obtain ⟨s, m, q, fits, rfl⟩ := exact_
  have positive : 0 < real s m q := (zpow_pos two_pos _).trans_le large
  cases s with
  | true => exact absurd positive (real_true_nonpos m q).not_gt
  | false =>
    rw [real_false] at large ⊢
    have bound : (m : ℝ) < 2 ^ (53 : Int) := by exact_mod_cast fits.small
    have less : (2 : ℝ) ^ (52 + p) < 2 ^ (53 + q) := by
      rw [zpow_add₀ two_ne_zero 53]
      exact large.trans_lt (mul_lt_mul_of_pos_right bound (zpow_pos two_pos q))
    have order : p ≤ q := by
      have := (zpow_lt_zpow_iff_right₀ one_lt_two).mp less
      omega
    refine ⟨m * 2 ^ (q - p).toNat, ?_⟩
    have split : (2 : ℝ) ^ q = 2 ^ (q - p).toNat * 2 ^ p := by
      rw [← zpow_natCast, ← zpow_add₀ two_ne_zero]
      congr 1
      omega
    rw [split]
    push_cast
    ring

/-! ## Naturals -/

/-- No multiple of the divisor is nearer to a number than the rounded quotient. -/
theorem roundQuotient_closest (num : Nat) {den : Nat} (pos : 0 < den) (c : Nat) :
    |((roundQuotient num den * den : Nat) : ℝ) - num| ≤ |((c * den : Nat) : ℝ) - num| := by
  have whole : num / den * den + num % den = num := Nat.div_add_mod' num den
  have left : num % den < den := Nat.mod_lt num pos
  have next : (num / den + 1) * den = num / den * den + den := Nat.succ_mul _ _
  have side : c * den ≤ num / den * den ∨ num / den * den + den ≤ c * den := by
    rcases Nat.lt_or_ge (num / den) c with above | below
    · exact .inr (next ▸ Nat.mul_le_mul_right den above)
    · exact .inl (Nat.mul_le_mul_right den below)
  have distance (t : Nat) : |((t : Nat) : ℝ) - num| = ((t - num + (num - t) : Nat) : ℝ) := by
    rcases Nat.le_total t num with le | le
    · rw [Nat.sub_eq_zero_of_le le, Nat.zero_add, Nat.cast_sub le, abs_of_nonpos (by simpa using le)]
      ring
    · rw [Nat.sub_eq_zero_of_le le, Nat.add_zero, Nat.cast_sub le, abs_of_nonneg (by simpa using le)]
  rw [distance, distance, Nat.cast_le]
  unfold roundQuotient
  simp only
  split_ifs with down
  · omega
  · rw [next]
    omega

section
variable {n : Nat} (positive : 0 < n)
include positive

/-- The last place of a natural number with 53 significant bits. -/
theorem placeOf_natural : placeOf n 1 = (Nat.log2 n : Int) - 52 := by
  have low : 2 ^ Nat.log2 n ≤ n := Nat.log2_self_le positive.ne'
  have long : 2 ^ 53 ≤ n * 2 ^ (53 - Nat.log2 n) / 2 ^ (Nat.log2 n - 53) := by
    rw [Nat.le_div_iff_mul_le (by positivity), ← pow_add]
    calc 2 ^ (53 + (Nat.log2 n - 53)) = 2 ^ Nat.log2 n * 2 ^ (53 - Nat.log2 n) := by
          rw [← pow_add]
          congr 1
          omega
      _ ≤ n * 2 ^ (53 - Nat.log2 n) := Nat.mul_le_mul_right _ low
  have one : Nat.log2 1 = 0 := by decide
  unfold placeOf shifted
  simp only [one, Nat.pow_eq, Nat.one_mul]
  rw [show (-((Nat.log2 n : Int) - (0 : Nat) - 53)).toNat = 53 - Nat.log2 n by omega,
    show ((Nat.log2 n : Int) - (0 : Nat) - 53).toNat = Nat.log2 n - 53 by omega, if_neg (Nat.not_lt.mpr long)]
  unfold lowestExponent
  omega

end

theorem roundQuotient_one (n : Nat) : roundQuotient n 1 = n := by
  simp [roundQuotient, Nat.mod_one]

/-- A natural number of at most 53 bits in units of its 53rd bit. -/
theorem units_lt {n : Nat} (short : Nat.log2 n ≤ 52) : n * 2 ^ (52 - Nat.log2 n) < 2 ^ 53 := by
  calc n * 2 ^ (52 - Nat.log2 n) < 2 ^ (Nat.log2 n + 1) * 2 ^ (52 - Nat.log2 n) :=
        Nat.mul_lt_mul_of_pos_right Nat.lt_log2_self (by positivity)
    _ = 2 ^ 53 := by
        rw [← pow_add]
        congr 1
        omega

/-- A natural number of at most 53 bits is converted as it is. -/
theorem ofNat_short {n : Nat} (positive : 0 < n) (short : Nat.log2 n ≤ 52) :
    ofNat n = .finite false (n * 2 ^ (52 - Nat.log2 n)) ((Nat.log2 n : Int) - 52) := by
  unfold ofNat ofRatio
  simp only [placeOf_natural positive, shifted, Nat.pow_eq]
  rw [if_neg positive.ne', show (-((Nat.log2 n : Int) - 52)).toNat = 52 - Nat.log2 n by omega,
    show ((Nat.log2 n : Int) - 52).toNat = 0 by omega, Nat.pow_zero, Nat.mul_one, roundQuotient_one,
    if_neg (units_lt short).ne]
  simp only
  rw [if_neg (by unfold highestExponent; omega)]

/-- A longer one is rounded at the place of its 53rd bit. -/
theorem ofNat_long {n : Nat} (long : 52 < Nat.log2 n) (length : Nat.log2 n < 64) :
    ∃ m q, ofNat n = .finite false m q ∧ Fits m q ∧
      real false m q = ((roundQuotient n (2 ^ (Nat.log2 n - 52)) * 2 ^ (Nat.log2 n - 52) : Nat) : ℝ) := by
  obtain ⟨p, place⟩ : ∃ p, Nat.log2 n = 52 + p := ⟨Nat.log2 n - 52, by omega⟩
  have positive : 0 < n := Nat.pos_of_ne_zero fun zero => by simp [zero] at long
  have bound : roundQuotient n (2 ^ p) ≤ 2 ^ 53 := by
    have below : n / 2 ^ p < 2 ^ 53 := by
      rw [Nat.div_lt_iff_lt_mul (by positivity), ← pow_add, show 53 + p = Nat.log2 n + 1 by omega]
      exact Nat.lt_log2_self
    unfold roundQuotient
    simp only
    split_ifs <;> omega
  have converted : ofNat n = if roundQuotient n (2 ^ p) = 2 ^ 53 then .finite false (2 ^ 52) (p + 1)
      else .finite false (roundQuotient n (2 ^ p)) p := by
    unfold ofNat ofRatio
    simp only [placeOf_natural positive, shifted, Nat.pow_eq]
    rw [if_neg positive.ne', show (-((Nat.log2 n : Int) - 52)).toNat = 0 by omega,
      show ((Nat.log2 n : Int) - 52).toNat = p by omega, show (Nat.log2 n : Int) - 52 = p by omega,
      Nat.pow_zero, Nat.mul_one, Nat.one_mul]
    have finite (k : Int) (short : k ≤ 64) : ¬k > highestExponent := by
      unfold highestExponent
      omega
    by_cases carry : roundQuotient n (2 ^ p) = 2 ^ 53
    · simp only [if_pos carry, if_neg (finite (p + 1) (by omega))]
    · simp only [if_neg carry, if_neg (finite p (by omega))]
  rw [show Nat.log2 n - 52 = p by omega, converted]
  split_ifs with carry
  · refine ⟨2 ^ 52, p + 1, rfl, ⟨by norm_num, by unfold lowestExponent; omega, by unfold highestExponent; omega⟩, ?_⟩
    rw [carry, real_false, zpow_add_one₀ two_ne_zero]
    push_cast
    rw [zpow_natCast]
    ring
  · refine ⟨_, p, rfl, ⟨by omega, by unfold lowestExponent; omega, by unfold highestExponent; omega⟩, ?_⟩
    rw [real_false]
    push_cast
    rw [zpow_natCast]

theorem nearest_ofNat {n : Nat} (small : n < 2 ^ 64) : Nearest (n : ℝ) (ofNat n) := by
  rcases Nat.eq_zero_or_pos n with rfl | positive
  · exact ⟨false, 0, lowestExponent, rfl, ⟨by decide, by decide, by decide⟩, fun v _ => by simp [real]⟩
  have length : Nat.log2 n < 64 := (Nat.log2_lt positive.ne').mpr small
  rcases Nat.lt_or_ge 52 (Nat.log2 n) with long | short
  · obtain ⟨m, q, converted, fits, value⟩ := ofNat_long long length
    refine ⟨false, m, q, converted, fits, fun v exact_ => ?_⟩
    rw [value]
    -- in the range of the number, doubles are multiples of the last place
    rcases le_or_gt ((2 : ℝ) ^ (52 + ((Nat.log2 n - 52 : Nat) : Int))) v with above | below
    · obtain ⟨c, rfl⟩ := exists_multiple exact_ above
      have closest := roundQuotient_closest n (Nat.two_pow_pos (Nat.log2 n - 52)) c
      simpa using closest
    · have closest := roundQuotient_closest n (Nat.two_pow_pos (Nat.log2 n - 52)) (2 ^ 52)
      have low : ((2 ^ 52 * 2 ^ (Nat.log2 n - 52) : Nat) : ℝ) ≤ n := by
        rw [← pow_add, show 52 + (Nat.log2 n - 52) = Nat.log2 n by omega]
        exact_mod_cast Nat.log2_self_le positive.ne'
      have under : v < ((2 ^ 52 * 2 ^ (Nat.log2 n - 52) : Nat) : ℝ) := by
        refine below.trans_eq ?_
        rw [zpow_add₀ two_ne_zero, zpow_natCast]
        norm_num
      refine closest.trans ?_
      rw [abs_of_nonpos (sub_nonpos.mpr low), abs_of_neg (by linarith)]
      linarith
  · refine ⟨false, _, _, ofNat_short positive short, ⟨units_lt short, by unfold lowestExponent; omega,
      by unfold highestExponent; omega⟩, fun v _ => ?_⟩
    have exact_ : real false (n * 2 ^ (52 - Nat.log2 n)) ((Nat.log2 n : Int) - 52) = n := by
      rw [real_false, show ((Nat.log2 n : Int) - 52) = -((52 - Nat.log2 n : Nat) : Int) by omega, zpow_neg,
        zpow_natCast]
      push_cast
      field_simp
    rw [exact_, sub_self, abs_zero]
    exact abs_nonneg _

end TierTagger.Binary64
