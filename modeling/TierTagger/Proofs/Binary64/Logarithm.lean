import Mathlib
import TierTagger.Proofs.Binary64.Rounding

/-!
# The rounded logarithm

`floorLog2` is the integer part of any base-two logarithm that is rounded to a nearest double.

- `order`, `below`: a double of at least one lies `below` units of `2 ^ (order - 52)` under the next power
  of two.
- `Gap`: two doubles with none between them.
- `RoundsLog2`: a logarithm that is rounded to a nearest double. `roundedLog2` is one.
- `floor_eq`: the integer part of the rounded logarithm.

The logarithm of a double under `2 ^ k` is under `k`, and rounds to `k` if it is more than half the way from
the double before `k`. How far the argument may be under `2 ^ k` for that is `logMargin k`: a whole number of
units that is not near the exact bound, `2 ^ j * ln 2`, for any of the ten values of `j`.
-/

namespace TierTagger.Binary64

/-! ## Under a power of two -/

/-- Exponent of the power of two that is not above a number. -/
def order (m : Nat) (q : Int) : Nat := (q + Nat.log2 m).toNat

/-- How many units of its 53rd bit a number is below the next power of two. -/
def below (m : Nat) : Nat := 2 ^ 53 - m * 2 ^ (52 - Nat.log2 m)

theorem floorLog2_eq (m : Nat) (q : Int) :
    floorLog2 m q = if below m ≤ logMargin (order m q + 1) then order m q + 1 else order m q := rfl

theorem order_le_floorLog2 (m : Nat) (q : Int) : order m q ≤ floorLog2 m q ∧ floorLog2 m q ≤ order m q + 1 := by
  rw [floorLog2_eq]
  split_ifs <;> omega

/-- The number that is so many units below a power of two. -/
noncomputable def under (k b : Nat) : ℝ := real false 1 k - real false b (k - 53)

theorem under_eq (k b : Nat) : under k b = 2 ^ k * (1 - b / 2 ^ 53) := by
  rw [under, real_false, real_false, zpow_sub₀ two_ne_zero, zpow_natCast]
  norm_num
  ring

section
variable {m : Nat} {q : Int}

theorem pos_of_one_le (one : 1 ≤ real false m q) : 0 < m := by
  refine Nat.pos_of_ne_zero fun zero => ?_
  rw [real_false, zero, Nat.cast_zero, zero_mul] at one
  linarith

theorem order_eq (one : 1 ≤ real false m q) : (order m q : Int) = q + Nat.log2 m := by
  have high : (m : ℝ) < 2 ^ ((Nat.log2 m : Int) + 1) := by
    exact_mod_cast (Nat.lt_log2_self : m < 2 ^ (Nat.log2 m + 1))
  have large : (2 : ℝ) ^ (0 : Int) < 2 ^ ((Nat.log2 m : Int) + 1 + q) := by
    rw [zpow_add₀ two_ne_zero, zpow_zero]
    exact one.trans_lt (real_false m q ▸ mul_lt_mul_of_pos_right high (zpow_pos two_pos q))
  have := (zpow_lt_zpow_iff_right₀ one_lt_two).mp large
  unfold order
  omega

variable (fits : Fits m q) (one : 1 ≤ real false m q)
include fits one

theorem log2_le : Nat.log2 m ≤ 52 :=
  Nat.le_of_lt_succ ((Nat.log2_lt (pos_of_one_le one).ne').mpr fits.small)

theorem order_lt : order m q < 1024 := by
  have whole := order_eq one
  have short := log2_le fits one
  have high := fits.highest
  unfold highestExponent at high
  omega

/-- The number in units of its 53rd bit. -/
theorem units_bounds : 2 ^ 52 ≤ m * 2 ^ (52 - Nat.log2 m) ∧ m * 2 ^ (52 - Nat.log2 m) < 2 ^ 53 := by
  have short := log2_le fits one
  refine ⟨?_, units_lt short⟩
  calc 2 ^ 52 = 2 ^ Nat.log2 m * 2 ^ (52 - Nat.log2 m) := by
        rw [← pow_add]
        congr 1
        omega
    _ ≤ m * 2 ^ (52 - Nat.log2 m) := Nat.mul_le_mul_right _ (Nat.log2_self_le (pos_of_one_le one).ne')

theorem below_bounds : 1 ≤ below m ∧ below m ≤ 2 ^ 52 := by
  have := units_bounds fits one
  unfold below
  omega

/-- A number of at least one by its order and its units. -/
theorem real_eq_under : real false m q = under (order m q + 1) (below m) := by
  have short := log2_le fits one
  have whole := order_eq one
  have units := (units_bounds fits one).2.le
  have share : (1 : ℝ) - (below m : Nat) / 2 ^ 53 = m * 2 ^ (52 - Nat.log2 m) / 2 ^ 53 := by
    unfold below
    rw [Nat.cast_sub units]
    push_cast
    field_simp
    ring
  have place : (2 : ℝ) ^ q * 2 ^ 53 = 2 ^ (order m q + 1) * 2 ^ (52 - Nat.log2 m) := by
    rw [← zpow_natCast, ← zpow_natCast, ← zpow_natCast, ← zpow_add₀ two_ne_zero, ← zpow_add₀ two_ne_zero]
    congr 1
    push_cast
    omega
  rw [under_eq, share, real_false]
  field_simp
  linear_combination (m : ℝ) * place

end

/-! ## The margin -/

section
variable {k b : Nat}

/-- Exponent of the power of two that is not above the number before a natural one. -/
def place (k : Nat) : Nat := Nat.log2 (k - 1)

/-- The units of the margin are on either side of the exact bound, and not near it. -/
theorem logMargin_bounds (low : 2 ≤ k) (high : k ≤ 1024) :
    (logMargin k : ℝ) * 2 ^ 53 < 2 ^ place k * (2 ^ 53 - logMargin k) * 0.6931471803 ∧
      2 ^ place k * 0.6931471808 < (logMargin k : ℝ) + 1 := by
  have small : place k < 10 := (Nat.log2_lt (by omega)).mpr (by omega)
  have units : logMargin k = 2 ^ place k * ln2.1 / ln2.2 := if_neg (by omega)
  rw [units]
  generalize place k = j at small
  interval_cases j <;> exact ⟨by norm_num [ln2], by norm_num [ln2]⟩

theorem half_le (small : b ≤ 2 ^ 52) : (1 : ℝ) / 2 ≤ 1 - b / 2 ^ 53 := by
  have part : (b : ℝ) ≤ 2 ^ 52 := by exact_mod_cast small
  linarith

theorem logb_under (small : b ≤ 2 ^ 52) :
    Real.logb 2 (under k b) = k + Real.log (1 - b / 2 ^ 53) / Real.log 2 := by
  have positive : (1 : ℝ) - b / 2 ^ 53 ≠ 0 := by linarith [half_le small]
  rw [under_eq, Real.logb, Real.log_mul (by positivity) positive, Real.log_pow]
  field_simp [Real.log_pos one_lt_two |>.ne']

theorem two_zpow_sub (j : Nat) : (2 : ℝ) ^ ((j : Int) - 53) = 2 ^ j / 2 ^ 53 := by
  rw [zpow_sub₀ two_ne_zero, zpow_natCast]
  norm_num

/-- Within the margin the logarithm is over the middle of the gap. -/
theorem logb_near (low : 2 ≤ k) (high : k ≤ 1024) (within : b ≤ logMargin k) (small : b ≤ 2 ^ 52) :
    (k : ℝ) - 2 ^ ((place k : Int) - 53) < Real.logb 2 (under k b) := by
  obtain ⟨bound, -⟩ := logMargin_bounds low high
  have within : (b : ℝ) ≤ logMargin k := by exact_mod_cast within
  have part : (b : ℝ) ≤ 2 ^ 52 := by exact_mod_cast small
  have ln2_pos := Real.log_pos one_lt_two
  have ln2_low := Real.log_two_gt_d9
  have less : (b : ℝ) * 2 ^ 53 < 2 ^ place k * (2 ^ 53 - b) * Real.log 2 := by
    have room : (0 : ℝ) < 2 ^ 53 - b := by linarith
    calc (b : ℝ) * 2 ^ 53 ≤ (logMargin k : ℝ) * 2 ^ 53 := by gcongr
      _ < 2 ^ place k * (2 ^ 53 - (logMargin k : ℝ)) * 0.6931471803 := bound
      _ ≤ 2 ^ place k * (2 ^ 53 - (b : ℝ)) * 0.6931471803 :=
        mul_le_mul_of_nonneg_right (mul_le_mul_of_nonneg_left (by linarith) (by positivity)) (by norm_num)
      _ ≤ 2 ^ place k * (2 ^ 53 - (b : ℝ)) * Real.log 2 :=
        mul_le_mul_of_nonneg_left ln2_low.le (mul_nonneg (by positivity) room.le)
  -- `1 - 1 / t ≤ log t`, which is what the factor `2 ^ 53 - logMargin k` of the bound is for
  have tangent := Real.one_sub_inv_le_log_of_pos (x := 1 - (b : ℝ) / 2 ^ 53) (by linarith [half_le small])
  have share : (1 - (b : ℝ) / 2 ^ 53)⁻¹ - 1 = (b : ℝ) / (2 ^ 53 - b) := by
    have room : (2 : ℝ) ^ 53 - b ≠ 0 := by linarith
    rw [show (1 : ℝ) - b / 2 ^ 53 = (2 ^ 53 - b) / 2 ^ 53 by ring, inv_div, div_sub_one room]
    ring
  rw [logb_under small, two_zpow_sub]
  have step : -(2 ^ place k / 2 ^ 53 * Real.log 2) < Real.log (1 - b / 2 ^ 53) := by
    have bounded : (b : ℝ) / (2 ^ 53 - b) < 2 ^ place k / 2 ^ 53 * Real.log 2 := by
      rw [div_lt_iff₀ (by linarith)]
      linarith
    linarith
  have := (lt_div_iff₀ ln2_pos).mpr ((neg_mul _ _).trans_lt step)
  linarith

/-- Outside it the logarithm is under the middle. -/
theorem logb_far (low : 2 ≤ k) (high : k ≤ 1024) (outside : logMargin k < b) (small : b ≤ 2 ^ 52) :
    Real.logb 2 (under k b) < (k : ℝ) - 2 ^ ((place k : Int) - 53) := by
  obtain ⟨-, bound⟩ := logMargin_bounds low high
  have outside : (logMargin k : ℝ) + 1 ≤ b := by exact_mod_cast outside
  have ln2_pos := Real.log_pos one_lt_two
  have ln2_high := Real.log_two_lt_d9
  have more : 2 ^ place k * Real.log 2 < (b : ℝ) := by
    calc 2 ^ place k * Real.log 2 ≤ 2 ^ place k * (0.6931471808 : ℝ) := by gcongr
      _ < (logMargin k : ℝ) + 1 := bound
      _ ≤ b := outside
  have tangent := Real.log_le_sub_one_of_pos (x := 1 - (b : ℝ) / 2 ^ 53) (by linarith [half_le small])
  rw [logb_under small, two_zpow_sub]
  have := (div_lt_iff₀ ln2_pos).mpr (show Real.log (1 - b / 2 ^ 53) < -(2 ^ place k / 2 ^ 53) * Real.log 2 by linarith)
  linarith

/-- Under two there is no margin. -/
theorem logb_one (some_ : 1 ≤ b) (small : b ≤ 2 ^ 52) : Real.logb 2 (under 1 b) < 1 - (2 : ℝ) ^ (-54 : Int) := by
  have ln2_pos := Real.log_pos one_lt_two
  have ln2_high := Real.log_two_lt_d9
  have unit : (1 : ℝ) ≤ b := by exact_mod_cast some_
  have tangent := Real.log_le_sub_one_of_pos (x := 1 - (b : ℝ) / 2 ^ 53) (by linarith [half_le small])
  rw [logb_under small]
  have := (div_lt_iff₀ ln2_pos).mpr (show Real.log (1 - b / 2 ^ 53) < -(2 : ℝ) ^ (-54 : Int) * Real.log 2 by
    norm_num
    linarith)
  push_cast
  linarith

theorem logb_le (small : b ≤ 2 ^ 52) : Real.logb 2 (under k b) ≤ k := by
  have negative : Real.log (1 - b / 2 ^ 53) ≤ 0 := by
    refine Real.log_nonpos (by linarith [half_le small]) ?_
    have : (0 : ℝ) ≤ b / 2 ^ 53 := by positivity
    linarith
  rw [logb_under small]
  have := div_nonpos_of_nonpos_of_nonneg negative (Real.log_pos one_lt_two).le
  linarith

theorem le_under (small : b ≤ 2 ^ 52) : (2 : ℝ) ^ k ≤ under (k + 1) b := by
  have power : (0 : ℝ) < 2 ^ k := by positivity
  rw [under_eq, pow_succ]
  nlinarith [half_le small]

theorem under_lt (some_ : 1 ≤ b) : under k b < 2 ^ k := by
  have power : (0 : ℝ) < 2 ^ k := by positivity
  have part : (0 : ℝ) < b / 2 ^ 53 := by positivity
  rw [under_eq]
  nlinarith

theorem le_logb (small : b ≤ 2 ^ 52) : (k : ℝ) ≤ Real.logb 2 (under (k + 1) b) := by
  have power : (0 : ℝ) < 2 ^ k := by positivity
  refine (Real.le_logb_iff_rpow_le one_lt_two (power.trans_le (le_under small))).mpr ?_
  rw [Real.rpow_natCast]
  exact le_under small

end

/-! ## Gaps -/

/-- Two numbers of doubles with none between them. -/
structure Gap (a b : ℝ) : Prop where
  low : Representable a
  high : Representable b
  order : a < b
  alone : ∀ v, Representable v → a < v → b ≤ v

/-- The double before a natural number. -/
theorem gap_before {k : Nat} (low : 2 ≤ k) (high : k ≤ 1024) : Gap (k - 2 ^ ((place k : Int) - 52)) k := by
  have small : place k < 10 := (Nat.log2_lt (by omega)).mpr (by omega)
  have above : 2 ^ place k ≤ k - 1 := Nat.log2_self_le (by omega)
  have bound : k - 1 < 2 ^ (place k + 1) := Nat.lt_log2_self
  generalize place k = j at *
  have unit : (0 : ℝ) < 2 ^ ((j : Int) - 52) := zpow_pos two_pos _
  -- the number in units of the last place of the doubles before it
  have units : (k : ℝ) = (k * 2 ^ (52 - j) : Nat) * 2 ^ ((j : Int) - 52) := by
    rw [show (j : Int) - 52 = -((52 - j : Nat) : Int) by omega, zpow_neg, zpow_natCast]
    push_cast
    field_simp
  have some_ : 1 ≤ k * 2 ^ (52 - j) := Nat.mul_pos (by omega) (by positivity)
  have fits : k * 2 ^ (52 - j) ≤ 2 ^ 53 := by
    calc k * 2 ^ (52 - j) ≤ 2 ^ (j + 1) * 2 ^ (52 - j) := Nat.mul_le_mul_right _ (by omega)
      _ = 2 ^ 53 := by
          rw [← pow_add]
          congr 1
          omega
  refine ⟨⟨false, k * 2 ^ (52 - j) - 1, (j : Int) - 52, ⟨by omega, ?_, ?_⟩, ?_⟩, representable_natCast (by omega),
    by linarith, fun v exact_ between => ?_⟩
  · unfold lowestExponent
    omega
  · unfold highestExponent
    omega
  · rw [real_false, Nat.cast_sub some_, sub_mul, ← units, Nat.cast_one, one_mul]
  · have large : (2 : ℝ) ^ (52 + ((j : Int) - 52)) ≤ v := by
      have step : (2 : ℝ) ^ ((j : Int) - 52) ≤ 1 := zpow_le_one_of_nonpos₀ one_le_two (by omega)
      have whole : (2 : ℝ) ^ j ≤ k - 1 := by
        have := (Nat.cast_le (α := ℝ)).mpr above
        rw [Nat.cast_sub (by omega)] at this
        exact_mod_cast this
      rw [show (52 + ((j : Int) - 52)) = j by omega, zpow_natCast]
      linarith
    obtain ⟨c, rfl⟩ := exists_multiple exact_ large
    rw [units] at between ⊢
    have reached : k * 2 ^ (52 - j) ≤ c := by
      have less : ((k * 2 ^ (52 - j) : Nat) : ℝ) - 1 < c := lt_of_mul_lt_mul_right (by linarith) unit.le
      have less : ((k * 2 ^ (52 - j) : Nat) : ℝ) < c + 1 := by linarith
      exact Nat.le_of_lt_succ (by exact_mod_cast less)
    exact mul_le_mul_of_nonneg_right (by exact_mod_cast reached) unit.le

/-- The double before one. -/
theorem before_one : Representable (1 - 2 ^ (-53 : Int)) :=
  ⟨false, 2 ^ 53 - 1, -53, ⟨by decide, by decide, by decide⟩, by
    rw [real_false]
    norm_num⟩

theorem two_mul_zpow (j : Nat) : 2 * (2 : ℝ) ^ ((j : Int) - 53) = 2 ^ ((j : Int) - 52) := by
  rw [show (j : Int) - 52 = j - 53 + 1 by omega, zpow_add_one₀ two_ne_zero]
  ring

/-! ## The integer part -/

/-- A base-two logarithm that is rounded to a nearest double. -/
structure RoundsLog2 (log2 : Binary64 → Binary64) : Prop where
  finite : ∀ m q, Fits m q → 0 < m → Nearest (Real.logb 2 (real false m q)) (log2 (.finite false m q))
  infinite : log2 (.infinite false) = .infinite false

/-- The base-two logarithm, rounded to a nearest double. -/
noncomputable def roundedLog2 : Binary64 → Binary64
  | .finite _ 0 _ => .infinite true
  | .finite false (m + 1) q => (exists_nearest (Real.logb (2 : Nat) (real false (m + 1) q))).choose
  | .infinite false => .infinite false
  | _ => .nan

theorem rounds_roundedLog2 : RoundsLog2 roundedLog2 := by
  constructor
  case finite =>
    intro m q _ positive
    obtain ⟨n, rfl⟩ := Nat.exists_eq_succ_of_ne_zero positive.ne'
    rw [← Nat.cast_ofNat (n := 2)]
    exact (exists_nearest _).choose_spec
  case infinite => rfl

/-- **The integer part of the rounded logarithm** of a double of at least one. -/
theorem floor_eq {m : Nat} {q : Int} (fits : Fits m q) (one : 1 ≤ real false m q) {r : ℝ} (exact_ : Representable r)
    (closest : Closest (Real.logb 2 (real false m q)) r) : ⌊r⌋ = floorLog2 m q := by
  obtain ⟨some_, small⟩ := below_bounds fits one
  have bounded := order_lt fits one
  rw [real_eq_under fits one] at closest
  rw [floorLog2_eq]
  generalize order m q = k at *
  generalize below m = b at *
  have reaches : (k : ℝ) ≤ r := closest.ge (representable_natCast (by omega)) (le_logb small)
  split_ifs with within
  -- over the middle of the gap before `k + 1` the nearest double is `k + 1`
  · have long : 2 ≤ k + 1 := by
      by_contra short
      rw [logMargin, if_pos (by omega)] at within
      omega
    have gap := gap_before long bounded
    have near := logb_near long bounded within small
    have middle := two_mul_zpow (place (k + 1))
    have same : r = (k + 1 : Nat) := le_antisymm (closest.le_of_le gap.high (logb_le small))
      (closest.le exact_ gap.high (by linarith) gap.alone)
    rw [same, Int.floor_natCast]
  -- under it the nearest double is at most the one before `k + 1`
  · have under_next : r < (k + 1 : Nat) := by
      rcases Nat.eq_zero_or_pos k with rfl | long
      · have half : 2 * (2 : ℝ) ^ (-54 : Int) = 2 ^ (-53 : Int) := by norm_num
        have far := logb_one some_ small
        refine closest.lt before_one (by norm_num) ?_
        push_cast
        linarith
      · have gap := gap_before (k := k + 1) (by omega) bounded
        have far := logb_far (by omega) bounded (Nat.not_le.mp within) small
        have middle := two_mul_zpow (place (k + 1))
        exact closest.lt gap.low gap.order (by linarith)
    rw [Int.floor_eq_iff]
    push_cast at under_next ⊢
    exact ⟨reaches, under_next⟩

/-! ## Order -/

section
variable {m n : Nat} {q p : Int} (fits : Fits m q) (one : 1 ≤ real false m q)
include fits one

/-- A number is between the powers of two of its order and of the next. -/
theorem order_bounds : (2 : ℝ) ^ order m q ≤ real false m q ∧ real false m q < 2 ^ (order m q + 1) := by
  obtain ⟨some_, small⟩ := below_bounds fits one
  rw [real_eq_under fits one]
  exact ⟨le_under small, under_lt some_⟩

theorem le_order {k : Nat} (above : (2 : ℝ) ^ k ≤ real false m q) : k ≤ order m q := by
  have less := above.trans_lt (order_bounds fits one).2
  exact Nat.le_of_lt_succ ((pow_lt_pow_iff_right₀ one_lt_two).mp less)

theorem order_lt_of_lt {k : Nat} (under_ : real false m q < 2 ^ k) : order m q < k :=
  (pow_lt_pow_iff_right₀ (one_lt_two (α := ℝ))).mp ((order_bounds fits one).1.trans_lt under_)

/-- The rounded logarithm grows with the number. -/
theorem floorLog2_mono (fits' : Fits n p) (le : real false m q ≤ real false n p) : floorLog2 m q ≤ floorLog2 n p := by
  have one' : 1 ≤ real false n p := one.trans le
  have orders : order m q ≤ order n p := le_order fits' one' ((order_bounds fits one).1.trans le)
  obtain ⟨-, high⟩ := order_le_floorLog2 m q
  obtain ⟨low, -⟩ := order_le_floorLog2 n p
  rcases Nat.lt_or_eq_of_le orders with less | same
  · omega
  have closer : below n ≤ below m := by
    rw [real_eq_under fits one, real_eq_under fits' one', same, under_eq, under_eq] at le
    have power : (0 : ℝ) < 2 ^ (order n p + 1) := by positivity
    have shares := le_of_mul_le_mul_left le power
    have units : (below n : ℝ) ≤ below m := by linarith
    exact_mod_cast units
  rw [floorLog2_eq, floorLog2_eq, same]
  split_ifs <;> omega

end

end TierTagger.Binary64
