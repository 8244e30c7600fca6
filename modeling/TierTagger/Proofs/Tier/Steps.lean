import Mathlib
import TierTagger.Proofs.Binary64.Logarithm
import TierTagger.Tier

/-!
# The steps to a tier

A tier is found in machine arithmetic: sums of 32 bits that stop at the largest number, a comparison of
doubles, a rounded logarithm, the cast of its integer part and a shift.

- `Steps.next?`: those steps, with any conversion to doubles and any logarithm.
- `steps_cpu`: a number of CPUs never overflows.
- `steps_memory`: with a logarithm that is rounded to a nearest double the steps come to `nextMemory`,
  whatever the double is.
-/

namespace TierTagger.Tier

open Binary64 (Fits RoundsLog2 floorLog2 order real)

/-! ## Steps -/

namespace Steps

/-- The sum of two numbers of 32 bits, or the largest one. -/
def sum (a b : UInt32) : UInt32 := .ofNat (min (a.toNat + b.toNat) (2 ^ 32 - 1))

/-- Whether a double is at least one. What is not a number is not. -/
def isAtLeastOne : Binary64 → Bool
  | .finite false m q => 2 ^ (-q).toNat ≤ m * 2 ^ q.toNat
  | .infinite false => true
  | _ => false

/-- The integer part of a double as a number of 32 bits, or the nearest one. -/
def wholePart : Binary64 → UInt32
  | .finite false m q => .ofNat (min (m * 2 ^ q.toNat / 2 ^ (-q).toNat) (2 ^ 32 - 1))
  | .infinite false => .ofNat (2 ^ 32 - 1)
  | _ => 0

/-- The steps from a number of CPUs. -/
def cpu (n : UInt32) : Tier := ofNat (min (sum n 1) 4).toNat

/-- The steps from an amount of memory. -/
def memory (log2 : Binary64 → Binary64) (megabytes : Binary64) : Tier :=
  let clamped := if isAtLeastOne megabytes then megabytes else .ofNat 1
  let exponent := sum (wholePart (log2 clamped)) 1
  ofNat ((1 : UInt64) <<< (min exponent 23).toUInt64).toNat

/-- The steps from the hardware of a machine. -/
def next? (convert : UInt64 → Binary64) (log2 : Binary64 → Binary64) (r : Resource) (h : Hardware) : Option Tier :=
  match r with
  | .cpu => some (cpu h.cpus)
  | .memory => some (memory log2 (convert h.memoryMB))
  | .unclassified => none

end Steps

/-! ## Numbers of 32 bits -/

theorem toNat_sum (a b : UInt32) : (Steps.sum a b).toNat = min (a.toNat + b.toNat) (2 ^ 32 - 1) := by
  rw [Steps.sum, UInt32.toNat_ofNat', Nat.mod_eq_of_lt (by omega)]

/-- The sum of 32 bits is no less than it has to be. -/
theorem steps_cpu (n : UInt32) : Steps.cpu n = nextCpu n := by
  have one : (1 : UInt32).toNat = 1 := rfl
  have four : (4 : UInt32).toNat = 4 := rfl
  rw [Steps.cpu, nextCpu, UInt32.toNat_min, toNat_sum, one, four, maxCpus]
  congr 1
  omega

/-- A shift makes a power of two. -/
theorem toNat_shift (e : UInt32) : ((1 : UInt64) <<< (min e 23).toUInt64).toNat = 2 ^ min e.toNat 23 := by
  have cap : (23 : UInt32).toNat = 23 := rfl
  have one : (1 : UInt64).toNat = 1 := rfl
  have small : min e.toNat 23 < 64 := by omega
  have fits : 2 ^ min e.toNat 23 < 2 ^ 64 := Nat.pow_lt_pow_right (by decide) small
  rw [UInt64.toNat_shiftLeft, UInt32.toNat_toUInt64, UInt32.toNat_min, cap, one, Nat.mod_eq_of_lt small,
    Nat.shiftLeft_eq, Nat.one_mul, Nat.mod_eq_of_lt fits]

/-! ## Doubles -/

section
variable {m : Nat} {q : Int}

theorem two_zpow_eq (q : Int) : (2 : ℝ) ^ q = 2 ^ q.toNat / 2 ^ (-q).toNat := by
  rw [← zpow_natCast, ← zpow_natCast, ← zpow_sub₀ two_ne_zero]
  congr 1
  omega

theorem isAtLeastOne_iff : Steps.isAtLeastOne (.finite false m q) ↔ 1 ≤ real false m q := by
  rw [Binary64.real_false, two_zpow_eq, ← mul_div_assoc, le_div_iff₀ (by positivity), one_mul]
  simp only [Steps.isAtLeastOne, decide_eq_true_eq]
  exact_mod_cast Iff.rfl

/-- The cast of a double whose integer part is a natural number. -/
theorem wholePart_eq {s : Bool} {n : Nat} (floor : ⌊real s m q⌋ = n) :
    Steps.wholePart (.finite s m q) = .ofNat (min n (2 ^ 32 - 1)) := by
  cases s with
  | true =>
    have nonneg : 0 ≤ real true m q := Int.floor_nonneg.mp (floor ▸ Int.natCast_nonneg n)
    have zero : real true m q = 0 := le_antisymm (Binary64.real_true_nonpos m q) nonneg
    rw [zero, Int.floor_zero] at floor
    obtain rfl : n = 0 := by exact_mod_cast floor.symm
    rfl
  | false =>
    have ratio : real false m q = ((m * 2 ^ q.toNat : Nat) : ℝ) / ((2 ^ (-q).toNat : Nat) : ℝ) := by
      rw [Binary64.real_false, two_zpow_eq, ← mul_div_assoc]
      push_cast
      rfl
    rw [ratio, ← Int.natCast_floor_eq_floor (by positivity), Nat.floor_div_eq_div, Int.natCast_inj] at floor
    rw [Steps.wholePart, floor]

/-- The comparison with one that `memoryExponent` makes. -/
theorem order_nonneg_iff : (m ≠ 0 ∧ (Nat.log2 m : Int) + q ≥ 0) ↔ 1 ≤ real false m q := by
  constructor
  · rintro ⟨some_, nonneg⟩
    have low : (2 : ℝ) ^ (Nat.log2 m : Int) ≤ m := by exact_mod_cast Nat.log2_self_le some_
    calc (1 : ℝ) ≤ 2 ^ ((Nat.log2 m : Int) + q) := one_le_zpow₀ one_le_two nonneg
      _ = 2 ^ (Nat.log2 m : Int) * 2 ^ q := zpow_add₀ two_ne_zero _ _
      _ ≤ m * 2 ^ q := mul_le_mul_of_nonneg_right low (zpow_pos two_pos q).le
      _ = real false m q := (Binary64.real_false m q).symm
  · intro one
    have whole := Binary64.order_eq one
    exact ⟨(Binary64.pos_of_one_le one).ne', by omega⟩

end

theorem memory_of_floor {log2 : Binary64 → Binary64} {x : Binary64} {n : Nat} (one : Steps.isAtLeastOne x)
    (cast : (Steps.wholePart (log2 x)).toNat = n) (small : n < 2 ^ 32 - 1) :
    Steps.memory log2 x = ofNat (2 ^ min (n + 1) 23) := by
  have unit : (1 : UInt32).toNat = 1 := rfl
  rw [Steps.memory]
  simp only [one, if_true, toNat_shift, toNat_sum, cast, unit]
  congr 2
  omega

theorem floorLog2_lt {m : Nat} {q : Int} (fits : Fits m q) (one : 1 ≤ real false m q) : floorLog2 m q < 2 ^ 32 - 1 := by
  have bounded := Binary64.order_lt fits one
  rw [Binary64.floorLog2_eq]
  split_ifs <;> omega

section
variable {log2 : Binary64 → Binary64} (rounds : RoundsLog2 log2)
include rounds

theorem memory_large {m : Nat} {q : Int} (fits : Fits m q) (one : 1 ≤ real false m q) :
    Steps.memory log2 (.finite false m q) = ofNat (2 ^ min (floorLog2 m q + 1) 23) := by
  have bounded := floorLog2_lt fits one
  obtain ⟨s, m', q', rounded, fits', closest⟩ := rounds.finite m q fits (Binary64.pos_of_one_le one)
  refine memory_of_floor (isAtLeastOne_iff.mpr one) ?_ bounded
  rw [rounded, wholePart_eq (Binary64.floor_eq fits one (fits'.representable s) closest), UInt32.toNat_ofNat',
    Nat.min_eq_left bounded.le, Nat.mod_eq_of_lt (by omega)]

theorem memory_infinite : Steps.memory log2 (.infinite false) = ofNat (2 ^ 23) := by
  rw [Steps.memory]
  simp only [Steps.isAtLeastOne, if_true, rounds.infinite]
  rfl

/-- What is not at least one counts as one. -/
theorem memory_small {x : Binary64} (small : Steps.isAtLeastOne x = false) : Steps.memory log2 x = ofNat (2 ^ 1) := by
  have one : Binary64.ofNat 1 = .finite false (2 ^ 52) (-52) := by decide
  have fits : Fits (2 ^ 52) (-52) := ⟨by decide, by decide, by decide⟩
  have same : Steps.memory log2 x = Steps.memory log2 (.ofNat 1) := by
    have at_one : Steps.isAtLeastOne (.ofNat 1) = true := by decide
    simp only [Steps.memory, small, at_one, if_true]
    rfl
  have exponent : floorLog2 (2 ^ 52) (-52) = 0 := by decide
  rw [same, one, memory_large rounds fits (by rw [Binary64.real_false]; norm_num), exponent]
  rfl

/-- **The steps come to the tier of the amount**, with a logarithm that is rounded to a nearest double. -/
theorem steps_memory {x : Binary64} (fits : ∀ s m q, x = .finite s m q → Fits m q) :
    Steps.memory log2 x = nextMemory x := by
  unfold nextMemory
  cases x with
  | nan => exact memory_small rounds rfl
  | infinite s =>
    cases s with
    | true => exact memory_small rounds rfl
    | false => exact memory_infinite rounds
  | finite s m q =>
    cases s with
    | true => exact memory_small rounds rfl
    | false =>
      rw [memoryExponent]
      split_ifs with large
      · exact memory_large rounds (fits _ _ _ rfl) (order_nonneg_iff.mp large)
      · have small : Steps.isAtLeastOne (.finite false m q) = false := by
          rw [Bool.eq_false_iff, ne_eq, isAtLeastOne_iff, ← order_nonneg_iff]
          exact large
        exact memory_small rounds small

end

end TierTagger.Tier
