import Mathlib
import TierTagger.Proofs.Tier.Steps

/-!
# The tier above the hardware of a machine

The law of tiers in whole numbers, for all that hardware can be.

- `nextExponent`: the exponent of the tier above a whole number of megabytes, by its length in bits.
- `memory_of_nearest`: the steps from any double nearest to the number come to that exponent, although the
  number is rounded to a double and so is its logarithm.
- `Exact`, `tiers_exact`: the law of CPUs and memory.
-/

namespace TierTagger.Tier

open Binary64 (Closest Fits Nearest RoundsLog2 below floorLog2 logMargin order real representable_natCast)

/-- The exponent of the tier above a whole number of megabytes. -/
def nextExponent (megabytes : Nat) : Nat := min (Nat.size (max megabytes 1)) 23

/-! ## Whole numbers -/

section
variable {m n : Nat} {q : Int}

theorem logMargin_le (k : Nat) : logMargin k ≤ k := by
  unfold logMargin
  split_ifs with short
  · exact Nat.zero_le k
  · have power : 2 ^ Nat.log2 (k - 1) ≤ k - 1 := Nat.log2_self_le (by omega)
    have share : Nat.pow 2 (Nat.log2 (k - 1)) * Binary64.ln2.1 / Binary64.ln2.2 ≤ 2 ^ Nat.log2 (k - 1) := by
      refine Nat.div_le_of_le_mul ?_
      rw [Nat.mul_comm, Nat.pow_eq]
      exact Nat.mul_le_mul_right _ (by decide)
    omega

/-- A whole number is not near enough to the next power of two for its logarithm to be rounded up to it. -/
theorem floorLog2_natCast (fits : Fits m q) (value : real false m q = n) (some_ : 0 < n) (small : n < 2 ^ 23) :
    floorLog2 m q = order m q := by
  have one : 1 ≤ real false m q := by
    rw [value]
    exact_mod_cast some_
  have low : order m q < 23 := Binary64.order_lt_of_lt fits one (by rw [value]; exact_mod_cast small)
  have next : n < 2 ^ (order m q + 1) := by
    have := (Binary64.order_bounds fits one).2
    rw [value] at this
    exact_mod_cast this
  have units : 2 ^ 53 ≤ below m * 2 ^ (order m q + 1) := by
    have same := Binary64.real_eq_under fits one
    have apart : (n : ℝ) ≤ 2 ^ (order m q + 1) - 1 := by
      have : (n : ℝ) + 1 ≤ 2 ^ (order m q + 1) := by exact_mod_cast next
      linarith
    rw [value, Binary64.under_eq] at same
    have : (2 : ℝ) ^ 53 ≤ below m * 2 ^ (order m q + 1) := by
      rw [same] at apart
      field_simp at apart
      linarith
    exact_mod_cast this
  have far : 2 ^ 30 ≤ below m := by
    have power : 2 ^ (order m q + 1) ≤ 2 ^ 23 := Nat.pow_le_pow_right (by decide) (by omega)
    have := units.trans (Nat.mul_le_mul_left (below m) power)
    omega
  have margin := logMargin_le (order m q + 1)
  rw [Binary64.floorLog2_eq, if_neg (by omega)]

theorem size_eq {e : Nat} (low : 2 ^ e ≤ n) (high : n < 2 ^ (e + 1)) : Nat.size n = e + 1 :=
  Nat.le_antisymm (Nat.size_le.mpr high) (Nat.lt_size.mpr low)

/-- The exponent of the tier above a whole number, by the double that it is or that is past the cap. -/
theorem exponent_natCast (fits : Fits m q) (some_ : 0 < n) (closest : Closest n (real false m q)) :
    min (floorLog2 m q + 1) 23 = nextExponent n := by
  have positive : max n 1 = n := by omega
  rw [nextExponent, positive]
  rcases Nat.lt_or_ge n (2 ^ 23) with small | large
  · have value : real false m q = n := closest.eq_self (representable_natCast (by omega))
    have one : 1 ≤ real false m q := by
      rw [value]
      exact_mod_cast some_
    obtain ⟨low, high⟩ := Binary64.order_bounds fits one
    rw [value] at low high
    rw [floorLog2_natCast fits value some_ small, size_eq (by exact_mod_cast low) (by exact_mod_cast high)]
  · have top : (2 : ℝ) ^ 23 ≤ real false m q := by
      have reached := closest.ge (representable_natCast (n := 2 ^ 23) (by decide)) (by exact_mod_cast large)
      exact_mod_cast reached
    have one : 1 ≤ real false m q := by linarith
    have order_ := Binary64.le_order fits one top
    obtain ⟨low, -⟩ := Binary64.order_le_floorLog2 m q
    have size : 23 < Nat.size n := Nat.lt_size.mpr large
    omega

/-- **The steps from a double that is nearest to a whole number.** -/
theorem memory_of_nearest {log2 : Binary64 → Binary64} (rounds : RoundsLog2 log2) {x : Binary64}
    (nearest : Nearest (n : ℝ) x) : Steps.memory log2 x = ofNat (2 ^ nextExponent n) := by
  obtain ⟨s, m, q, rfl, fits, closest⟩ := nearest
  rcases Nat.eq_zero_or_pos n with rfl | some_
  · have zero : real s m q = 0 := by
      rw [closest.eq_self (representable_natCast (by decide)), Nat.cast_zero]
    have small : Steps.isAtLeastOne (.finite s m q) = false := by
      cases s with
      | true => rfl
      | false =>
        rw [Bool.eq_false_iff, ne_eq, isAtLeastOne_iff, zero]
        norm_num
    rw [memory_small rounds small]
    rfl
  · have one : 1 ≤ real s m q := by
      have reached := closest.ge (representable_natCast (n := 1) (by decide)) (by exact_mod_cast some_)
      exact_mod_cast reached
    cases s with
    | true => linarith [Binary64.real_true_nonpos m q]
    | false => rw [memory_large rounds fits one, exponent_natCast fits some_ closest]

end

/-! ## The law -/

/-- A conversion that rounds to a nearest double. -/
def RoundsNaturals (convert : UInt64 → Binary64) : Prop := ∀ n, Nearest (n.toNat : ℝ) (convert n)

/-- The powers of two. -/
def IsPower (t : Nat) : Prop := ∃ k, t = 2 ^ k

/-- The power of two that is above a number and at most twice as much. -/
structure IsNext (n t : Nat) : Prop where
  power : IsPower t
  half : t ≤ 2 * n
  above : n < t

theorem IsNext.unique {n s t : Nat} (first : IsNext n s) (second : IsNext n t) : s = t := by
  obtain ⟨⟨i, rfl⟩, half, above⟩ := first
  obtain ⟨⟨j, rfl⟩, half', above'⟩ := second
  have less {a b : Nat} (half : 2 ^ a ≤ 2 * n) (above : n < 2 ^ b) : a ≤ b := by
    have : 2 ^ a < 2 ^ (b + 1) := by
      rw [pow_succ]
      omega
    exact Nat.le_of_lt_succ ((Nat.pow_lt_pow_iff_right (by decide)).mp this)
  rw [Nat.le_antisymm (less half above') (less half' above)]

theorem isNext_nextExponent {n : Nat} (some_ : 0 < n) (small : n < 2 ^ 23) : IsNext n (2 ^ nextExponent n) := by
  have positive : max n 1 = n := by omega
  have size : Nat.size n ≤ 23 := Nat.size_le.mpr small
  rw [nextExponent, positive, Nat.min_eq_left size]
  refine ⟨⟨_, rfl⟩, ?_, Nat.lt_size_self n⟩
  obtain ⟨e, length⟩ : ∃ e, Nat.size n = e + 1 := Nat.exists_eq_add_one.mpr (Nat.size_pos.mpr some_)
  have low : 2 ^ e ≤ n := Nat.lt_size.mp (by omega)
  rw [length, pow_succ]
  omega

/-- The tiers of a machine, and the steps to them with a conversion and a logarithm. -/
structure Exact (convert : UInt64 → Binary64) (log2 : Binary64 → Binary64) (h : Hardware) : Prop where
  /-- The steps in machine arithmetic come to the tier. -/
  steps : ∀ r, Steps.next? convert log2 r h = next? r h
  /-- One CPU more, to at most four. -/
  cpu : next? .cpu h = some (ofNat (min (h.cpus.toNat + 1) 4))
  /-- As many megabytes as the least power of two that is longer, to at most `2 ^ 23`. -/
  memory : next? .memory h = some (ofNat (2 ^ min (Nat.size (max h.memoryMB.toNat 1)) 23))
  /-- Below the cap that is the one power of two above the megabytes and at most twice as much. -/
  between : 1 ≤ h.memoryMB.toNat → h.memoryMB.toNat < 2 ^ 23 →
    ∃ t, IsNext h.memoryMB.toNat t ∧ (∀ s, IsNext h.memoryMB.toNat s → s = t) ∧ next? .memory h = some (ofNat t)
  /-- From the cap on it is the cap. -/
  top : 2 ^ 23 ≤ h.memoryMB.toNat → next? .memory h = some (ofNat 8388608)

/-- **Rounding never changes the tier of a machine.** -/
theorem tiers_exact {convert : UInt64 → Binary64} {log2 : Binary64 → Binary64} (converts : RoundsNaturals convert)
    (rounds : RoundsLog2 log2) (h : Hardware) : Exact convert log2 h := by
  have converted : Nearest (h.memoryMB.toNat : ℝ) (.ofNat h.memoryMB.toNat) :=
    Binary64.nearest_ofNat (UInt64.toNat_lt h.memoryMB)
  have memory_ : nextMemory (.ofNat h.memoryMB.toNat) = ofNat (2 ^ nextExponent h.memoryMB.toNat) := by
    rw [← memory_of_nearest rounds converted, steps_memory rounds]
    intro s m q same
    obtain ⟨s', m', q', same', fits, -⟩ := converted
    rw [same'] at same
    cases same
    exact fits
  have memory : next? .memory h = some (ofNat (2 ^ nextExponent h.memoryMB.toNat)) := congrArg some memory_
  constructor
  case steps =>
    intro r
    cases r with
    | cpu => exact congrArg some (steps_cpu h.cpus)
    | memory => exact (congrArg some (memory_of_nearest rounds (converts h.memoryMB))).trans memory.symm
    | unclassified => rfl
  case cpu => rfl
  case memory => exact memory
  case between =>
    intro some_ small
    have next := isNext_nextExponent some_ small
    exact ⟨_, next, fun s other => other.unique next, memory⟩
  case top =>
    intro large
    have positive : max h.memoryMB.toNat 1 = h.memoryMB.toNat := by omega
    have size : 23 < Nat.size h.memoryMB.toNat := Nat.lt_size.mpr large
    rw [memory, nextExponent, positive, Nat.min_eq_right size.le]
    rfl

/-- A machine with three CPUs and three gigabytes less a bit. -/
theorem tiers_exact_odd : Exact (fun n => .ofNat n.toNat) Binary64.roundedLog2 ⟨3, 3000⟩ ∧
    Steps.next? (fun n => .ofNat n.toNat) Binary64.roundedLog2 .cpu ⟨3, 3000⟩ = some ⟨"4"⟩ ∧
    Steps.next? (fun n => .ofNat n.toNat) Binary64.roundedLog2 .memory ⟨3, 3000⟩ = some ⟨"4096"⟩ := by
  have exact_ : Exact (fun n => .ofNat n.toNat) Binary64.roundedLog2 ⟨3, 3000⟩ :=
    tiers_exact (fun n => Binary64.nearest_ofNat (UInt64.toNat_lt n)) Binary64.rounds_roundedLog2 ⟨3, 3000⟩
  refine ⟨exact_, ?_, ?_⟩
  · rw [exact_.steps]
    decide +kernel
  · rw [exact_.steps]
    decide +kernel

end TierTagger.Tier
