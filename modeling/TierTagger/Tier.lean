import TierTagger.Alarm
import TierTagger.Binary64.Basic

/-!
# Tiers

The tier of a machine is the next step of capacity above the one it has, named by its decimal text.

* CPUs go up by one, to at most four.
* Memory goes up to the next power of two megabytes, to at most `2 ^ 23`. The step is taken in double
  precision: it is one more than the integer part of the rounded base-two logarithm.
-/

namespace TierTagger

/-- The hardware of a machine that tiers are about. -/
structure Hardware where
  cpus : UInt32
  memoryMB : UInt64
  deriving DecidableEq, Repr

/-- The name of a tier. -/
structure Tier where
  name : String
  deriving DecidableEq, Repr, Inhabited

namespace Tier

/-- The largest tier of CPUs. -/
def maxCpus : Nat := 4

/-- The exponent of the largest tier of memory. -/
def maxMemoryExponent : Nat := 23

/-- The tier of a quantity. -/
def ofNat (n : Nat) : Tier := ⟨toString n⟩

/-- The tier above a number of CPUs. -/
def nextCpu (cpus : UInt32) : Tier := ofNat (min (cpus.toNat + 1) maxCpus)

/-- The exponent of the tier above an amount of memory. An amount that is not at least one megabyte
counts as one. -/
def memoryExponent : Binary64 → Nat
  | .finite false m q =>
    if m ≠ 0 ∧ (Nat.log2 m : Int) + q ≥ 0 then min (Binary64.floorLog2 m q + 1) maxMemoryExponent
    else 1
  | .infinite false => maxMemoryExponent
  | _ => 1

/-- The tier above an amount of memory in megabytes. -/
def nextMemory (megabytes : Binary64) : Tier := ofNat (Nat.pow 2 (memoryExponent megabytes))

/-- The tier above the hardware that a machine has of a resource. -/
def next? (r : Resource) (h : Hardware) : Option Tier :=
  match r with
  | .cpu => some (nextCpu h.cpus)
  | .memory => some (nextMemory (.ofNat h.memoryMB.toNat))
  | .unclassified => none

end Tier
end TierTagger
