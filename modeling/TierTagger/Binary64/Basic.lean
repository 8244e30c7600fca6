/-!
# Double-precision numbers

IEEE-754 binary64 as exact values: a finite number is `m * 2 ^ q` with a sign. Arithmetic goes through
one rounding of an exact ratio, `ofRatio`, to the nearest number and on a tie to the even one.

* `ofBits` reads the 64 bits of a number.
* `ofRatio` rounds a ratio of naturals; past the largest number it is infinite.
* `floorLog2` is the integer part of the base-two logarithm after that has been rounded to a double.
-/

namespace TierTagger

/-- A double-precision number; `finite negative m q` is `m * 2 ^ q`, negated if `negative`. -/
inductive Binary64 where
  | finite (negative : Bool) (m : Nat) (q : Int)
  | infinite (negative : Bool)
  | nan
  deriving DecidableEq, Repr

namespace Binary64

/-- Exponent of the last place of the smallest numbers. -/
def lowestExponent : Int := -1074

/-- Exponent of the last place of the largest numbers. -/
def highestExponent : Int := 971

/-- The number with the given bits: sign, 11 bits of exponent, 52 bits of fraction. -/
def ofBits (bits : Nat) : Binary64 :=
  let negative : Bool := bits / Nat.pow 2 63 % 2 = 1
  let exponent : Nat := bits / Nat.pow 2 52 % Nat.pow 2 11
  let fraction : Nat := bits % Nat.pow 2 52
  if exponent = 2047 then (if fraction = 0 then .infinite negative else .nan)
  else if exponent = 0 then .finite negative fraction lowestExponent
  else .finite negative (fraction + Nat.pow 2 52) ((exponent : Int) - 1075)

/-- The quotient rounded to the nearest natural, a half to the even one. -/
def roundQuotient (num den : Nat) : Nat :=
  let low := num / den
  let twice := 2 * (num % den)
  if twice < den ∨ (twice = den ∧ low % 2 = 0) then low else low + 1

/-- `num / den * 2 ^ (-q)` as a ratio of naturals. -/
def shifted (num den : Nat) (q : Int) : Nat × Nat := (num * Nat.pow 2 (-q).toNat, den * Nat.pow 2 q.toNat)

/-- Exponent of the last place at which `num / den` has 53 significant bits, or the lowest one. -/
def placeOf (num den : Nat) : Int :=
  let guess : Int := (Nat.log2 num : Int) - Nat.log2 den - 53
  let (n, d) := shifted num den guess
  max lowestExponent (if n / d < Nat.pow 2 53 then guess else guess + 1)

/-- The number nearest to `num / den`, of two the one with even `m`. -/
def ofRatio (negative : Bool) (num den : Nat) : Binary64 :=
  if num = 0 then .finite negative 0 lowestExponent
  else
    let q := placeOf num den
    let (n, d) := shifted num den q
    let m := roundQuotient n d
    let (m, q) := if m = Nat.pow 2 53 then (Nat.pow 2 52, q + 1) else (m, q)
    if q > highestExponent then .infinite negative else .finite negative m q

/-- The number nearest to a natural number. -/
def ofNat (n : Nat) : Binary64 := ofRatio false n 1

/-- The number nearest to `digits * 10 ^ exponent`. -/
def ofDecimal (negative : Bool) (digits : Nat) (exponent : Int) : Binary64 :=
  ofRatio negative (digits * Nat.pow 10 exponent.toNat) (Nat.pow 10 (-exponent).toNat)

/-- The number with the sign set. -/
def withSign (negative : Bool) : Binary64 → Binary64
  | finite _ m q => finite negative m q
  | infinite _ => infinite negative
  | nan => nan

/-- Whether a number is one of the two zeros. -/
def isZero : Binary64 → Bool
  | finite _ m _ => m = 0
  | _ => false

/-- Whether a number is one of the two infinities. -/
def isInfinite : Binary64 → Bool
  | infinite _ => true
  | _ => false

/-- The rounded product of two finite magnitudes; the sign is that of the first. -/
def mul : Binary64 → Binary64 → Binary64
  | finite s m q, finite _ n p =>
    ofRatio s (m * n * Nat.pow 2 (q + p).toNat) (Nat.pow 2 (-(q + p)).toNat)
  | a, _ => a

/-- The rounded quotient of two finite magnitudes; the sign is that of the first. -/
def div : Binary64 → Binary64 → Binary64
  | finite s m q, finite _ n p =>
    if n = 0 then infinite s
    else ofRatio s (m * Nat.pow 2 (q - p).toNat) (n * Nat.pow 2 (p - q).toNat)
  | a, _ => a

/-! ## The rounded logarithm -/

/-- `ln 2` to sixteen places. -/
def ln2 : Nat × Nat := (6931471805599453, Nat.pow 10 16)

/-- How many units of `2 ^ (k - 53)` a number may lie below `2 ^ k` and still have `k` as its rounded
logarithm. The doubles just below `k` are `2 ^ (j - 52)` apart, where `j` is the integer part of
`log2 (k - 1)`, so the logarithm rounds to `k` within `2 ^ (j - 53)` of it, which is
`2 ^ j * ln 2` units of the argument. -/
def logMargin (k : Nat) : Nat :=
  if k < 2 then 0 else Nat.pow 2 (Nat.log2 (k - 1)) * ln2.1 / ln2.2

/-- Integer part of the rounded base-two logarithm of `m * 2 ^ q`, for a number of at least one. -/
def floorLog2 (m : Nat) (q : Int) : Nat :=
  let length := Nat.log2 m
  let exact := (q + length).toNat
  let below := Nat.pow 2 53 - m * Nat.pow 2 (52 - length)
  if below ≤ logMargin (exact + 1) then exact + 1 else exact

end Binary64
end TierTagger
