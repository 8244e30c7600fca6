import TierTagger.Binary64.Basic

/-!
# Shortest decimal text

A finite double is shown with the fewest digits that read back as the same number. `Decimal.shortest`
finds them on the decimal grids of one, two, … places by exact arithmetic: of the two neighbours of
the number on a grid it takes the nearer one that lies in the interval of reals rounding to the
number. `Notation` says how the digits are laid out.

* `shown`: the notation of numbers in a JSON diagnosis, with an exponent outside 1e-5 to 1e15.
* `positional`: the notation without exponents.
-/

namespace TierTagger

/-- `digits * 10 ^ exponent`. -/
structure Decimal where
  digits : Nat
  exponent : Int
  deriving DecidableEq, Repr

namespace Decimal

/-- Which neighbour is taken when a number lies in the middle between two. -/
inductive Tie where
  | toEven
  | up
  deriving DecidableEq, Repr

/-- The reals that round to a number, as multiples of `2 ^ scale`; the ends belong to them if `closed`. -/
structure Interval where
  low : Nat
  value : Nat
  high : Nat
  scale : Int
  closed : Bool

/-- The interval of `m * 2 ^ q`. Below a power of two the numbers lie half as far apart. -/
def Interval.of (m : Nat) (q : Int) : Interval where
  low := if m = Nat.pow 2 52 ∧ q > Binary64.lowestExponent then 4 * m - 1 else 4 * m - 2
  value := 4 * m
  high := 4 * m + 2
  scale := q - 2
  closed := m % 2 = 0

/-- `u * 2 ^ scale / 10 ^ k` as a ratio. -/
def onGrid (u : Nat) (scale k : Int) : Nat × Nat :=
  (u * Nat.pow 2 scale.toNat * Nat.pow 10 (-k).toNat, Nat.pow 2 (-scale).toNat * Nat.pow 10 k.toNat)

/-- Whether `c * 10 ^ k` lies in the interval. -/
def Interval.contains (i : Interval) (c : Nat) (k : Int) : Bool :=
  let (low, lowDen) := onGrid i.low i.scale k
  let (high, highDen) := onGrid i.high i.scale k
  if i.closed then low ≤ c * lowDen && c * highDen ≤ high
  else low < c * lowDen && c * highDen < high

/-- The point of the grid `10 ^ k` that is in the interval and nearest to its number, if any is. -/
def Interval.nearest? (i : Interval) (tie : Tie) (k : Int) : Option Nat :=
  let (num, den) := onGrid i.value i.scale k
  let c := num / den
  let twice := 2 * (num % den)
  let lowFirst := twice < den || (twice = den && tie = .toEven && c % 2 = 0)
  let (first, second) := if lowFirst then (c, c + 1) else (c + 1, c)
  if i.contains first k then some first
  else if i.contains second k then some second
  else none

/-- Integer part of the decimal logarithm of `m * 2 ^ q`, for `m > 0`. -/
def floorLog10 (m : Nat) (q : Int) : Int :=
  let guess : Int := (Nat.log2 m + q) * 30103 / 100000
  let atLeast (e : Int) : Bool :=
    let (num, den) := onGrid m q e
    den ≤ num
  if atLeast (guess + 1) then guess + 1 else if atLeast guess then guess else guess - 1

/-- Moves the zeros at the end of the digits into the exponent. -/
def trimmed : Nat → Decimal → Decimal
  | 0, d => d
  | fuel + 1, d =>
    if d.digits % 10 = 0 ∧ d.digits ≠ 0 then trimmed fuel ⟨d.digits / 10, d.exponent + 1⟩ else d

/-- The fewest digits, nearest to the number, that read back as `m * 2 ^ q`. -/
def shortest (tie : Tie) (m : Nat) (q : Int) : Decimal :=
  if m = 0 then ⟨0, 0⟩
  else
    let i := Interval.of m q
    let top := floorLog10 m q
    let found := (List.range 17).findSome? fun (n : Nat) =>
      let k := top - (n : Int)
      (i.nearest? tie k).map fun c => Decimal.mk c k
    trimmed 20 (found.getD ⟨m, 0⟩)

/-- How digits are laid out: the decimal exponents of the first digit that are written without an
exponent, and the neighbour taken on a tie. -/
structure Notation where
  lowest : Option Int
  highest : Option Int
  tie : Tie

/-- Numbers in a JSON diagnosis. -/
def shown : Notation := ⟨some (-5), some 15, .toEven⟩

/-- Numbers without exponents. -/
def positional : Notation := ⟨none, none, .up⟩

/-- Digits with the point in its place and at least one digit on both sides of it. -/
def pointed (digits : List Char) (exponent : Int) : List Char :=
  if exponent ≥ 0 then digits ++ List.replicate exponent.toNat '0' ++ ['.', '0']
  else
    let places := (-exponent).toNat
    if places < digits.length then
      digits.take (digits.length - places) ++ ['.'] ++ digits.drop (digits.length - places)
    else ['0', '.'] ++ List.replicate (places - digits.length) '0' ++ digits

/-- Digits with a point after the first one and an exponent with its sign. -/
def scientific (digits : List Char) (first : Int) : List Char :=
  let mantissa := match digits with
    | [d] => [d]
    | d :: ds => d :: '.' :: ds
    | [] => ['0']
  mantissa ++ ['e'] ++ (if first < 0 then ['-'] else ['+']) ++ Nat.toDigits 10 first.natAbs

/-- The text of a nonnegative decimal. -/
def layOut (n : Notation) (d : Decimal) : List Char :=
  let digits := Nat.toDigits 10 d.digits
  let first := d.exponent + digits.length - 1
  let within := n.lowest.all (· ≤ first) && n.highest.all (first ≤ ·)
  if within then pointed digits d.exponent else scientific digits first

end Decimal

/-- The text of a number in a notation. -/
def Binary64.text (n : Decimal.Notation) : Binary64 → String
  | .finite negative m q =>
    String.ofList ((if negative then ['-'] else []) ++ (Decimal.shortest n.tie m q).layOut n)
  | .infinite negative => if negative then "-inf" else "inf"
  | .nan => "NaN"

end TierTagger
