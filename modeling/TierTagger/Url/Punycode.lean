/-!
# Punycode

Labels of domain names outside ASCII are spelled in ASCII: first their ASCII characters, then, from the
lowest of the others to the highest, how far each is from the one before, counted over all places of
all code points. A distance is written in digits of base 36 of which each has a threshold that adapts
to the distances so far; a digit below its threshold is the last.

* `encode`: the spelling of a label.
* `decode?`: the label of a spelling.
-/

namespace TierTagger.Url.Punycode

/-- The digit of a value below 36. -/
def digitChar (d : Nat) : Char := if d < 26 then .ofNat (97 + d) else .ofNat (48 + (d - 26))

/-- The value of a digit of either case. -/
def digitValue? (c : Char) : Option Nat :=
  if 'a' ≤ c ∧ c ≤ 'z' then some (c.toNat - 97)
  else if 'A' ≤ c ∧ c ≤ 'Z' then some (c.toNat - 65)
  else if '0' ≤ c ∧ c ≤ '9' then some (c.toNat - 48 + 26)
  else none

/-- The threshold of the digit at position `k`, counted in steps of 36. -/
def threshold (k bias : Nat) : Nat := min 26 (max 1 (k - bias))

theorem one_le_threshold (k bias : Nat) : 1 ≤ threshold k bias := by unfold threshold; omega

/-- Scales a distance down until it is small; counts the steps in units of 36. -/
def scaleDown (delta k : Nat) : Nat × Nat :=
  if 455 < delta then scaleDown (delta / 35) (k + 36) else (delta, k)
termination_by delta
decreasing_by omega

/-- The bias after a distance, with the number of characters placed so far. -/
def adapt (delta count : Nat) (first : Bool) : Nat :=
  let d := if first then delta / 700 else delta / 2
  let (d, k) := scaleDown (d + d / count) 0
  k + 36 * d / (d + 38)

/-- The digits of a distance. -/
def distance (bias k q : Nat) : List Char :=
  if q < threshold k bias then [digitChar q]
  else
    let t := threshold k bias
    digitChar (t + (q - t) % (36 - t)) :: distance bias (k + 36) ((q - t) / (36 - t))
termination_by q
decreasing_by
  have h := one_le_threshold k bias
  exact Nat.lt_of_le_of_lt (Nat.div_le_self ..) (by omega)

/-- Where the writer stands: the distance since the last character written, the bias, how many
characters are placed, and the digits written. -/
structure Progress where
  delta : Nat
  bias : Nat
  placed : Nat
  written : List Char

/-- Walks over the label and writes the places of the code point `m`. -/
def placeAll (basic m : Nat) (label : List Nat) (p : Progress) : Progress :=
  label.foldl (fun p c =>
    if c < m then { p with delta := p.delta + 1 }
    else if c = m then
      { delta := 0, bias := adapt p.delta (p.placed + 1) (p.placed == basic),
        placed := p.placed + 1, written := p.written ++ distance p.bias 36 p.delta }
    else p) p

/-- Writes the places of code points in ascending order; `n` is the least not looked at yet. -/
def placeEach (basic : Nat) (label : List Nat) : (points : List Nat) → (n : Nat) → Progress → List Char
  | [], _, p => p.written
  | m :: rest, n, p =>
    let p := placeAll basic m label { p with delta := p.delta + (m - n) * (p.placed + 1) }
    placeEach basic label rest (m + 1) { p with delta := p.delta + 1 }

/-- The spelling of a label. -/
def encode (label : List Char) : List Char :=
  let basic := label.filter (·.toNat < 128)
  let points := ((label.map Char.toNat).filter (128 ≤ ·)).mergeSort.eraseReps
  placeEach basic.length (label.map Char.toNat) points 128
    ⟨0, 72, basic.length, basic ++ (if basic.isEmpty then [] else ['-'])⟩

/-- Reads digits into a label. `i` is the place so far, `start` what it was before this distance, `w`
the weight of the next digit, which is at position `k`. -/
def readDigits (label : List Char) (n i start bias w k : Nat) : List Char → Option (List Char)
  | [] => if k = 36 then some label else none
  | c :: r =>
    match digitValue? c with
    | none => none
    | some d =>
      let i := i + d * w
      let t := threshold k bias
      if d < t then
        let count := label.length + 1
        let n := n + i / count
        if n.isValidChar then
          let place := i % count
          readDigits (label.take place ++ .ofNat n :: label.drop place) n (place + 1) (place + 1)
            (adapt (i - start) count (start == 0)) 1 36 r
        else none
      else readDigits label n i start bias (w * (36 - t)) (k + 36) r

/-- The ASCII characters of a spelling and its digits: the last hyphen is between them. -/
def cut (s : List Char) : List Char × List Char :=
  let digits := (s.reverse.takeWhile (· ≠ '-')).reverse
  if digits.length = s.length then ([], s) else (s.take (s.length - digits.length - 1), digits)

/-- The label of a spelling. -/
def decode? (s : List Char) : Option (List Char) :=
  let (basic, digits) := cut s
  readDigits basic 128 0 0 72 1 36 digits

end TierTagger.Url.Punycode
