import TierTagger.Binary64.Basic
import TierTagger.Toml.Lexeme

/-!
# Numbers and times

* Integers are decimal, with a sign, or hexadecimal, octal or binary without one, and fit 64 bits.
* Floats have a fraction or an exponent. One that is too large is refused if it is positive.
* Of dates and times only the form is checked: they have no further use.
-/

namespace TierTagger.Toml

open Reader
open Text

/-- A value without parts. -/
inductive Scalar where
  | text (s : String)
  | integer (n : Int)
  | float (x : Binary64)
  | boolean (b : Bool)
  | time
  deriving DecidableEq, Repr

/-! ## Digits -/

/-- Digits of a class. An underscore may stand between two of them. -/
def digitsFrom (p : Char → Bool) : List Char → List Char × List Char
  | [] => ([], [])
  | c :: r =>
    if p c then
      let (ds, t) := digitsFrom p r
      (c :: ds, t)
    else if c = '_' ∧ (r.head?.map p).getD false then digitsFrom p r
    else ([], c :: r)

/-- At least one digit of a class. -/
def digits (p : Char → Bool) : Reader (List Char) := do
  let first ← satisfy p
  let rest ← fun s => some (digitsFrom p s)
  return first :: rest

/-- A sign; whether it is a minus. -/
def sign : Reader Bool := do
  match ← optional (char '+' <|> char '-') with
  | some '-' => return true
  | _ => return false

/-- The digits of a decimal integer: no zero in front of others. -/
def decimalDigits : Reader (List Char) :=
  (do let _ ← ahead (satisfy fun c => '1' ≤ c && c ≤ '9'); digits Char.isDigit) <|>
    List.singleton <$> char '0'

/-! ## Integers -/

/-- Whether an integer fits 64 bits. -/
def fits (n : Int) : Bool := -Int.pow 2 63 ≤ n && n < Int.pow 2 63

/-- An integer with a base in front. -/
def basedInteger (mark : Char) (base : Nat) : Reader Int := do
  word ['0', mark]
  let ds ← digits (Numeral.isDigit base)
  return Numeral.value base ds

/-- A decimal integer. -/
def decimalInteger : Reader Int := do
  let negative ← sign
  let n : Int := Numeral.value 10 (← decimalDigits)
  return if negative then -n else n

/-- An integer. -/
def integer : Reader Int :=
  guarded (basedInteger 'x' 16 <|> basedInteger 'o' 8 <|> basedInteger 'b' 2 <|> decimalInteger) fits

/-! ## Floats -/

/-- The number nearest to decimal digits with an exponent. The exponents far outside the range of
doubles are not computed. -/
def nearest (negative : Bool) (ds : List Char) (exponent : Int) : Binary64 :=
  let n := Numeral.value 10 ds
  if n = 0 then .ofDecimal negative 0 0
  else if (ds.length : Int) + exponent < -400 then .ofDecimal negative 0 0
  else if exponent > 400 then .infinite negative
  else .ofDecimal negative n exponent

/-- An exponent. -/
def exponent : Reader Int := do
  let _ ← char 'e' <|> char 'E'
  let negative ← sign
  let n : Int := Numeral.value 10 (← digits Char.isDigit)
  return if negative then -n else n

/-- A float in digits. -/
def decimalFloat : Reader Binary64 := do
  let negative ← sign
  let whole ← decimalDigits
  let (fraction, e) ← (do return ([], ← exponent)) <|> do
    let _ ← char '.'
    let fraction ← digits Char.isDigit
    return (fraction, (← optional exponent).getD 0)
  return nearest negative (whole ++ fraction) (e - fraction.length)

/-- Infinity or no number. -/
def specialFloat : Reader Binary64 := do
  let negative ← sign
  (do word "inf".toList; return .infinite negative) <|> (do word "nan".toList; return .nan)

/-- A float. -/
def float : Reader Binary64 :=
  guarded decimalFloat (· ≠ .infinite false) <|> specialFloat

/-! ## Dates and times -/

/-- A number of exactly so many digits within bounds. -/
def field (width low high : Nat) : Reader Nat :=
  ((exactly Char.isDigit width).filterMap fun ds => some (Numeral.value 10 ds)).guarded
    fun n => low ≤ n && n ≤ high

/-- The days of a month. -/
def daysOf (year month : Nat) : Nat :=
  if month = 2 then
    if year % 4 = 0 ∧ (year % 100 ≠ 0 ∨ year % 400 = 0) then 29 else 28
  else if [4, 6, 9, 11].contains month then 30 else 31

/-- A date. -/
def date : Reader Unit := do
  let year ← field 4 0 9999
  word ['-']
  let month ← field 2 1 12
  word ['-']
  let _ ← field 2 1 (daysOf year month)

/-- A time of day. -/
def timeOfDay : Reader Unit := do
  let _ ← field 2 0 23
  word [':']
  let _ ← field 2 0 59
  word [':']
  let _ ← field 2 0 60
  let _ ← optional (do word ['.']; run1 Char.isDigit)

/-- How far local time is from universal time. -/
def offset : Reader Unit :=
  (do let _ ← satisfy fun c => c = 'Z' || c = 'z') <|> do
    let _ ← char '+' <|> char '-'
    let _ ← field 2 0 23
    word [':']
    let _ ← field 2 0 59

/-- A date, a time or both. -/
def time : Reader Unit :=
  (do
    date
    let _ ← optional (do
      let _ ← satisfy fun c => c = 'T' || c = 't' || c = ' '
      timeOfDay
      optional offset)) <|> timeOfDay

/-- A value without parts. -/
def scalar : Reader Scalar :=
  Scalar.text <$> string <|>
    (do time; return .time) <|> Scalar.float <$> float <|> Scalar.integer <$> integer <|>
    (do word "true".toList; return .boolean true) <|> (do word "false".toList; return .boolean false)

end TierTagger.Toml
