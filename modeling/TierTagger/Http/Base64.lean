import TierTagger.Bytes

/-!
# Base 64

Three bytes are written as four of 64 characters; equals signs fill up the last group.
-/

namespace TierTagger.Base64

/-- The character of six bits. -/
def digit (n : Nat) : Char :=
  if n < 26 then .ofNat (65 + n)
  else if n < 52 then .ofNat (97 + (n - 26))
  else if n < 62 then .ofNat (48 + (n - 52))
  else if n = 62 then '+' else '/'

/-- The characters of a sequence of bytes. -/
def digits : Bytes → List Char
  | a :: b :: c :: r =>
    let n := (a.toNat * 256 + b.toNat) * 256 + c.toNat
    digit (n / 262144) :: digit (n / 4096 % 64) :: digit (n / 64 % 64) :: digit (n % 64) :: digits r
  | [a, b] =>
    let n := (a.toNat * 256 + b.toNat) * 4
    [digit (n / 4096), digit (n / 64 % 64), digit (n % 64), '=']
  | [a] => [digit (a.toNat / 4), digit (a.toNat % 4 * 16), '=', '=']
  | [] => []

/-- The written form of a sequence of bytes. -/
def encode (s : Bytes) : String := String.ofList (digits s)

end TierTagger.Base64
