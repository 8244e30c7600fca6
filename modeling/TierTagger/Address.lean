import TierTagger.Text.Fields
import TierTagger.Text.Numeral

/-!
# Internet addresses

IPv4 and IPv6 addresses and their text.

* `Ipv4.parse?` reads four decimal numbers without leading zeros, `Ipv4.render` writes them.
* `Ipv6.parse?` reads groups of hexadecimal digits, of which a run may be left out as `::`; the last two
  groups may be written as an IPv4 address. `Ipv6.render` writes the shortest such form, without the
  IPv4 part.
-/

namespace TierTagger

/-- An IPv4 address as a number of 32 bits. -/
structure Ipv4 where
  bits : UInt32
  deriving DecidableEq, Repr

namespace Ipv4

/-- The address with the given four bytes. -/
def ofBytes (a b c d : Nat) : Ipv4 := ⟨.ofNat (((a * 256 + b) * 256 + c) * 256 + d)⟩

/-- A decimal number below 256 without leading zeros. -/
def byte? (s : List Char) : Option Nat :=
  if s.all Char.isDigit ∧ s ≠ [] ∧ s.length ≤ 3 ∧ (s.head? = some '0' → s.length = 1) then
    let n := Text.Numeral.value 10 s
    if n < 256 then some n else none
  else none

/-- Reads four numbers with points between them. -/
def parse? (s : List Char) : Option Ipv4 :=
  match (Text.fields (· == '.') s).mapM byte? with
  | some [a, b, c, d] => some (ofBytes a b c d)
  | _ => none

/-- The four bytes with points between them. -/
def render (a : Ipv4) : String :=
  let n := a.bits.toNat
  ".".intercalate ([n / Nat.pow 2 24, n / Nat.pow 2 16 % 256, n / 256 % 256, n % 256].map toString)

end Ipv4

/-- An IPv6 address: eight groups of 16 bits. -/
structure Ipv6 where
  groups : List UInt16
  length_groups : groups.length = 8
  deriving DecidableEq, Repr

namespace Ipv6

/-- A group: one to four hexadecimal digits. -/
def group? (s : List Char) : Option UInt16 :=
  if s ≠ [] ∧ s.length ≤ 4 ∧ s.all (Text.Numeral.isDigit 16) then
    some (.ofNat (Text.Numeral.value 16 s))
  else none

/-- Groups of which the last may stand for two, written as an IPv4 address. -/
def groupsOf? (dotted : Bool) : List (List Char) → Option (List UInt16)
  | [] => some []
  | [last] =>
    match group? last with
    | some g => some [g]
    | none =>
      if dotted then
        (Ipv4.parse? last).map fun a => [.ofNat (a.bits.toNat / 65536), .ofNat (a.bits.toNat % 65536)]
      else none
  | s :: rest => do return (← group? s) :: (← groupsOf? dotted rest)

/-- Groups with colons between them, or no text at all. -/
def run? (dotted : Bool) (s : List Char) : Option (List UInt16) :=
  if s = [] then some [] else groupsOf? dotted (Text.fields (· == ':') s)

/-- What comes before the first `::` and what comes after it. -/
def cutGap : List Char → Option (List Char × List Char)
  | ':' :: ':' :: r => some ([], r)
  | c :: r => (cutGap r).map fun (h, t) => (c :: h, t)
  | [] => none

/-- Eight groups as an address. -/
def ofGroups? (gs : List UInt16) : Option Ipv6 :=
  if h : gs.length = 8 then some ⟨gs, h⟩ else none

/-- Reads an address. The gap `::` stands for at least one group. -/
def parse? (s : List Char) : Option Ipv6 :=
  match cutGap s with
  | none => do ofGroups? (← run? true s)
  | some (h, t) => do
    let head ← run? false h
    let tail ← run? true t
    if head.length + tail.length < 8 then
      ofGroups? (head ++ List.replicate (8 - head.length - tail.length) 0 ++ tail)
    else none

/-- The lengths of the runs of zeros that start at each group. -/
def zeroRuns : List UInt16 → List Nat
  | [] => []
  | g :: r => (if g = 0 then (zeroRuns r).headD 0 + 1 else 0) :: zeroRuns r

/-- Where the gap is and how many groups it stands for: the first of the longest runs of zeros, if it
is longer than one group. -/
def gap? (a : Ipv6) : Option (Nat × Nat) :=
  let runs := zeroRuns a.groups
  let longest := runs.foldl max 0
  if longest < 2 then none else (runs.findIdx? (· = longest)).map (·, longest)

/-- Groups with colons between them. -/
def join (gs : List UInt16) : String :=
  ":".intercalate (gs.map fun g => String.ofList (Nat.toDigits 16 g.toNat))

/-- The address in its shortest form, in lower case. -/
def render (a : Ipv6) : String :=
  match a.gap? with
  | none => join a.groups
  | some (start, count) => join (a.groups.take start) ++ "::" ++ join (a.groups.drop (start + count))

end Ipv6
end TierTagger
