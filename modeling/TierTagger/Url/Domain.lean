import TierTagger.Text.Fields
import TierTagger.Text.Shapeless
import TierTagger.Text.Utf8
import TierTagger.Url.Punycode

/-!
# Domain names

A domain name is compared and shown in ASCII: letters are lower case, and a label with other characters
is spelled in Punycode behind `xn--`.

Of the mapping of characters outside ASCII this covers the capitals of the Latin, Greek, Cyrillic and
Armenian alphabets, the full-width forms, the ideographic full stops and the characters that are
ignored. A character without a shape of its own is refused.
-/

namespace TierTagger.Url.Domain

/-- The ASCII characters that no domain name has. -/
def isForbidden (c : Char) : Bool :=
  c ≤ ' ' || c = '\x7f' ||
    ['#', '%', '/', ':', '<', '>', '?', '@', '[', '\\', ']', '^', '|'].contains c

/-- The code points of a range that are followed by their small letters. -/
def pairRanges : List (Nat × Nat) :=
  [(0x100, 0x12e), (0x132, 0x136), (0x139, 0x147), (0x14a, 0x176), (0x179, 0x17d), (0x3d8, 0x3ee),
    (0x460, 0x480), (0x48a, 0x4be), (0x4c1, 0x4cd), (0x4d0, 0x52e), (0x1e00, 0x1e94), (0x1ea0, 0x1efe)]

/-- Ranges of capitals and how far their small letters are. -/
def shiftRanges : List (Nat × Nat × Nat) :=
  [(0x41, 0x5a, 0x20), (0xc0, 0xd6, 0x20), (0xd8, 0xde, 0x20), (0x388, 0x38a, 0x25), (0x38c, 0x38c, 0x40),
    (0x38e, 0x38f, 0x3f), (0x386, 0x386, 0x26), (0x391, 0x3ab, 0x20), (0x400, 0x40f, 0x50),
    (0x410, 0x42f, 0x20), (0x531, 0x556, 0x30)]

/-- The small letter of a capital, and any other code point itself. -/
def lower (n : Nat) : Nat :=
  match shiftRanges.find? fun (low, high, _) => low ≤ n && n ≤ high with
  | some (_, _, shift) => n + shift
  | none =>
    if pairRanges.any fun (low, high) => low ≤ n && n ≤ high && (n - low) % 2 == 0 then n + 1
    else if n = 0x178 then 0xff
    else if n = 0x17f then 0x73
    else n

/-- The characters that are left out of a name. -/
def isIgnored (n : Nat) : Bool :=
  [0xad, 0x34f, 0x200b, 0x2060, 0xfeff].contains n || (0xfe00 ≤ n && n ≤ 0xfe0f)

/-- What a character is read as. -/
def mapped (c : Char) : List Char :=
  let n := c.toNat
  if isIgnored n then []
  else if n = 0x3002 ∨ n = 0xff61 then ['.']
  else if n = 0x3000 ∨ n = 0xa0 then [' ']
  else if 0xff01 ≤ n ∧ n ≤ 0xff5e then [.ofNat (lower (n - 0xfee0))]
  else [.ofNat (lower n)]

/-- Whether a mapped character may be in a name. -/
def isValid (c : Char) : Bool :=
  if c.toNat < 128 then !isForbidden c && !c.isUpper
  else c ≠ '\ufffd' && !Text.isShapeless c

/-- Whether a label is in ASCII. -/
def isAscii (label : List Char) : Bool := label.all (·.toNat < 128)

/-- The form of a label in ASCII. A label that is spelled already has to be the spelling of a valid label
outside ASCII. -/
def labelToAscii? (label : List Char) : Option (List Char) :=
  match label with
  | 'x' :: 'n' :: '-' :: '-' :: spelling =>
    match Punycode.decode? spelling with
    | some l =>
      if l.all isValid ∧ ¬isAscii l ∧ Punycode.encode l = spelling then some label else none
    | none => none
  | _ => if isAscii label then some label else some ("xn--".toList ++ Punycode.encode label)

/-- The form of a name in ASCII. -/
def toAscii? (name : Bytes) : Option String :=
  let chars := (Utf8.lossy name).toList.flatMap mapped
  if chars.all isValid then
    ((Text.fields (· == '.') chars).mapM labelToAscii?).map fun ls =>
      ".".intercalate (ls.map String.ofList)
  else none

end TierTagger.Url.Domain
