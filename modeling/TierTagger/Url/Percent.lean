import TierTagger.Text.Utf8

/-!
# Percent-encoding

A character that a part of a URL cannot hold is written as its UTF-8 bytes, each as a percent sign and
two capital hexadecimal digits. Which characters those are depends on the part: `EncodeSet`.
-/

namespace TierTagger.Url

/-- The characters that a part of a URL cannot hold as they are. -/
abbrev EncodeSet := Char → Bool

namespace EncodeSet

/-- Controls and all characters outside ASCII. -/
def controls : EncodeSet := fun c => c < ' ' || '~' < c

/-- What a fragment cannot hold. -/
def fragment : EncodeSet := fun c => controls c || [' ', '"', '<', '>', '`'].contains c

/-- What a path that is read from a text cannot hold. -/
def path : EncodeSet := fun c => fragment c || ['#', '?', '\x7b', '\x7d'].contains c

/-- What a user name or a password cannot hold. -/
def userinfo : EncodeSet := fun c =>
  path c || ['/', ':', ';', '=', '@', '[', '\\', ']', '^', '|'].contains c

/-- What a segment that is appended to a path cannot hold. -/
def segment (special : Bool) : EncodeSet := fun c =>
  path c || c = '/' || c = '%' || (special && c = '\\')

/-- What a query cannot hold. -/
def query (special : Bool) : EncodeSet := fun c =>
  controls c || [' ', '"', '#', '<', '>'].contains c || (special && c = '\x27')

end EncodeSet

namespace Percent

/-- A capital hexadecimal digit. -/
def digit (n : Nat) : Char := (Nat.digitChar n).toUpper

/-- The written form of a byte. -/
def byte (b : UInt8) : List Char := ['%', digit (b.toNat / 16), digit (b.toNat % 16)]

/-- The written form of a character. -/
def char (set : EncodeSet) (c : Char) : List Char :=
  if set c then (String.utf8EncodeChar c).flatMap byte else [c]

/-- The written form of a text. -/
def encode (set : EncodeSet) (s : List Char) : String := String.ofList (s.flatMap (char set))

/-- The bytes that an encoded text stands for. A percent sign without two hexadecimal digits after it
stands for itself. -/
def decode : Bytes → Bytes
  | 0x25 :: a :: b :: r =>
    match Ascii.hexValue? a, Ascii.hexValue? b with
    | some x, some y => .ofNat (x * 16 + y) :: decode r
    | _, _ => 0x25 :: decode (a :: b :: r)
  | c :: r => c :: decode r
  | [] => []

end Percent
end TierTagger.Url
