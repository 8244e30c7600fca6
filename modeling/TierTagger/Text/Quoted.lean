import TierTagger.Text.Shapeless

/-!
# Quoted text

Diagnostics show a text between double quotes on one line. `Quoted.char` is the written form of one
character: the quote and the backslash behind a backslash, the common controls as `\t`, `\n`, `\r` and
`\0`, every other shapeless character as its code point in lower-case hexadecimal, all else as it is.
-/

namespace TierTagger.Text.Quoted

/-- The code point of a character in hexadecimal. -/
def codePoint (c : Char) : List Char := Nat.toDigits 16 c.toNat

/-- The written form of one character. -/
def char (c : Char) : List Char :=
  match c with
  | '\x00' => ['\\', '0']
  | '\t' => ['\\', 't']
  | '\n' => ['\\', 'n']
  | '\r' => ['\\', 'r']
  | '"' => ['\\', '"']
  | '\\' => ['\\', '\\']
  | c => if isShapeless c then ['\\', 'u', '\x7b'] ++ codePoint c ++ ['\x7d'] else [c]

/-- A text between double quotes. -/
def render (s : String) : String := String.ofList ('"' :: s.toList.flatMap char ++ ['"'])

end TierTagger.Text.Quoted
