/-!
# Writing JSON

Compact texts: no blanks, members in the order given. In a string a backslash precedes the quote and
the backslash; controls are written as their short escape if they have one, otherwise by their code
point in four hexadecimal digits; all else stands for itself.
-/

namespace TierTagger.Json.Writer

/-- A byte in two hexadecimal digits. -/
def hex2 (n : Nat) : List Char := [Nat.digitChar (n / 16), Nat.digitChar (n % 16)]

/-- The written form of a character of a string. -/
def char (c : Char) : List Char :=
  match c with
  | '"' => ['\\', '"']
  | '\\' => ['\\', '\\']
  | '\x08' => ['\\', 'b']
  | '\x0c' => ['\\', 'f']
  | '\n' => ['\\', 'n']
  | '\r' => ['\\', 'r']
  | '\t' => ['\\', 't']
  | c => if c.toNat < 0x20 then ['\\', 'u', '0', '0'] ++ hex2 c.toNat else [c]

/-- A string. -/
def text (s : String) : String := String.ofList ('"' :: s.toList.flatMap char ++ ['"'])

/-- A natural number. -/
def natural (n : Nat) : String := toString n

/-- `true` or `false`. -/
def boolean (b : Bool) : String := if b then "true" else "false"

/-- An object of members whose values are written already. -/
def object (members : List (String × String)) : String :=
  "\x7b" ++ ",".intercalate (members.map fun (k, v) => text k ++ ":" ++ v) ++ "\x7d"

end TierTagger.Json.Writer
