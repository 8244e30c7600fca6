import TierTagger.Text.Numeral
import TierTagger.Toml.Reader

/-!
# Blanks, strings and keys

The lexemes of TOML apart from numbers and times. A line ends with a line feed, with a carriage return
before it or not. Strings are basic, with escapes, or literal, each of them on one line or, between
triple quotes, on several.
-/

namespace TierTagger.Toml

open Reader
open Text

/-! ## Blanks -/

/-- The blanks within a line. -/
def isBlank (c : Char) : Bool := c = ' ' || c = '\t'

/-- The characters outside ASCII. -/
def isWide (c : Char) : Bool := '\x7f' < c

/-- The characters of a comment. -/
def isCommentChar (c : Char) : Bool := c = '\t' || (' ' ≤ c && c ≤ '~') || isWide c

/-- Blanks within a line. -/
def blanks : Reader Unit := do let _ ← run isBlank

/-- The end of a line. -/
def newline : Reader Unit := word ['\n'] <|> word ['\r', '\n']

/-- A comment. -/
def comment : Reader Unit := do
  let _ ← char '#'
  let _ ← run isCommentChar

/-- What may stand behind the last item of a line. -/
def lineEnd : Reader Unit := do
  blanks
  let _ ← optional comment
  newline <|> ending

/-- Blanks, comments and ends of lines. -/
def gap : Reader Unit := do
  let _ ← many (do blanks; let _ ← optional comment; newline)
  blanks

/-! ## Strings -/

/-- The characters of a basic string that stand for themselves. -/
def isBasic (c : Char) : Bool :=
  c = '\t' || ((' ' ≤ c && c ≤ '~') && c ≠ '"' && c ≠ '\\') || isWide c

/-- The characters of a literal string. -/
def isLiteral (c : Char) : Bool :=
  c = '\t' || ((' ' ≤ c && c ≤ '~') && c ≠ '\x27') || isWide c

/-- A character by its code point in so many hexadecimal digits. -/
def codePoint (digits : Nat) : Reader Char :=
  (exactly (Numeral.isDigit 16) digits).filterMap fun ds =>
    let n := Numeral.value 16 ds
    if n.isValidChar then some (.ofNat n) else none

/-- The characters that have an escape of one letter. -/
def escapes : List (Char × Char) :=
  [('b', '\x08'), ('f', '\x0c'), ('n', '\n'), ('r', '\r'), ('t', '\t'), ('\\', '\\'), ('"', '"')]

/-- An escaped character. -/
def escaped : Reader Char := do
  let _ ← char '\\'
  match ← satisfy fun _ => true with
  | 'u' => codePoint 4
  | 'U' => codePoint 8
  | c =>
    match escapes.lookup c with
    | some d => return d
    | none => failure

/-- A text from its pieces. -/
def joined (pieces : List (List Char)) : String := String.ofList pieces.flatten

/-- A basic string on one line. -/
def basicString : Reader String := do
  let _ ← char '"'
  let pieces ← many (run1 isBasic <|> List.singleton <$> escaped)
  let _ ← char '"'
  return joined pieces

/-- A literal string on one line. -/
def literalString : Reader String := do
  let _ ← char '\x27'
  let text ← run isLiteral
  let _ ← char '\x27'
  return .ofList text

/-- One or two quotes within a string of several lines: another character has to follow. -/
def innerQuotes (q : Char) : Reader (List Char) :=
  (do word [q, q]; let _ ← ahead (satisfy (· ≠ q)); return [q, q]) <|>
    (do word [q]; let _ ← ahead (satisfy (· ≠ q)); return [q])

/-- The end of a string of several lines. Up to two more quotes before it belong to the string. -/
def closingQuotes (q : Char) : Reader (List Char) := do
  let fence := [q, q, q]
  let extra ← (do word [q, q]; ahead (word fence); return [q, q]) <|>
    (do word [q]; ahead (word fence); return [q]) <|> pure []
  word fence
  return extra

/-- An escaped end of line: it is left out, and so are the blanks and ends of lines after it. -/
def continuation : Reader (List Char) := do
  word ['\\']
  blanks
  newline
  let _ ← many ((do let _ ← run1 isBlank) <|> newline)
  return []

/-- A string of several lines with the given pieces. An end of line just after the opening quotes is
left out. -/
def blockString (q : Char) (piece : Reader (List Char)) : Reader String := do
  word [q, q, q]
  let _ ← optional newline
  let pieces ← many (piece <|> (do newline; return ['\n']) <|> innerQuotes q)
  let extra ← closingQuotes q
  return joined (pieces ++ [extra])

/-- A string of any of the four kinds. -/
def string : Reader String :=
  blockString '"' (run1 isBasic <|> continuation <|> List.singleton <$> escaped) <|>
    basicString <|> blockString '\x27' (run1 isLiteral) <|> literalString

/-! ## Keys -/

/-- The characters of a key without quotes. -/
def isBare (c : Char) : Bool := c.isAlphanum || c = '_' || c = '-'

/-- One key. -/
def simpleKey : Reader String :=
  basicString <|> literalString <|> String.ofList <$> run1 isBare

/-- How many keys a dotted key has at most, and in how many arrays and tables a value stands at most. With the
value itself there are eighty levels. -/
def deepest : Nat := 79

/-- A dotted key: all keys but the last, and the last. -/
def dottedKey : Reader (List String × String) :=
  (separated (do blanks; let k ← simpleKey; blanks; return k) (char '.')).filterMap fun ks =>
    if ks.length ≤ deepest then ks.getLast?.map (ks.dropLast, ·) else none

end TierTagger.Toml
