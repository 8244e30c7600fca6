import TierTagger.Binary64.Shortest
import TierTagger.Bytes
import TierTagger.Text.Quoted

/-!
# Why a JSON text is refused

A reader works on the bytes not read yet, so a `Fault` notes its place as the number of bytes left.
`Fault.message` turns that into a line and a column of the whole text.

* `Fault.at`: the place is just past the bytes read so far.
* `Fault.peek`: the place is one byte further, at the byte that was looked at but not read.
-/

namespace TierTagger.Json

/-- A value that is not of the kind wanted, as a diagnosis shows it. -/
inductive Found where
  | null
  | boolean (b : Bool)
  | integer (n : Int)
  | float (x : Binary64)
  | text (s : String)
  | sequence
  | map
  deriving DecidableEq, Repr

/-- The wording of a value in a diagnosis. -/
def Found.describe : Found → String
  | null => "null"
  | boolean b => s!"boolean `{b}`"
  | integer n => s!"integer `{n}`"
  | float x => s!"floating point `{x.text Decimal.shown}`"
  | text s => s!"string {Text.Quoted.render s}"
  | sequence => "sequence"
  | map => "map"

/-- Why a text is refused. The first group is about its form, the second about the value it holds. -/
inductive Cause where
  | endInList
  | endInObject
  | endInString
  | endInValue
  | expectedColon
  | expectedCommaOrBracket
  | expectedCommaOrBrace
  | expectedIdent
  | expectedValue
  | invalidEscape
  | invalidNumber
  | numberOutOfRange
  | invalidCodePoint
  | controlCharacter
  | keyNotString
  | loneSurrogate
  | trailingComma
  | trailingCharacters
  | unfinishedSurrogate
  | wrongType (found : Found) (expected : String)
  | outOfBounds (found : Found) (expected : String)
  | wrongLength (length : Nat) (expected : String)
  | unknownVariant (name : String) (known : List String)
  | missingField (name : String)
  | duplicateField (name : String)
  deriving DecidableEq, Repr

/-- Names in backquotes, separated by commas. -/
def listed (names : List String) : String := ", ".intercalate (names.map fun n => s!"`{n}`")

/-- The wording of a cause. -/
def Cause.message : Cause → String
  | endInList => "EOF while parsing a list"
  | endInObject => "EOF while parsing an object"
  | endInString => "EOF while parsing a string"
  | endInValue => "EOF while parsing a value"
  | expectedColon => "expected `:`"
  | expectedCommaOrBracket => "expected `,` or `]`"
  | expectedCommaOrBrace => "expected `,` or `\x7d`"
  | expectedIdent => "expected ident"
  | expectedValue => "expected value"
  | invalidEscape => "invalid escape"
  | invalidNumber => "invalid number"
  | numberOutOfRange => "number out of range"
  | invalidCodePoint => "invalid unicode code point"
  | controlCharacter => "control character (\\u0000-\\u001F) found while parsing a string"
  | keyNotString => "key must be a string"
  | loneSurrogate => "lone leading surrogate in hex escape"
  | trailingComma => "trailing comma"
  | trailingCharacters => "trailing characters"
  | unfinishedSurrogate => "unexpected end of hex escape"
  | wrongType found expected => s!"invalid type: {found.describe}, expected {expected}"
  | outOfBounds found expected => s!"invalid value: {found.describe}, expected {expected}"
  | wrongLength length expected => s!"invalid length {length}, expected {expected}"
  | unknownVariant name known => s!"unknown variant `{name}`, expected one of {listed known}"
  | missingField name => s!"missing field `{name}`"
  | duplicateField name => s!"duplicate field `{name}`"

/-- A cause and the number of bytes left after its place. -/
structure Fault where
  cause : Cause
  left : Nat
  deriving DecidableEq, Repr

/-- What a reader makes of the bytes it is given: a value and the bytes left, or a fault. -/
abbrev Reading (α : Type) := Except Fault (α × Bytes)

/-- Goes on with the value read and the bytes left. -/
def Reading.andThen {α β : Type} (x : Reading α) (next : α → Bytes → Except Fault β) :
    Except Fault β :=
  match x with
  | .error f => .error f
  | .ok (a, r) => next a r

namespace Fault

/-- A fault just before the bytes left. -/
def «at» (left : Bytes) (cause : Cause) : Except Fault α := .error ⟨cause, left.length⟩

/-- A fault at the first of the bytes left, or at the end if there is none. -/
def peek (left : Bytes) (cause : Cause) : Except Fault α := .error ⟨cause, left.tail.length⟩

/-- The line of a place and its column, given the bytes before it: one more than the line feeds, and
the bytes after the last of them. -/
def position (before : Bytes) : Nat × Nat :=
  (1 + before.count Ascii.lineFeed,
    (before.reverse.takeWhile (· != Ascii.lineFeed)).length)

/-- The wording of a fault in the given text. -/
def message (text : Bytes) (f : Fault) : String :=
  let (line, column) := position (text.take (text.length - f.left))
  s!"{f.cause.message} at line {line} column {column}"

end Fault
end TierTagger.Json
