import TierTagger.Json.Skip
import TierTagger.Proofs.Json.Text

/-!
# The grammar of JSON

What a well-formed text is, apart from any reader. Of strings it asks no more than their form: they need
not be UTF-8, nor their surrogates paired.

* `IsNumber`, `IsChars`: a number, and what may stand between the quotes of a string.
* `IsValue`: a value of a `Kind`, nested to any depth. A list holds `Element`s and an object `Member`s,
  each with the blanks around it; `bracketed` is the text of both.
* `IsValue.first`: the first byte of a value tells its kind; it is no blank, comma or closing bracket.
-/

namespace TierTagger.Json

open Ascii

variable {s t r : Bytes}

/-! ## Lexemes -/

/-- Nothing but blanks. -/
def Blanks (s : Bytes) : Prop := ∀ b ∈ s, isBlank b = true

/-- Nothing but digits. -/
def Digits (s : Bytes) : Prop := ∀ b ∈ s, isDigit b = true

/-- The digits in front of the point. -/
inductive IsInteger : Bytes → Prop where
  | zero : IsInteger [zero]
  | digits {b ds} (lead : isDigit b = true) (nonzero : b ≠ Ascii.zero) (digits : Digits ds) :
    IsInteger (b :: ds)

/-- The point and the places after it. -/
inductive IsFraction : Bytes → Prop where
  | absent : IsFraction []
  | places {ds} (some : ds ≠ []) (digits : Digits ds) : IsFraction (point :: ds)

/-- The power of ten. -/
inductive IsExponent : Bytes → Prop where
  | absent : IsExponent []
  | power {e sign ds} (mark : isExponentMark e = true) (signed : sign = [] ∨ sign = [plus] ∨ sign = [minus])
    (some : ds ≠ []) (digits : Digits ds) : IsExponent (e :: (sign ++ ds))

/-- A number without a sign. -/
inductive IsMagnitude : Bytes → Prop where
  | of {i f e} (integer : IsInteger i) (fraction : IsFraction f) (exponent : IsExponent e) :
    IsMagnitude (i ++ (f ++ e))

/-- A number. -/
inductive IsNumber : Bytes → Prop where
  | positive {w} (magnitude : IsMagnitude w) : IsNumber w
  | negative {w} (magnitude : IsMagnitude w) : IsNumber (minus :: w)

/-- An escape after its backslash. -/
inductive IsEscape : Bytes → Prop where
  | simple {b c} (simple : simpleEscape? b = some c) : IsEscape [b]
  | unicode {a b c d} (hex : ∀ x ∈ [a, b, c, d], (hexValue? x).isSome) : IsEscape [ofChar 'u', a, b, c, d]

/-- What stands between the quotes of a string. -/
inductive IsChars : Bytes → Prop where
  | nil : IsChars []
  | plain {b w} (plain : Plain b) (rest : IsChars w) : IsChars (b :: w)
  | escape {e w} (escape : IsEscape e) (rest : IsChars w) : IsChars (backslash :: (e ++ w))

/-! ## Values -/

/-- The kinds of values. -/
inductive Kind where
  | null
  | boolean
  | number
  | text
  | list
  | object
  deriving DecidableEq, Repr

/-- A value within a list or an object, with the blanks around it. -/
structure Element where
  before : Bytes
  kind : Kind
  value : Bytes
  after : Bytes
  deriving DecidableEq, Repr

/-- A member of an object: its key between quotes, a colon and its value. -/
structure Member where
  lead : Bytes
  key : Bytes
  gap : Bytes
  element : Element
  deriving DecidableEq, Repr

namespace Element

/-- The text of an element. -/
def text (e : Element) : Bytes := e.before ++ (e.value ++ e.after)

/-- Nothing but blanks stands around the value. -/
structure Padded (e : Element) : Prop where
  before : Blanks e.before
  after : Blanks e.after

end Element

namespace Member

/-- The text of a member. -/
def text (m : Member) : Bytes :=
  m.lead ++ quote :: (m.key ++ quote :: (m.gap ++ colon :: m.element.text))

/-- The key is a string, and nothing but blanks stands around it and around the value. -/
structure Shaped (m : Member) : Prop where
  lead : Blanks m.lead
  key : IsChars m.key
  gap : Blanks m.gap
  element : m.element.Padded

end Member

/-- The opening bracket. -/
def Bracket.opener : Bracket → UInt8
  | list => openBracket
  | object => openBrace

/-- Items after others, each after its comma, and the closing bracket. -/
def closing (k : Bracket) (items : List Bytes) : Bytes := items.flatMap (comma :: ·) ++ [k.closer]

/-- Items between brackets, and blanks in front of the first one. -/
def bracketed (k : Bracket) (gap : Bytes) : List Bytes → Bytes
  | [] => k.opener :: (gap ++ [k.closer])
  | item :: items => k.opener :: (gap ++ (item ++ closing k items))

/-- An object with the given members. -/
def objectText (gap : Bytes) (ms : List Member) : Bytes := bracketed .object gap (ms.map Member.text)

/-- A well-formed value of a kind. -/
inductive IsValue : Kind → Bytes → Prop where
  | null : IsValue .null (ofChar 'n' :: nullTail)
  | boolTrue : IsValue .boolean (ofChar 't' :: trueTail)
  | boolFalse : IsValue .boolean (ofChar 'f' :: falseTail)
  | number {w} (number : IsNumber w) : IsValue .number w
  | text {w} (chars : IsChars w) : IsValue .text (quote :: (w ++ [quote]))
  | list {gap} {es : List Element} (blanks : Blanks gap) (padded : ∀ e ∈ es, e.Padded)
    (values : ∀ e ∈ es, IsValue e.kind e.value) : IsValue .list (bracketed .list gap (es.map Element.text))
  | object {gap} {ms : List Member} (blanks : Blanks gap) (shaped : ∀ m ∈ ms, m.Shaped)
    (values : ∀ m ∈ ms, IsValue m.element.kind m.element.value) : IsValue .object (objectText gap ms)

/-! ## Blanks -/

theorem blanks_nil : Blanks [] := fun _ mem => nomatch mem

theorem skipBlanks_append (blanks : Blanks s) : skipBlanks (s ++ r) = skipBlanks r :=
  List.dropWhile_append_of_pos blanks

theorem skipBlanks_blanks (blanks : Blanks s) : skipBlanks s = [] := by
  simpa [skipBlanks] using skipBlanks_append (r := []) blanks

/-- Blanks, and then what is left when they are skipped. -/
theorem skipBlanks_split (s : Bytes) : ∃ gap, s = gap ++ skipBlanks s ∧ Blanks gap :=
  ⟨s.takeWhile isBlank, List.takeWhile_append_dropWhile.symm,
    List.all_eq_true.mp List.all_takeWhile⟩

theorem blanks_of_skipBlanks (none : skipBlanks s = []) : Blanks s := by
  obtain ⟨gap, split, blanks⟩ := skipBlanks_split s
  rw [none, List.append_nil] at split
  exact split ▸ blanks

/-! ## The first byte of a value -/

/-- A byte that a value may start with. -/
def Opens (b : UInt8) : Prop :=
  isBlank b = false ∧ b ≠ comma ∧ b ≠ closeBracket ∧ b ≠ closeBrace

instance (b : UInt8) : Decidable (Opens b) := inferInstanceAs (Decidable (_ ∧ _))

theorem ne_of_isDigit {b c : UInt8} (digit : isDigit b = true) (other : isDigit c = false) : b ≠ c := by
  rintro rfl
  rw [digit] at other
  cases other

theorem opens_digit {b : UInt8} (digit : isDigit b = true) : Opens b := by
  have apart := fun c => ne_of_isDigit (c := c) digit
  refine ⟨?_, apart _ rfl, apart _ rfl, apart _ rfl⟩
  simp only [isBlank, apart space rfl, apart lineFeed rfl, apart tab rfl, apart return_ rfl, decide_false,
    Bool.or_false]

theorem IsInteger.first (integer : IsInteger s) : ∃ b t, s = b :: t ∧ isDigit b = true := by
  cases integer with
  | zero => exact ⟨_, _, rfl, rfl⟩
  | digits lead _ _ => exact ⟨_, _, rfl, lead⟩

theorem IsMagnitude.first (magnitude : IsMagnitude s) : ∃ b t, s = b :: t ∧ isDigit b = true := by
  obtain ⟨integer, _, _⟩ := magnitude
  obtain ⟨b, t, rfl, digit⟩ := integer.first
  exact ⟨b, _, rfl, digit⟩

/-- The kind of a value that starts with the byte. -/
def Kind.of (b : UInt8) : Kind :=
  if b = ofChar 'n' then null
  else if b = ofChar 't' ∨ b = ofChar 'f' then boolean
  else if b = quote then text
  else if b = openBracket then list
  else if b = openBrace then object
  else number

theorem kind_of_digit {b : UInt8} (digit : isDigit b = true) : Kind.of b = .number := by
  have apart := fun c => ne_of_isDigit (c := c) digit
  simp only [Kind.of, apart (ofChar 'n') rfl, apart (ofChar 't') rfl, apart (ofChar 'f') rfl, apart quote rfl,
    apart openBracket rfl, apart openBrace rfl, or_self, if_false]

/-- A value starts with a byte that is no blank, comma or closing bracket, and that tells its kind. -/
theorem IsValue.first {k : Kind} (value : IsValue k s) : ∃ b t, s = b :: t ∧ Opens b ∧ Kind.of b = k := by
  cases value with
  | null | boolTrue | boolFalse | text => exact ⟨_, _, rfl, by decide, rfl⟩
  | number number =>
    cases number with
    | negative => exact ⟨_, _, rfl, by decide, rfl⟩
    | positive magnitude =>
      obtain ⟨b, t, rfl, digit⟩ := magnitude.first
      exact ⟨_, _, rfl, opens_digit digit, kind_of_digit digit⟩
  | @list gap es => cases es <;> exact ⟨openBracket, _, rfl, by decide, rfl⟩
  | @object gap ms => cases ms <;> exact ⟨openBrace, _, rfl, by decide, rfl⟩

end TierTagger.Json
