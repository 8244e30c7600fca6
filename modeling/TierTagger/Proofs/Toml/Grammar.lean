import TierTagger.Toml.Document
import TierTagger.Proofs.Toml.Reading

/-!
# The grammar of TOML

What a well-formed text is, apart from any reader, and what its parts stand for.

* `IsString`, `IsKey`: strings of the four kinds, and keys.
* `IsScalar`: values without parts.
* `IsValue`: values in which arrays and tables are nested at most so deep.
* `IsLine`, `IsDocument`: a line without its end, and a whole text. That no table is defined twice is said
  of the lines of a document and not here.
-/

namespace TierTagger.Toml

open Text
open Reader (Separated)

/-! ## Blanks -/

/-- Nothing but blanks. -/
def Blanks (s : List Char) : Prop := ∀ c ∈ s, isBlank c

/-- The end of a line. -/
inductive IsNewline : List Char → Prop
  | feed : IsNewline ['\n']
  | return_ : IsNewline ['\r', '\n']

/-- What may stand behind the last item of a line: blanks, and a comment. -/
inductive IsTail : List Char → Prop
  | blanks {b} (blanks : Blanks b) : IsTail b
  | comment {b c} (blanks : Blanks b) (comment : ∀ x ∈ c, isCommentChar x) : IsTail (b ++ '#' :: c)

/-- What may stand around the items of an array: blanks, comments and ends of lines. -/
inductive IsGap : List Char → Prop
  | blanks {b} (blanks : Blanks b) : IsGap b
  | line {t n g} (tail : IsTail t) (newline : IsNewline n) (rest : IsGap g) : IsGap (t ++ (n ++ g))

/-! ## Strings -/

/-- An escape and the character it stands for. -/
inductive IsEscape : List Char → Char → Prop
  | letter {e c} (letter : escapes.lookup e = some c) : IsEscape ['\\', e] c
  | short {ds} (four : ds.length = 4) (hex : ∀ d ∈ ds, Numeral.isDigit 16 d)
    (valid : (Numeral.value 16 ds).isValidChar) : IsEscape ('\\' :: 'u' :: ds) (.ofNat (Numeral.value 16 ds))
  | long {ds} (eight : ds.length = 8) (hex : ∀ d ∈ ds, Numeral.isDigit 16 d)
    (valid : (Numeral.value 16 ds).isValidChar) : IsEscape ('\\' :: 'U' :: ds) (.ofNat (Numeral.value 16 ds))

/-- What stands between the quotes of a basic string, and the text it stands for. -/
inductive IsBasicText : List Char → List Char → Prop
  | nil : IsBasicText [] []
  | plain {c s t} (plain : isBasic c) (rest : IsBasicText s t) : IsBasicText (c :: s) (c :: t)
  | escape {e c s t} (escape : IsEscape e c) (rest : IsBasicText s t) : IsBasicText (e ++ s) (c :: t)

/-- Blanks and ends of lines. -/
inductive IsSkip : List Char → Prop
  | nil : IsSkip []
  | blank {c s} (blank : isBlank c) (rest : IsSkip s) : IsSkip (c :: s)
  | newline {n s} (newline : IsNewline n) (rest : IsSkip s) : IsSkip (n ++ s)

/-- What neither a blank nor an end of a line starts. -/
def Unspaced (s : List Char) : Prop := ∀ c ∈ s.head?, ¬isBlank c ∧ c ≠ '\n' ∧ c ≠ '\r'

/-- What stands between the quotes of a string of several lines, and the text it stands for: characters of
a class, ends of lines, one or two quotes with something else behind them and, where there are escapes,
these and ends of lines that are left out. -/
inductive IsBlockText (q : Char) (class_ : Char → Bool) (escaping : Bool) : List Char → List Char → Prop
  | nil : IsBlockText q class_ escaping [] []
  | plain {c s t} (plain : class_ c) (rest : IsBlockText q class_ escaping s t) :
    IsBlockText q class_ escaping (c :: s) (c :: t)
  | wrap {n s t} (newline : IsNewline n) (rest : IsBlockText q class_ escaping s t) :
    IsBlockText q class_ escaping (n ++ s) ('\n' :: t)
  | quotes {k s t} (few : k = 1 ∨ k = 2) (full : s ≠ []) (other : s.head? ≠ some q)
    (rest : IsBlockText q class_ escaping s t) :
    IsBlockText q class_ escaping (List.replicate k q ++ s) (List.replicate k q ++ t)
  | escape {e c s t} (allowed : escaping) (escape : IsEscape e c) (rest : IsBlockText q class_ escaping s t) :
    IsBlockText q class_ escaping (e ++ s) (c :: t)
  | continuation {b n w s t} (allowed : escaping) (blanks : Blanks b) (newline : IsNewline n) (skip : IsSkip w)
    (stops : Unspaced s) (rest : IsBlockText q class_ escaping s t) :
    IsBlockText q class_ escaping ('\\' :: (b ++ (n ++ (w ++ s)))) t

/-- A string of several lines. An end of a line just after the opening quotes is left out, and up to two
quotes before the closing ones belong to the text. -/
inductive IsBlock (q : Char) (class_ : Char → Bool) (escaping : Bool) : List Char → List Char → Prop
  | plain {s t k} (unspaced : ∀ c ∈ s.head?, c ≠ '\n' ∧ c ≠ '\r') (few : k ≤ 2)
    (text : IsBlockText q class_ escaping s t) :
    IsBlock q class_ escaping ([q, q, q] ++ (s ++ (List.replicate k q ++ [q, q, q])))
      (t ++ List.replicate k q)
  | wrapped {n s t k} (newline : IsNewline n) (few : k ≤ 2) (text : IsBlockText q class_ escaping s t) :
    IsBlock q class_ escaping ([q, q, q] ++ (n ++ (s ++ (List.replicate k q ++ [q, q, q]))))
      (t ++ List.replicate k q)

/-- A basic string on one line. -/
inductive IsBasicString : List Char → List Char → Prop
  | of {s t} (text : IsBasicText s t) : IsBasicString ('"' :: (s ++ ['"'])) t

/-- A literal string on one line. -/
inductive IsLiteralString : List Char → List Char → Prop
  | of {s} (text : ∀ c ∈ s, isLiteral c) : IsLiteralString ('\x27' :: (s ++ ['\x27'])) s

/-- A string of any of the four kinds, and its text. -/
inductive IsString : List Char → List Char → Prop
  | basic {s t} (string : IsBasicString s t) : IsString s t
  | literal {s t} (string : IsLiteralString s t) : IsString s t
  | basicBlock {s t} (block : IsBlock '"' isBasic true s t) : IsString s t
  | literalBlock {s t} (block : IsBlock '\x27' isLiteral false s t) : IsString s t

/-! ## Keys -/

/-- A key. -/
inductive IsKey : List Char → String → Prop
  | basic {s t} (string : IsBasicString s t) : IsKey s (.ofList t)
  | literal {s t} (string : IsLiteralString s t) : IsKey s (.ofList t)
  | bare {s} (full : s ≠ []) (bare : ∀ c ∈ s, isBare c) : IsKey s (.ofList s)

/-- A key with the blanks around it. -/
inductive IsPart : List Char → String → Prop
  | of {b k key b'} (before : Blanks b) (isKey : IsKey k key) (after : Blanks b') : IsPart (b ++ (k ++ b')) key

/-- A dotted key: all keys but the last, and the last. -/
inductive IsDottedKey : List Char → List String → String → Prop
  | of {s path key} (parts : Separated IsPart '.' s (path ++ [key])) (short : path.length < deepest) :
    IsDottedKey s path key

/-! ## Numbers -/

/-- Digits of a class, with underscores between them. -/
inductive IsDigits (class_ : Char → Bool) : List Char → List Char → Prop
  | one {c} (digit : class_ c) : IsDigits class_ [c] [c]
  | more {c s ds} (digit : class_ c) (rest : IsDigits class_ s ds) : IsDigits class_ (c :: s) (c :: ds)
  | under {c s ds} (digit : class_ c) (rest : IsDigits class_ s ds) :
    IsDigits class_ (c :: '_' :: s) (c :: ds)

/-- The digits of a decimal integer: no zero in front of others. -/
inductive IsDecimal : List Char → List Char → Prop
  | zero : IsDecimal ['0'] ['0']
  | digits {s ds} (lead : ∀ c ∈ s.head?, '1' ≤ c ∧ c ≤ '9') (digits : IsDigits Char.isDigit s ds) :
    IsDecimal s ds

/-- A sign, or none; whether it is a minus. -/
inductive IsSign : List Char → Bool → Prop
  | absent : IsSign [] false
  | plus : IsSign ['+'] false
  | minus : IsSign ['-'] true

/-- A magnitude with its sign. -/
def signed (negative : Bool) (n : Nat) : Int := if negative then -n else n

/-- An integer of any size. -/
inductive IsInteger : List Char → Int → Prop
  | decimal {sign negative s ds} (isSign : IsSign sign negative) (digits : IsDecimal s ds) :
    IsInteger (sign ++ s) (signed negative (Numeral.value 10 ds))
  | based {mark base s ds} (known : (mark, base) ∈ [('x', 16), ('o', 8), ('b', 2)])
    (digits : IsDigits (Numeral.isDigit base) s ds) : IsInteger ('0' :: mark :: s) (Numeral.value base ds)

/-- An exponent. -/
inductive IsExponent : List Char → Int → Prop
  | of {e sign negative s ds} (mark : e = 'e' ∨ e = 'E') (isSign : IsSign sign negative)
    (digits : IsDigits Char.isDigit s ds) : IsExponent (e :: (sign ++ s)) (signed negative (Numeral.value 10 ds))

/-- The digits behind the point of a float, if there are any, and its exponent. -/
inductive IsScale : List Char → List Char → Int → Prop
  | power {e n} (power : IsExponent e n) : IsScale e [] n
  | fraction {f fs} (digits : IsDigits Char.isDigit f fs) : IsScale ('.' :: f) fs 0
  | both {f fs e n} (digits : IsDigits Char.isDigit f fs) (power : IsExponent e n) : IsScale ('.' :: (f ++ e)) fs n

/-- A float. One in digits is not too large. -/
inductive IsFloat : List Char → Binary64 → Prop
  | decimal {sign negative w ws f fs n} (isSign : IsSign sign negative) (whole : IsDecimal w ws)
    (scale : IsScale f fs n) (finite : nearest negative (ws ++ fs) (n - fs.length) ≠ .infinite false) :
    IsFloat (sign ++ (w ++ f)) (nearest negative (ws ++ fs) (n - fs.length))
  | infinite {sign negative} (isSign : IsSign sign negative) : IsFloat (sign ++ "inf".toList) (.infinite negative)
  | nan {sign negative} (isSign : IsSign sign negative) : IsFloat (sign ++ "nan".toList) .nan

/-! ## Dates and times -/

/-- A number of exactly so many digits within bounds. -/
inductive IsField (width low high : Nat) : List Char → Nat → Prop
  | of {ds} (wide : ds.length = width) (digits : ∀ d ∈ ds, d.isDigit) (above : low ≤ Numeral.value 10 ds)
    (below : Numeral.value 10 ds ≤ high) : IsField width low high ds (Numeral.value 10 ds)

/-- A date. -/
inductive IsDate : List Char → Prop
  | of {y year m month d day} (isYear : IsField 4 0 9999 y year) (isMonth : IsField 2 1 12 m month)
    (isDay : IsField 2 1 (daysOf year month) d day) : IsDate (y ++ '-' :: (m ++ '-' :: d))

/-- Hours, minutes and seconds. -/
inductive IsClock : List Char → Prop
  | of {h hour m minute s second} (isHour : IsField 2 0 23 h hour) (isMinute : IsField 2 0 59 m minute)
    (isSecond : IsField 2 0 60 s second) : IsClock (h ++ ':' :: (m ++ ':' :: s))

/-- A time of day. -/
inductive IsTimeOfDay : List Char → Prop
  | whole {s} (clock : IsClock s) : IsTimeOfDay s
  | fraction {s ds} (clock : IsClock s) (full : ds ≠ []) (digits : ∀ d ∈ ds, d.isDigit) :
    IsTimeOfDay (s ++ '.' :: ds)

/-- How far local time is from universal time. -/
inductive IsOffset : List Char → Prop
  | universal {z} (mark : z = 'Z' ∨ z = 'z') : IsOffset [z]
  | of {sign h hour m minute} (isSign : sign = '+' ∨ sign = '-') (isHour : IsField 2 0 23 h hour)
    (isMinute : IsField 2 0 59 m minute) : IsOffset (sign :: (h ++ ':' :: m))

/-- A date, a time or both. -/
inductive IsTime : List Char → Prop
  | day {s} (date : IsDate s) : IsTime s
  | moment {s d t} (date : IsDate s) (mark : d = 'T' ∨ d = 't' ∨ d = ' ') (time : IsTimeOfDay t) :
    IsTime (s ++ d :: t)
  | zoned {s d t o} (date : IsDate s) (mark : d = 'T' ∨ d = 't' ∨ d = ' ') (time : IsTimeOfDay t)
    (offset : IsOffset o) : IsTime (s ++ d :: (t ++ o))
  | clock {s} (time : IsTimeOfDay s) : IsTime s

/-! ## Values -/

/-- A value without parts. -/
inductive IsScalar : List Char → Scalar → Prop
  | text {s t} (string : IsString s t) : IsScalar s (.text (.ofList t))
  | time {s} (time : IsTime s) : IsScalar s .time
  | float {s x} (float : IsFloat s x) : IsScalar s (.float x)
  | integer {s n} (integer : IsInteger s n) (fits : fits n) : IsScalar s (.integer n)
  | boolTrue : IsScalar "true".toList (.boolean true)
  | boolFalse : IsScalar "false".toList (.boolean false)

section

variable (P : List Char → Node → Prop)

/-- A value in an array, with what stands around it. -/
inductive IsItem : List Char → Node → Prop
  | of {g s v g'} (before : IsGap g) (value : P s v) (after : IsGap g') : IsItem (g ++ (s ++ g')) v

/-- An array of such values. -/
inductive IsArray : List Char → Node → Prop
  | empty {g} (gap : IsGap g) : IsArray ('[' :: (g ++ [']'])) (.array [])
  | items {s vs} (items : Separated (IsItem P) ',' s vs) : IsArray ('[' :: (s ++ [']'])) (.array vs)
  | comma {s vs g} (items : Separated (IsItem P) ',' s vs) (gap : IsGap g) :
    IsArray ('[' :: (s ++ ',' :: (g ++ [']']))) (.array vs)

/-- A key with such a value. -/
inductive IsPair : List Char → Assignment → Prop
  | of {k path key b s v b'} (isKey : IsDottedKey k path key) (before : Blanks b) (value : P s v)
    (after : Blanks b') : IsPair (k ++ '=' :: (b ++ (s ++ b'))) ⟨path, key, v⟩

/-- A table of such values that is a value itself. -/
inductive IsInline : List Char → Node → Prop
  | empty {b} (blanks : Blanks b) : IsInline ('\x7b' :: (b ++ ['\x7d'])) (.inline [])
  | pairs {s as es} (pairs : Separated (IsPair P) ',' s as) (sound : Entries.assignAll as [] = some es) :
    IsInline ('\x7b' :: (s ++ ['\x7d'])) (.inline es)

end

/-- A value in which arrays and tables are nested at most so deep. -/
def IsValue : (depth : Nat) → List Char → Node → Prop
  | 0, s, v => ∃ x, IsScalar s x ∧ v = .scalar x
  | depth + 1, s, v =>
    (∃ x, IsScalar s x ∧ v = .scalar x) ∨ IsArray (IsValue depth) s v ∨ IsInline (IsValue depth) s v

/-! ## Lines -/

/-- A line without its end. -/
inductive IsLine : List Char → Line → Prop
  | blank {t} (tail : IsTail t) : IsLine t .blank
  | assignment {k path key b s v t} (isKey : IsDottedKey k path key) (blanks : Blanks b)
    (value : IsValue deepest s v) (tail : IsTail t) :
    IsLine (k ++ '=' :: (b ++ (s ++ t))) (.assignment ⟨path, key, v⟩)
  | table {b k path key t} (blanks : Blanks b) (isKey : IsDottedKey k path key) (tail : IsTail t) :
    IsLine (b ++ '[' :: (k ++ ']' :: t)) (.header .table path key)
  | element {b k path key t} (blanks : Blanks b) (isKey : IsDottedKey k path key) (tail : IsTail t) :
    IsLine (b ++ '[' :: '[' :: (k ++ ']' :: ']' :: t)) (.header .element path key)

/-- Lines, each with its end; the last one need not have one. -/
inductive IsLines : List Char → List Line → Prop
  | nil : IsLines [] []
  | last {s l} (full : s ≠ []) (line : IsLine s l) : IsLines s [l]
  | next {s l n t ls} (line : IsLine s l) (newline : IsNewline n) (rest : IsLines t ls) :
    IsLines (s ++ (n ++ t)) (l :: ls)

/-- The lines of a text. There may be a byte order mark in front. -/
inductive IsDocument (text : String) (ls : List Line) : Prop
  | plain (lines : IsLines text.toList ls)
  | marked {s : List Char} (marked : text.toList = '\ufeff' :: s) (lines : IsLines s ls)

end TierTagger.Toml
