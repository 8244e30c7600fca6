import TierTagger.Json.Fault
import TierTagger.Text.Utf8

/-!
# Lexemes of JSON

Readers of blanks, of the letters of a literal, of strings and of numbers. Each takes the bytes not
read yet and gives those left, and `…_length` says that it never gives back more than it took.

* `string` reads a string after its opening quote, decoding escapes and checking UTF-8.
* `number` reads a number after its sign. A natural below `2 ^ 64` is exact; with a fraction, an
  exponent or more digits it is a double, computed from the digits that fit 64 bits and a power of ten.
-/

namespace TierTagger.Json

open Ascii

/-! ## Blanks and literals -/

/-- Space, tab, line feed and carriage return. -/
def isBlank (b : UInt8) : Bool := b = space || b = lineFeed || b = tab || b = return_

/-- The bytes from the first that is not blank. -/
def skipBlanks (s : Bytes) : Bytes := s.dropWhile isBlank

theorem skipBlanks_length (s : Bytes) : (skipBlanks s).length ≤ s.length :=
  (List.dropWhile_suffix isBlank).length_le

/-- Reads the given letters. -/
def letters : List UInt8 → Bytes → Except Fault Bytes
  | [], s => .ok s
  | _ :: _, [] => Fault.at [] .endInValue
  | e :: es, b :: r => if b = e then letters es r else Fault.at r .expectedIdent

theorem letters_length {es : List UInt8} {s r : Bytes} (h : letters es s = .ok r) :
    r.length ≤ s.length := by
  induction es generalizing s with
  | nil => simp only [letters, Except.ok.injEq] at h; exact h ▸ Nat.le_refl _
  | cons e es ih =>
    cases s with
    | nil => simp [letters, Fault.at] at h
    | cons b s =>
      simp only [letters] at h
      split at h
      · exact Nat.le_succ_of_le (ih h)
      · simp [Fault.at] at h

/-- The rest of `null`, of `true` and of `false` after the first letter. -/
def nullTail : List UInt8 := ['u', 'l', 'l'].map ofChar
def trueTail : List UInt8 := ['r', 'u', 'e'].map ofChar
def falseTail : List UInt8 := ['a', 'l', 's', 'e'].map ofChar

/-- Reads a colon, blanks in front of it included. -/
def readColon (s : Bytes) : Except Fault Bytes :=
  match skipBlanks s with
  | [] => Fault.peek [] .endInObject
  | b :: r => if b = colon then .ok r else Fault.peek (b :: r) .expectedColon

theorem readColon_length {s r : Bytes} (h : readColon s = .ok r) : r.length < s.length := by
  have := skipBlanks_length s
  unfold readColon at h
  grind [Fault.peek]

/-! ## Strings -/

/-- Reads four hexadecimal digits. -/
def hex4 : Bytes → Reading Nat
  | a :: b :: c :: d :: r =>
    match hexValue? a, hexValue? b, hexValue? c, hexValue? d with
    | some a, some b, some c, some d => .ok (((a * 16 + b) * 16 + c) * 16 + d, r)
    | _, _, _, _ => Fault.at r .invalidEscape
  | _ => Fault.at [] .endInString

/-- The bytes of a code point. -/
def codePointBytes (n : Nat) : Bytes := String.utf8EncodeChar (Char.ofNat n)

/-- Reads the second half of a surrogate pair whose first half was `high`. -/
def lowSurrogate (high : Nat) : Bytes → Reading Bytes
  | [] => Fault.at [] .endInString
  | [b] => if b = backslash then Fault.at [] .endInString else Fault.at [] .unfinishedSurrogate
  | b :: u :: r =>
    if b ≠ backslash then Fault.at (u :: r) .unfinishedSurrogate
    else if u ≠ ofChar 'u' then Fault.at r .unfinishedSurrogate
    else match hex4 r with
      | .error f => .error f
      | .ok (low, r) =>
        if 0xdc00 ≤ low ∧ low ≤ 0xdfff then
          .ok (codePointBytes (0x10000 + (high - 0xd800) * 0x400 + (low - 0xdc00)), r)
        else Fault.at r .loneSurrogate

/-- Reads the code point of a `\u` escape, which for a surrogate takes a second escape. -/
def unicodeEscape (s : Bytes) : Reading Bytes :=
  match hex4 s with
  | .error f => .error f
  | .ok (n, r) =>
    if 0xdc00 ≤ n ∧ n ≤ 0xdfff then Fault.at r .loneSurrogate
    else if 0xd800 ≤ n ∧ n ≤ 0xdbff then lowSurrogate n r
    else .ok (codePointBytes n, r)

/-- The byte that a one-letter escape stands for. -/
def simpleEscape? (b : UInt8) : Option UInt8 :=
  if b = quote ∨ b = backslash ∨ b = slash then some b
  else if b = ofChar 'b' then some 0x08
  else if b = ofChar 'f' then some 0x0c
  else if b = ofChar 'n' then some 0x0a
  else if b = ofChar 'r' then some 0x0d
  else if b = ofChar 't' then some 0x09
  else none

/-- Reads an escape after its backslash. -/
def escape : Bytes → Reading Bytes
  | [] => Fault.at [] .endInString
  | b :: r =>
    match simpleEscape? b with
    | some c => .ok ([c], r)
    | none => if b = ofChar 'u' then unicodeEscape r else Fault.at r .invalidEscape

theorem hex4_length {s r : Bytes} {n : Nat} (h : hex4 s = .ok (n, r)) : r.length < s.length := by
  unfold hex4 at h
  split at h
  · split at h
    · simp only [Except.ok.injEq, Prod.mk.injEq] at h
      simp only [← h.2, List.length_cons]; omega
    · simp [Fault.at] at h
  · simp [Fault.at] at h

theorem lowSurrogate_length {high : Nat} {s r bs : Bytes} (h : lowSurrogate high s = .ok (bs, r)) :
    r.length < s.length := by
  unfold lowSurrogate at h
  split at h
  · simp [Fault.at] at h
  · split at h <;> simp [Fault.at] at h
  · split at h
    · simp [Fault.at] at h
    · split at h
      · simp [Fault.at] at h
      · split at h
        · simp at h
        · next hx =>
          have := hex4_length hx
          split at h
          · simp only [Except.ok.injEq, Prod.mk.injEq] at h
            simp only [← h.2, List.length_cons]; omega
          · simp [Fault.at] at h

theorem unicodeEscape_length {s r bs : Bytes} (h : unicodeEscape s = .ok (bs, r)) :
    r.length < s.length := by
  unfold unicodeEscape at h
  split at h
  · simp at h
  · next hx =>
    have := hex4_length hx
    split at h
    · simp [Fault.at] at h
    · split at h
      · have := lowSurrogate_length h; omega
      · simp only [Except.ok.injEq, Prod.mk.injEq] at h
        simp only [← h.2]; omega

theorem escape_length {s r bs : Bytes} (h : escape s = .ok (bs, r)) : r.length < s.length := by
  unfold escape at h
  split at h
  · simp [Fault.at] at h
  · split at h
    · simp only [Except.ok.injEq, Prod.mk.injEq] at h
      simp [← h.2]
    · split at h
      · have := unicodeEscape_length h
        simp only [List.length_cons]; omega
      · simp [Fault.at] at h

/-- Reads the bytes of a string up to its closing quote onto those read so far, the last one first. -/
def stringBytes (read : Bytes) (s : Bytes) : Reading Bytes :=
  match s with
  | [] => Fault.at [] .endInString
  | b :: r =>
    if b = quote then .ok (read.reverse, r)
    else if b = backslash then
      match _h : escape r with
      | .error f => .error f
      | .ok (bs, r') => stringBytes (bs.reverse ++ read) r'
    else if b < 0x20 then Fault.at r .controlCharacter
    else stringBytes (b :: read) r
termination_by s.length
decreasing_by
  · have := escape_length _h; simp only [List.length_cons]; omega
  · simp

theorem stringBytes_length {read s bs r : Bytes} (h : stringBytes read s = .ok (bs, r)) :
    r.length < s.length := by
  fun_induction stringBytes read s with
  | case1 => simp [Fault.at] at h
  | case2 read r' => simp_all
  | case3 => simp at h
  | case4 read r' bs' r'' he hq ih =>
    have := ih h; have := escape_length he; simp only [List.length_cons]; omega
  | case5 => simp [Fault.at] at h
  | case6 read b r' hq hb hc ih => have := ih h; simp only [List.length_cons]; omega

/-- Reads a string after its opening quote. A string that is not UTF-8 is refused at its first
ill-formed byte, counted back from the closing quote over the decoded bytes. -/
def string (s : Bytes) : Reading String :=
  match stringBytes [] s with
  | .error f => .error f
  | .ok (bs, r) =>
    match Utf8.decode? bs with
    | some t => .ok (t, r)
    | none => .error ⟨.invalidCodePoint, r.length + (bs.length - Utf8.validPrefix bs)⟩

theorem string_length {s r : Bytes} {t : String} (h : string s = .ok (t, r)) :
    r.length < s.length := by
  unfold string at h
  split at h
  · simp at h
  · next hb =>
    have := stringBytes_length hb
    split at h
    · simp only [Except.ok.injEq, Prod.mk.injEq] at h
      simp only [← h.2]; omega
    · simp at h

/-! ## Numbers -/

/-- A number: exact if it is an integer within 64 bits, otherwise a double. -/
inductive Number where
  | natural (n : Nat)
  | negative (n : Nat)
  | float (x : Binary64)
  deriving DecidableEq, Repr

/-- How a diagnosis shows a number. -/
def Number.found : Number → Found
  | natural n => .integer n
  | negative n => .integer (-n)
  | float x => .float x

/-- The digits in front and the bytes after them. -/
def digits (s : Bytes) : List Nat × Bytes :=
  ((s.takeWhile isDigit).map digitValue, s.dropWhile isDigit)

/-- Appends digits to a natural as long as it stays below `limit`; gives the digits that are left. -/
def appendDigits (limit n : Nat) : List Nat → Nat × List Nat
  | [] => (n, [])
  | d :: ds => if n * 10 + d < limit then appendDigits limit (n * 10 + d) ds else (n, d :: ds)

/-- `10 ^ k` as a double. -/
def powerOfTen (k : Nat) : Binary64 := .ofDecimal false 1 k

/-- `x / 10 ^ k`, in steps of at most `10 ^ 308`, each rounded. -/
def divideByPower (x : Binary64) (k : Nat) : Binary64 :=
  if k ≤ 308 then x.div (powerOfTen k)
  else if x.isZero then x
  else divideByPower (x.div (powerOfTen 308)) (k - 308)
termination_by k
decreasing_by omega

/-- `n * 10 ^ exponent` as a double: the rounded `n` times or by the rounded power of ten. `none` if it
is too large. -/
def scaled? (negative : Bool) (n : Nat) (exponent : Int) : Option Binary64 :=
  let x := Binary64.ofNat n
  if exponent < 0 then some ((divideByPower x (-exponent).toNat).withSign negative)
  else if n = 0 then some (x.withSign negative)
  else if exponent > 308 then none
  else
    let y := x.mul (powerOfTen exponent.toNat)
    if y.isInfinite then none else some (y.withSign negative)

/-- Ends a double. -/
def finishFloat (negative : Bool) (n : Nat) (exponent : Int) (s : Bytes) : Reading Number :=
  match scaled? negative n exponent with
  | some x => .ok (.float x, s)
  | none => Fault.at s .numberOutOfRange

/-- Whether a byte starts an exponent. -/
def isExponentMark (b : UInt8) : Bool := b = ofChar 'e' || b = ofChar 'E'

/-- Reads the sign of an exponent, which may be absent; `true` for a minus. -/
def exponentSign : Bytes → Bool × Bytes
  | b :: r => if b = plus then (false, r) else if b = minus then (true, r) else (false, b :: r)
  | [] => (false, [])

/-- Reads an exponent after its mark. One that does not fit 32 bits makes the number zero or too
large. -/
def exponentPart (negative : Bool) (n : Nat) (exponent : Int) (s : Bytes) : Reading Number :=
  let (down, s) := exponentSign s
  match s with
  | [] => Fault.at [] .endInValue
  | b :: r =>
    if !isDigit b then Fault.at r .invalidNumber
    else
      let (ds, rest) := digits r
      let (e, extra) := appendDigits (Nat.pow 2 31) (digitValue b) ds
      match extra with
      | [] => finishFloat negative n (if down then exponent - e else exponent + e) rest
      | _ :: more =>
        if n ≠ 0 ∧ !down then .error ⟨.numberOutOfRange, rest.length + more.length⟩
        else .ok (.float (.finite negative 0 Binary64.lowestExponent), rest)

/-- Reads an exponent if there is one, and ends the double. -/
def exponentOrEnd (negative : Bool) (n : Nat) (exponent : Int) (s : Bytes) : Reading Number :=
  match s with
  | b :: r => if isExponentMark b then exponentPart negative n exponent r
    else finishFloat negative n exponent s
  | [] => finishFloat negative n exponent s

/-- Reads the places after the point. Those past 64 bits of digits are dropped. -/
def fractionPart (negative : Bool) (n : Nat) (exponent : Int) (s : Bytes) : Reading Number :=
  let (ds, rest) := digits s
  if ds.isEmpty then Fault.peek s (if s.isEmpty then .endInValue else .invalidNumber)
  else
    let (n, extra) := appendDigits (Nat.pow 2 64) n ds
    exponentOrEnd negative n (exponent - (ds.length - extra.length : Nat)) rest

/-- Reads what follows the integer digits, of which `dropped` did not fit 64 bits. -/
def afterInteger (negative : Bool) (n dropped : Nat) (s : Bytes) : Reading Number :=
  match s with
  | b :: r =>
    if b = point then fractionPart negative n dropped r
    else if isExponentMark b then exponentPart negative n dropped r
    else ended
  | [] => ended
where
  /-- Without fraction and exponent a number is an integer, unless it has too many digits. -/
  ended : Reading Number :=
    if dropped ≠ 0 then finishFloat negative n dropped s
    else if !negative then .ok (.natural n, s)
    else if n = 0 ∨ n > Nat.pow 2 63 then .ok (.float ((Binary64.ofNat n).withSign true), s)
    else .ok (.negative n, s)

/-- Reads a number after its sign. -/
def number (negative : Bool) (s : Bytes) : Reading Number :=
  match s with
  | [] => Fault.at [] .endInValue
  | b :: r =>
    if b = zero then
      match r with
      | d :: _ => if isDigit d then Fault.peek r .invalidNumber else afterInteger negative 0 0 r
      | [] => afterInteger negative 0 0 r
    else if isDigit b then
      let (ds, rest) := digits r
      let (n, extra) := appendDigits (Nat.pow 2 64) (digitValue b) ds
      afterInteger negative n extra.length rest
    else Fault.at r .invalidNumber

end TierTagger.Json
