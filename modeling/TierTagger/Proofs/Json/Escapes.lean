import TierTagger.Proofs.Json.Text

/-!
# Every spelling of a string is read

A character may stand for itself, or be written by a short escape, by its code point, or by the two halves
of a surrogate pair. `string_spelled`: a string is read the same however its characters are written.
-/

namespace TierTagger.Json

open Ascii

variable {n : Nat} {c : Char} {w r : Bytes}

/-- Four hexadecimal digits, of either case, and their value. -/
inductive Hex4 : Nat → Bytes → Prop where
  | of {a b c d : UInt8} {i j k l : Nat} (first : hexValue? a = some i) (second : hexValue? b = some j)
    (third : hexValue? c = some k) (fourth : hexValue? d = some l) :
    Hex4 (((i * 16 + j) * 16 + k) * 16 + l) [a, b, c, d]

/-- A way to write a character in a string. -/
inductive SpelledChar : Char → Bytes → Prop where
  | plain {c : Char} (not_quote : c ≠ '"') (not_backslash : c ≠ '\\') (not_control : ¬c.toNat < 0x20) :
    SpelledChar c (String.utf8EncodeChar c)
  | simple {c : Char} {e b : UInt8} (simple : simpleEscape? e = some b) (value : c.toNat = b.toNat) :
    SpelledChar c [backslash, e]
  | unicode {c : Char} {w : Bytes} (hex : Hex4 c.toNat w) : SpelledChar c (backslash :: ofChar 'u' :: w)
  | pair {c : Char} {high low : Nat} {w v : Bytes} (first : Hex4 high w) (second : Hex4 low v)
    (isHigh : 0xd800 ≤ high ∧ high ≤ 0xdbff) (isLow : 0xdc00 ≤ low ∧ low ≤ 0xdfff)
    (value : c.toNat = 0x10000 + (high - 0xd800) * 0x400 + (low - 0xdc00)) :
    SpelledChar c (backslash :: ofChar 'u' :: (w ++ backslash :: ofChar 'u' :: v))

/-- A way to write characters one after the other. -/
inductive SpelledChars : List Char → Bytes → Prop where
  | nil : SpelledChars [] []
  | cons {c : Char} {cs : List Char} {v w : Bytes} (char : SpelledChar c v) (rest : SpelledChars cs w) :
    SpelledChars (c :: cs) (v ++ w)

/-- A way to write a string between its quotes. -/
def SpelledText (x : String) (w : Bytes) : Prop := SpelledChars x.toList w

theorem Hex4.read (hex : Hex4 n w) : hex4 (w ++ r) = .ok (n, r) := by
  cases hex with
  | of first second third fourth => simp only [List.cons_append, List.nil_append, hex4, first, second, third,
      fourth]

/-- The digits of a code point, found by reading them. -/
theorem Hex4.of_read {n : Nat} {w : Bytes} (read : hex4 w = .ok (n, [])) : Hex4 n w := by
  unfold hex4 at read
  split at read
  · split at read
    · next a b c d =>
      cases read
      exact .of a b c d
    · cases read
  · cases read

theorem codePointBytes_toNat (c : Char) : codePointBytes c.toNat = String.utf8EncodeChar c := by
  rw [codePointBytes, Char.ofNat_toNat]

theorem escape_unicode (hex : Hex4 n w) : escape (ofChar 'u' :: (w ++ r)) =
    if 0xdc00 ≤ n ∧ n ≤ 0xdfff then Fault.at r .loneSurrogate
    else if 0xd800 ≤ n ∧ n ≤ 0xdbff then lowSurrogate n r
    else .ok (codePointBytes n, r) := by
  rw [escape, show simpleEscape? (ofChar 'u') = none by decide]
  simp only [if_true, unicodeEscape, hex.read]

/-- The short escapes stand for characters in ASCII. -/
theorem simpleEscape?_ascii {e b : UInt8} (simple : simpleEscape? e = some b) : b.toNat < 0x80 := by
  unfold simpleEscape? at simple
  split at simple
  · next same =>
    cases simple
    rcases same with rfl | rfl | rfl <;> decide
  · repeat' split at simple
    all_goals
      cases simple
      try decide

section
variable {before : Bytes}

theorem stringBytes_unicode {bs v : Bytes} (escaped : escape (ofChar 'u' :: (v ++ r)) = .ok (bs, r)) :
    stringBytes before (backslash :: ofChar 'u' :: (v ++ r)) = stringBytes (bs.reverse ++ before) r :=
  stringBytes_escape (e := ofChar 'u' :: v) escaped

/-- A character is read, however it is written. -/
theorem stringBytes_spelled (spelled : SpelledChar c w) :
    stringBytes before (w ++ r) = stringBytes ((String.utf8EncodeChar c).reverse ++ before) r := by
  have scalar : c.toNat < 0xd800 ∨ 0xdfff < c.toNat ∧ c.toNat < 0x110000 := c.valid
  cases spelled with
  | plain not_quote not_backslash not_control =>
    exact stringBytes_plain (plain_char not_quote not_backslash not_control)
  | @simple e b simple value =>
    have ascii := simpleEscape?_ascii simple
    have byte : String.utf8EncodeChar c = [b] := by
      rw [Utf8.encodeChar_ascii (value ▸ ascii)]
      congr 1
      apply UInt8.toNat_inj.mp
      show c.toNat % 256 = b.toNat
      omega
    rw [byte]
    exact stringBytes_escape (e := [e]) (by simp [escape, simple])
  | unicode hex =>
    refine stringBytes_unicode ?_
    rw [escape_unicode hex, if_neg (by omega), if_neg (by omega), codePointBytes_toNat]
  | @pair high low w v first second isHigh isLow value =>
    have both : lowSurrogate high (backslash :: ofChar 'u' :: (v ++ r)) =
        .ok (String.utf8EncodeChar c, r) := by
      rw [lowSurrogate, if_neg (by simp), if_neg (by simp), second.read]
      simp only [if_pos isLow]
      rw [← value, codePointBytes_toNat]
    have text : backslash :: ofChar 'u' :: (w ++ backslash :: ofChar 'u' :: v) ++ r =
        backslash :: ofChar 'u' :: ((w ++ backslash :: ofChar 'u' :: v) ++ r) := rfl
    rw [text]
    refine stringBytes_unicode ?_
    rw [List.append_assoc, List.cons_append, List.cons_append, escape_unicode first, if_neg (by omega),
      if_pos isHigh, both]

theorem stringBytes_spelledChars {cs : List Char} (spelled : SpelledChars cs w) :
    stringBytes before (w ++ quote :: r) = .ok (before.reverse ++ cs.flatMap String.utf8EncodeChar, r) := by
  induction spelled generalizing before with
  | nil => simpa using stringBytes_quote
  | cons char _ ih =>
    rw [List.append_assoc, stringBytes_spelled char, ih]
    simp

end

/-- A string is read, however it is written. -/
theorem string_spelled {x : String} (spelled : SpelledText x w) : string (w ++ quote :: r) = .ok (x, r) := by
  have bytes : stringBytes [] (w ++ quote :: r) = .ok (Utf8.encode x, r) := stringBytes_spelledChars spelled
  unfold string
  rw [bytes]
  simp only [Utf8.decode?_encode]

/-- A string that needs no escape. -/
def Simple (x : String) : Prop := ∀ c ∈ x.toList, c ≠ '"' ∧ c ≠ '\\' ∧ ¬c.toNat < 0x20

instance (x : String) : Decidable (Simple x) := List.decidableBAll _ x.toList

/-- A string that needs no escape is a spelling of itself. -/
theorem spelledText_encode {x : String} (simple : Simple x) : SpelledText x (Utf8.encode x) := by
  unfold Simple at simple
  unfold SpelledText Utf8.encode
  generalize x.toList = cs at simple
  induction cs with
  | nil => exact .nil
  | cons c cs ih =>
    obtain ⟨⟨not_quote, not_backslash, not_control⟩, rest⟩ := List.forall_mem_cons.mp simple
    exact .cons (.plain not_quote not_backslash not_control) (ih rest)

end TierTagger.Json
