import TierTagger.Proofs.Json.Escapes
import TierTagger.Proofs.Json.Extent
import TierTagger.Proofs.Text.Lossy

/-!
# Only spellings of a string are read

`string_eq_ok`: what is read as a string is a spelling of it up to the closing quote, and every spelling is read
so. A string is read byte by byte (`SpelledBytes`) and only then as characters: a byte that goes on a character
stands for itself, because an escape stands for a whole one.
-/

namespace TierTagger.Json

open Ascii

variable {n : Nat} {c : Char} {v w s r : Bytes}

/-! ## Escapes -/

theorem hexValue?_lt {b : UInt8} (value : hexValue? b = some n) : n < 16 := by
  unfold hexValue? at value
  simp only [Bool.and_eq_true, decide_eq_true_eq, UInt8.le_iff_toNat_le] at value
  have nine : (0x39 : UInt8).toNat = 57 := rfl
  have f : (0x66 : UInt8).toNat = 102 := rfl
  have upperF : (0x46 : UInt8).toNat = 70 := rfl
  repeat' split at value
  all_goals simp only [Option.some.injEq, reduceCtorEq] at value
  all_goals omega

theorem Hex4.lt (hex : Hex4 n w) : n < 0x10000 := by
  cases hex with
  | of first second third fourth =>
    have := hexValue?_lt first
    have := hexValue?_lt second
    have := hexValue?_lt third
    have := hexValue?_lt fourth
    omega

/-- Four digits were read. -/
theorem hex4_spelled (read : hex4 s = .ok (n, r)) : ∃ w, s = w ++ r ∧ Hex4 n w := by
  obtain ⟨a, b, c, d, rfl, -⟩ := hex4_sound read
  refine ⟨[a, b, c, d], rfl, .of_read ?_⟩
  unfold hex4 at read ⊢
  dsimp only at read ⊢
  split at read
  · simp_all
  · cases read

/-- The bytes of a code point that is no surrogate are those of a character. -/
theorem codePointBytes_eq (scalar : n < 0xd800 ∨ 0xdfff < n ∧ n < 0x110000) :
    ∃ c, codePointBytes n = String.utf8EncodeChar c ∧ c.toNat = n := by
  refine ⟨Char.ofNat n, rfl, ?_⟩
  rw [Char.ofNat, dif_pos (show n.isValidChar from scalar)]
  rfl

/-- A short escape stands for a character in ASCII. -/
theorem simpleEscape?_char {e b : UInt8} (simple : simpleEscape? e = some b) :
    ∃ c : Char, [b] = String.utf8EncodeChar c ∧ SpelledChar c [backslash, e] := by
  have ascii := simpleEscape?_ascii simple
  obtain ⟨c, -, value⟩ := codePointBytes_eq (n := b.toNat) (by omega)
  refine ⟨c, ?_, .simple simple value⟩
  rw [Utf8.encodeChar_ascii (by omega)]
  congr 1
  apply UInt8.toNat_inj.mp
  show b.toNat = c.toNat % 256
  omega

/-- The two halves of a surrogate pair were read. -/
theorem lowSurrogate_spelled {high : Nat} {bs : Bytes} (read : lowSurrogate high s = .ok (bs, r))
    (isHigh : 0xd800 ≤ high ∧ high ≤ 0xdbff) (first : Hex4 high w) : ∃ c v,
      s = backslash :: ofChar 'u' :: (v ++ r) ∧ bs = String.utf8EncodeChar c ∧
      SpelledChar c (backslash :: ofChar 'u' :: (w ++ backslash :: ofChar 'u' :: v)) := by
  unfold lowSurrogate at read
  split at read
  · cases read
  · split at read <;> cases read
  · next b u t =>
    split at read
    · cases read
    next mark =>
    split at read
    · cases read
    next letter =>
    split at read
    · cases read
    next low _ hex =>
    split at read
    · next isLow =>
      simp only [Except.ok.injEq, Prod.mk.injEq] at read
      obtain ⟨rfl, rfl⟩ := read
      obtain ⟨v, rfl, second⟩ := hex4_spelled hex
      obtain ⟨c, bytes, value⟩ :=
        codePointBytes_eq (n := 0x10000 + (high - 0xd800) * 0x400 + (low - 0xdc00)) (by omega)
      rw [Classical.not_not.mp mark, Classical.not_not.mp letter]
      exact ⟨c, v, rfl, bytes, .pair first second isHigh isLow value⟩
    · cases read

/-- An escape that was read stands for a character. -/
theorem escape_spelled {bs : Bytes} (read : escape s = .ok (bs, r)) :
    ∃ c e, s = e ++ r ∧ bs = String.utf8EncodeChar c ∧ SpelledChar c (backslash :: e) := by
  unfold escape at read
  split at read
  · cases read
  · next b t =>
    split at read
    · next simple =>
      cases read
      obtain ⟨c, byte, spelled⟩ := simpleEscape?_char simple
      exact ⟨c, [b], rfl, byte, spelled⟩
    · split at read
      · next letter =>
        subst letter
        unfold unicodeEscape at read
        split at read
        · cases read
        · next n u hex =>
          obtain ⟨w, rfl, digits⟩ := hex4_spelled hex
          split at read
          · cases read
          split at read
          · next isHigh =>
            obtain ⟨c, v, rfl, bytes, spelled⟩ := lowSurrogate_spelled read isHigh digits
            exact ⟨c, _, by simp, bytes, spelled⟩
          · next scalar notHigh =>
            cases read
            have small := digits.lt
            obtain ⟨c, bytes, value⟩ := codePointBytes_eq (n := n) (by omega)
            exact ⟨c, ofChar 'u' :: w, rfl, bytes, .unicode (value ▸ digits)⟩
      · cases read

/-! ## Bytes -/

/-- Bytes as they are read off a string: one that stands for itself, or those of a character that is escaped. -/
inductive SpelledBytes : Bytes → Bytes → Prop where
  | nil : SpelledBytes [] []
  | plain {b : UInt8} {bs w : Bytes} (plain : Plain b) (rest : SpelledBytes bs w) : SpelledBytes (b :: bs) (b :: w)
  | escape {c : Char} {e bs w : Bytes} (char : SpelledChar c (backslash :: e)) (rest : SpelledBytes bs w) :
    SpelledBytes (String.utf8EncodeChar c ++ bs) (backslash :: e ++ w)

/-- What is read byte by byte, up to the closing quote. -/
theorem stringBytes_sound {read bs : Bytes} (ok : stringBytes read s = .ok (bs, r)) :
    ∃ new w, bs = read.reverse ++ new ∧ s = w ++ quote :: r ∧ SpelledBytes new w := by
  fun_induction stringBytes read s with
  | case1 => cases ok
  | case2 =>
    cases ok
    exact ⟨[], [], by simp, rfl, .nil⟩
  | case3 => cases ok
  | case4 read t u v escaped _ ih =>
    obtain ⟨new, w, rfl, rfl, rest⟩ := ih ok
    obtain ⟨c, e, rfl, rfl, char⟩ := escape_spelled escaped
    exact ⟨String.utf8EncodeChar c ++ new, backslash :: e ++ w, by simp, by simp, .escape char rest⟩
  | case5 => cases ok
  | case6 read b t not_quote not_backslash not_control ih =>
    obtain ⟨new, w, rfl, rfl, rest⟩ := ih ok
    exact ⟨b :: new, b :: w, by simp, rfl, .plain ⟨not_quote, not_backslash, not_control⟩ rest⟩

/-! ## Characters -/

/-- Bytes that go on a character stand for themselves: an escaped character would start with another one. -/
theorem SpelledBytes.continued {bs : Bytes} (goes : ∀ b ∈ v, Utf8.Continues b)
    (spelled : SpelledBytes (v ++ bs) w) : ∃ w', w = v ++ w' ∧ SpelledBytes bs w' := by
  induction v generalizing w with
  | nil => exact ⟨w, rfl, spelled⟩
  | cons b v ih =>
    obtain ⟨first, others⟩ := List.forall_mem_cons.mp goes
    rw [List.cons_append] at spelled
    generalize bytes : b :: (v ++ bs) = all at spelled
    cases spelled with
    | nil => cases bytes
    | plain plain rest =>
      cases bytes
      obtain ⟨w', rfl, after⟩ := ih others rest
      exact ⟨w', rfl, after⟩
    | @escape c e bs' w' =>
      have leading := Utf8.leading_encodeChar c bs'
      rw [← bytes] at leading
      exact absurd first (leading b rfl)

theorem not_special {b : UInt8} {t : Bytes} (bytes : String.utf8EncodeChar c = b :: t) (plain : Plain b) :
    c ≠ '"' ∧ c ≠ '\\' ∧ ¬c.toNat < 0x20 := by
  obtain ⟨not_quote, not_backslash, not_control⟩ := plain
  refine ⟨?_, ?_, fun control => ?_⟩
  · rintro rfl
    cases bytes
    exact not_quote rfl
  · rintro rfl
    cases bytes
    exact not_backslash rfl
  · rw [Utf8.encodeChar_ascii (by omega)] at bytes
    cases bytes
    refine not_control (UInt8.lt_iff_toNat_lt.mpr ?_)
    show c.toNat % 256 < 0x20
    omega

/-- The first character is escaped, or all of its bytes stand for themselves. -/
theorem SpelledBytes.char {bs : Bytes} (spelled : SpelledBytes (String.utf8EncodeChar c ++ bs) w) :
    ∃ v w', w = v ++ w' ∧ SpelledChar c v ∧ SpelledBytes bs w' := by
  cases bytes : String.utf8EncodeChar c with
  | nil => exact absurd bytes String.utf8EncodeChar_ne_nil
  | cons b t =>
    generalize all : String.utf8EncodeChar c ++ bs = read at spelled
    cases spelled with
    | nil => simp [bytes] at all
    | plain plain rest =>
      simp only [bytes, List.cons_append, List.cons.injEq] at all
      obtain ⟨rfl, rfl⟩ := all
      obtain ⟨w', rfl, after⟩ := rest.continued (Utf8.continues_tail bytes)
      obtain ⟨not_quote, not_backslash, not_control⟩ := not_special bytes plain
      have char : SpelledChar c (b :: t) := bytes ▸ .plain not_quote not_backslash not_control
      exact ⟨b :: t, w', rfl, char, after⟩
    | @escape d e bs' w' char rest =>
      obtain ⟨rfl, rfl⟩ := Utf8.encodeChar_append_inj all
      exact ⟨backslash :: e, w', rfl, char, rest⟩

theorem SpelledBytes.chars {cs : List Char} (spelled : SpelledBytes (cs.flatMap String.utf8EncodeChar) w) :
    SpelledChars cs w := by
  induction cs generalizing w with
  | nil =>
    generalize none : List.flatMap String.utf8EncodeChar [] = bs at spelled
    cases spelled with
    | nil => exact .nil
    | plain => cases none
    | @escape c =>
      obtain ⟨none, -⟩ := List.append_eq_nil_iff.mp none.symm
      exact absurd none String.utf8EncodeChar_ne_nil
  | cons c cs ih =>
    rw [List.flatMap_cons] at spelled
    obtain ⟨v, w', rfl, char, rest⟩ := spelled.char
    exact .cons char (ih rest)

/-- A string is read off each of its spellings and off nothing else. -/
theorem string_eq_ok {x : String} :
    string s = .ok (x, r) ↔ ∃ w, s = w ++ quote :: r ∧ SpelledText x w := by
  constructor
  · intro read
    unfold string at read
    split at read
    · cases read
    · next bytes =>
      split at read
      · next text =>
        cases read
        obtain ⟨new, w, rfl, rfl, spelled⟩ := stringBytes_sound bytes
        have read : SpelledBytes (Utf8.encode x) w := Utf8.decode?_eq_some.mp text ▸ spelled
        exact ⟨w, rfl, read.chars⟩
      · cases read
  · rintro ⟨w, rfl, spelled⟩
    exact string_spelled spelled

/-- A string that ends at the given quote is read if it is spelled before it. -/
theorem string_chars {x : String} {t : Bytes} (chars : IsChars w) :
    string (w ++ quote :: r) = .ok (x, t) ↔ t = r ∧ SpelledText x w := by
  constructor
  · intro read
    have passed := skipString_of_string read
    rw [skipString_append chars] at passed
    cases passed
    obtain ⟨v, same, spelled⟩ := string_eq_ok.mp read
    exact ⟨rfl, List.append_cancel_right same ▸ spelled⟩
  · rintro ⟨rfl, spelled⟩
    exact string_spelled spelled

end TierTagger.Json
