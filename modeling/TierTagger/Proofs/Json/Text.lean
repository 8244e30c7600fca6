import TierTagger.Json.Decoder
import TierTagger.Json.Writer
import TierTagger.Proofs.Text.Utf8

/-!
# Written strings are read back

`string_written`: a string that was written is read back, whatever follows it.
-/

namespace TierTagger.Utf8

variable (s t : String) (l : List Char)

@[simp] theorem encode_empty : encode "" = [] := rfl

@[simp] theorem encode_append : encode (s ++ t) = encode s ++ encode t := by
  simp [encode, List.flatMap_append]

@[simp] theorem encode_ofList : encode (String.ofList l) = l.flatMap String.utf8EncodeChar := by
  simp [encode]

end TierTagger.Utf8

namespace TierTagger.Json

open Ascii

variable {read r : Bytes}

/-! ## Bytes of a string -/

/-- A byte that stands for itself in a string. -/
def Plain (b : UInt8) : Prop := b ≠ quote ∧ b ≠ backslash ∧ ¬b < 0x20

theorem stringBytes_quote : stringBytes read (quote :: r) = .ok (read.reverse, r) := by
  rw [stringBytes, if_pos rfl]

theorem stringBytes_plain {bs : Bytes} (plain : ∀ b ∈ bs, Plain b) :
    stringBytes read (bs ++ r) = stringBytes (bs.reverse ++ read) r := by
  induction bs generalizing read with
  | nil => rfl
  | cons b bs ih =>
    obtain ⟨⟨not_quote, not_backslash, not_control⟩, rest⟩ := List.forall_mem_cons.mp plain
    rw [List.cons_append, stringBytes, if_neg not_quote, if_neg not_backslash, if_neg not_control,
      ih rest]
    simp

theorem stringBytes_escape {bs e : Bytes} (escaped : escape (e ++ r) = .ok (bs, r)) :
    stringBytes read (backslash :: e ++ r) = stringBytes (bs.reverse ++ read) r := by
  rw [List.cons_append, stringBytes, if_neg (by decide), if_pos rfl]
  split
  · next refused =>
    rw [escaped] at refused
    cases refused
  · next read' =>
    rw [escaped] at read'
    cases read'
    rfl

/-! ## Characters -/

theorem hexValue?_digitChar : ∀ d < 16, hexValue? (ofChar (Nat.digitChar d)) = some d ∧
    String.utf8EncodeChar (Nat.digitChar d) = [ofChar (Nat.digitChar d)] := by
  decide

/-- A control is written by its code point. -/
theorem escape_control {n : Nat} (control : n < 0x20) :
    escape ((['u', '0', '0'] ++ Writer.hex2 n).flatMap String.utf8EncodeChar ++ r) =
      .ok (codePointBytes n, r) := by
  obtain ⟨value, byte⟩ := hexValue?_digitChar (n / 16) (by omega)
  obtain ⟨value', byte'⟩ := hexValue?_digitChar (n % 16) (by omega)
  have bytes : (['u', '0', '0'] ++ Writer.hex2 n).flatMap String.utf8EncodeChar ++ r =
      ofChar 'u' :: ofChar '0' :: ofChar '0' :: ofChar (Nat.digitChar (n / 16)) ::
        ofChar (Nat.digitChar (n % 16)) :: r := by
    simp only [Writer.hex2, List.cons_append, List.nil_append, List.flatMap_cons, List.flatMap_nil,
      byte, byte']
    rfl
  have digits : hex4 (ofChar '0' :: ofChar '0' :: ofChar (Nat.digitChar (n / 16)) ::
      ofChar (Nat.digitChar (n % 16)) :: r) = .ok (n, r) := by
    have zero : hexValue? (ofChar '0') = some 0 := by decide
    rw [hex4, zero, value, value']
    simp only [Except.ok.injEq, Prod.mk.injEq, and_true]
    omega
  have letter : simpleEscape? (ofChar 'u') = none := by decide
  rw [bytes, escape, letter]
  simp only [if_true, unicodeEscape, digits]
  rw [if_neg (by omega), if_neg (by omega)]

theorem ofChar_eq {c d : Char} (ascii : c.toNat < 0x80) (ascii' : d.toNat < 0x80)
    (same : ofChar c = ofChar d) : c = d := by
  have value : c.toNat % 256 = d.toNat % 256 := congrArg UInt8.toNat same
  exact Char.toNat_inj.mp (by omega)

/-- A character that has no escape stands for itself. -/
theorem plain_char {c : Char} (not_quote : c ≠ '"') (not_backslash : c ≠ '\\')
    (not_control : ¬c.toNat < 0x20) : ∀ b ∈ String.utf8EncodeChar c, Plain b := by
  intro b mem
  by_cases ascii : c.toNat < 0x80
  · rw [Utf8.encodeChar_ascii ascii, List.mem_singleton] at mem
    subst mem
    refine ⟨fun same => not_quote (ofChar_eq ascii (by decide) same),
      fun same => not_backslash (ofChar_eq ascii (by decide) same), ?_⟩
    have value : (ofChar c).toNat = c.toNat := by
      show c.toNat % 256 = c.toNat
      omega
    rw [UInt8.lt_iff_toNat_lt, value]
    exact not_control
  · have high := Utf8.encodeChar_high (Nat.not_lt.mp ascii) b mem
    rw [UInt8.le_iff_toNat_le] at high
    refine ⟨?_, ?_, fun low => ?_⟩
    · rintro rfl
      exact absurd high (by decide)
    · rintro rfl
      exact absurd high (by decide)
    · exact absurd (Nat.lt_of_le_of_lt high (UInt8.lt_iff_toNat_lt.mp low)) (by decide)

/-- A character that was written is read. -/
theorem stringBytes_char (c : Char) : stringBytes read ((Writer.char c).flatMap String.utf8EncodeChar ++ r) =
    stringBytes ((String.utf8EncodeChar c).reverse ++ read) r := by
  unfold Writer.char
  split
  -- Seven characters have escapes of their own.
  iterate 7 exact stringBytes_escape (e := [_]) rfl
  next _ not_quote not_backslash _ _ _ _ _ =>
    by_cases control : c.toNat < 0x20
    · have point : codePointBytes c.toNat = String.utf8EncodeChar c := by
        rw [codePointBytes, Char.ofNat_toNat]
      rw [if_pos control, ← point]
      exact stringBytes_escape (escape_control control)
    · rw [if_neg control, List.flatMap_cons, List.flatMap_nil, List.append_nil]
      exact stringBytes_plain (plain_char not_quote not_backslash control)

/-! ## Strings -/

theorem stringBytes_chars (cs : List Char) :
    stringBytes read ((cs.flatMap Writer.char).flatMap String.utf8EncodeChar ++ quote :: r) =
      .ok (read.reverse ++ cs.flatMap String.utf8EncodeChar, r) := by
  induction cs generalizing read with
  | nil => simpa using stringBytes_quote
  | cons c cs ih =>
    rw [List.flatMap_cons, List.flatMap_append, List.append_assoc, stringBytes_char, ih]
    simp

theorem encode_text (s : String) : Utf8.encode (Writer.text s) =
    quote :: (s.toList.flatMap Writer.char).flatMap String.utf8EncodeChar ++ [quote] := by
  have byte : String.utf8EncodeChar '"' = [quote] := by decide
  rw [Writer.text, Utf8.encode_ofList, List.flatMap_append, List.flatMap_cons, byte]
  simp [byte]

/-- A string that was written is read back. -/
theorem string_written (s : String) :
    ∃ written, Utf8.encode (Writer.text s) = quote :: written ∧
      ∀ r, string (written ++ r) = .ok (s, r) := by
  refine ⟨(s.toList.flatMap Writer.char).flatMap String.utf8EncodeChar ++ [quote], encode_text s,
    fun r => ?_⟩
  have bytes : stringBytes [] ((s.toList.flatMap Writer.char).flatMap String.utf8EncodeChar ++ quote :: r) =
      .ok (Utf8.encode s, r) := stringBytes_chars s.toList
  unfold string
  rw [List.append_assoc, List.singleton_append, bytes]
  simp only [Utf8.decode?_encode]

end TierTagger.Json
