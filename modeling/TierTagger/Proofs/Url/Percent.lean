import TierTagger.Http.Client
import TierTagger.Proofs.Json.Text

/-!
# Encoded texts are read back

An encoded segment stands for the text it was made of, whatever follows it, so different texts make
different segments.
-/

namespace TierTagger.Url

open Ascii

variable {set : EncodeSet} {c : Char} {r : Bytes}

namespace Percent

/-! ## Bytes -/

theorem hexValue?_digit : ∀ n < 16, hexValue? (ofChar (digit n)) = some n ∧
    String.utf8EncodeChar (digit n) = [ofChar (digit n)] := by
  decide

/-- A byte that was written is read. -/
theorem decode_byte (b : UInt8) : decode ((byte b).flatMap String.utf8EncodeChar ++ r) = b :: decode r := by
  have small : b.toNat < 256 := b.toNat_lt
  obtain ⟨high, high_byte⟩ := hexValue?_digit (b.toNat / 16) (by omega)
  obtain ⟨low, low_byte⟩ := hexValue?_digit (b.toNat % 16) (by omega)
  have sign : String.utf8EncodeChar '%' = [0x25] := by decide
  have value : UInt8.ofNat (b.toNat / 16 * 16 + b.toNat % 16) = b := by
    rw [show b.toNat / 16 * 16 + b.toNat % 16 = b.toNat by omega, UInt8.ofNat_toNat]
  simp only [byte, List.flatMap_cons, List.flatMap_nil, sign, high_byte, low_byte, List.cons_append,
    List.nil_append]
  rw [decode, high, low]
  simp only [value]

theorem decode_bytes (bs : Bytes) :
    decode ((bs.flatMap byte).flatMap String.utf8EncodeChar ++ r) = bs ++ decode r := by
  induction bs with
  | nil => rfl
  | cons b bs ih =>
    rw [List.flatMap_cons, List.flatMap_append, List.append_assoc, decode_byte, ih, List.cons_append]

theorem decode_cons {b : UInt8} (plain : b ≠ 0x25) : decode (b :: r) = b :: decode r := by
  rw [decode.eq_def]
  split
  · next same =>
    cases same
    exact absurd rfl plain
  · next same =>
    cases same
    rfl
  · next same => cases same

end Percent

/-! ## Characters -/

/-- The set has the percent sign and all that is not in ASCII, so that what is encoded can be told
from what is not. -/
structure EncodeSet.Faithful (set : EncodeSet) : Prop where
  sign : set '%'
  high : ∀ c : Char, 0x80 ≤ c.toNat → set c

theorem EncodeSet.faithful_segment (special : Bool) : (segment special).Faithful := by
  refine ⟨by cases special <;> decide, fun c high => ?_⟩
  have above : '~' < c := by
    rw [Char.lt_def, UInt32.lt_iff_toNat_lt]
    exact Nat.lt_of_lt_of_le (by decide) high
  simp [segment, path, fragment, controls, above]

namespace Percent

theorem decode_char (faithful : set.Faithful) :
    decode ((char set c).flatMap String.utf8EncodeChar ++ r) = String.utf8EncodeChar c ++ decode r := by
  unfold char
  by_cases encoded : set c
  · rw [if_pos encoded]
    exact decode_bytes _
  · rw [if_neg encoded]
    have ascii : c.toNat < 0x80 := Nat.lt_of_not_le fun high => encoded (faithful.high c high)
    have plain : ofChar c ≠ 0x25 := by
      intro same
      obtain rfl : c = '%' := Json.ofChar_eq ascii (by decide) same
      exact encoded faithful.sign
    rw [List.flatMap_cons, List.flatMap_nil, List.append_nil, Utf8.encodeChar_ascii ascii]
    exact decode_cons plain

/-- The bytes of a text are read back from its encoded form. -/
theorem decode_encode (faithful : set.Faithful) (s : List Char) :
    decode (Utf8.encode (encode set s)) = s.flatMap String.utf8EncodeChar := by
  rw [encode, Utf8.encode_ofList]
  induction s with
  | nil => rfl
  | cons c s ih => rw [List.flatMap_cons, List.flatMap_append, decode_char faithful, ih, List.flatMap_cons]

end Percent

/-- An encoded text is read back. -/
theorem decoded?_encode (faithful : set.Faithful) (s : String) :
    Http.Request.decoded? (Percent.encode set s.toList) = some s := by
  rw [Http.Request.decoded?, Percent.decode_encode faithful]
  exact Utf8.decode?_encode s

end TierTagger.Url
