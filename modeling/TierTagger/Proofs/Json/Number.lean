import Mathlib.Data.List.Basic
import TierTagger.Proofs.Json.Meaning
import TierTagger.Proofs.Json.Spelling
import TierTagger.Proofs.Text.Numeral

/-!
# Written numbers are read back

A natural is written in decimal (`isNatural_written`). `spells_natural`: it is read back if it fits.
-/

namespace TierTagger.Json

open Ascii
open Text (Numeral.value Numeral.digit? Numeral.value_toDigits Numeral.head?_toDigits)

variable {n : Nat}

/-! ## Digits -/

theorem ofChar_toNat {c : Char} (digit : c.isDigit) : (ofChar c).toNat = c.toNat ∧
    48 ≤ c.toNat ∧ c.toNat ≤ 57 := by
  have bounds : 48 ≤ c.toNat ∧ c.toNat ≤ 57 := by
    simpa [Char.isDigit, UInt32.le_iff_toNat_le] using digit
  refine ⟨?_, bounds⟩
  show c.val.toUInt8.toNat = c.val.toNat
  have small : c.val.toNat ≤ 57 := bounds.2
  rw [UInt32.toNat_toUInt8]
  omega

theorem isDigit_ofChar {c : Char} (digit : c.isDigit) : isDigit (ofChar c) = true := by
  obtain ⟨same, low, high⟩ := ofChar_toNat digit
  simp only [isDigit, Bool.and_eq_true, decide_eq_true_eq, UInt8.le_iff_toNat_le, same]
  exact ⟨low, high⟩

theorem digitValue_ofChar {c : Char} (digit : c.isDigit) :
    digitValue (ofChar c) = (Numeral.digit? c).getD 0 := by
  obtain ⟨same, -, -⟩ := ofChar_toNat digit
  rw [digitValue, same, Numeral.digit?, if_pos digit]
  rfl

theorem encode_natural (n : Nat) : Utf8.encode (Writer.natural n) = (Nat.toDigits 10 n).map ofChar := by
  have bytes (l : List Char) (digits : ∀ c ∈ l, c.isDigit) :
      l.flatMap String.utf8EncodeChar = l.map ofChar := by
    induction l with
    | nil => rfl
    | cons c l ih =>
      obtain ⟨digit, others⟩ := List.forall_mem_cons.mp digits
      obtain ⟨-, -, high⟩ := ofChar_toNat digit
      rw [List.flatMap_cons, List.map_cons, ih others, Utf8.encodeChar_ascii (by omega)]
      rfl
  show Utf8.encode (String.ofList (Nat.toDigits 10 n)) = _
  rw [Utf8.encode_ofList]
  exact bytes _ fun c mem => Nat.isDigit_of_mem_toDigits (by decide) (by decide) mem

/-! ## Naturals -/

theorem foldl_toDigits {c : Char} {cs : List Char} (chars : Nat.toDigits 10 n = c :: cs) :
    (cs.map (digitValue ∘ ofChar)).foldl (fun n d => n * 10 + d) (digitValue (ofChar c)) = n := by
  have digits : ∀ d ∈ c :: cs, d.isDigit := fun d mem =>
    Nat.isDigit_of_mem_toDigits (by decide) (by decide) (chars ▸ mem)
  calc (cs.map (digitValue ∘ ofChar)).foldl (fun n d => n * 10 + d) (digitValue (ofChar c))
      = (c :: cs).foldl (fun n d => n * 10 + digitValue (ofChar d)) 0 := by
        simp [List.foldl_map]
    _ = (c :: cs).foldl (fun n d => n * 10 + (Numeral.digit? d).getD 0) 0 :=
        List.foldl_ext _ _ _ fun n d mem => by rw [digitValue_ofChar (digits d mem)]
    _ = n := by
        rw [← chars]
        exact Numeral.value_toDigits n

/-- A natural is written with its digits. -/
theorem isNatural_written (n : Nat) : IsNatural n (Utf8.encode (Writer.natural n)) := by
  rw [encode_natural]
  by_cases none : n = 0
  · subst none
    exact ⟨.zero, rfl⟩
  · cases chars : Nat.toDigits 10 n with
    | nil => exact absurd chars Nat.toDigits_ne_nil
    | cons c cs =>
      have digits : ∀ d ∈ c :: cs, d.isDigit := fun d mem =>
        Nat.isDigit_of_mem_toDigits (by decide) (by decide) (chars ▸ mem)
      obtain ⟨digit, others⟩ := List.forall_mem_cons.mp digits
      have not_zero : ofChar c ≠ zero := by
        intro same
        have first := Numeral.head?_toDigits (Nat.pos_of_ne_zero none)
        rw [chars] at first
        refine first (congrArg some (Char.toNat_inj.mp ?_))
        rw [← (ofChar_toNat digit).1, same]
        rfl
      refine ⟨.digits (isDigit_ofChar digit) not_zero ?_, ?_⟩
      · exact List.forall_mem_map.mpr fun d mem => isDigit_ofChar (others d mem)
      · simpa using foldl_toDigits chars

theorem Closed.unnumeric {r : Bytes} (closed : Closed r) : Unnumeric r := by
  cases r with
  | nil => exact fun _ mem => nomatch mem
  | cons b r =>
    rintro _ ⟨⟩
    rcases closed with rfl | rfl | rfl <;> decide

/-- A natural that fits is read back. -/
theorem spells_natural {limit : Nat} {expected : String} (small : n < Nat.pow 2 64) (fits : n < limit) :
    Spells (.natural limit expected) (Writer.natural n) n := fun _ closed =>
  natural_eq_ok.mpr ⟨[], _, rfl, blanks_nil, isNatural_written n, small, fits, closed.unnumeric⟩

end TierTagger.Json
