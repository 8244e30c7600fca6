import TierTagger.Proofs.Json.Lexemes

/-!
# Only naturals are read as naturals

`number_eq_natural`: a number is read as a natural if it is the digits of one below `2 ^ 64`, with no sign, no
fraction and no exponent, not even where these would leave a natural; and all digits of such a natural count.
-/

namespace TierTagger.Json

open Ascii

variable {negative : Bool} {n m dropped : Nat} {e : Int} {s r w : Bytes} {x : Number}

/-- The digits of a natural, no zero in front of others. -/
structure IsNatural (n : Nat) (w : Bytes) : Prop where
  integer : IsInteger w
  value : (w.map digitValue).foldl (fun n d => n * 10 + d) 0 = n

/-! ## Doubles -/

theorem finishFloat_ne_natural : finishFloat negative n e s ≠ .ok (.natural m, r) := by
  unfold finishFloat
  split <;> simp [Fault.at]

theorem exponentPart_ne_natural : exponentPart negative n e s ≠ .ok (.natural m, r) := by
  intro read
  unfold exponentPart at read
  dsimp only at read
  repeat' split at read
  all_goals first
    | exact finishFloat_ne_natural read
    | simp [Fault.at] at read

theorem exponentOrEnd_ne_natural : exponentOrEnd negative n e s ≠ .ok (.natural m, r) := by
  intro read
  unfold exponentOrEnd at read
  repeat' split at read
  all_goals first
    | exact exponentPart_ne_natural read
    | exact finishFloat_ne_natural read

theorem fractionPart_ne_natural : fractionPart negative n e s ≠ .ok (.natural m, r) := by
  intro read
  unfold fractionPart at read
  dsimp only at read
  split at read
  · simp [Fault.peek] at read
  · exact exponentOrEnd_ne_natural read

/-- What follows the integer digits makes a natural if it is nothing. -/
theorem afterInteger_eq_natural : afterInteger negative n dropped s = .ok (.natural m, r) ↔ negative = false ∧
    dropped = 0 ∧ n = m ∧ s = r ∧ ∀ b ∈ s.head?, b ≠ point ∧ isExponentMark b = false := by
  have ended : afterInteger.ended negative n dropped s = .ok (.natural m, r) ↔
      negative = false ∧ dropped = 0 ∧ n = m ∧ s = r := by
    unfold afterInteger.ended
    split
    · next some => simp [finishFloat_ne_natural, some]
    · next none =>
      cases negative with
      | false => simp [Classical.not_not.mp none]
      | true =>
        simp only [Bool.not_true, Bool.false_eq_true, if_false]
        split <;> simp
  unfold afterInteger
  split
  · next b t =>
    split
    · next same => simp [fractionPart_ne_natural, same]
    split
    · next mark => simp [exponentPart_ne_natural, mark]
    · next not_point not_mark =>
      rw [ended]
      simp [not_point, not_mark]
  · rw [ended]
    simp

/-! ## Digits -/

theorem le_foldl_digits (ds : List Nat) : n ≤ ds.foldl (fun n d => n * 10 + d) n := by
  induction ds generalizing n with
  | nil => exact Nat.le_refl n
  | cons d ds ih => exact Nat.le_trans (by omega) (ih (n := n * 10 + d))

/-- Digits are appended as long as the number fits. -/
theorem appendDigits_eq {limit : Nat} {ds : List Nat} (fits : ds.foldl (fun n d => n * 10 + d) n < limit) :
    appendDigits limit n ds = (ds.foldl (fun n d => n * 10 + d) n, []) := by
  induction ds generalizing n with
  | nil => rfl
  | cons d ds ih =>
    have below : n * 10 + d < limit := Nat.lt_of_le_of_lt (le_foldl_digits ds) fits
    rw [appendDigits, if_pos below]
    exact ih fits

/-- All digits were appended, so they fit. -/
theorem appendDigits_eq_nil {limit : Nat} {ds : List Nat} (small : n < limit) :
    appendDigits limit n ds = (m, []) ↔
      ds.foldl (fun n d => n * 10 + d) n = m ∧ ds.foldl (fun n d => n * 10 + d) n < limit := by
  constructor
  · intro read
    induction ds generalizing n with
    | nil =>
      cases read
      exact ⟨rfl, small⟩
    | cons d ds ih =>
      rw [appendDigits] at read
      split at read
      · next below => exact ih below read
      · cases read
  · rintro ⟨rfl, fits⟩
    exact appendDigits_eq fits

theorem digitValue_lt {b : UInt8} (digit : isDigit b = true) : digitValue b < 10 := by
  simp only [isDigit, Bool.and_eq_true, decide_eq_true_eq, UInt8.le_iff_toNat_le] at digit
  have nine : (0x39 : UInt8).toNat = 57 := rfl
  rw [digitValue]
  omega

theorem digits_append {ds : Bytes} (all : Digits ds) (ends : ∀ b ∈ r.head?, isDigit b = false) :
    digits (ds ++ r) = (ds.map digitValue, r) := by
  have rest : List.dropWhile isDigit (ds ++ r) = r := skipDigits_append all ends
  have front : List.takeWhile isDigit (ds ++ r) ++ r = ds ++ r := by
    rw [← congrArg (List.takeWhile isDigit (ds ++ r) ++ ·) rest]
    exact List.takeWhile_append_dropWhile
  rw [digits, rest, List.append_cancel_right front]

theorem digits_split (s : Bytes) : ∃ ds r, s = ds ++ r ∧ Digits ds ∧ (∀ b ∈ r.head?, isDigit b = false) ∧
    digits s = (ds.map digitValue, r) := by
  obtain ⟨ds, split, all⟩ := skipDigits_split s
  have ends : ∀ b ∈ (skipDigits s).head?, isDigit b = false := by
    intro b head
    have not_digit := List.head?_dropWhile_not isDigit s
    rw [← skipDigits, head] at not_digit
    simpa using not_digit
  have read := digits_append all ends
  rw [← split] at read
  exact ⟨ds, skipDigits s, split, all, ends, read⟩

/-! ## Naturals -/

/-- A number is read as a natural if it is nothing but the digits of one that fits 64 bits. -/
theorem number_eq_natural : number negative s = .ok (.natural n, r) ↔
    negative = false ∧ ∃ w, s = w ++ r ∧ IsNatural n w ∧ n < Nat.pow 2 64 ∧ Unnumeric r := by
  constructor
  · intro read
    unfold number at read
    split at read
    · cases read
    next b t =>
    split at read
    · next same =>
      subst same
      have after : afterInteger negative 0 0 t = .ok (.natural n, r) ∧ ∀ b ∈ t.head?, isDigit b = false := by
        split at read
        · split at read
          · cases read
          · next not_digit => exact ⟨read, by simpa using not_digit⟩
        · exact ⟨read, by simp⟩
      obtain ⟨read, ends⟩ := after
      obtain ⟨positive, -, rfl, rfl, apart⟩ := afterInteger_eq_natural.mp read
      exact ⟨positive, [zero], rfl, ⟨.zero, rfl⟩, by decide, fun b head =>
        ⟨ends b head, (apart b head).1, (apart b head).2⟩⟩
    · next nonzero =>
      split at read
      · next digit =>
        obtain ⟨ds, u, rfl, all, ends, split⟩ := digits_split t
        rw [split] at read
        dsimp only at read
        obtain ⟨positive, none, value, rfl, apart⟩ := afterInteger_eq_natural.mp read
        have small : digitValue b < Nat.pow 2 64 := Nat.lt_of_lt_of_le (digitValue_lt digit) (by decide)
        have appended := (appendDigits_eq_nil (m := n) small).mp
          (Prod.ext value (List.eq_nil_of_length_eq_zero none))
        have value : ((b :: ds).map digitValue).foldl (fun n d => n * 10 + d) 0 = n := by simpa using appended.1
        exact ⟨positive, b :: ds, rfl, ⟨.digits digit nonzero all, value⟩, appended.1 ▸ appended.2,
          fun b head => ⟨ends b head, (apart b head).1, (apart b head).2⟩⟩
      · cases read
  · rintro ⟨rfl, w, rfl, ⟨integer, rfl⟩, small, ends⟩
    have apart : ∀ b ∈ r.head?, b ≠ point ∧ isExponentMark b = false := fun b head => (ends b head).2
    cases integer with
    | zero =>
      have after : afterInteger false 0 0 r = .ok (.natural 0, r) :=
        afterInteger_eq_natural.mpr ⟨rfl, rfl, rfl, rfl, apart⟩
      cases r with
      | nil => exact after
      | cons d r =>
        simp only [number, List.singleton_append, if_true, (ends d rfl).1, Bool.false_eq_true, if_false]
        exact after
    | @digits b ds lead nonzero all =>
      simp only [List.map_cons, List.foldl_cons, Nat.zero_mul, Nat.zero_add] at small ⊢
      have appended := appendDigits_eq small
      simp only [List.cons_append, number, if_neg nonzero, if_pos lead,
        digits_append all fun b head => (ends b head).1, appended]
      exact afterInteger_eq_natural.mpr ⟨rfl, rfl, rfl, rfl, apart⟩

/-- Digits say one number. -/
theorem IsNatural.unique (natural : IsNatural n w) (natural' : IsNatural m w) : n = m :=
  natural.value.symm.trans natural'.value

theorem IsNatural.isValue (natural : IsNatural n w) : IsValue .number w := by
  have magnitude := IsMagnitude.of natural.integer .absent .absent
  rw [List.append_nil, List.append_nil] at magnitude
  exact .number (.positive magnitude)

end TierTagger.Json
