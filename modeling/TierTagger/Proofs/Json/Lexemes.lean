import TierTagger.Proofs.Json.Grammar

/-!
# Lexemes are passed over

The lexemes of the grammar, as they are skipped: each is passed over up to what follows it (`…_append`), and
whatever is passed over is one (`…_sound`). A number is passed over as a whole only if what follows does not go
on it (`Unnumeric`).
-/

namespace TierTagger.Json

open Ascii

variable {s t r w : Bytes}

/-! ## Numbers -/

/-- What does not go on a number. -/
def Unnumeric (r : Bytes) : Prop :=
  ∀ b ∈ r.head?, isDigit b = false ∧ b ≠ point ∧ isExponentMark b = false

theorem skipDigits_append (digits : Digits s) (ends : ∀ b ∈ r.head?, isDigit b = false) :
    skipDigits (s ++ r) = r := by
  rw [skipDigits, List.dropWhile_append_of_pos digits]
  cases r with
  | nil => rfl
  | cons b r => rw [List.dropWhile_cons_of_neg (by simp [ends b rfl])]

theorem skipDigits_split (s : Bytes) : ∃ ds, s = ds ++ skipDigits s ∧ Digits ds :=
  ⟨s.takeWhile isDigit, List.takeWhile_append_dropWhile.symm, List.all_eq_true.mp List.all_takeWhile⟩

theorem Digits.cons_of_ne_nil (digits : Digits s) (some : s ≠ []) :
    ∃ b ds, s = b :: ds ∧ isDigit b = true ∧ Digits ds := by
  cases s with
  | nil => exact absurd rfl some
  | cons b ds => exact ⟨b, ds, rfl, digits b (.head _), fun c mem => digits c (.tail _ mem)⟩

theorem Digits.cons {b : UInt8} (digit : isDigit b = true) (digits : Digits s) : Digits (b :: s) :=
  List.forall_mem_cons.mpr ⟨digit, digits⟩

theorem isDigit_of_mark {b : UInt8} (mark : isExponentMark b = true) : isDigit b = false := by
  rcases Bool.or_eq_true _ _ ▸ mark with mark | mark
  · exact of_decide_eq_true mark ▸ rfl
  · exact of_decide_eq_true mark ▸ rfl

theorem exponentSign_append {sign : Bytes} (signed : sign = [] ∨ sign = [plus] ∨ sign = [minus])
    {b : UInt8} (digit : isDigit b = true) : (exponentSign (sign ++ b :: r)).2 = b :: r := by
  have apart := fun c => ne_of_isDigit (c := c) digit
  rcases signed with rfl | rfl | rfl
  · simp [exponentSign, apart plus rfl, apart minus rfl]
  · simp [exponentSign]
  · simp [exponentSign, show minus ≠ plus by decide]

theorem exponentSign_split (s : Bytes) :
    ∃ sign, (sign = [] ∨ sign = [plus] ∨ sign = [minus]) ∧ s = sign ++ (exponentSign s).2 := by
  unfold exponentSign
  split
  · split
    · next plus => exact ⟨[_], .inr (.inl (plus ▸ rfl)), rfl⟩
    · split
      · next minus => exact ⟨[_], .inr (.inr (minus ▸ rfl)), rfl⟩
      · exact ⟨[], .inl rfl, rfl⟩
  · exact ⟨[], .inl rfl, rfl⟩

theorem skipExponent_append {sign ds : Bytes} (signed : sign = [] ∨ sign = [plus] ∨ sign = [minus])
    (some : ds ≠ []) (digits : Digits ds) (ends : Unnumeric r) : skipExponent (sign ++ ds ++ r) = .ok r := by
  obtain ⟨b, ds, rfl, digit, digits⟩ := digits.cons_of_ne_nil some
  rw [List.append_assoc, List.cons_append, skipExponent, exponentSign_append signed digit]
  simp only [if_pos digit, skipDigits_append digits fun b head => (ends b head).1]

theorem skipFraction_append {ds e : Bytes} (some : ds ≠ []) (digits : Digits ds) (exponent : IsExponent e)
    (ends : Unnumeric r) : skipFraction (ds ++ (e ++ r)) = .ok r := by
  have rest : skipDigits (ds ++ (e ++ r)) = e ++ r := by
    refine skipDigits_append digits fun b head => ?_
    cases exponent with
    | absent => exact (ends b head).1
    | power mark _ _ _ =>
      cases head
      exact isDigit_of_mark mark
  obtain ⟨b, ds, rfl, digit, -⟩ := digits.cons_of_ne_nil some
  unfold skipFraction
  rw [rest]
  simp only [List.cons_append, digit, Bool.not_true, Bool.false_eq_true, if_false]
  cases exponent with
  | absent =>
    cases r with
    | nil => rfl
    | cons b r => simp [ends b rfl]
  | power mark signed some digits =>
    simp only [List.cons_append, if_pos mark]
    exact skipExponent_append signed some digits ends

theorem skipAfterInteger_append {f e : Bytes} (fraction : IsFraction f) (exponent : IsExponent e)
    (ends : Unnumeric r) : skipAfterInteger (f ++ (e ++ r)) = .ok r := by
  cases fraction with
  | places some digits => exact skipFraction_append some digits exponent ends
  | absent =>
    cases exponent with
    | absent =>
      cases r with
      | nil => rfl
      | cons b r => simp [skipAfterInteger, ends b rfl]
    | @power m _ _ mark signed some digits =>
      have not_point : m ≠ point := by
        rintro rfl
        exact absurd mark (by decide)
      simp only [List.nil_append, List.cons_append, skipAfterInteger, if_neg not_point, if_pos mark]
      exact skipExponent_append signed some digits ends

/-- What follows the integer digits does not start with a digit. -/
theorem head_fraction {f e : Bytes} (fraction : IsFraction f) (exponent : IsExponent e)
    (ends : Unnumeric r) : ∀ b ∈ (f ++ (e ++ r)).head?, isDigit b = false := by
  intro b head
  cases fraction with
  | places => cases head; rfl
  | absent =>
    cases exponent with
    | absent => exact (ends b head).1
    | power mark _ _ _ =>
      cases head
      exact isDigit_of_mark mark

/-- A number is passed over up to what does not go on it. -/
theorem skipNumber_append (magnitude : IsMagnitude w) (ends : Unnumeric r) :
    skipNumber (w ++ r) = .ok r := by
  obtain @⟨i, f, e, integer, fraction, exponent⟩ := magnitude
  have after := skipAfterInteger_append fraction exponent ends
  have apart := head_fraction fraction exponent ends
  rw [List.append_assoc, List.append_assoc]
  cases integer with
  | zero =>
    unfold skipNumber
    simp only [List.singleton_append, if_true]
    cases rest : f ++ (e ++ r) with
    | nil =>
      rw [rest] at after
      exact after
    | cons b t =>
      rw [rest] at after apart
      simp only [apart b rfl, Bool.false_eq_true, if_false, after]
  | digits lead nonzero digits =>
    unfold skipNumber
    simp only [List.cons_append, if_neg nonzero, if_pos lead, skipDigits_append digits apart, after]

/-! Whatever is passed over is such a part. -/

theorem skipExponent_sound (skipped : skipExponent s = .ok r) : ∃ sign ds,
    s = sign ++ ds ++ r ∧ (sign = [] ∨ sign = [plus] ∨ sign = [minus]) ∧ ds ≠ [] ∧ Digits ds := by
  obtain ⟨sign, signed, split⟩ := exponentSign_split s
  unfold skipExponent at skipped
  split at skipped
  · cases skipped
  · next b t rest =>
    split at skipped
    · next digit =>
      cases skipped
      obtain ⟨ds, split', digits⟩ := skipDigits_split t
      refine ⟨sign, b :: ds, ?_, signed, by simp, digits.cons digit⟩
      rw [split, rest, List.append_assoc, List.cons_append, ← split']
    · cases skipped

theorem exponent_sound {e : UInt8} (mark : isExponentMark e = true) (skipped : skipExponent s = .ok r) :
    ∃ w, e :: s = w ++ r ∧ IsExponent w := by
  obtain ⟨sign, ds, rfl, signed, some, digits⟩ := skipExponent_sound skipped
  exact ⟨e :: (sign ++ ds), by simp, .power mark signed some digits⟩

theorem skipFraction_sound (skipped : skipFraction s = .ok r) : ∃ ds e,
    s = ds ++ (e ++ r) ∧ ds ≠ [] ∧ Digits ds ∧ IsExponent e := by
  obtain ⟨ds, split, digits⟩ := skipDigits_split s
  have some {b : UInt8} {t : Bytes} (cons : s = b :: t) (digit : isDigit b = true) : ds ≠ [] := by
    rintro rfl
    have all : skipDigits s = s := split.symm
    have head := List.head?_dropWhile_not isDigit s
    rw [← skipDigits, all, cons] at head
    simp [digit] at head
  unfold skipFraction at skipped
  split at skipped
  · cases skipped
  · next b t =>
    split at skipped
    · cases skipped
    · next digit =>
      have some := some rfl (by simpa using digit)
      dsimp only at skipped
      split at skipped
      · next e u rest =>
        rw [rest] at split
        split at skipped
        · next mark =>
          obtain ⟨w, split', exponent⟩ := exponent_sound mark skipped
          exact ⟨ds, w, split' ▸ split, some, digits, exponent⟩
        · cases skipped
          exact ⟨ds, [], rest.symm ▸ split, some, digits, .absent⟩
      · next rest =>
        rw [rest] at split
        cases skipped
        exact ⟨ds, [], split, some, digits, .absent⟩

theorem skipAfterInteger_sound (skipped : skipAfterInteger s = .ok r) :
    ∃ f e, s = f ++ (e ++ r) ∧ IsFraction f ∧ IsExponent e := by
  unfold skipAfterInteger at skipped
  split at skipped
  · cases skipped
    exact ⟨[], [], rfl, .absent, .absent⟩
  · next b t =>
    split at skipped
    · next dot =>
      obtain ⟨ds, e, rfl, some, digits, exponent⟩ := skipFraction_sound skipped
      exact ⟨b :: ds, e, rfl, dot ▸ .places some digits, exponent⟩
    · split at skipped
      · next mark =>
        obtain ⟨w, split', exponent⟩ := exponent_sound mark skipped
        exact ⟨[], w, split', .absent, exponent⟩
      · cases skipped
        exact ⟨[], [], rfl, .absent, .absent⟩

theorem skipNumber_sound (skipped : skipNumber s = .ok r) : ∃ w, s = w ++ r ∧ IsMagnitude w := by
  have whole {i t : Bytes} (integer : IsInteger i) (skipped : skipAfterInteger t = .ok r) :
      ∃ w, i ++ t = w ++ r ∧ IsMagnitude w := by
    obtain ⟨f, e, rfl, fraction, exponent⟩ := skipAfterInteger_sound skipped
    exact ⟨i ++ (f ++ e), by simp, .of integer fraction exponent⟩
  unfold skipNumber at skipped
  split at skipped
  · cases skipped
  · next b t =>
    split at skipped
    · next zero =>
      subst zero
      split at skipped
      · split at skipped
        · cases skipped
        · exact whole .zero skipped
      · exact whole .zero skipped
    · next nonzero =>
      split at skipped
      · next digit =>
        obtain ⟨ds, split', digits⟩ := skipDigits_split t
        have all := whole (.digits digit nonzero digits) skipped
        rwa [List.cons_append, ← split'] at all
      · cases skipped

/-! ## Strings -/

theorem hex4_append {a b c d : UInt8} (hex : ∀ x ∈ [a, b, c, d], (hexValue? x).isSome) :
    ∃ n, ∀ r, hex4 (a :: b :: c :: d :: r) = .ok (n, r) := by
  simp only [List.forall_mem_cons, Option.isSome_iff_exists] at hex
  obtain ⟨⟨_, a⟩, ⟨_, b⟩, ⟨_, c⟩, ⟨_, d⟩, -⟩ := hex
  exact ⟨_, fun r => by rw [hex4, a, b, c, d]⟩

theorem hex4_sound {n : Nat} (read : hex4 s = .ok (n, r)) :
    ∃ a b c d, s = a :: b :: c :: d :: r ∧ ∀ x ∈ [a, b, c, d], (hexValue? x).isSome := by
  unfold hex4 at read
  split at read
  · split at read
    · next a b c d =>
      cases read
      exact ⟨_, _, _, _, rfl, by simp [a, b, c, d]⟩
    · cases read
  · cases read

theorem skipEscape_append {e : Bytes} (escape : IsEscape e) : skipEscape (e ++ r) = .ok r := by
  cases escape with
  | simple simple => simp [skipEscape, simple]
  | unicode hex =>
    obtain ⟨n, read⟩ := hex4_append hex
    simp [skipEscape, show simpleEscape? (ofChar 'u') = none by decide, read, Except.map]

theorem skipEscape_sound (skipped : skipEscape s = .ok r) : ∃ e, s = e ++ r ∧ IsEscape e := by
  unfold skipEscape at skipped
  split at skipped
  · cases skipped
  · next b t =>
    split at skipped
    · next simple =>
      cases skipped
      exact ⟨[b], rfl, .simple simple⟩
    · split at skipped
      · next letter =>
        subst letter
        cases read : hex4 t with
        | error f => simp [read, Except.map] at skipped
        | ok x =>
          obtain ⟨n, u⟩ := x
          simp only [read, Except.map, Except.ok.injEq] at skipped
          subst skipped
          obtain ⟨a, b, c, d, rfl, hex⟩ := hex4_sound read
          exact ⟨[ofChar 'u', a, b, c, d], rfl, .unicode hex⟩
      · cases skipped

/-- An escape within a string is passed over. -/
theorem skipString_escape (escape : skipEscape s = .ok t) : skipString (backslash :: s) = skipString t := by
  rw [skipString, if_neg (by decide), if_pos rfl]
  split
  · simp_all
  · simp_all

/-- A string is passed over up to the quote that closes it. -/
theorem skipString_append (chars : IsChars w) : skipString (w ++ quote :: r) = .ok r := by
  induction chars with
  | nil => rw [List.nil_append, skipString, if_pos rfl]
  | plain plain rest ih =>
    rw [List.cons_append, skipString, if_neg plain.1, if_neg plain.2.1, if_neg plain.2.2, ih]
  | escape escape rest ih =>
    rw [List.cons_append, List.append_assoc, skipString_escape (skipEscape_append escape), ih]

theorem skipString_sound (skipped : skipString s = .ok r) : ∃ w, s = w ++ quote :: r ∧ IsChars w := by
  fun_induction skipString s with
  | case1 => cases skipped
  | case2 t =>
    cases skipped
    exact ⟨[], rfl, .nil⟩
  | case3 => cases skipped
  | case4 t u escaped _ ih =>
    obtain ⟨w, rfl, chars⟩ := ih skipped
    obtain ⟨e, rfl, escape⟩ := skipEscape_sound escaped
    exact ⟨backslash :: (e ++ w), by simp, .escape escape chars⟩
  | case5 => cases skipped
  | case6 b t not_quote not_backslash not_control ih =>
    obtain ⟨w, rfl, chars⟩ := ih skipped
    exact ⟨b :: w, rfl, .plain ⟨not_quote, not_backslash, not_control⟩ chars⟩

/-! ## Scalars -/

theorem letters_append (es : List UInt8) : letters es (es ++ r) = .ok r := by
  induction es with
  | nil => rfl
  | cons e es ih => rw [List.cons_append, letters, if_pos rfl, ih]

theorem letters_sound {es : List UInt8} (read : letters es s = .ok r) : s = es ++ r := by
  induction es generalizing s with
  | nil =>
    cases read
    rfl
  | cons e es ih =>
    cases s with
    | nil => cases read
    | cons b s =>
      rw [letters] at read
      split at read
      · next same => rw [same, ih read, List.cons_append]
      · cases read

theorem skipScalar_sound {b : UInt8} (skipped : skipScalar b s = .ok r) :
    ∃ k w, b :: s = w ++ r ∧ IsValue k w := by
  unfold skipScalar at skipped
  split at skipped
  · next first => exact ⟨_, _, first ▸ letters_sound skipped ▸ rfl, .null⟩
  split at skipped
  · next first => exact ⟨_, _, first ▸ letters_sound skipped ▸ rfl, .boolTrue⟩
  split at skipped
  · next first => exact ⟨_, _, first ▸ letters_sound skipped ▸ rfl, .boolFalse⟩
  split at skipped
  · next first =>
    obtain ⟨w, rfl, magnitude⟩ := skipNumber_sound skipped
    exact ⟨.number, minus :: w, first ▸ rfl, .number (.negative magnitude)⟩
  split at skipped
  · obtain ⟨w, split, magnitude⟩ := skipNumber_sound skipped
    exact ⟨.number, w, split, .number (.positive magnitude)⟩
  split at skipped
  · next first =>
    obtain ⟨w, rfl, chars⟩ := skipString_sound skipped
    exact ⟨.text, quote :: (w ++ [quote]), by simp [first], .text chars⟩
  · cases skipped

end TierTagger.Json
