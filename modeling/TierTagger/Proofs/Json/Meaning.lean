import TierTagger.Proofs.Json.Content
import TierTagger.Proofs.Json.Corruption
import TierTagger.Proofs.Json.Naturals
import TierTagger.Proofs.Json.Strings

/-!
# What a decoder makes of a value

`Means d P`: the decoder `d` reads `a` off a value exactly if `P a` holds of its text, whatever stands around it.
So what a decoder accepts can be said without it, and what was accepted is known from the text alone
(`Means.decode_eq_ok`). Strings, naturals and values that may be `null` are read so.
-/

namespace TierTagger.Json

open Ascii

variable {α β : Type} {d : Decoder α} {P : α → Bytes → Prop} {s r w : Bytes} {kind : Kind}

/-! ## Values -/

/-- The decoder reads a value as what its text says. -/
structure Means (d : Decoder α) (P : α → Bytes → Prop) : Prop where
  exact : Exact d
  value : ∀ {a w}, P a w → ∃ kind, IsValue kind w
  read : ∀ {gap kind w r a}, Blanks gap → IsValue kind w → Unnumeric r →
    (d.read (gap ++ (w ++ r)) = .ok (a, r) ↔ P a w)

/-- The value is read up to its end. -/
theorem Means.read_eq_ok (means : Means d P) {gap t : Bytes} {a : α} (blanks : Blanks gap) (value : IsValue kind w)
    (ends : Unnumeric r) : d.read (gap ++ (w ++ r)) = .ok (a, t) ↔ t = r ∧ P a w := by
  constructor
  · intro read
    have passed := means.exact _ _ _ read
    rw [skipValue_complete blanks value fun _ => ends] at passed
    cases passed
    exact ⟨rfl, (means.read blanks value ends).mp read⟩
  · rintro ⟨rfl, told⟩
    exact (means.read blanks value ends).mpr told

theorem unnumeric_blanks (blanks : Blanks r) : Unnumeric r := by
  have delimited : Delimited [] := fun _ mem => nomatch mem
  have padded := delimited.append blanks
  rw [List.append_nil] at padded
  exact padded.unnumeric

/-- A text is read as a value if it holds one that says it, and nothing but blanks around it. -/
theorem Means.decode_eq_ok (means : Means d P) {a : α} : d.decode s = .ok a ↔
    ∃ before w after, s = before ++ (w ++ after) ∧ Blanks before ∧ P a w ∧ Blanks after := by
  constructor
  · intro decoded
    obtain ⟨before, kind, w, after, rfl, blanks, value, blanks', read⟩ := means.exact.isValue decoded
    exact ⟨before, w, after, rfl, blanks, (means.read blanks value (unnumeric_blanks blanks')).mp read, blanks'⟩
  · rintro ⟨before, w, after, rfl, blanks, told, blanks'⟩
    obtain ⟨kind, value⟩ := means.value told
    rw [Decoder.decode, (means.read blanks value (unnumeric_blanks blanks')).mpr told]
    simp only [skipBlanks_blanks blanks']

/-- A value says one thing. -/
theorem Means.unique (means : Means d P) {a b : α} (told : P a w) (told' : P b w) : a = b := by
  obtain ⟨kind, value⟩ := means.value told
  have ends : Unnumeric [] := fun _ mem => nomatch mem
  have read := (means.read blanks_nil value ends).mpr told
  rw [(means.read blanks_nil value ends).mpr told'] at read
  cases read
  rfl

theorem Means.congr {Q : α → Bytes → Prop} (means : Means d P) (same : ∀ a w, P a w ↔ Q a w) :
    Means d Q := by
  have equal : P = Q := funext fun a => funext fun w => propext (same a w)
  exact equal ▸ means

theorem Means.map (means : Means d P) (f : α → β) : Means (d.map f) fun b w => ∃ a, P a w ∧ f a = b where
  exact := means.exact.map f
  value := fun ⟨_, told, _⟩ => means.value told
  read := fun blanks value ends => by
    simp only [Decoder.map_eq_ok, means.read blanks value ends]

/-! ## Scalars -/

/-- The text of a string. -/
inductive IsText (x : String) : Bytes → Prop where
  | of {w : Bytes} (spelled : SpelledText x w) : IsText x (quote :: (w ++ [quote]))

theorem IsText.isValue {x : String} (text : IsText x w) : IsValue .text w := by
  obtain ⟨spelled⟩ := text
  exact .text (SpelledText.isChars spelled)

/-- A string that needs no escape, between quotes. -/
def quoted (x : String) : Bytes := quote :: (Utf8.encode x ++ [quote])

theorem isText_quoted {x : String} (simple : Simple x) : IsText x (quoted x) := .of (spelledText_encode simple)

theorem means_text : Means .text IsText where
  exact := exact_text
  value := fun text => ⟨.text, text.isValue⟩
  read := by
    intro gap kind w r x blanks value ends
    obtain ⟨b, t, rfl, opens, -⟩ := value.first
    have found : skipBlanks (gap ++ (b :: t ++ r)) = b :: (t ++ r) := skipBlanks_first blanks opens.1
    simp only [Decoder.text, Decoder.ofFirst, found]
    constructor
    · intro read
      split at read
      · next same =>
        obtain ⟨w, split, spelled⟩ := string_eq_ok.mp read
        have closed : t = w ++ [quote] := List.append_cancel_right (split.trans (by simp))
        exact same ▸ closed ▸ .of spelled
      · exact (mismatch_ne_ok _ _ _ _ read).elim
    · intro text
      generalize bytes : b :: t = w at text
      obtain ⟨spelled⟩ := text
      cases bytes
      rw [if_pos rfl, List.append_assoc]
      exact string_spelled spelled

section
variable {limit n : Nat} {expected : String}

theorem natural_eq_ok : (Decoder.natural limit expected).read s = .ok (n, r) ↔ ∃ gap w,
    s = gap ++ (w ++ r) ∧ Blanks gap ∧ IsNatural n w ∧ n < Nat.pow 2 64 ∧ n < limit ∧ Unnumeric r := by
  have bounded {negative : Bool} {s : Bytes} :
      (number negative s).andThen (Decoder.bounded limit expected) = .ok (n, r) ↔
        number negative s = .ok (.natural n, r) ∧ n < limit := by
    cases number negative s with
    | error => simp [Reading.andThen]
    | ok x =>
      obtain ⟨x, t⟩ := x
      cases x with
      | negative | float => simp [Reading.andThen, Decoder.bounded, Fault.at]
      | natural m =>
        simp only [Reading.andThen, Decoder.bounded]
        split
        · next fits =>
          simp only [Except.ok.injEq, Prod.mk.injEq, Number.natural.injEq]
          exact ⟨fun same => ⟨same, same.1 ▸ fits⟩, And.left⟩
        · next large =>
          simp only [Fault.at, reduceCtorEq, false_iff, Except.ok.injEq, Prod.mk.injEq, Number.natural.injEq]
          rintro ⟨⟨rfl, -⟩, fits⟩
          exact large fits
  simp only [Decoder.natural, Decoder.ofFirst]
  constructor
  · intro read
    obtain ⟨gap, split, blanks⟩ := skipBlanks_split s
    split at read
    · cases read
    next b t found =>
    split at read
    · obtain ⟨negative, -⟩ := number_eq_natural.mp (bounded.mp read).1
      cases negative
    split at read
    · obtain ⟨read, fits⟩ := bounded.mp read
      obtain ⟨-, w, text, natural, small, ends⟩ := number_eq_natural.mp read
      exact ⟨gap, w, by rw [← text, ← found]; exact split, blanks, natural, small, fits, ends⟩
    · exact (mismatch_ne_ok _ _ _ _ read).elim
  · rintro ⟨gap, w, rfl, blanks, natural, small, fits, ends⟩
    have read := number_eq_natural.mpr ⟨rfl, w, rfl, natural, small, ends⟩
    obtain ⟨b, t, rfl, digit⟩ := natural.integer.first
    have not_minus : b ≠ minus := ne_of_isDigit digit rfl
    have found : skipBlanks (gap ++ (b :: t ++ r)) = b :: (t ++ r) :=
      skipBlanks_first blanks (opens_digit digit).1
    simp only [found, if_neg not_minus, if_pos digit]
    exact bounded.mpr ⟨read, fits⟩

theorem means_natural (small : limit ≤ Nat.pow 2 64) :
    Means (.natural limit expected) fun n w => IsNatural n w ∧ n < limit where
  exact := by
    intro s n r read
    obtain ⟨gap, w, rfl, blanks, natural, -, -, ends⟩ := natural_eq_ok.mp read
    exact skipValue_complete blanks natural.isValue fun _ => ends
  value := fun ⟨natural, _⟩ => ⟨.number, natural.isValue⟩
  read := by
    intro gap kind w r n blanks value ends
    constructor
    · intro read
      obtain ⟨gap', w', same, blanks', natural, -, fits, -⟩ := natural_eq_ok.mp read
      obtain ⟨b, t, rfl, opens, -⟩ := value.first
      obtain ⟨b', t', rfl, opens', -⟩ := natural.isValue.first
      have found : skipBlanks (gap ++ (b :: t ++ r)) = b :: t ++ r := skipBlanks_first blanks opens.1
      have found' : skipBlanks (gap' ++ (b' :: t' ++ r)) = b' :: t' ++ r := skipBlanks_first blanks' opens'.1
      have text : b :: t = b' :: t' := List.append_cancel_right (found ▸ same ▸ found')
      exact text ▸ ⟨natural, fits⟩
    · rintro ⟨natural, fits⟩
      exact natural_eq_ok.mpr ⟨gap, w, rfl, blanks, natural, Nat.lt_of_lt_of_le fits small, fits, ends⟩

end

/-! ## Values that may be `null` -/

/-- `null` stands for the given value, and everything else for what it says. -/
inductive OrNull (P : α → Bytes → Prop) (blank : α) : α → Bytes → Prop where
  | null : OrNull P blank blank (ofChar 'n' :: nullTail)
  | stated {a : α} {w : Bytes} (told : P a w) : OrNull P blank a w

theorem orNull_ne {blank a : α} (other : a ≠ blank) : OrNull P blank a w ↔ P a w := by
  constructor
  · intro told
    cases told with
    | null => exact absurd rfl other
    | stated told => exact told
  · exact .stated

/-- There is a value and its text says it. -/
def Held (P : α → Bytes → Prop) (o : Option α) (w : Bytes) : Prop := ∃ a, o = some a ∧ P a w

/-- `null` is the only value that starts with its letter. -/
theorem isValue_null {t : Bytes} (value : IsValue kind (ofChar 'n' :: t)) : t = nullTail := by
  obtain ⟨b, u, same, -, rfl⟩ := value.first
  cases same
  generalize text : ofChar 'n' :: t = w at value
  have null : Kind.of (ofChar 'n') = .null := rfl
  rw [null] at value
  cases value
  exact (List.cons.inj text).2

theorem Means.nullable (means : Means d P) (apart : ∀ a, ¬P a (ofChar 'n' :: nullTail)) :
    Means d.nullable (OrNull (Held P) none) where
  exact := means.exact.nullable
  value := fun told => by
    cases told with
    | null => exact ⟨.null, .null⟩
    | stated told =>
      obtain ⟨a, -, told⟩ := told
      exact means.value told
  read := by
    intro gap kind w r o blanks value ends
    obtain ⟨b, t, rfl, opens, -⟩ := value.first
    by_cases letter : b = ofChar 'n'
    · subst letter
      obtain rfl := isValue_null value
      rw [nullable_null blanks]
      constructor
      · intro read
        cases read
        exact .null
      · intro told
        generalize text : ofChar 'n' :: nullTail = w at told
        cases told with
        | null => rfl
        | stated told =>
          obtain ⟨a, -, told⟩ := told
          exact absurd (text ▸ told) (apart a)
    · have found : skipBlanks (gap ++ (b :: t ++ r)) = b :: (t ++ r) := skipBlanks_first blanks opens.1
      simp only [Decoder.nullable, found, if_neg letter, Decoder.map_eq_ok, means.read blanks value ends]
      constructor
      · rintro ⟨a, told, rfl⟩
        exact .stated ⟨a, rfl, told⟩
      · intro told
        generalize text : b :: t = w at told
        cases told with
        | null => exact absurd (List.cons.inj text).1 letter
        | stated told =>
          obtain ⟨a, rfl, told⟩ := told
          exact ⟨a, text ▸ told, rfl⟩

theorem Means.orDefault [Inhabited α] (means : Means d P) (apart : ∀ a, ¬P a (ofChar 'n' :: nullTail)) :
    Means d.orDefault (OrNull P default) := by
  refine ((means.nullable apart).map (·.getD default)).congr fun a w => ⟨?_, ?_⟩
  · rintro ⟨o, told, rfl⟩
    cases told with
    | null => exact .null
    | stated told =>
      obtain ⟨a, rfl, told⟩ := told
      exact .stated told
  · intro told
    cases told with
    | null => exact ⟨none, .null, rfl⟩
    | stated told => exact ⟨some a, .stated ⟨a, rfl, told⟩, rfl⟩

theorem not_isText_null (x : String) : ¬IsText x (ofChar 'n' :: nullTail) := nofun

end TierTagger.Json
