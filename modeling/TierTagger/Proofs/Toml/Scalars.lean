import TierTagger.Proofs.Toml.Lexemes

/-!
# Values without parts are read

Which kind a value is shows in what it starts with and, between numbers and times, in what stands behind the
first digits. The kinds are tried one after the other, so each value is shown to be none of those before.

* `Ends`: what may follow a value.
* `fails_time`, `fails_float`: what is no time, and what is no float.
* `IsScalar.reads`: a value is read as what it stands for.
-/

namespace TierTagger.Toml

open Text
open Reader

variable {s t r w ds : List Char}

/-- What may follow a value: blanks, and then the end, a comment, an end of line or a mark of an array or a
table. -/
inductive Ends : List Char → Prop
  | of {b r} (blanks : Blanks b) (mark : ∀ c ∈ r.head?, c ∈ ['#', '\n', '\r', ',', ']', '\x7d']) : Ends (b ++ r)

/-- What is true of the marks that end a value and of blanks is true of the first character behind it. -/
theorem Ends.first {p : Char → Prop} [DecidablePred p] (ends : Ends r)
    (all : [' ', '\t', '#', '\n', '\r', ',', ']', '\x7d'].all (p ·)) : ∀ c ∈ r.head?, p c := by
  have all := fun c mem => of_decide_eq_true (List.all_eq_true.mp all c mem)
  intro c head
  obtain @⟨b, r, blanks, mark⟩ := ends
  cases b with
  | nil => exact all c (.tail _ (.tail _ (mark c head)))
  | cons d b =>
    obtain rfl := Option.some.inj head
    rcases (by simpa [isBlank] using blanks d (.head _) : d = ' ' ∨ d = '\t') with rfl | rfl
    · exact all _ (.head _)
    · exact all _ (.tail _ (.head _))

theorem Ends.tail {c : Char} (ends : Ends (c :: r)) (blank : isBlank c) : Ends r := by
  generalize same : c :: r = u at ends
  obtain @⟨b, r', blanks, mark⟩ := ends
  cases b with
  | nil =>
    subst same
    have mark := mark c rfl
    rcases (by simpa [isBlank] using blank : c = ' ' ∨ c = '\t') with rfl | rfl <;> simp at mark
  | cons d b =>
    obtain ⟨rfl, rfl⟩ := List.cons.inj same
    exact .of (List.forall_mem_cons.mp blanks).2 mark

/-! ## Digits -/

/-- What does not go on digits. -/
def Undigited (class_ : Char → Bool) (r : List Char) : Prop := ∀ c ∈ r.head?, class_ c = false ∧ c ≠ '_'

theorem IsDigits.first {class_ : Char → Bool} (digits : IsDigits class_ s ds) :
    ∃ c s', s = c :: s' ∧ class_ c := by
  cases digits <;> exact ⟨_, _, rfl, ‹_›⟩

theorem IsDigits.digitsFrom {class_ : Char → Bool} (digits : IsDigits class_ s ds) (under : class_ '_' = false)
    (ends : Undigited class_ r) : digitsFrom class_ (s ++ r) = (ds, r) := by
  have nothing : Toml.digitsFrom class_ r = ([], r) := by
    cases r with
    | nil => rfl
    | cons c r => simp [Toml.digitsFrom, ends c rfl]
  induction digits with
  | one digit => simp [Toml.digitsFrom, digit, nothing]
  | more digit _ ih => simp [Toml.digitsFrom, digit, ih]
  | under digit rest ih =>
    obtain ⟨c, s', rfl, first⟩ := rest.first
    simpa [Toml.digitsFrom, digit, under, first] using ih

theorem IsDigits.reads {class_ : Char → Bool} (isDigits : IsDigits class_ s ds) (under : class_ '_' = false)
    (ends : Undigited class_ r) : Reads (digits class_) s ds r := by
  have all := isDigits.digitsFrom under ends
  obtain ⟨c, s', rfl, first⟩ := isDigits.first
  cases later : Toml.digitsFrom class_ (s' ++ r) with
  | mk ds' r' =>
    obtain ⟨rfl, rfl⟩ : c :: ds' = ds ∧ r' = r := by
      simpa [Toml.digitsFrom, first, later] using all
    have rest : Reads (fun s => some (Toml.digitsFrom class_ s)) s' ds' r' := congrArg some later
    exact Reads.bind (s := [c]) (reads_satisfy first _) rest.bind_pure

theorem under_isDigit : Char.isDigit '_' = false := by decide

theorem IsSign.reads {sign : List Char} {negative : Bool} (isSign : IsSign sign negative)
    (unsigned : ∀ c ∈ r.head?, c ≠ '+' ∧ c ≠ '-') : Reads Toml.sign sign negative r := by
  cases isSign with
  | absent =>
    have none : Fails (char '+' <|> char '-') r :=
      (fails_char fun head => (unsigned _ head).1 rfl).orElse_fails (fails_char fun head => (unsigned _ head).2 rfl)
    exact Reads.bind (s := []) none.optional (.pure _ r)
  | plus => exact Reads.bind (s := ['+']) (reads_char '+' _).orElse.optional (.pure _ r)
  | minus =>
    have no_plus : Fails (char '+') (['-'] ++ r) := fails_char (by simp)
    exact Reads.bind (s := ['-']) (no_plus.orElse (reads_char '-' _)).optional (.pure _ r)

/-- What does not go on a decimal number. -/
def Undecimal (r : List Char) : Prop := Undigited Char.isDigit r

theorem IsDecimal.reads (decimal : IsDecimal s ds) (ends : Undecimal r) : Reads decimalDigits s ds r := by
  cases decimal with
  | zero =>
    have no_lead : Fails (do let _ ← ahead (satisfy fun c => '1' ≤ c && c ≤ '9'); Toml.digits Char.isDigit)
        (['0'] ++ r) :=
      (fails_satisfy fun c head => by cases head; rfl).ahead.bind
    exact no_lead.orElse (reads_char '0' r).map
  | digits lead isDigits =>
    obtain ⟨c, s, rfl, -⟩ := isDigits.first
    have seen : Reads (ahead (satisfy fun c => '1' ≤ c && c ≤ '9')) [] c (c :: s ++ r) :=
      (reads_satisfy (by simpa using lead c rfl) (s ++ r)).ahead
    exact (Reads.bind (s := []) seen (isDigits.reads under_isDigit ends)).orElse

theorem isDigit_of_lead {c : Char} (lead : '1' ≤ c ∧ c ≤ '9') : c.isDigit := by
  simp only [Char.le_def, UInt32.le_iff_toNat_le] at lead
  simp only [Char.isDigit, ge_iff_le, Bool.and_eq_true, decide_eq_true_eq, UInt32.le_iff_toNat_le]
  exact ⟨Nat.le_trans (by decide) lead.1, lead.2⟩

theorem fails_decimalDigits (other : ∀ c ∈ s.head?, c.isDigit = false) : Fails decimalDigits s := by
  have no_lead : Fails (satisfy fun c => '1' ≤ c && c ≤ '9') s := fails_satisfy fun c head => by
    refine Bool.eq_false_iff.mpr fun lead => ?_
    exact absurd (isDigit_of_lead (by simpa using lead)) (by simp [other c head])
  have no_zero : Fails (char '0') s := fails_char fun head => by cases other _ head
  exact no_lead.ahead.bind.orElse_fails no_zero.map

theorem IsDecimal.first (decimal : IsDecimal s ds) : ∃ c s', s = c :: s' ∧ c.isDigit := by
  cases decimal with
  | zero => exact ⟨_, _, rfl, rfl⟩
  | digits _ isDigits => exact isDigits.first

theorem isDigit_ne {c d : Char} (digit : c.isDigit) (other : d.isDigit = false) : c ≠ d := by
  rintro rfl
  rw [digit] at other
  cases other

/-- Where a digit is in front, neither of two other characters is. -/
theorem head_ne_of_digit {d d' : Char} (first : ∃ c s', s = c :: s' ∧ c.isDigit) (other : d.isDigit = false)
    (other' : d'.isDigit = false) (r : List Char) : ∀ c ∈ (s ++ r).head?, c ≠ d ∧ c ≠ d' := by
  obtain ⟨c, s, rfl, digit⟩ := first
  intro d head
  obtain rfl := Option.some.inj head
  exact ⟨isDigit_ne digit other, isDigit_ne digit other'⟩

theorem IsDecimal.unsigned (decimal : IsDecimal s ds) (r : List Char) :
    ∀ c ∈ (s ++ r).head?, c ≠ '+' ∧ c ≠ '-' :=
  head_ne_of_digit decimal.first rfl rfl r

/-! ## Integers -/

theorem reads_basedInteger {mark : Char} {base : Nat} (isDigits : IsDigits (Numeral.isDigit base) s ds)
    (under : Numeral.isDigit base '_' = false) (ends : Undigited (Numeral.isDigit base) r) :
    Reads (basedInteger mark base) ('0' :: mark :: s) (Numeral.value base ds) r :=
  Reads.bind (reads_word ['0', mark] _) (isDigits.reads under ends).bind_pure

theorem reads_decimalInteger {sign : List Char} {negative : Bool} (isSign : IsSign sign negative)
    (decimal : IsDecimal s ds) (ends : Undecimal r) :
    Reads decimalInteger (sign ++ s) (signed negative (Numeral.value 10 ds)) r :=
  Reads.bind (isSign.reads (decimal.unsigned r)) (decimal.reads ends).bind_pure

theorem fails_basedInteger {mark : Char} {base : Nat} (other : ¬['0', mark] <+: s) :
    Fails (basedInteger mark base) s :=
  (fails_word other).bind

/-- A decimal integer is not taken for one with a base. -/
theorem IsDecimal.unbased {sign : List Char} {negative : Bool} {mark : Char} (isSign : IsSign sign negative)
    (decimal : IsDecimal s ds) (ends : Ends r) (known : mark ∈ ['x', 'o', 'b']) :
    ¬['0', mark] <+: sign ++ s ++ r := by
  rintro ⟨u, same⟩
  cases isSign with
  | plus | minus => cases same
  | absent =>
    cases decimal with
    | zero =>
      obtain rfl : mark :: u = r := by simpa using same
      have other : mark ∉ ['x', 'o', 'b'] := ends.first (p := fun c => c ∉ ['x', 'o', 'b']) (by decide) _ rfl
      exact other known
    | digits lead isDigits =>
      obtain ⟨c, s, rfl, -⟩ := isDigits.first
      obtain ⟨rfl, -⟩ : '0' = c ∧ mark :: u = s ++ r := by simpa using same
      exact absurd (lead '0' rfl) (by decide)

theorem IsInteger.reads {n : Int} (isInteger : IsInteger s n) (fits : fits n) (ends : Ends r) :
    Reads integer s n r := by
  refine Reads.guarded ?_ fits
  cases isInteger with
  | @decimal sign negative s ds isSign decimal =>
    have no_based (mark : Char) (base : Nat) (known : mark ∈ ['x', 'o', 'b']) :
        Fails (basedInteger mark base) (sign ++ s ++ r) :=
      fails_basedInteger (decimal.unbased isSign ends known)
    exact (no_based 'x' 16 (by decide)).orElse ((no_based 'o' 8 (by decide)).orElse
      ((no_based 'b' 2 (by decide)).orElse (reads_decimalInteger isSign decimal (ends.first (by decide)))))
  | @based mark base s ds known isDigits =>
    rcases (by simpa using known : (mark = 'x' ∧ base = 16) ∨ (mark = 'o' ∧ base = 8) ∨ mark = 'b' ∧ base = 2)
      with ⟨rfl, rfl⟩ | ⟨rfl, rfl⟩ | ⟨rfl, rfl⟩
    · exact (reads_basedInteger isDigits (by decide) (ends.first (by decide))).orElse
    · have no_hex : Fails (basedInteger 'x' 16) ('0' :: 'o' :: s ++ r) := fails_basedInteger (by simp)
      exact no_hex.orElse (reads_basedInteger isDigits (by decide) (ends.first (by decide))).orElse
    · have no_hex : Fails (basedInteger 'x' 16) ('0' :: 'b' :: s ++ r) := fails_basedInteger (by simp)
      have no_octal : Fails (basedInteger 'o' 8) ('0' :: 'b' :: s ++ r) := fails_basedInteger (by simp)
      exact no_hex.orElse (no_octal.orElse
        (reads_basedInteger isDigits (by decide) (ends.first (by decide))).orElse)

/-! ## Floats -/

/-- What does not go on a float: no point and no exponent. -/
def Unscaled (r : List Char) : Prop := ∀ c ∈ r.head?, c ≠ '.' ∧ c ≠ 'e' ∧ c ≠ 'E'

theorem IsExponent.reads {e : List Char} {n : Int} (power : IsExponent e n) (ends : Undecimal r) :
    Reads exponent e n r := by
  obtain @⟨c, sign, negative, s, ds, mark, isSign, isDigits⟩ := power
  have unsigned : ∀ c ∈ (s ++ r).head?, c ≠ '+' ∧ c ≠ '-' := head_ne_of_digit isDigits.first rfl rfl r
  have marked : Reads (char 'e' <|> char 'E') [c] c (sign ++ s ++ r) := by
    rcases mark with rfl | rfl
    · exact (reads_char 'e' _).orElse
    · have no_small : Fails (char 'e') (['E'] ++ (sign ++ s ++ r)) := fails_char (by simp)
      exact no_small.orElse (reads_char 'E' _)
  exact Reads.bind (s := [c]) marked
    (Reads.bind (isSign.reads unsigned) (isDigits.reads under_isDigit ends).bind_pure)

theorem fails_exponent (unscaled : ∀ c ∈ r.head?, c ≠ 'e' ∧ c ≠ 'E') : Fails exponent r :=
  ((fails_char fun head => (unscaled _ head).1 rfl).orElse_fails
    (fails_char fun head => (unscaled _ head).2 rfl)).bind

theorem IsExponent.undecimal {e : List Char} {n : Int} (power : IsExponent e n) (r : List Char) :
    Undecimal (e ++ r) := by
  obtain @⟨c, sign, negative, s, ds, mark, isSign, isDigits⟩ := power
  intro d head
  obtain rfl := Option.some.inj head
  rcases mark with rfl | rfl <;> exact ⟨rfl, by decide⟩

/-- What stands behind the whole part of a float. -/
def scale : Reader (List Char × Int) :=
  (do return ([], ← exponent)) <|> do
    let _ ← char '.'
    let fraction ← digits Char.isDigit
    return (fraction, (← optional exponent).getD 0)

theorem IsScale.reads {f fs : List Char} {n : Int} (isScale : IsScale f fs n) (undecimal : Undecimal r)
    (unscaled : Unscaled r) : Reads scale f (fs, n) r := by
  have point (s : List Char) : Fails (do return (([] : List Char), ← exponent)) ('.' :: s) :=
    (fails_exponent fun c head => by cases head; decide).bind
  cases isScale with
  | power power => exact (power.reads undecimal).bind_pure.orElse
  | @fraction f fs isDigits =>
    have no_power : Reads (optional exponent) [] none r :=
      (fails_exponent fun c head => (unscaled c head).2).optional
    have places : Reads (do
        let fraction ← digits Char.isDigit
        return (fraction, (← optional exponent).getD 0)) (f ++ []) (fs, 0) r :=
      Reads.bind (isDigits.reads under_isDigit undecimal) no_power.bind_pure
    rw [List.append_nil] at places
    exact (point (f ++ r)).orElse (Reads.bind (s := ['.']) (reads_char '.' _) places)
  | @both f fs e n isDigits power =>
    have places : Reads (do
        let fraction ← digits Char.isDigit
        return (fraction, (← optional exponent).getD 0)) (f ++ e) (fs, n) r :=
      Reads.bind (isDigits.reads under_isDigit (power.undecimal r)) (power.reads undecimal).optional.bind_pure
    exact (point (f ++ e ++ r)).orElse (Reads.bind (s := ['.']) (reads_char '.' _) places)

theorem fails_scale (unscaled : Unscaled r) : Fails scale r :=
  (fails_exponent fun c head => (unscaled c head).2).bind.orElse_fails
    (fails_char fun head => (unscaled _ head).1 rfl).bind

theorem IsScale.undecimal {f fs : List Char} {n : Int} (isScale : IsScale f fs n) (r : List Char) :
    Undecimal (f ++ r) := by
  cases isScale with
  | power power => exact power.undecimal r
  | fraction | both =>
    intro c head
    cases head
    exact ⟨rfl, by decide⟩

theorem fails_specialFloat {sign : List Char} {negative : Bool} (isSign : IsSign sign negative)
    (unsigned : ∀ c ∈ s.head?, c ≠ '+' ∧ c ≠ '-') (other : ∀ c ∈ s.head?, c ≠ 'i' ∧ c ≠ 'n') :
    Fails specialFloat (sign ++ s) :=
  (isSign.reads unsigned).bind_fails
    ((fails_word fun ⟨_, same⟩ => (other 'i' (by simp [← same])).1 rfl).bind.orElse_fails
      (fails_word fun ⟨_, same⟩ => (other 'n' (by simp [← same])).2 rfl).bind)

/-- An integer is no float. -/
theorem fails_float {sign : List Char} {negative : Bool} (isSign : IsSign sign negative) (decimal : IsDecimal s ds)
    (undecimal : Undecimal r) (unscaled : Unscaled r) : Fails float (sign ++ (s ++ r)) := by
  have no_digits : Fails decimalFloat (sign ++ (s ++ r)) :=
    (isSign.reads (decimal.unsigned r)).bind_fails
      ((decimal.reads undecimal).bind_fails (fails_scale unscaled).bind)
  have no_special : Fails specialFloat (sign ++ (s ++ r)) :=
    fails_specialFloat isSign (decimal.unsigned r) (head_ne_of_digit decimal.first rfl rfl r)
  exact no_digits.guarded.orElse_fails no_special

theorem IsFloat.reads {x : Binary64} (isFloat : IsFloat s x) (ends : Ends r) : Reads float s x r := by
  have undecimal : Undecimal r := ends.first (by decide)
  have unscaled : Unscaled r := ends.first (by decide)
  cases isFloat with
  | @decimal sign negative w ws f fs n isSign whole isScale finite =>
    have unsigned : ∀ c ∈ (w ++ f ++ r).head?, c ≠ '+' ∧ c ≠ '-' := by simpa using whole.unsigned (f ++ r)
    have read : Reads decimalFloat (sign ++ (w ++ f)) (nearest negative (ws ++ fs) (n - fs.length)) r :=
      Reads.bind (isSign.reads unsigned) (Reads.bind (whole.reads (isScale.undecimal r))
        ((isScale.reads undecimal unscaled).bind_nil (.pure _ r)))
    exact (read.guarded (by simpa using finite)).orElse
  | @infinite sign negative isSign =>
    have no_digits : Fails decimalFloat (sign ++ ("inf".toList ++ r)) :=
      (isSign.reads fun c head => by cases head; decide).bind_fails
        (fails_decimalDigits fun c head => by cases head; rfl).bind
    have read : Reads specialFloat (sign ++ "inf".toList) (.infinite negative) r :=
      Reads.bind (isSign.reads fun c head => by cases head; decide) (reads_word _ r).bind_pure.orElse
    rw [← List.append_assoc] at no_digits
    exact no_digits.guarded.orElse read
  | @nan sign negative isSign =>
    have no_digits : Fails decimalFloat (sign ++ ("nan".toList ++ r)) :=
      (isSign.reads fun c head => by cases head; decide).bind_fails
        (fails_decimalDigits fun c head => by cases head; rfl).bind
    have not_infinite : Fails (do word "inf".toList; return Binary64.infinite negative) ("nan".toList ++ r) :=
      (fails_word (by simp)).bind
    have read : Reads specialFloat (sign ++ "nan".toList) .nan r :=
      Reads.bind (isSign.reads fun c head => by cases head; decide)
        (not_infinite.orElse (reads_word _ r).bind_pure)
    rw [← List.append_assoc] at no_digits
    exact no_digits.guarded.orElse read

/-! ## Dates and times -/

theorem IsField.reads {width low high n : Nat} (isField : IsField width low high s n) (r : List Char) :
    Reads (field width low high) s n r := by
  obtain ⟨wide, digits, above, below⟩ := isField
  have number : Reads ((exactly Char.isDigit width).filterMap fun ds => some (Numeral.value 10 ds)) s
      (Numeral.value 10 s) r := (reads_exactly wide digits r).filterMap rfl
  refine number.guarded ?_
  rw [Bool.and_eq_true, decide_eq_true_eq, decide_eq_true_eq]
  exact ⟨above, below⟩

theorem IsDate.reads (isDate : IsDate s) (r : List Char) : Reads date s () r := by
  obtain ⟨isYear, isMonth, isDay⟩ := isDate
  exact Reads.bind (isYear.reads _) (Reads.bind (s := ['-']) (reads_word _ _) (Reads.bind (isMonth.reads _)
    (Reads.bind (s := ['-']) (reads_word _ _) (isDay.reads r).bind_pure)))

/-- Hours, minutes, seconds and what else there is of them. -/
theorem IsClock.reads_bind {f : List Char} {x : Option (List Char)} (clock : IsClock s)
    (fraction : Reads (optional (do word ['.']; run1 Char.isDigit)) f x r) : Reads timeOfDay (s ++ f) () r := by
  obtain ⟨isHour, isMinute, isSecond⟩ := clock
  rw [List.append_assoc, List.cons_append, List.append_assoc, List.cons_append]
  exact Reads.bind (isHour.reads _) (Reads.bind (s := [':']) (reads_word _ _) (Reads.bind (isMinute.reads _)
    (Reads.bind (s := [':']) (reads_word _ _) (Reads.bind (isSecond.reads _) fraction.bind_pure))))

/-- What does not go on a time of day. -/
def Untimed (r : List Char) : Prop := ∀ c ∈ r.head?, c ≠ '.' ∧ c.isDigit = false

theorem IsTimeOfDay.reads (time : IsTimeOfDay s) (untimed : Untimed r) : Reads timeOfDay s () r := by
  cases time with
  | whole clock =>
    have no_fraction : Fails (do word ['.']; run1 Char.isDigit) r :=
      (fails_word fun ⟨_, same⟩ => (untimed '.' (by simp [← same])).1 rfl).bind
    have read := clock.reads_bind no_fraction.optional
    rwa [List.append_nil] at read
  | @fraction s ds clock full digits =>
    have fraction : Reads (do word ['.']; run1 Char.isDigit) ('.' :: ds) ds r :=
      Reads.bind (s := ['.']) (reads_word _ _) (reads_run1 full digits fun c head => (untimed c head).2)
    exact clock.reads_bind fraction.optional

theorem IsOffset.reads {o : List Char} (isOffset : IsOffset o) (r : List Char) : Reads offset o () r := by
  cases isOffset with
  | @universal z mark =>
    have read : Reads (satisfy fun c => c = 'Z' || c = 'z') [z] z r :=
      reads_satisfy (by simpa using mark) r
    exact read.bind_pure.orElse
  | @of sign h hour m minute isSign isHour isMinute =>
    have not_universal : Fails (satisfy fun c => c = 'Z' || c = 'z') (sign :: (h ++ ':' :: m) ++ r) :=
      fails_satisfy fun c head => by
        obtain rfl := Option.some.inj head
        rcases isSign with rfl | rfl <;> rfl
    have signed : Reads (char '+' <|> char '-') [sign] sign (h ++ ':' :: m ++ r) := by
      rcases isSign with rfl | rfl
      · exact (reads_char '+' _).orElse
      · have no_plus : Fails (char '+') (['-'] ++ (h ++ ':' :: m ++ r)) := fails_char (by simp)
        exact no_plus.orElse (reads_char '-' _)
    exact not_universal.bind.orElse (Reads.bind (s := [sign]) signed (Reads.bind (isHour.reads _)
      (Reads.bind (s := [':']) (reads_word _ _) (isMinute.reads r).bind_pure)))

theorem fails_offset (other : ∀ c ∈ r.head?, c ∉ ['Z', 'z', '+', '-']) : Fails offset r := by
  have not_universal : Fails (satisfy fun c => c = 'Z' || c = 'z') r := fails_satisfy fun c head => by
    have apart := other c head
    simp_all
  have no_plus : Fails (char '+') r := fails_char fun head => other '+' head (by decide)
  have no_minus : Fails (char '-') r := fails_char fun head => other '-' head (by decide)
  exact not_universal.bind.orElse_fails (no_plus.orElse_fails no_minus).bind

/-! ## What is no time -/

theorem field_split {width low high n : Nat} (read : field width low high s = some (n, r)) :
    ∃ ds, s = ds ++ r ∧ ds.length = width ∧ ∀ d ∈ ds, d.isDigit := by
  obtain ⟨m, t, number, kept⟩ := exists_bind read
  obtain ⟨ds, u, digits, made⟩ := exists_bind number
  cases made
  split at kept
  · cases kept
    exact ⟨ds, exactly_split digits⟩
  · cases kept

/-- A field of a date or a time, and a mark that does not come behind it. -/
theorem fails_field {α : Type} {width low high : Nat} {mark : Char} {p : Nat → Reader α} (wide : 0 < width)
    (other : ∀ ds r, s = ds ++ r → ds ≠ [] → (∀ d ∈ ds, d.isDigit) → r.head? ≠ some mark) :
    Fails (do let n ← field width low high; word [mark]; p n) s := by
  cases found : (do let n ← field width low high; word [mark]; p n : Reader α) s with
  | none => exact found
  | some x =>
    obtain ⟨n, t, number, rest⟩ := exists_bind found
    obtain ⟨_, u, marked, -⟩ := exists_bind rest
    obtain ⟨ds, rfl, long, digits⟩ := field_split number
    obtain rfl := word_split marked
    refine absurd rfl (other ds _ rfl (fun empty => ?_) digits)
    subst empty
    exact absurd long (by simpa using Nat.ne_of_lt wide)

/-- What is true of the characters of a text, and of the one behind it that is no digit, is true of the one
behind the first digits. -/
theorem behind_digits {P : Char → Prop} (split : s ++ r = ds ++ t) (digits : ∀ d ∈ ds, d.isDigit)
    (inner : ∀ c ∈ s, P c) (behind : ∀ c ∈ r.head?, c.isDigit = false ∧ P c) : ∀ c ∈ t.head?, P c := by
  intro c head
  rcases List.append_eq_append_iff.mp split with ⟨more, rfl, rfl⟩ | ⟨left, rfl, rfl⟩
  · cases more with
    | nil => exact (behind c head).2
    | cons d more =>
      have digit := digits d (by simp)
      rw [(behind d rfl).1] at digit
      cases digit
  · cases left with
    | nil => exact (behind c head).2
    | cons d left =>
      obtain rfl := Option.some.inj head
      exact inner d (by simp)

theorem digits_head (other : ∀ c ∈ s.head?, c.isDigit = false) (split : s = ds ++ r) (full : ds ≠ []) :
    ¬∀ d ∈ ds, d.isDigit := by
  intro digits
  obtain ⟨d, ds, rfl⟩ := List.exists_cons_of_ne_nil full
  have digit := digits d (.head _)
  rw [other d (by simp [split])] at digit
  cases digit

theorem fails_timeOfDay (other : ∀ c ∈ s.head?, c.isDigit = false) : Fails timeOfDay s :=
  fails_field (by decide) fun _ _ split full digits => absurd digits (digits_head other split full)

/-- What does not have a hyphen or a colon behind its first digits is no time. -/
theorem fails_time (other : ∀ ds r, s = ds ++ r → ds ≠ [] → (∀ d ∈ ds, d.isDigit) →
    ∀ c ∈ r.head?, c ≠ '-' ∧ c ≠ ':') : Fails time s := by
  have no_date : Fails date s := fails_field (by decide) fun ds r split full digits head =>
    (other ds r split full digits _ head).1 rfl
  have no_clock : Fails timeOfDay s := fails_field (by decide) fun ds r split full digits head =>
    (other ds r split full digits _ head).2 rfl
  exact no_date.bind.orElse_fails no_clock

theorem fails_time_head (other : ∀ c ∈ s.head?, c.isDigit = false) : Fails time s :=
  fails_time fun _ _ split full digits => absurd digits (digits_head other split full)

theorem IsDigits.chars {class_ : Char → Bool} (isDigits : IsDigits class_ s ds) :
    ∀ c ∈ s, class_ c ∨ c = '_' := by
  induction isDigits with
  | one digit => simpa using .inl digit
  | more digit _ ih => exact List.forall_mem_cons.mpr ⟨.inl digit, ih⟩
  | under digit _ ih => exact List.forall_mem_cons.mpr ⟨.inl digit, List.forall_mem_cons.mpr ⟨.inr rfl, ih⟩⟩

/-- A number whose digits are followed by neither a hyphen nor a colon is no time. -/
theorem IsDecimal.fails_time (decimal : IsDecimal s ds)
    (other : ∀ c ∈ r.head?, c.isDigit = false ∧ c ≠ '-' ∧ c ≠ ':') : Fails time (s ++ r) := by
  have chars : ∀ c ∈ s, c ≠ '-' ∧ c ≠ ':' := by
    have apart (c : Char) (known : c.isDigit ∨ c = '_') : c ≠ '-' ∧ c ≠ ':' := by
      rcases known with digit | rfl
      · exact ⟨isDigit_ne digit rfl, isDigit_ne digit rfl⟩
      · decide
    cases decimal with
    | zero => exact List.forall_mem_singleton.mpr (by decide)
    | digits _ isDigits => exact fun c mem => apart c (isDigits.chars c mem)
  exact Toml.fails_time fun _ _ split _ digits => behind_digits split digits chars other

/-- A time of day is no date. -/
theorem IsClock.fails_date (clock : IsClock s) (r : List Char) : Fails date (s ++ r) := by
  obtain @⟨h, hour, m, minute, s, second, isHour, isMinute, isSecond⟩ := clock
  obtain ⟨-, digits, -, -⟩ := isHour
  rw [List.append_assoc]
  refine fails_field (by decide) fun _ _ split _ all head => ?_
  have apart := behind_digits (P := (· ≠ '-')) split all (fun c mem => isDigit_ne (digits c mem) rfl)
    (fun c head => by cases head; exact ⟨rfl, by decide⟩)
  exact apart '-' head rfl

theorem IsTimeOfDay.fails_date (time : IsTimeOfDay s) (r : List Char) : Fails date (s ++ r) := by
  cases time with
  | whole clock => exact clock.fails_date r
  | fraction clock _ _ =>
    rw [List.append_assoc]
    exact clock.fails_date _

/-- The time of day behind a date and a mark. -/
def clockAfterDate : Reader (Option Unit) := do
  let _ ← satisfy fun c => c = 'T' || c = 't' || c = ' '
  timeOfDay
  optional offset

theorem fails_clockAfterDate (ends : Ends r) : Fails clockAfterDate r := by
  cases r with
  | nil => rfl
  | cons c r =>
    by_cases space : c = ' '
    · subst space
      have no_clock : Fails timeOfDay r := fails_timeOfDay ((ends.tail rfl).first (by decide))
      exact Reads.bind_fails (s := [' ']) (reads_satisfy rfl r) no_clock.bind
    · refine (fails_satisfy fun d head => ?_).bind
      obtain rfl := Option.some.inj head
      have other := ends.first (p := fun c => c ≠ 'T' ∧ c ≠ 't') (by decide) c rfl
      simp [other, space]

theorem IsTime.reads (isTime : IsTime s) (ends : Ends r) : Reads time s () r := by
  have untimed : Untimed r := ends.first (by decide)
  have no_offset : Reads (optional offset) [] none r := (fails_offset (ends.first (by decide))).optional
  have marked {d : Char} (mark : d = 'T' ∨ d = 't' ∨ d = ' ') (s : List Char) :
      Reads (satisfy fun c => c = 'T' || c = 't' || c = ' ') [d] d s :=
    reads_satisfy (by rcases mark with rfl | rfl | rfl <;> rfl) s
  cases isTime with
  | day isDate =>
    have no_clock : Reads (optional clockAfterDate) [] none r := (fails_clockAfterDate ends).optional
    exact ((isDate.reads r).bind_nil no_clock.bind_pure).orElse
  | @moment s d t isDate mark isClock =>
    have clock : Reads clockAfterDate (d :: t) none r :=
      Reads.bind (s := [d]) (marked mark _) ((isClock.reads untimed).bind_nil no_offset)
    exact (Reads.bind (isDate.reads _) clock.optional.bind_pure).orElse
  | @zoned s d t o isDate mark isClock isOffset =>
    have untimed' : Untimed (o ++ r) := by
      cases isOffset with
      | universal mark =>
        intro c head
        obtain rfl := Option.some.inj head
        rcases mark with rfl | rfl <;> decide
      | of isSign _ _ =>
        intro c head
        obtain rfl := Option.some.inj head
        rcases isSign with rfl | rfl <;> decide
    have clock : Reads clockAfterDate (d :: (t ++ o)) (some ()) r :=
      Reads.bind (s := [d]) (marked mark _) (Reads.bind (isClock.reads untimed') (isOffset.reads r).optional)
    exact (Reads.bind (isDate.reads _) clock.optional.bind_pure).orElse
  | clock isClock => exact (isClock.fails_date r).bind.orElse (isClock.reads untimed)

/-! ## Any of them -/

theorem fails_string (other : ∀ c ∈ s.head?, c ≠ '"' ∧ c ≠ '\x27') : Fails string s := by
  have no_quote : s.head? ≠ some '"' := fun head => (other _ head).1 rfl
  have no_mark : s.head? ≠ some '\x27' := fun head => (other _ head).2 rfl
  exact (fails_blockString_head no_quote).orElse_fails ((fails_basicString no_quote).orElse_fails
    ((fails_blockString_head no_mark).orElse_fails (fails_literalString no_mark)))

/-- What neither a number nor a time starts with. -/
def Unnumeric (s : List Char) : Prop := ∀ c ∈ s.head?, c.isDigit = false ∧ c ∉ ['+', '-', 'i', 'n']

theorem fails_number (unnumeric : Unnumeric s) : Fails float s ∧ Fails integer s := by
  have apart (d : Char) (known : d ∈ ['+', '-', 'i', 'n']) : ∀ c ∈ s.head?, c ≠ d :=
    fun c head same => (unnumeric c head).2 (same ▸ known)
  have unsigned : ∀ c ∈ s.head?, c ≠ '+' ∧ c ≠ '-' :=
    fun c head => ⟨apart '+' (by decide) c head, apart '-' (by decide) c head⟩
  have no_sign : Reads sign [] false s := IsSign.absent.reads unsigned
  have no_digits : Fails decimalDigits s := fails_decimalDigits fun c head => (unnumeric c head).1
  have no_special : Fails specialFloat ([] ++ s) := fails_specialFloat .absent unsigned
    fun c head => ⟨apart 'i' (by decide) c head, apart 'n' (by decide) c head⟩
  have no_float : Fails decimalFloat s := no_sign.bind_fails no_digits.bind
  have no_decimal : Fails decimalInteger s := no_sign.bind_fails no_digits.bind
  have no_based (mark : Char) (base : Nat) : Fails (basedInteger mark base) s :=
    fails_basedInteger fun ⟨u, same⟩ => by cases (unnumeric '0' (by simp [← same])).1
  exact ⟨no_float.guarded.orElse_fails no_special, ((no_based 'x' 16).orElse_fails ((no_based 'o' 8).orElse_fails
    ((no_based 'b' 2).orElse_fails no_decimal))).guarded⟩

/-- What no value without parts starts with. -/
def Unscalar (s : List Char) : Prop :=
  ∀ c ∈ s.head?, c.isDigit = false ∧ c ∉ ['"', '\x27', '+', '-', 'i', 'n', 't', 'f']

theorem fails_scalar (other : Unscalar s) : Fails scalar s := by
  have apart (d : Char) (known : d ∈ ['"', '\x27', '+', '-', 'i', 'n', 't', 'f']) : ∀ c ∈ s.head?, c ≠ d :=
    fun c head same => (other c head).2 (same ▸ known)
  have no_string : Fails string s :=
    fails_string fun c head => ⟨apart '"' (by decide) c head, apart '\x27' (by decide) c head⟩
  have no_time : Fails time s := fails_time_head fun c head => (other c head).1
  have unnumeric : Unnumeric s := fun c head =>
    ⟨(other c head).1, by simp [apart '+' _ c head, apart '-' _ c head, apart 'i' _ c head, apart 'n' _ c head]⟩
  have no_true : Fails (word "true".toList) s :=
    fails_word fun ⟨_, same⟩ => apart 't' (by decide) 't' (by simp [← same]) rfl
  have no_false : Fails (word "false".toList) s :=
    fails_word fun ⟨_, same⟩ => apart 'f' (by decide) 'f' (by simp [← same]) rfl
  exact no_string.map.orElse_fails (no_time.bind.orElse_fails ((fails_number unnumeric).1.map.orElse_fails
    ((fails_number unnumeric).2.map.orElse_fails (no_true.bind.orElse_fails no_false.bind))))

/-- What starts with a sign or a letter is neither a string nor a time. -/
theorem fails_before_number (other : ∀ c ∈ s.head?, c.isDigit = false ∧ c ≠ '"' ∧ c ≠ '\x27') :
    Fails string s ∧ Fails time s :=
  ⟨fails_string fun c head => (other c head).2, fails_time_head fun c head => (other c head).1⟩

theorem IsSign.alone {sign : List Char} {negative : Bool} (isSign : IsSign sign negative)
    (other : ∀ c ∈ s.head?, c.isDigit = false ∧ c ≠ '"' ∧ c ≠ '\x27') :
    Fails string (sign ++ s) ∧ Fails time (sign ++ s) := by
  cases isSign with
  | absent => exact fails_before_number other
  | plus | minus => exact fails_before_number fun c head => by cases head; decide

/-- A number is neither a string nor a time. -/
theorem IsDecimal.alone {sign : List Char} {negative : Bool} (isSign : IsSign sign negative)
    (decimal : IsDecimal s ds) (other : ∀ c ∈ r.head?, c.isDigit = false ∧ c ≠ '-' ∧ c ≠ ':') :
    Fails string (sign ++ (s ++ r)) ∧ Fails time (sign ++ (s ++ r)) := by
  cases isSign with
  | plus | minus => exact fails_before_number fun c head => by cases head; decide
  | absent => exact ⟨fails_string (head_ne_of_digit decimal.first rfl rfl r), decimal.fails_time other⟩

theorem IsScale.first {f fs : List Char} {n : Int} (isScale : IsScale f fs n) (r : List Char) :
    ∀ c ∈ (f ++ r).head?, c.isDigit = false ∧ c ≠ '-' ∧ c ≠ ':' := by
  intro c head
  cases isScale with
  | power power =>
    obtain ⟨mark, -, -⟩ := power
    obtain rfl := Option.some.inj head
    rcases mark with rfl | rfl <;> decide
  | fraction | both =>
    cases head
    decide

theorem IsFloat.alone {x : Binary64} (isFloat : IsFloat s x) (r : List Char) :
    Fails string (s ++ r) ∧ Fails time (s ++ r) := by
  cases isFloat with
  | decimal isSign whole isScale finite =>
    rw [List.append_assoc, List.append_assoc]
    exact whole.alone isSign (isScale.first r)
  | infinite isSign | nan isSign =>
    rw [List.append_assoc]
    exact isSign.alone fun c head => by cases head; decide

theorem IsInteger.alone {n : Int} (isInteger : IsInteger s n) (ends : Ends r) :
    Fails string (s ++ r) ∧ Fails time (s ++ r) ∧ Fails float (s ++ r) := by
  cases isInteger with
  | decimal isSign decimal =>
    rw [List.append_assoc]
    obtain ⟨no_string, no_time⟩ := decimal.alone isSign (ends.first (by decide))
    exact ⟨no_string, no_time, fails_float isSign decimal (ends.first (by decide)) (ends.first (by decide))⟩
  | @based mark base s ds known _ =>
    have other : ∀ c ∈ (mark :: s ++ r).head?, c ∈ ['x', 'o', 'b'] := fun c head => by
      obtain rfl := Option.some.inj head
      rcases (by simpa using known : (mark = 'x' ∧ base = 16) ∨ (mark = 'o' ∧ base = 8) ∨ mark = 'b' ∧ base = 2)
        with ⟨rfl, -⟩ | ⟨rfl, -⟩ | ⟨rfl, -⟩ <;> decide
    have apart {p : Char → Prop} [DecidablePred p] (all : ['x', 'o', 'b'].all (p ·)) :
        ∀ c ∈ (mark :: s ++ r).head?, p c :=
      fun c head => of_decide_eq_true (List.all_eq_true.mp all c (other c head))
    obtain ⟨no_string, no_time⟩ := IsDecimal.zero.alone .absent (r := mark :: s ++ r) (apart (by decide))
    have no_float : Fails float ([] ++ (['0'] ++ (mark :: s ++ r))) :=
      fails_float .absent .zero (apart (by decide)) (apart (by decide))
    exact ⟨no_string, no_time, no_float⟩

theorem IsField.first {width low high n : Nat} (isField : IsField width low high s n) (wide : 0 < width) :
    ∃ c s', s = c :: s' ∧ c.isDigit := by
  obtain ⟨long, digits, -, -⟩ := isField
  obtain ⟨c, s, rfl⟩ := List.exists_cons_of_length_pos (long ▸ wide)
  exact ⟨c, s, rfl, digits c (.head _)⟩

theorem IsClock.first (clock : IsClock s) : ∃ c s', s = c :: s' ∧ c.isDigit := by
  obtain ⟨isHour, -, -⟩ := clock
  obtain ⟨c, h, rfl, digit⟩ := isHour.first (by decide)
  exact ⟨c, _, rfl, digit⟩

theorem IsDate.first (isDate : IsDate s) : ∃ c s', s = c :: s' ∧ c.isDigit := by
  obtain ⟨isYear, -, -⟩ := isDate
  obtain ⟨c, y, rfl, digit⟩ := isYear.first (by decide)
  exact ⟨c, _, rfl, digit⟩

theorem IsTime.first (isTime : IsTime s) : ∃ c s', s = c :: s' ∧ c.isDigit := by
  cases isTime with
  | day isDate => exact isDate.first
  | moment isDate | zoned isDate =>
    obtain ⟨c, s, rfl, digit⟩ := isDate.first
    exact ⟨c, _, rfl, digit⟩
  | clock isClock =>
    cases isClock with
    | whole clock => exact clock.first
    | fraction clock =>
      obtain ⟨c, s, rfl, digit⟩ := clock.first
      exact ⟨c, _, rfl, digit⟩

/-- A value without parts is read where a value may end. -/
theorem IsScalar.reads {x : Scalar} (isScalar : IsScalar s x) (ends : Ends r) : Reads scalar s x r := by
  cases isScalar with
  | text string => exact (string.reads (ends.first (by decide))).map.orElse
  | time isTime =>
    have no_string : Fails string (s ++ r) := fails_string (head_ne_of_digit isTime.first rfl rfl r)
    exact no_string.map.orElse (isTime.reads ends).bind_pure.orElse
  | float isFloat =>
    obtain ⟨no_string, no_time⟩ := isFloat.alone r
    exact no_string.map.orElse (no_time.bind.orElse (isFloat.reads ends).map.orElse)
  | integer isInteger fits =>
    obtain ⟨no_string, no_time, no_float⟩ := isInteger.alone ends
    exact no_string.map.orElse (no_time.bind.orElse (no_float.map.orElse (isInteger.reads fits ends).map.orElse))
  | boolTrue =>
    obtain ⟨no_string, no_time⟩ := fails_before_number (s := "true".toList ++ r) fun c head => by cases head; decide
    obtain ⟨no_float, no_integer⟩ := fails_number (s := "true".toList ++ r) fun c head => by cases head; decide
    exact no_string.map.orElse (no_time.bind.orElse (no_float.map.orElse (no_integer.map.orElse
      (reads_word _ r).bind_pure.orElse)))
  | boolFalse =>
    obtain ⟨no_string, no_time⟩ := fails_before_number (s := "false".toList ++ r) fun c head => by cases head; decide
    obtain ⟨no_float, no_integer⟩ := fails_number (s := "false".toList ++ r) fun c head => by cases head; decide
    have no_true : Fails (word "true".toList) ("false".toList ++ r) := fails_word (by simp)
    exact no_string.map.orElse (no_time.bind.orElse (no_float.map.orElse (no_integer.map.orElse
      (no_true.bind.orElse (reads_word _ r).bind_pure))))

end TierTagger.Toml
