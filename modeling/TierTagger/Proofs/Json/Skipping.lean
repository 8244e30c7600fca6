import TierTagger.Proofs.Json.Lexemes
import TierTagger.Proofs.Json.Spelling

/-!
# Skipping follows the grammar

What `skipValue` passes over is one well-formed value with the blanks in front of it, and it passes over
every well-formed value (`skipValue_sound`, `skipValue_complete`). In between stands how the open brackets
are worked off: the outer ones wait until the inner ones are closed (`skip_append`).
-/

namespace TierTagger.Json

open Ascii

variable {s t r w : Bytes}

/-! ## Open brackets -/

variable {b : UInt8} {k : Bracket} {inner outer open_ : List Bracket} {stage : Stage}

/-- What is done after a value: the innermost bracket goes on, if there is one. -/
def resume (open_ : List Bracket) (s : Bytes) : Except Fault Bytes :=
  if open_.isEmpty then .ok s else skip (.item true) open_ s

theorem skip_eq (s : Bytes) : skip stage open_ s =
    match skipBlanks s with
    | [] =>
      match stage, open_ with
      | .item _, k :: _ => Fault.peek [] k.endCause
      | .member, _ => Fault.peek [] .endInObject
      | _, _ => Fault.peek [] .endInValue
    | b :: r =>
      match stage with
      | .value =>
        if b = openBracket then skip (.item false) (.list :: open_) r
        else if b = openBrace then skip (.item false) (.object :: open_) r
        else skipScalar b r >>= resume open_
      | .member =>
        if b = quote then skipKey r >>= skip .value open_ else Fault.peek (b :: r) .keyNotString
      | .item more =>
        match open_ with
        | [] => .ok (b :: r)
        | k :: outer =>
          if b = comma ∧ more then skip k.start (k :: outer) r
          else if b = k.closer then resume outer r
          else if more then Fault.peek (b :: r) k.commaCause
          else skip k.start (k :: outer) (b :: r) := by
  rw [skip.eq_def]
  split
  · next none =>
    cases stage <;> cases open_ <;> simp only [none]
  · next found =>
    simp only [found]
    cases stage with
    | value =>
      dsimp only
      split
      · rfl
      split
      · rfl
      split
      · next refused => simp [refused, bind, Except.bind]
      · next passed => simp [passed, bind, Except.bind, resume]
    | member =>
      dsimp only
      split
      · split
        · next refused => simp [refused, bind, Except.bind]
        · next passed => simp [passed, bind, Except.bind]
      · rfl
    | item more => rfl

@[simp] theorem closer_ne_comma : k.closer ≠ comma := by cases k <;> decide

/-- The outer brackets wait until the inner ones are closed. -/
theorem skip_append (waits : inner ≠ [] ∨ stage = .value ∨ stage = .member) :
    skip stage (inner ++ outer) s = skip stage inner s >>= resume outer := by
  fun_induction skip stage inner s
  -- the text is over: only an item outside all brackets ends there, and it does not wait
  case case3 stage open_ s none not_member not_item =>
    rw [skip_eq, none]
    cases stage with
    | value => rfl
    | member => exact absurd rfl not_member
    | item more =>
      cases open_ with
      | nil => simp at waits
      | cons k open_ => exact absurd rfl (not_item more k open_ rfl)
  all_goals
    rw [skip_eq]
    simp_all [Fault.peek, bind, Except.bind, resume]

theorem skip_value (open_ : List Bracket) (s : Bytes) : skip .value open_ s = skipValue s >>= resume open_ := by
  rw [skipValue, ← skip_append (.inr (.inl rfl)), List.nil_append]

theorem skip_blanks (blanks : Blanks s) : skip stage open_ (s ++ r) = skip stage open_ r := by
  rw [skip_eq, skip_eq r, skipBlanks_append blanks]

/-- The closing bracket of the innermost list or object. -/
theorem skip_closer {more : Bool} (found : skipBlanks s = k.closer :: r) :
    skip (.item more) (k :: outer) s = resume outer r := by
  rw [skip_eq, found]
  simp

/-- A comma leads to the next item. -/
theorem skip_comma (found : skipBlanks s = comma :: r) :
    skip (.item true) (k :: outer) s = skip k.start (k :: outer) r := by
  rw [skip_eq, found]
  simp

theorem skip_skipBlanks (s : Bytes) : skip stage open_ (skipBlanks s) = skip stage open_ s := by
  obtain ⟨gap, split, blanks⟩ := skipBlanks_split s
  conv => rhs; rw [split]
  exact (skip_blanks blanks).symm

/-- The first item comes without a comma. -/
theorem skip_first (found : skipBlanks s = b :: r) (opens : b ≠ k.closer) :
    skip (.item false) (k :: outer) s = skip k.start (k :: outer) s := by
  rw [skip_eq, found]
  simp only [opens, if_false, Bool.false_eq_true, and_false]
  rw [← found, skip_skipBlanks]

/-! ## Every value is passed over -/

theorem Opens.ne_closer (opens : Opens b) : b ≠ k.closer := by
  cases k with
  | list => exact opens.2.2.1
  | object => exact opens.2.2.2

theorem skipBlanks_first {gap : Bytes} (blanks : Blanks gap) (visible : isBlank b = false) :
    skipBlanks (gap ++ b :: r) = b :: r := by
  rw [skipBlanks_append blanks, skipBlanks, List.dropWhile_cons_of_neg (by simp [visible])]

/-- What may follow a value: blanks, and then nothing, a comma or a closing bracket. -/
def Delimited (r : Bytes) : Prop :=
  ∀ b ∈ r.head?, isBlank b = true ∨ b = comma ∨ b = closeBracket ∨ b = closeBrace

theorem Delimited.unnumeric (delimited : Delimited r) : Unnumeric r := by
  intro b head
  rcases delimited b head with blank | rfl | rfl | rfl
  · simp only [isBlank, Bool.or_eq_true, decide_eq_true_eq] at blank
    rcases blank with ((rfl | rfl) | rfl) | rfl <;> decide
  all_goals decide

theorem Delimited.append {gap : Bytes} (blanks : Blanks gap) (delimited : Delimited r) :
    Delimited (gap ++ r) := by
  cases gap with
  | nil => exact delimited
  | cons c gap =>
    rintro b head
    cases head
    exact .inl (blanks c (.head _))

theorem delimited_closing (k : Bracket) (items : List Bytes) : Delimited (closing k items ++ r) := by
  cases items with
  | nil =>
    rintro b head
    cases head
    cases k with
    | list => exact .inr (.inr (.inl rfl))
    | object => exact .inr (.inr (.inr rfl))
  | cons item items =>
    rintro b head
    cases head
    exact .inr (.inl rfl)

theorem closing_cons (k : Bracket) (item : Bytes) (items : List Bytes) :
    closing k (item :: items) = comma :: (item ++ closing k items) := by
  simp [closing]

/-- A text that is passed over as an item of a bracket, and starts like one. -/
structure IsItem (k : Bracket) (w : Bytes) : Prop where
  first : ∃ gap b t, w = gap ++ b :: t ∧ Blanks gap ∧ isBlank b = false ∧ b ≠ k.closer
  skipped : ∀ outer r, Delimited r →
    skip k.start (k :: outer) (w ++ r) = skip (.item true) (k :: outer) r

theorem skip_closing {items : List Bytes} (all : ∀ w ∈ items, IsItem k w) :
    skip (.item true) (k :: outer) (closing k items ++ r) = resume outer r := by
  induction items with
  | nil =>
    refine skip_closer (skipBlanks_cons ?_)
    cases k <;> rfl
  | cons w items ih =>
    obtain ⟨item, rest⟩ := List.forall_mem_cons.mp all
    rw [closing_cons, List.cons_append, skip_comma (skipBlanks_cons rfl),
      List.append_assoc, item.skipped _ _ (delimited_closing k items), ih rest]

/-- A list or an object is passed over if its items are. -/
theorem skip_bracketed {gap : Bytes} {items : List Bytes} (blanks : Blanks gap)
    (all : ∀ w ∈ items, IsItem k w) (outer : List Bracket) (r : Bytes) : ∃ t, bracketed k gap items ++ r = k.opener :: t ∧
      skip (.item false) (k :: outer) t = resume outer r := by
  cases items with
  | nil =>
    refine ⟨gap ++ k.closer :: r, by simp [bracketed], skip_closer (skipBlanks_first blanks ?_)⟩
    cases k <;> rfl
  | cons w items =>
    obtain ⟨item, rest⟩ := List.forall_mem_cons.mp all
    refine ⟨gap ++ (w ++ (closing k items ++ r)), by simp [bracketed], ?_⟩
    obtain ⟨lead, b, t, start, more, visible, opens⟩ := item.first
    have found : skipBlanks (gap ++ (w ++ (closing k items ++ r))) = b :: (t ++ (closing k items ++ r)) := by
      rw [skipBlanks_append blanks, start, List.append_assoc, List.cons_append,
        skipBlanks_first more visible]
    rw [skip_first found opens]
    have blank : skip k.start (k :: outer) (gap ++ (w ++ (closing k items ++ r))) =
        skip k.start (k :: outer) (w ++ (closing k items ++ r)) := skip_blanks blanks
    rw [blank, item.skipped _ _ (delimited_closing k items), skip_closing rest]

theorem resume_eq (opened : open_ ≠ []) : resume open_ s = skip (.item true) open_ s := by
  simp [resume, opened]

/-- A value is passed over: what follows it must not go on a number, and is free otherwise. -/
def Skipped (k : Kind) (w : Bytes) : Prop :=
  ∀ open_ r, (k = .number → Unnumeric r) → skip .value open_ (w ++ r) = resume open_ r

theorem Skipped.element {e : Element} (padded : e.Padded)
    (skipped : Skipped e.kind e.value) {k : Bracket} {outer : List Bracket} {r : Bytes}
    (delimited : Delimited r) :
    skip .value (k :: outer) (e.text ++ r) = skip (.item true) (k :: outer) r := by
  rw [Element.text, List.append_assoc, List.append_assoc, skip_blanks padded.before,
    skipped _ _ fun _ => (delimited.append padded.after).unnumeric, resume_eq (by simp),
    skip_blanks padded.after]

theorem isItem_element {e : Element} (padded : e.Padded) (value : IsValue e.kind e.value)
    (skipped : Skipped e.kind e.value) : IsItem .list e.text := by
  obtain ⟨b, t, start, opens, -⟩ := value.first
  refine ⟨⟨e.before, b, t ++ e.after, ?_, padded.before, opens.1, opens.ne_closer⟩,
    fun outer r delimited => skipped.element padded delimited⟩
  rw [Element.text, start, List.cons_append]

theorem readColon_append {gap : Bytes} (blanks : Blanks gap) : readColon (gap ++ colon :: r) = .ok r := by
  rw [readColon, skipBlanks_first blanks rfl]
  simp

theorem isItem_member {m : Member} (shaped : m.Shaped)
    (skipped : Skipped m.element.kind m.element.value) : IsItem .object m.text := by
  refine ⟨⟨m.lead, quote, _, rfl, shaped.lead, rfl, by decide⟩, fun outer r delimited => ?_⟩
  have key : skipKey (m.key ++ quote :: (m.gap ++ colon :: (m.element.text ++ r))) =
      .ok (m.element.text ++ r) := by
    rw [skipKey, skipString_append shaped.key]
    exact readColon_append shaped.gap
  have text : m.text ++ r =
      m.lead ++ quote :: (m.key ++ quote :: (m.gap ++ colon :: (m.element.text ++ r))) := by
    simp [Member.text]
  rw [text, Bracket.start, skip_eq, skipBlanks_first shaped.lead rfl]
  simp only [if_true, key]
  exact skipped.element shaped.element delimited

/-- A value that is no list and no object is passed over if its lexeme is. -/
theorem skipped_scalar {k : Kind} {t : Bytes} (visible : isBlank b = false) (not_list : b ≠ openBracket)
    (not_object : b ≠ openBrace)
    (lexeme : ∀ r, (k = .number → Unnumeric r) → skipScalar b (t ++ r) = .ok r) : Skipped k (b :: t) := by
  intro open_ r ends
  rw [skip_eq, List.cons_append, skipBlanks_cons visible]
  simp only [if_neg not_list, if_neg not_object, lexeme r ends]
  rfl

theorem skipped_number (number : IsNumber w) : Skipped .number w := by
  cases number with
  | negative magnitude =>
    exact skipped_scalar rfl (by decide) (by decide) fun r ends => skipNumber_append magnitude (ends rfl)
  | positive magnitude =>
    obtain ⟨b, t, rfl, digit⟩ := magnitude.first
    have apart := fun c => ne_of_isDigit (c := c) digit
    refine skipped_scalar (opens_digit digit).1 (apart _ rfl) (apart _ rfl) fun r ends => ?_
    unfold skipScalar
    rw [if_neg (apart _ rfl), if_neg (apart _ rfl), if_neg (apart _ rfl), if_neg (apart _ rfl), if_pos digit]
    exact skipNumber_append magnitude (ends rfl)

theorem IsValue.skipped {k : Kind} (value : IsValue k w) : Skipped k w := by
  induction value with
  | null => exact skipped_scalar rfl (by decide) (by decide) fun r _ => letters_append nullTail
  | boolTrue => exact skipped_scalar rfl (by decide) (by decide) fun r _ => letters_append trueTail
  | boolFalse => exact skipped_scalar rfl (by decide) (by decide) fun r _ => letters_append falseTail
  | number number => exact skipped_number number
  | text chars =>
    refine skipped_scalar rfl (by decide) (by decide) fun r _ => ?_
    rw [List.append_assoc]
    exact skipString_append chars
  | @list gap es blanks padded values skipped =>
    intro open_ r _
    have all : ∀ w ∈ es.map Element.text, IsItem .list w := by
      rintro w mem
      obtain ⟨e, held, rfl⟩ := List.mem_map.mp mem
      exact isItem_element (padded e held) (values e held) (skipped e held)
    obtain ⟨t, text, rest⟩ := skip_bracketed blanks all open_ r
    rw [text, skip_eq, skipBlanks_cons rfl]
    exact rest
  | @object gap ms blanks shaped values skipped =>
    intro open_ r _
    have all : ∀ w ∈ ms.map Member.text, IsItem .object w := by
      rintro w mem
      obtain ⟨m, held, rfl⟩ := List.mem_map.mp mem
      exact isItem_member (shaped m held) (skipped m held)
    obtain ⟨t, text, rest⟩ := skip_bracketed blanks all open_ r
    rw [objectText, text, skip_eq, skipBlanks_cons rfl]
    exact rest

/-- Every well-formed value is passed over, with the blanks in front of it. -/
theorem skipValue_complete {k : Kind} {gap : Bytes} (blanks : Blanks gap) (value : IsValue k w)
    (ends : k = .number → Unnumeric r) : skipValue (gap ++ (w ++ r)) = .ok r := by
  rw [skipValue, skip_blanks blanks, value.skipped [] r ends]
  rfl

/-! ## Whatever is passed over is a value -/

/-- An item of a list or an object. -/
def Written : Bracket → Bytes → Prop
  | .list, w => ∃ e : Element, w = e.text ∧ e.Padded ∧ IsValue e.kind e.value
  | .object, w => ∃ m : Member, w = m.text ∧ m.Shaped ∧ IsValue m.element.kind m.element.value

/-- The kind of what a bracket holds. -/
def Bracket.kind : Bracket → Kind
  | list => .list
  | object => .object

theorem exists_map {α β : Type} {f : α → β} {P : α → Prop} {ys : List β}
    (all : ∀ y ∈ ys, ∃ x, y = f x ∧ P x) : ∃ xs : List α, ys = xs.map f ∧ ∀ x ∈ xs, P x := by
  induction ys with
  | nil => exact ⟨[], rfl, by simp⟩
  | cons y ys ih =>
    obtain ⟨⟨x, rfl, proper⟩, rest⟩ := List.forall_mem_cons.mp all
    obtain ⟨xs, rfl, others⟩ := ih rest
    exact ⟨x :: xs, rfl, List.forall_mem_cons.mpr ⟨proper, others⟩⟩

theorem isValue_bracketed {gap : Bytes} {items : List Bytes} (blanks : Blanks gap)
    (all : ∀ w ∈ items, Written k w) : IsValue k.kind (bracketed k gap items) := by
  cases k with
  | list =>
    obtain ⟨es, rfl, proper⟩ := exists_map all
    exact .list blanks (fun e mem => (proper e mem).1) fun e mem => (proper e mem).2
  | object =>
    obtain ⟨ms, rfl, proper⟩ := exists_map all
    exact .object blanks (fun m mem => (proper m mem).1) fun m mem => (proper m mem).2

theorem skipKey_sound (skipped : skipKey s = .ok r) :
    ∃ key gap, s = key ++ quote :: (gap ++ colon :: r) ∧ IsChars key ∧ Blanks gap := by
  unfold skipKey at skipped
  split at skipped
  · cases skipped
  · next u passed =>
    obtain ⟨key, rfl, chars⟩ := skipString_sound passed
    obtain ⟨gap, split, blanks⟩ := skipBlanks_split u
    unfold readColon at skipped
    split at skipped
    · cases skipped
    · next found =>
      split at skipped
      · next same =>
        cases skipped
        exact ⟨key, gap, by rw [found, same] at split; rw [← split], chars, blanks⟩
      · cases skipped

theorem bind_eq_ok {ε α β : Type} {x : Except ε α} {f : α → Except ε β} {b : β} :
    x >>= f = .ok b ↔ ∃ a, x = .ok a ∧ f a = .ok b := by
  cases x <;> simp [bind, Except.bind]

/-! The four of them follow `skip` at the innermost bracket. They go to a shorter text, or at the same text from
`inside_sound` to `start_sound` and from there to `skipValue_sound`, hence the second number of the measure. -/

mutual

theorem skipValue_sound (s t : Bytes) (skipped : skipValue s = .ok t) :
    ∃ gap k w, s = gap ++ (w ++ t) ∧ Blanks gap ∧ IsValue k w := by
  obtain ⟨gap, split, blanks⟩ := skipBlanks_split s
  rw [skipValue, skip_eq] at skipped
  split at skipped
  · cases skipped
  · next b r found =>
    have shorter : r.length < s.length := by
      have := skipBlanks_length s
      simp only [found, List.length_cons] at this
      omega
    rw [found] at split
    dsimp only at skipped
    split at skipped
    · next opener =>
      obtain ⟨w, rest, value⟩ := inside_sound .list r t skipped
      exact ⟨gap, _, w, by rw [split, opener, ← rest]; rfl, blanks, value⟩
    split at skipped
    · next opener =>
      obtain ⟨w, rest, value⟩ := inside_sound .object r t skipped
      exact ⟨gap, _, w, by rw [split, opener, ← rest]; rfl, blanks, value⟩
    · obtain ⟨u, scalar, last⟩ := bind_eq_ok.mp skipped
      cases last
      obtain ⟨k, w, rest, value⟩ := skipScalar_sound scalar
      exact ⟨gap, k, w, by rw [split, rest], blanks, value⟩
termination_by (s.length, 0)

theorem inside_sound (k : Bracket) (s t : Bytes) (skipped : skip (.item false) [k] s = .ok t) :
    ∃ w, k.opener :: s = w ++ t ∧ IsValue k.kind w := by
  obtain ⟨gap, split, blanks⟩ := skipBlanks_split s
  rw [skip_eq] at skipped
  split at skipped
  · cases skipped
  · next b r found =>
    rw [found] at split
    simp only [Bool.false_eq_true, and_false, if_false] at skipped
    split at skipped
    · next closes =>
      cases skipped
      exact ⟨bracketed k gap [], by simp [bracketed, split, closes], isValue_bracketed blanks (by simp)⟩
    · rw [← found, skip_skipBlanks] at skipped
      obtain ⟨w, items, rfl, first, rest⟩ := start_sound k s t skipped
      exact ⟨bracketed k [] (w :: items), by simp [bracketed],
        isValue_bracketed blanks_nil (List.forall_mem_cons.mpr ⟨first, rest⟩)⟩
termination_by (s.length, 2)

theorem start_sound (k : Bracket) (s t : Bytes) (skipped : skip k.start [k] s = .ok t) :
    ∃ w items, s = w ++ (closing k items ++ t) ∧ Written k w ∧ ∀ w ∈ items, Written k w := by
  cases k with
  | list =>
    obtain ⟨u, passed, more⟩ := bind_eq_ok.mp (skip_value _ s ▸ skipped)
    have shorter := skipValue_length passed
    obtain ⟨gap, k, w, split, blanks, value⟩ := skipValue_sound s u passed
    obtain ⟨after, items, split', blanks', rest⟩ := rest_sound .list u t more
    exact ⟨gap ++ (w ++ after), items, by rw [split, split']; simp,
      ⟨⟨gap, k, w, after⟩, rfl, ⟨blanks, blanks'⟩, value⟩, rest⟩
  | object =>
    obtain ⟨lead, split, blanks⟩ := skipBlanks_split s
    rw [Bracket.start, skip_eq] at skipped
    split at skipped
    · cases skipped
    · next b r found =>
      dsimp only at skipped
      split at skipped
      · next same =>
        obtain ⟨u, key, passed⟩ := bind_eq_ok.mp skipped
        obtain ⟨v, passed, more⟩ := bind_eq_ok.mp (skip_value _ u ▸ passed)
        have shorter := skipBlanks_length s
        simp only [found, List.length_cons] at shorter
        have shorter₁ : u.length < s.length := by have := skipKey_length key; omega
        have shorter₂ : v.length < s.length := by have := skipValue_length passed; omega
        obtain ⟨key, gap, split₁, chars, blanks₁⟩ := skipKey_sound key
        obtain ⟨before, k, w, split₂, blanks₂, value⟩ := skipValue_sound u v passed
        obtain ⟨after, items, split₃, blanks₃, rest⟩ := rest_sound .object v t more
        refine ⟨lead ++ quote :: (key ++ quote :: (gap ++ colon :: (before ++ (w ++ after)))), items, ?_,
          ⟨⟨lead, key, gap, before, k, w, after⟩, rfl, ⟨blanks, chars, blanks₁, blanks₂, blanks₃⟩, value⟩, rest⟩
        rw [split, found, same, split₁, split₂, split₃]
        simp
      · cases skipped
termination_by (s.length, 1)

theorem rest_sound (k : Bracket) (s t : Bytes) (skipped : skip (.item true) [k] s = .ok t) :
    ∃ after items, s = after ++ (closing k items ++ t) ∧ Blanks after ∧ ∀ w ∈ items, Written k w := by
  obtain ⟨gap, split, blanks⟩ := skipBlanks_split s
  rw [skip_eq] at skipped
  split at skipped
  · cases skipped
  · next b r found =>
    have shorter : r.length < s.length := by
      have := skipBlanks_length s
      simp only [found, List.length_cons] at this
      omega
    rw [found] at split
    simp only [and_true, if_true] at skipped
    split at skipped
    · next more =>
      obtain ⟨w, items, split', first, rest⟩ := start_sound k r t skipped
      refine ⟨gap, w :: items, ?_, blanks, List.forall_mem_cons.mpr ⟨first, rest⟩⟩
      rw [split, more, split', closing_cons]
      simp
    split at skipped
    · next closes =>
      cases skipped
      exact ⟨gap, [], by simp [closing, split, closes], blanks, by simp⟩
    · cases skipped
termination_by (s.length, 2)

end

end TierTagger.Json
