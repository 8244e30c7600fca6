import TierTagger.Proofs.Json.Meaning

/-!
# The two forms of a record

`IsRecord`: an object with a member for each field, in any order and among others, or a list of the fields in
order. Which fields are written, and with which texts, is the same question for both (`entries`).

- `remaining`: what is left of an object or a list while it is read, be it at its start or behind an item.
- `Puts`: the entries are put into a record one after the other. The loops over members and over items do just
  that (`members_eq_ok`, `elements_eq_ok`), so a record is what is put into it (`means_entries`).
-/

namespace TierTagger.Json

open Ascii

variable {α β : Type} {s r t w : Bytes}

/-! ## Records as they are written -/

/-- An object: its members by name, with the texts of their values. -/
inductive IsObject : List (String × Bytes) → Bytes → Prop where
  | of {gap : Bytes} {ms : List (String × Member)} (blanks : Blanks gap) (proper : ∀ m ∈ ms, m.2.Proper)
    (spelled : ∀ m ∈ ms, SpelledText m.1 m.2.key) :
    IsObject (ms.map fun m => (m.1, m.2.element.value)) (objectText gap (ms.map (·.2)))

/-- A list: the texts of its items. -/
inductive IsList : List Bytes → Bytes → Prop where
  | of {gap : Bytes} {es : List Element} (blanks : Blanks gap) (padded : ∀ e ∈ es, e.Padded)
    (values : ∀ e ∈ es, IsValue e.kind e.value) :
    IsList (es.map (·.value)) (bracketed .list gap (es.map Element.text))

/-- The fields of a record: their names in order, and where each need not be written. -/
abbrev Shape := List (String × Absence)

/-- Each field is written at most once, and at least once if it is required. -/
def Shape.Fits (shape : Shape) (names : List String) : Prop :=
  ∀ f ∈ shape, names.count f.1 ≤ 1 ∧ (f.2 = .required → f.1 ∈ names)

/-- A record and its entries: the members of an object, or the items of a list, each named for its field. -/
inductive IsRecord (shape : Shape) : List (String × Bytes) → Bytes → Prop where
  | object {entries : List (String × Bytes)} {w : Bytes} (object : IsObject entries w)
    (fits : shape.Fits (entries.map (·.1))) : IsRecord shape entries w
  | list {values : List Bytes} {w : Bytes} (list : IsList values w) (few : values.length ≤ shape.length)
    (rest : ∀ f ∈ shape.drop values.length, f.2 = .defaulted) :
    IsRecord shape ((shape.map (·.1)).zip values) w

theorem IsObject.isValue {entries : List (String × Bytes)} (object : IsObject entries w) : IsValue .object w := by
  obtain ⟨blanks, proper, -⟩ := object
  refine isValue_object blanks fun m mem => ?_
  obtain ⟨m, held, rfl⟩ := List.mem_map.mp mem
  exact proper m held

theorem IsList.isValue {values : List Bytes} (list : IsList values w) : IsValue .list w := by
  obtain ⟨blanks, padded, values⟩ := list
  exact .list blanks padded values

theorem IsRecord.isValue {shape : Shape} {entries : List (String × Bytes)} (record : IsRecord shape entries w) :
    IsValue .object w ∨ IsValue .list w := by
  cases record with
  | object object => exact .inl object.isValue
  | list list => exact .inr list.isValue

theorem not_isRecord_null {shape : Shape} {entries : List (String × Bytes)} :
    ¬IsRecord shape entries (ofChar 'n' :: nullTail) := by
  intro record
  rcases record.isValue with value | value
  all_goals
    obtain ⟨b, t, same, -, kind⟩ := value.first
    cases same
    exact absurd kind (by decide)

/-- An object without blanks whose names need no escapes. -/
theorem isObject_compact (ms : List (String × Kind × Bytes)) (simple : ∀ m ∈ ms, Simple m.1)
    (values : ∀ m ∈ ms, IsValue m.2.1 m.2.2) : IsObject (ms.map fun m => (m.1, m.2.2)) (compactText ms) := by
  let member (m : String × Kind × Bytes) : Member := ⟨[], Utf8.encode m.1, [], ⟨[], m.2.1, m.2.2, []⟩⟩
  have object := @IsObject.of [] (ms.map fun m => (m.1, member m)) blanks_nil
    (List.forall_mem_map.mpr fun m mem => ⟨⟨blanks_nil, (spelledText_encode (simple m mem)).isChars, blanks_nil,
      blanks_nil, blanks_nil⟩, values m mem⟩)
    (List.forall_mem_map.mpr fun m mem => spelledText_encode (simple m mem))
  simpa [compactText, Function.comp_def] using object

/-- A list without blanks. -/
def compactList (items : List (Kind × Bytes)) : Bytes := bracketed .list [] (items.map (·.2))

theorem isList_compact (items : List (Kind × Bytes)) (values : ∀ i ∈ items, IsValue i.1 i.2) :
    IsList (items.map (·.2)) (compactList items) := by
  have list := @IsList.of [] (items.map fun i => ⟨[], i.1, i.2, []⟩) blanks_nil
    (List.forall_mem_map.mpr fun i _ => ⟨blanks_nil, blanks_nil⟩) (List.forall_mem_map.mpr values)
  simpa [compactList, Element.text, Function.comp_def] using list

/-! ## What is left of a list or an object -/

/-- What is left behind an opening bracket: items, each but the first of all after its comma, and the closing
bracket. -/
def remaining (k : Bracket) : Bool → List Bytes → Bytes
  | true, item :: items => item ++ closing k items
  | true, [] => closing k []
  | false, items => closing k items

theorem bracketed_eq (k : Bracket) (gap : Bytes) (items : List Bytes) :
    bracketed k gap items = k.opener :: (gap ++ remaining k true items) := by
  cases items <;> rfl

namespace Record

variable {k : Record α} {Q : Field α → (α → α) → Bytes → Prop} {seen : List String} {first : Bool} {a b : α}

/-- The fields of the record. -/
def shape (k : Record α) : Shape := k.fields.map fun f => (f.name, f.absence)

/-- An entry is put into the record, if a field is named like it. -/
inductive Takes (k : Record α) (Q : Field α → (α → α) → Bytes → Prop) : String × Bytes → α → α → Prop where
  | known {f : Field α} {put : α → α} {w : Bytes} {a : α} (mem : f ∈ k.fields) (told : Q f put w) :
    Takes k Q (f.name, w) a (put a)
  | unknown {e : String × Bytes} {a : α} (other : ∀ f ∈ k.fields, f.name ≠ e.1) : Takes k Q e a a

/-- The entries are put into the record one after the other. -/
inductive Puts (k : Record α) (Q : Field α → (α → α) → Bytes → Prop) : List (String × Bytes) → α → α → Prop where
  | nil {a : α} : Puts k Q [] a a
  | cons {e : String × Bytes} {es : List (String × Bytes)} {a a' b : α} (takes : Takes k Q e a a')
    (rest : Puts k Q es a' b) : Puts k Q (e :: es) a b

/-! ## Members -/

/-- The name is that of a field. -/
def Known (k : Record α) (name : String) : Prop := ∃ f ∈ k.fields, f.name = name

instance (k : Record α) (name : String) : Decidable (k.Known name) :=
  inferInstanceAs (Decidable (∃ f ∈ k.fields, f.name = name))

/-- The names of the fields that were read, with one more. -/
def note (k : Record α) (seen : List String) (name : String) : List String :=
  if k.Known name then name :: seen else seen

/-- What was noted and what is still to come make up the record. -/
theorem fits_note {name : String} {names : List String} :
    (k.Known name → name ∉ seen) ∧ k.shape.Fits (k.note seen name ++ names) ↔
      k.shape.Fits (seen ++ name :: names) := by
  have perm : (name :: (seen ++ names)).Perm (seen ++ name :: names) := List.perm_middle.symm
  have moved : k.shape.Fits (seen ++ name :: names) ↔ k.shape.Fits (name :: (seen ++ names)) := by
    simp only [Shape.Fits, perm.count_eq, perm.mem_iff]
  rw [moved]
  unfold note
  split
  · next known =>
    refine and_iff_right_of_imp fun fits _ held => ?_
    obtain ⟨f, mem, rfl⟩ := known
    have once : (f.name :: (seen ++ names)).count f.name ≤ 1 := (fits _ (List.mem_map_of_mem mem)).1
    rw [List.count_cons_self, List.count_append] at once
    have := List.count_pos_iff.mpr held
    omega
  · next unknown =>
    rw [and_iff_right fun known => absurd known unknown]
    simp only [shape, Shape.Fits, List.forall_mem_map]
    refine forall₂_congr fun f mem => ?_
    have apart : f.name ≠ name := fun same => unknown ⟨f, mem, same⟩
    rw [List.count_cons_of_ne (Ne.symm apart), List.mem_cons, or_iff_right apart]

theorem fits_nil (distinct : seen.Nodup) : k.shape.Fits seen ↔ k.missing? seen = none := by
  have once (name : String) : seen.count name ≤ 1 := List.nodup_iff_count.mp distinct name
  simp [shape, Shape.Fits, missing?, once]

theorem map_eq_ok {ε α β : Type} {x : Except ε α} {f : α → β} {b : β} :
    x.map f = .ok b ↔ ∃ a, x = .ok a ∧ f a = b := by
  cases x <;> simp [Except.map]

theorem takes_unknown {name : String} (unknown : ¬k.Known name) : Takes k Q (name, w) a b ↔ a = b := by
  constructor
  · intro takes
    cases takes with
    | known mem => exact absurd ⟨_, mem, rfl⟩ unknown
    | unknown => rfl
  · rintro rfl
    exact .unknown fun f mem same => unknown ⟨f, mem, same⟩

theorem takes_known (distinct : (k.fields.map (·.name)).Nodup) {f : Field α} (mem : f ∈ k.fields) :
    Takes k Q (f.name, w) a b ↔ ∃ put, Q f put w ∧ put a = b := by
  constructor
  · intro takes
    generalize entry : (f.name, w) = e at takes
    cases takes with
    | known mem' told =>
      obtain ⟨named, rfl⟩ := Prod.mk.inj entry
      have found := find?_name distinct mem
      rw [named, find?_name distinct mem'] at found
      cases found
      exact ⟨_, told, rfl⟩
    | unknown other =>
      cases entry
      exact absurd rfl (other f mem)
  · rintro ⟨put, told, rfl⟩
    exact .known mem told

/-- The members, each named by its key, make up the record with those that were read before. -/
def Filled (k : Record α) (Q : Field α → (α → α) → Bytes → Prop) (seen : List String) (ms : List Member)
    (a b : α) : Prop :=
  ∃ named : List (String × Member), named.map (·.2) = ms ∧ (∀ m ∈ named, SpelledText m.1 m.2.key) ∧
    Puts k Q (named.map fun m => (m.1, m.2.element.value)) a b ∧ k.shape.Fits (seen ++ named.map (·.1))

theorem puts_nil : Puts k Q [] a b ↔ a = b :=
  ⟨fun puts => by cases puts; rfl, fun same => same ▸ .nil⟩

theorem puts_cons {e : String × Bytes} {es : List (String × Bytes)} :
    Puts k Q (e :: es) a b ↔ ∃ a', Takes k Q e a a' ∧ Puts k Q es a' b := by
  constructor
  · rintro ⟨⟩
    exact ⟨_, ‹_›, ‹_›⟩
  · rintro ⟨a', takes, rest⟩
    exact .cons takes rest

theorem filled_nil (once : seen.Nodup) : Filled k Q seen [] a b ↔ k.missing? seen = none ∧ a = b := by
  have alone : Filled k Q seen [] a b ↔ Puts k Q [] a b ∧ k.shape.Fits (seen ++ []) := by
    simp [Filled]
  rw [alone, puts_nil, List.append_nil, fits_nil once, and_comm]

theorem filled_cons {m : Member} {ms : List Member} : Filled k Q seen (m :: ms) a b ↔
    ∃ name a', SpelledText name m.key ∧ (k.Known name → name ∉ seen) ∧ Takes k Q (name, m.element.value) a a' ∧
      Filled k Q (k.note seen name) ms a' b := by
  constructor
  · rintro ⟨named, listed, spelled, puts, fits⟩
    obtain ⟨⟨name, m⟩, named, rfl, rfl, rfl⟩ := List.map_eq_cons_iff.mp listed
    obtain ⟨spelled, others⟩ := List.forall_mem_cons.mp spelled
    obtain ⟨new, fits⟩ := fits_note.mpr fits
    obtain ⟨a', takes, puts⟩ := puts_cons.mp puts
    exact ⟨name, a', spelled, new, takes, named, rfl, others, puts, fits⟩
  · rintro ⟨name, a', spelled, new, takes, named, rfl, others, puts, fits⟩
    exact ⟨(name, m) :: named, rfl, List.forall_mem_cons.mpr ⟨spelled, others⟩, .cons takes puts,
      fits_note.mp ⟨new, fits⟩⟩

theorem nodup_note {name : String} (once : seen.Nodup) (new : k.Known name → name ∉ seen) :
    (k.note seen name).Nodup := by
  unfold Record.note
  split
  · next known => exact List.nodup_cons.mpr ⟨new known, once⟩
  · exact once

section
variable {gap : Bytes} {m : Member}

theorem nextKey_end (first : Bool) (blanks : Blanks gap) :
    nextKey first (gap ++ (remaining .object first [] ++ r)) = .ok (false, r) := by
  cases first <;> exact nextKey_closer blanks

theorem nextKey_next (first : Bool) (ms : List Member) (blanks : Blanks gap) (lead : Blanks m.lead) :
    nextKey first (gap ++ (remaining .object first ((m :: ms).map Member.text) ++ r)) =
      .ok (true, m.key ++ quote :: (m.gap ++ colon :: (m.element.text ++
        (remaining .object false (ms.map Member.text) ++ r)))) := by
  cases first with
  | true =>
    rw [List.map_cons, remaining, List.append_assoc]
    exact nextKey_first blanks lead
  | false =>
    rw [List.map_cons, remaining, closing_cons, List.cons_append, List.append_assoc]
    exact nextKey_comma blanks lead

end

/-- The object ends, and no field that has to be written is missing. -/
theorem members_last (last : nextKey first s = .ok (false, r)) :
    members k first seen a s = .ok (b, t) ↔ (k.missing? seen = none ∧ a = b) ∧ r = t := by
  constructor
  · intro read
    rw [members] at read
    split at read
    · cases read
    · next found =>
      rw [last] at found
      cases found
      split at read
      · cases read
      · next none =>
        cases read
        exact ⟨⟨none, rfl⟩, rfl⟩
    · next found =>
      rw [last] at found
      cases found
  · rintro ⟨⟨whole, rfl⟩, rfl⟩
    exact members_end last whole

section
variable (distinct : (k.fields.map (·.name)).Nodup) (means : ∀ f ∈ k.fields, Means f.read (Q f))
include distinct means

/-- A member is read: into the record if it is named for a field that was not read before, and past it if it is
not named for any. -/
theorem member_eq_ok {name : String} {m : Member} {seen' : List String} (proper : m.Proper)
    (delimited : Delimited r) :
    member k seen a name (m.gap ++ colon :: (m.element.text ++ r)) = .ok ((seen', b), t) ↔
      t = m.element.after ++ r ∧ seen' = k.note seen name ∧ (k.Known name → name ∉ seen) ∧
        Takes k Q (name, m.element.value) a b := by
  have text : m.element.text ++ r = m.element.before ++ (m.element.value ++ (m.element.after ++ r)) := by
    simp [Element.text]
  have blanks := proper.shaped.element.before
  have ends : Unnumeric (m.element.after ++ r) := (delimited.append proper.shaped.element.after).unnumeric
  unfold Record.member
  rw [readColon_append proper.shaped.gap, text]
  by_cases known : k.Known name
  · obtain ⟨f, mem, rfl⟩ := id known
    rw [find?_name distinct mem]
    simp only [note, known, if_true, true_implies]
    split
    · next old =>
      simp only [old, not_true_eq_false, false_and, and_false, iff_false]
      exact refuse_ne_ok _ _ _ _
    · next new =>
      simp only [map_eq_ok, Prod.exists, (means f mem).read_eq_ok blanks proper.value ends, Prod.mk.injEq,
        takes_known distinct mem, new, not_false_eq_true, true_and]
      constructor
      · rintro ⟨put, u, ⟨rfl, told⟩, ⟨rfl, rfl⟩, rfl⟩
        exact ⟨rfl, rfl, put, told, rfl⟩
      · rintro ⟨rfl, rfl, put, told, rfl⟩
        exact ⟨put, _, ⟨rfl, told⟩, ⟨rfl, rfl⟩, rfl⟩
  · have none : k.fields.find? (·.name = name) = none := by
      rw [List.find?_eq_none]
      exact fun f mem same => known ⟨f, mem, of_decide_eq_true same⟩
    rw [none]
    simp only [note, skipValue_complete blanks proper.value fun _ => ends, takes_unknown known,
      known, if_false, false_implies, true_and, Except.map, Except.ok.injEq, Prod.mk.injEq]
    constructor
    · rintro ⟨⟨rfl, rfl⟩, rfl⟩
      exact ⟨rfl, rfl, rfl⟩
    · rintro ⟨rfl, rfl, rfl⟩
      exact ⟨⟨rfl, rfl⟩, rfl⟩

/-- The next member is read, and then the others. -/
theorem members_step {m : Member} (proper : m.Proper) (delimited : Delimited r)
    (found : nextKey first s = .ok (true, m.key ++ quote :: (m.gap ++ colon :: (m.element.text ++ r)))) :
    members k first seen a s = .ok (b, t) ↔ ∃ name a', SpelledText name m.key ∧ (k.Known name → name ∉ seen) ∧
      Takes k Q (name, m.element.value) a a' ∧
      members k false (k.note seen name) a' (m.element.after ++ r) = .ok (b, t) := by
  constructor
  · intro read
    obtain ⟨name, u, seen', a', v, key, value, rest⟩ := members_inv found read
    obtain ⟨rfl, spelled⟩ := (string_chars proper.shaped.key).mp key
    obtain ⟨rfl, rfl, new, takes⟩ := (member_eq_ok distinct means proper delimited).mp value
    exact ⟨name, a', spelled, new, takes, rest⟩
  · rintro ⟨name, a', spelled, new, takes, rest⟩
    have value := (member_eq_ok distinct means proper delimited).mpr ⟨rfl, rfl, new, takes⟩
    rw [members_member found (string_spelled spelled) value]
    exact rest

/-- The members left to read are put into the record and make it up, with those that were read before. -/
theorem members_eq_ok {ms : List Member} {gap : Bytes} (once : seen.Nodup) (blanks : Blanks gap)
    (proper : ∀ m ∈ ms, m.Proper) :
    members k first seen a (gap ++ (remaining .object first (ms.map Member.text) ++ r)) = .ok (b, r) ↔
      Filled k Q seen ms a b := by
  induction ms generalizing gap seen a first with
  | nil =>
    rw [filled_nil once]
    exact (members_last (nextKey_end first blanks)).trans (and_iff_left rfl)
  | cons m ms ih =>
    obtain ⟨here, others⟩ := List.forall_mem_cons.mp proper
    have delimited := delimited_closing (r := r) .object (ms.map Member.text)
    rw [filled_cons, members_step distinct means here delimited (nextKey_next first ms blanks here.shaped.lead)]
    refine exists₂_congr fun name a' => and_congr_right fun _ => and_congr_right fun new =>
      and_congr_right fun _ => ?_
    exact ih (nodup_note once new) here.shaped.element.after others

/-- An object is read if its members make up the record. -/
theorem object_eq_ok {ms : List Member} {gap gap' : Bytes} (blanks : Blanks gap) (blanks' : Blanks gap')
    (proper : ∀ m ∈ ms, m.Proper) :
    k.decoder.read (gap ++ (objectText gap' ms ++ r)) = .ok (b, r) ↔ Filled k Q [] ms k.blank b := by
  have opened {t : Bytes} : k.decoder.read (gap ++ openBrace :: t) = members k true [] k.blank t := by
    simp only [decoder, Decoder.ofFirst]
    rw [skipBlanks_first blanks rfl]
    simp only [if_true]
  rw [objectText, bracketed_eq, List.cons_append, List.append_assoc, Bracket.opener, opened]
  exact members_eq_ok distinct means .nil blanks' proper

end

/-! ## Items -/

section
variable {gap : Bytes} {e : Element}

theorem nextItem_closer (blanks : Blanks gap) :
    Decoder.nextItem first (gap ++ closeBracket :: r) = .ok (none, closeBracket :: r) := by
  rw [Decoder.nextItem, skipBlanks_first blanks rfl]
  simp

theorem nextItem_first (blanks : Blanks gap) (padded : e.Padded) (value : IsValue e.kind e.value) : ∃ u,
    Decoder.nextItem true (gap ++ (e.text ++ r)) = .ok (some (e.value ++ (e.after ++ r)), u) := by
  obtain ⟨b, t, start, opens, -⟩ := value.first
  have found : skipBlanks (gap ++ (e.text ++ r)) = b :: (t ++ (e.after ++ r)) := by
    rw [skipBlanks_append blanks, Element.text, start, List.append_assoc, List.append_assoc, List.cons_append,
      skipBlanks_first padded.before opens.1]
  rw [Decoder.nextItem, found]
  simp [opens.2.2.1, start]

theorem nextItem_comma (blanks : Blanks gap) (padded : e.Padded) (value : IsValue e.kind e.value) : ∃ u,
    Decoder.nextItem false (gap ++ comma :: (e.text ++ r)) = .ok (some (e.value ++ (e.after ++ r)), u) := by
  obtain ⟨b, t, start, opens, -⟩ := value.first
  have found : skipBlanks (e.text ++ r) = b :: (t ++ (e.after ++ r)) := by
    rw [Element.text, start, List.append_assoc, List.append_assoc, List.cons_append,
      skipBlanks_first padded.before opens.1]
  rw [Decoder.nextItem, skipBlanks_first blanks rfl]
  simp [show comma ≠ closeBracket by decide, found, opens.2.2.1, start]

theorem nextItem_end (first : Bool) (blanks : Blanks gap) :
    Decoder.nextItem first (gap ++ (remaining .list first [] ++ r)) = .ok (none, closeBracket :: r) := by
  cases first <;> exact nextItem_closer blanks

theorem nextItem_next (first : Bool) (es : List Element) (blanks : Blanks gap) (padded : e.Padded)
    (value : IsValue e.kind e.value) : ∃ u,
    Decoder.nextItem first (gap ++ (remaining .list first ((e :: es).map Element.text) ++ r)) =
      .ok (some (e.value ++ (e.after ++ (remaining .list false (es.map Element.text) ++ r))), u) := by
  cases first with
  | true =>
    rw [List.map_cons, remaining, List.append_assoc]
    exact nextItem_first blanks padded value
  | false =>
    rw [List.map_cons, remaining, closing_cons, List.cons_append, List.append_assoc]
    exact nextItem_comma blanks padded value

/-- Nothing but the closing bracket ends a list. -/
theorem closeList_eq_ok (blanks : Blanks gap) {b : UInt8} (visible : isBlank b = false) :
    Decoder.closeList (gap ++ b :: r) = .ok t ↔ b = closeBracket ∧ r = t := by
  unfold Decoder.closeList
  rw [skipBlanks_first blanks visible]
  dsimp only
  split
  · next closes => simp [closes]
  · next opens =>
    simp only [opens, false_and, iff_false]
    split
    · split <;> simp [Fault.peek]
    · simp [Fault.peek]

/-- An item that is left keeps a list from ending. -/
theorem closeList_ne_ok {es : List Element} (blanks : Blanks gap) (padded : e.Padded)
    (value : IsValue e.kind e.value) :
    Decoder.closeList (gap ++ (remaining .list first ((e :: es).map Element.text) ++ r)) ≠ .ok t := by
  cases first with
  | true =>
    obtain ⟨b, u, start, opens, -⟩ := value.first
    have split : gap ++ (remaining .list true ((e :: es).map Element.text) ++ r) =
        gap ++ e.before ++ b :: (u ++ (e.after ++ (closing .list (es.map Element.text) ++ r))) := by
      simp [remaining, Element.text, start]
    have spaces : Blanks (gap ++ e.before) := List.forall_mem_append.mpr ⟨blanks, padded.before⟩
    rw [split, Ne, closeList_eq_ok spaces opens.1]
    exact fun ended => opens.2.2.1 ended.1
  | false =>
    rw [List.map_cons, remaining, closing_cons, List.cons_append, Ne, closeList_eq_ok blanks (b := comma) rfl]
    exact fun ended => absurd ended.1 (by decide)

end

/-- The items make up the fields in order, of which the last ones may be missing. -/
def Laid (k : Record α) (Q : Field α → (α → α) → Bytes → Prop) (left : List (Field α)) (values : List Bytes)
    (a b : α) : Prop :=
  values.length ≤ left.length ∧ (∀ f ∈ left.drop values.length, f.absence = .defaulted) ∧
    Puts k Q ((left.map (·.name)).zip values) a b

section
variable {f : Field α} {left : List (Field α)} {values : List Bytes}

theorem laid_end : Laid k Q [] [] a b ↔ a = b := by
  simp [Laid, puts_nil]

theorem laid_missing : Laid k Q (f :: left) [] a b ↔ f.absence = .defaulted ∧ Laid k Q left [] a b := by
  simp [Laid, and_assoc]

theorem not_laid_nil : ¬Laid k Q [] (w :: values) a b := by
  simp [Laid]

theorem laid_item (distinct : (k.fields.map (·.name)).Nodup) (mem : f ∈ k.fields) :
    Laid k Q (f :: left) (w :: values) a b ↔ ∃ put, Q f put w ∧ Laid k Q left values (put a) b := by
  simp only [Laid, List.length_cons, Nat.add_le_add_iff_right, List.drop_succ_cons, List.map_cons,
    List.zip_cons_cons, puts_cons, takes_known distinct mem]
  constructor
  · rintro ⟨few, rest, _, ⟨put, told, rfl⟩, puts⟩
    exact ⟨put, told, few, rest, puts⟩
  · rintro ⟨put, told, few, rest, puts⟩
    exact ⟨few, rest, _, ⟨put, told, rfl⟩, puts⟩

/-- The list ends, and no field is missing that has to be written. -/
theorem elements_end {index : Nat} {gap : Bytes} (blanks : Blanks gap) :
    elements k left index first a (gap ++ closeBracket :: r) = .ok (b, r) ↔ Laid k Q left [] a b := by
  induction left generalizing index gap with
  | nil =>
    rw [elements, map_eq_ok, laid_end]
    simp [closeList_eq_ok blanks (b := closeBracket) rfl]
  | cons f fs ih =>
    rw [elements, nextItem_closer blanks, laid_missing]
    dsimp only
    split
    · next defaulted => exact (ih blanks_nil).trans (and_iff_right defaulted).symm
    · next required =>
      simp only [required, false_and, iff_false]
      exact refuse_ne_ok _ _ _ _

end

section
variable (distinct : (k.fields.map (·.name)).Nodup) (means : ∀ f ∈ k.fields, Means f.read (Q f))
include distinct means

omit distinct in
/-- The next item is read into its field, and then the others. -/
theorem elements_step {f : Field α} {left : List (Field α)} {index : Nat} {e : Element} {u : Bytes}
    (mem : f ∈ k.fields) (padded : e.Padded) (value : IsValue e.kind e.value) (delimited : Delimited r)
    (found : Decoder.nextItem first s = .ok (some (e.value ++ (e.after ++ r)), u)) :
    elements k (f :: left) index first a s = .ok (b, t) ↔ ∃ put, Q f put e.value ∧
      elements k left (index + 1) false (put a) (e.after ++ r) = .ok (b, t) := by
  have ends : Unnumeric (e.after ++ r) := (delimited.append padded.after).unnumeric
  have reads {put : α → α} {v : Bytes} : f.read.read (e.value ++ (e.after ++ r)) = .ok (put, v) ↔
      v = e.after ++ r ∧ Q f put e.value := (means f mem).read_eq_ok blanks_nil value ends
  rw [elements, found]
  dsimp only
  constructor
  · intro read
    split at read
    · cases read
    · next put v item =>
      obtain ⟨rfl, told⟩ := reads.mp item
      exact ⟨put, told, read⟩
  · rintro ⟨put, told, rest⟩
    rw [reads.mpr ⟨rfl, told⟩]
    exact rest

/-- The items left to read are put into the fields left to read. -/
theorem elements_eq_ok {left : List (Field α)} {index : Nat} {es : List Element} {gap : Bytes}
    (known : ∀ f ∈ left, f ∈ k.fields) (blanks : Blanks gap) (padded : ∀ e ∈ es, e.Padded)
    (values : ∀ e ∈ es, IsValue e.kind e.value) :
    elements k left index first a (gap ++ (remaining .list first (es.map Element.text) ++ r)) = .ok (b, r) ↔
      Laid k Q left (es.map (·.value)) a b := by
  induction es generalizing left index gap a first with
  | nil =>
    have ended : remaining .list first [] = [closeBracket] := by cases first <;> rfl
    rw [List.map_nil, ended]
    exact elements_end blanks
  | cons e es ih =>
    obtain ⟨around, arounds⟩ := List.forall_mem_cons.mp padded
    obtain ⟨value, others⟩ := List.forall_mem_cons.mp values
    have delimited := delimited_closing (r := r) .list (es.map Element.text)
    cases left with
    | nil =>
      simp only [elements, map_eq_ok, List.map_cons (f := fun e : Element => e.value), not_laid_nil, iff_false]
      rintro ⟨u, ended, -⟩
      exact closeList_ne_ok blanks around value ended
    | cons f left =>
      obtain ⟨mem, known⟩ := List.forall_mem_cons.mp known
      obtain ⟨u, found⟩ := nextItem_next first es (r := r) blanks around value
      rw [elements_step means mem around value delimited found, List.map_cons, laid_item distinct mem]
      exact exists_congr fun put => and_congr_right fun _ => ih known around.after arounds others

/-- A list is read if its items make up the record. -/
theorem list_eq_ok {es : List Element} {gap gap' : Bytes} (blanks : Blanks gap) (blanks' : Blanks gap')
    (padded : ∀ e ∈ es, e.Padded) (values : ∀ e ∈ es, IsValue e.kind e.value) :
    k.decoder.read (gap ++ (bracketed .list gap' (es.map Element.text) ++ r)) = .ok (b, r) ↔
      Laid k Q k.fields (es.map (·.value)) k.blank b := by
  have opened {t : Bytes} :
      k.decoder.read (gap ++ openBracket :: t) = elements k k.fields 0 true k.blank t := by
    simp only [decoder, Decoder.ofFirst]
    rw [skipBlanks_first blanks rfl]
    simp [show openBracket ≠ openBrace by decide]
  rw [bracketed_eq, List.cons_append, List.append_assoc, Bracket.opener, opened]
  exact elements_eq_ok distinct means (fun _ mem => mem) blanks' padded values

/-- A record is read off both of its forms, entry by entry. -/
theorem means_entries : Means k.decoder fun b w =>
    ∃ entries, IsRecord k.shape entries w ∧ Puts k Q entries k.blank b where
  exact := exact_decoder fun f mem => (means f mem).exact
  value := fun ⟨_, record, _⟩ => record.isValue.elim (⟨.object, ·⟩) (⟨.list, ·⟩)
  read := by
    intro gap kind w r b blanks value ends
    have laid {values : List Bytes} : Laid k Q k.fields values k.blank b ↔ values.length ≤ k.shape.length ∧
        (∀ f ∈ k.shape.drop values.length, f.2 = .defaulted) ∧
          Puts k Q ((k.shape.map (·.1)).zip values) k.blank b := by
      simp [Laid, shape, ← List.map_drop, Function.comp_def]
    constructor
    · intro read
      have known : kind = .object ∨ kind = .list := by
        refine Decidable.byContradiction fun other => ?_
        rw [not_or] at other
        exact refuses_record value other.2 other.1 gap r b r blanks read
      rcases known with rfl | rfl
      · cases value with
        | object blanks' shaped values =>
          have proper := fun m mem => Member.Proper.mk (shaped m mem) (values m mem)
          obtain ⟨named, rfl, spelled, puts, fits⟩ := (object_eq_ok distinct means blanks blanks' proper).mp read
          have object := IsObject.of blanks' (fun m mem => proper m.2 (List.mem_map_of_mem mem)) spelled
          exact ⟨_, .object object (by simpa [Function.comp_def] using fits), puts⟩
      · cases value with
        | list blanks' padded values =>
          obtain ⟨few, rest, puts⟩ := laid.mp ((list_eq_ok distinct means blanks blanks' padded values).mp read)
          exact ⟨_, .list (.of blanks' padded values) few rest, puts⟩
    · rintro ⟨entries, record, puts⟩
      cases record with
      | object object fits =>
        obtain ⟨blanks', proper, spelled⟩ := object
        refine (object_eq_ok distinct means blanks blanks' (List.forall_mem_map.mpr proper)).mpr
          ⟨_, rfl, spelled, puts, ?_⟩
        simpa [Function.comp_def] using fits
      | list list few rest =>
        obtain ⟨blanks', padded, values⟩ := list
        exact (list_eq_ok distinct means blanks blanks' padded values).mpr (laid.mpr ⟨few, rest, puts⟩)

end

end Record

end TierTagger.Json
