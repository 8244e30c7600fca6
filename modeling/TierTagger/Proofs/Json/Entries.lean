import TierTagger.Proofs.Json.Parts

/-!
# The entries of a text

A text is an object, or a list, in one way at most (`IsObject.unique`, `IsList.unique`), so what its entries are is
known from the text. For a text that is known to be one of them, being a record is a matter of its entries
(`isRecord_object`, `isRecord_list`).
-/

namespace TierTagger.Json

open Ascii

variable {s r r' t w w' gap gap' : Bytes} {kind kind' : Kind}

/-! ## Values -/

/-- Where a value ends is known from the text. -/
theorem value_unique (value : IsValue kind w) (value' : IsValue kind' w') (ends : Unnumeric r) (ends' : Unnumeric r')
    (same : w ++ r = w' ++ r') : w = w' ∧ r = r' := by
  have rest : skipValue (w ++ r) = .ok r := skipValue_complete blanks_nil value fun _ => ends
  rw [same, show skipValue (w' ++ r') = .ok r' from skipValue_complete blanks_nil value' fun _ => ends'] at rest
  cases rest
  exact ⟨List.append_cancel_right same, rfl⟩

/-- Where a value starts, too. -/
theorem value_unique_padded (blanks : Blanks gap) (blanks' : Blanks gap') (value : IsValue kind w)
    (value' : IsValue kind' w') (ends : Unnumeric r) (ends' : Unnumeric r')
    (same : gap ++ (w ++ r) = gap' ++ (w' ++ r')) : w = w' ∧ r = r' := by
  have starts {gap w r : Bytes} {kind : Kind} (blanks : Blanks gap) (value : IsValue kind w) :
      skipBlanks (gap ++ (w ++ r)) = w ++ r := by
    obtain ⟨b, t, rfl, opens, -⟩ := value.first
    exact skipBlanks_first blanks opens.1
  have text : w ++ r = w' ++ r' := by
    rw [← starts blanks value, same, starts blanks' value']
  exact value_unique value value' ends ends' text

/-- A text is of one kind. -/
theorem kind_unique (value : IsValue kind w) (value' : IsValue kind' w) : kind = kind' := by
  obtain ⟨b, t, rfl, -, rfl⟩ := value.first
  obtain ⟨b', t', same, -, rfl⟩ := value'.first
  rw [(List.cons.inj same).1]

/-! ## Objects -/

/-- A member has one name and one value. -/
theorem member_unique {m m' : String × Member} (proper : m.2.Proper) (proper' : m'.2.Proper)
    (spelled : SpelledText m.1 m.2.key) (spelled' : SpelledText m'.1 m'.2.key) (delimited : Delimited r)
    (delimited' : Delimited r')
    (same : m.2.key ++ quote :: (m.2.gap ++ colon :: (m.2.element.text ++ r)) =
      m'.2.key ++ quote :: (m'.2.gap ++ colon :: (m'.2.element.text ++ r'))) :
    m.1 = m'.1 ∧ m.2.element.value = m'.2.element.value ∧ m.2.element.after ++ r = m'.2.element.after ++ r' := by
  have key := string_spelled (r := m.2.gap ++ colon :: (m.2.element.text ++ r)) spelled
  rw [same, string_spelled spelled'] at key
  obtain ⟨name, behind⟩ := Prod.mk.inj (Except.ok.inj key)
  have element := readColon_append (r := m.2.element.text ++ r) proper.shaped.gap
  rw [← behind, readColon_append proper'.shaped.gap] at element
  have text : m.2.element.before ++ (m.2.element.value ++ (m.2.element.after ++ r)) =
      m'.2.element.before ++ (m'.2.element.value ++ (m'.2.element.after ++ r')) := by
    simpa [Element.text] using (Except.ok.inj element).symm
  have around := proper.shaped.element
  have around' := proper'.shaped.element
  exact ⟨name.symm, value_unique_padded around.before around'.before proper.value proper'.value
    (delimited.append around.after).unnumeric (delimited'.append around'.after).unnumeric text⟩

/-- The members that are left have one reading. -/
theorem members_unique (first : Bool) {ms ms' : List (String × Member)} (blanks : Blanks gap) (blanks' : Blanks gap')
    (proper : ∀ m ∈ ms, m.2.Proper) (proper' : ∀ m ∈ ms', m.2.Proper) (spelled : ∀ m ∈ ms, SpelledText m.1 m.2.key)
    (spelled' : ∀ m ∈ ms', SpelledText m.1 m.2.key)
    (same : gap ++ (remaining .object first ((ms.map (·.2)).map Member.text) ++ r) =
      gap' ++ (remaining .object first ((ms'.map (·.2)).map Member.text) ++ r')) :
    ms.map (fun m => (m.1, m.2.element.value)) = ms'.map fun m => (m.1, m.2.element.value) := by
  induction ms generalizing ms' gap gap' first with
  | nil =>
    cases ms' with
    | nil => rfl
    | cons m' ms' =>
      have ended := Record.nextKey_end first (r := r) blanks
      have found := Record.nextKey_next first (ms'.map (·.2)) (r := r') blanks'
        (proper' m' (.head _)).shaped.lead
      simp only [List.map_nil, List.map_cons] at same found
      rw [same, found] at ended
      cases ended
  | cons m ms ih =>
    obtain ⟨here, others⟩ := List.forall_mem_cons.mp proper
    obtain ⟨name, names⟩ := List.forall_mem_cons.mp spelled
    have found := Record.nextKey_next first (ms.map (·.2)) (r := r) blanks here.shaped.lead
    cases ms' with
    | nil =>
      have ended := Record.nextKey_end first (r := r') blanks'
      simp only [List.map_nil, List.map_cons] at same found
      rw [← same, found] at ended
      cases ended
    | cons m' ms' =>
      obtain ⟨here', others'⟩ := List.forall_mem_cons.mp proper'
      obtain ⟨name', names'⟩ := List.forall_mem_cons.mp spelled'
      have found' := Record.nextKey_next first (ms'.map (·.2)) (r := r') blanks' here'.shaped.lead
      simp only [List.map_cons] at same found found'
      rw [same, found'] at found
      obtain ⟨label, value, rest⟩ := member_unique here' here name' name (delimited_closing .object _)
        (delimited_closing .object _) (Prod.mk.inj (Except.ok.inj found)).2
      rw [List.map_cons, List.map_cons, label, value, ih false here.shaped.element.after
        here'.shaped.element.after others others' names names' rest.symm]

/-- The entries of an object are known from its text. -/
theorem IsObject.unique {entries entries' : List (String × Bytes)} (object : IsObject entries w)
    (object' : IsObject entries' w) : entries = entries' := by
  obtain @⟨gap, ms, blanks, proper, spelled⟩ := object
  generalize text : objectText gap (ms.map (·.2)) = w at object'
  obtain @⟨gap', ms', blanks', proper', spelled'⟩ := object'
  simp only [objectText, bracketed_eq, List.cons.injEq, true_and] at text
  refine members_unique true blanks blanks' proper proper' spelled spelled'
    (?_ : gap ++ (_ ++ []) = gap' ++ (_ ++ []))
  rwa [List.append_nil, List.append_nil]

/-! ## Lists -/

/-- The items that are left have one reading. -/
theorem items_unique (first : Bool) {es es' : List Element} (blanks : Blanks gap) (blanks' : Blanks gap')
    (padded : ∀ e ∈ es, e.Padded) (padded' : ∀ e ∈ es', e.Padded) (values : ∀ e ∈ es, IsValue e.kind e.value)
    (values' : ∀ e ∈ es', IsValue e.kind e.value)
    (same : gap ++ (remaining .list first (es.map Element.text) ++ r) =
      gap' ++ (remaining .list first (es'.map Element.text) ++ r')) : es.map (·.value) = es'.map (·.value) := by
  induction es generalizing es' gap gap' first with
  | nil =>
    cases es' with
    | nil => rfl
    | cons e' es' =>
      have ended := Record.nextItem_end first (r := r) blanks
      obtain ⟨u, found⟩ := Record.nextItem_next first es' (r := r') blanks' (padded' e' (.head _))
        (values' e' (.head _))
      rw [List.map_nil] at same
      rw [same, found] at ended
      cases ended
  | cons e es ih =>
    obtain ⟨around, arounds⟩ := List.forall_mem_cons.mp padded
    obtain ⟨value, others⟩ := List.forall_mem_cons.mp values
    obtain ⟨u, found⟩ := Record.nextItem_next first es (r := r) blanks around value
    cases es' with
    | nil =>
      have ended := Record.nextItem_end first (r := r') blanks'
      rw [List.map_nil] at same
      rw [← same, found] at ended
      cases ended
    | cons e' es' =>
      obtain ⟨around', arounds'⟩ := List.forall_mem_cons.mp padded'
      obtain ⟨value', others'⟩ := List.forall_mem_cons.mp values'
      obtain ⟨u', found'⟩ := Record.nextItem_next first es' (r := r') blanks' around' value'
      rw [same, found'] at found
      have text := Option.some.inj (Prod.mk.inj (Except.ok.inj found)).1
      obtain ⟨item, rest⟩ := value_unique value' value ((delimited_closing .list _).append around'.after).unnumeric
        ((delimited_closing .list _).append around.after).unnumeric text
      rw [List.map_cons, List.map_cons, item,
        ih false around.after around'.after arounds arounds' others others' rest.symm]

/-- The items of a list are known from its text. -/
theorem IsList.unique {values values' : List Bytes} (list : IsList values w) (list' : IsList values' w) :
    values = values' := by
  obtain @⟨gap, es, blanks, padded, values⟩ := list
  generalize text : bracketed .list gap (es.map Element.text) = w at list'
  obtain @⟨gap', es', blanks', padded', values'⟩ := list'
  simp only [bracketed_eq, List.cons.injEq, true_and] at text
  refine items_unique true blanks blanks' padded padded' values values' (?_ : gap ++ (_ ++ []) = gap' ++ (_ ++ []))
  rwa [List.append_nil, List.append_nil]

/-! ## Records -/

section
variable {shape : Shape} {entries entries' : List (String × Bytes)} {values : List Bytes}

/-- An object is a record of its own members. -/
theorem isRecord_object (object : IsObject entries w) :
    IsRecord shape entries' w ↔ entries' = entries ∧ shape.Fits (entries.map (·.1)) := by
  constructor
  · intro record
    cases record with
    | object object' fits =>
      obtain rfl := object.unique object'
      exact ⟨rfl, fits⟩
    | list list => exact nomatch kind_unique object.isValue list.isValue
  · rintro ⟨rfl, fits⟩
    exact .object object fits

/-- A list is a record of its own items. -/
theorem isRecord_list (list : IsList values w) : IsRecord shape entries w ↔
    entries = (shape.map (·.1)).zip values ∧ values.length ≤ shape.length ∧
      ∀ f ∈ shape.drop values.length, f.2 = .defaulted := by
  constructor
  · intro record
    cases record with
    | object object => exact nomatch kind_unique object.isValue list.isValue
    | list list' few rest =>
      obtain rfl := list.unique list'
      exact ⟨rfl, few, rest⟩
  · rintro ⟨rfl, few, rest⟩
    exact .list list few rest

end

end TierTagger.Json
