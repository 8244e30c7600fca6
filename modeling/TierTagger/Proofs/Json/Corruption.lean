import TierTagger.Proofs.Json.Extent

/-!
# Corrupted documents are refused

- `decode_append`: a text that is read cannot go on, unless by blanks, and still be read. So neither what is
  cut off nor what is added goes unnoticed.
- `Corrupted`: a member that a path leads to comes twice, or has a value of a wrong kind.
- `Refusing`: a decoder refuses every object that is corrupted at the path, whatever else the object holds.
  It is shown for a field of a record (`refusing_field`) and along a path (`refusing_inside`).
-/

namespace TierTagger.Json

open Ascii

variable {α β : Type} {d : Decoder α} {s t r w : Bytes} {kind : Kind}

/-! ## Refusal -/

/-- The decoder never reads anything off the value, whatever comes after it. -/
def Refuses (d : Decoder α) (w : Bytes) : Prop :=
  ∀ gap r a t, Blanks gap → d.read (gap ++ (w ++ r)) ≠ .ok (a, t)

theorem Refuses.map (refuses : Refuses d w) (f : α → β) : Refuses (d.map f) w := by
  intro gap r b t blanks read
  obtain ⟨a, read, -⟩ := Decoder.map_eq_ok.mp read
  exact refuses gap r a t blanks read

theorem Refuses.field {name : String} {absence : Absence} {set : α → β → β} (refuses : Refuses d w) :
    Refuses (Field.of name absence d set).read w := refuses.map set

/-- What is not `null` is refused where it could be. -/
theorem Refuses.nullable (refuses : Refuses d w) (value : IsValue kind w) (other : kind ≠ .null) :
    Refuses d.nullable w := by
  intro gap r x t blanks read
  obtain ⟨b, u, rfl, opens, rfl⟩ := value.first
  have found : skipBlanks (gap ++ (b :: u ++ r)) = b :: (u ++ r) := skipBlanks_first blanks opens.1
  have letter : b ≠ ofChar 'n' := by
    rintro rfl
    exact other rfl
  simp only [Decoder.nullable, found, if_neg letter] at read
  exact refuses.map some gap r x t blanks read

theorem Refuses.orDefault [Inhabited α] (refuses : Refuses d w) (value : IsValue kind w)
    (other : kind ≠ .null) : Refuses d.orDefault w :=
  (refuses.nullable value other).map _

/-- A string is not read off a value of another kind. -/
theorem refuses_text (value : IsValue kind w) (other : kind ≠ .text) : Refuses .text w := by
  intro gap r x t blanks read
  obtain ⟨b, u, rfl, opens, rfl⟩ := value.first
  have found : skipBlanks (gap ++ (b :: u ++ r)) = b :: (u ++ r) := skipBlanks_first blanks opens.1
  have letter : b ≠ quote := by
    rintro rfl
    exact other rfl
  simp only [Decoder.text, Decoder.ofFirst, found, if_neg letter] at read
  exact mismatch_ne_ok _ _ _ _ read

/-- A record is not read off a value that is no object and no list. -/
theorem refuses_record {k : Record α} (value : IsValue kind w) (not_list : kind ≠ .list)
    (not_object : kind ≠ .object) : Refuses k.decoder w := by
  intro gap r x t blanks read
  obtain ⟨b, u, rfl, opens, rfl⟩ := value.first
  have found : skipBlanks (gap ++ (b :: u ++ r)) = b :: (u ++ r) := skipBlanks_first blanks opens.1
  have bracket : b ≠ openBracket := by
    rintro rfl
    exact not_list rfl
  have brace : b ≠ openBrace := by
    rintro rfl
    exact not_object rfl
  simp only [Record.decoder, Decoder.ofFirst, found, if_neg bracket, if_neg brace] at read
  exact mismatch_ne_ok _ _ _ _ read

/-! ## Cut off and added -/

/-- A text that is read is one well-formed value between blanks. -/
theorem Exact.isValue {a : α} (exact_ : Exact d) (decoded : d.decode s = .ok a) :
    ∃ before kind w after, s = before ++ (w ++ after) ∧ Blanks before ∧ IsValue kind w ∧ Blanks after ∧
      d.read s = .ok (a, after) := by
  unfold Decoder.decode at decoded
  split at decoded
  · cases decoded
  · next a' r read =>
    split at decoded
    · next none =>
      cases decoded
      obtain ⟨before, kind, w, rfl, blanks, value⟩ := skipValue_sound s r (exact_ s a r read)
      exact ⟨before, kind, w, r, rfl, blanks, value, blanks_of_skipBlanks none, read⟩
    · cases decoded

/-- Two texts are read, the second of which goes on the first: then it goes on by blanks. -/
theorem decode_append {a b : α} (exact_ : Exact d) (numbers : ∀ w, IsValue .number w → Refuses d w)
    (decoded : d.decode s = .ok a) (decoded' : d.decode (s ++ t) = .ok b) : Blanks t := by
  obtain ⟨before, kind, w, after, split, blanks, value, -, read⟩ := exact_.isValue decoded
  have not_number : kind ≠ .number := by
    rintro rfl
    exact numbers w value before after a after blanks (split ▸ read)
  have passed := skipValue_complete (r := after ++ t) blanks value fun same => absurd same not_number
  obtain ⟨_, _, _, rest, -, -, -, blanks', read'⟩ := exact_.isValue decoded'
  have passed' := exact_ _ _ _ read'
  rw [split, List.append_assoc, List.append_assoc, passed] at passed'
  cases passed'
  exact fun b mem => blanks' b (List.mem_append_right _ mem)

/-! ## Corrupted members -/

/-- The key is read as the name, whatever comes after it. -/
def Member.Names (m : Member) (name : String) : Prop := ∀ r, string (m.key ++ quote :: r) = .ok (name, r)

/-- A well-formed member. -/
structure Member.Proper (m : Member) : Prop where
  shaped : m.Shaped
  value : IsValue m.element.kind m.element.value

/-- The member with another value. -/
def Member.hold (m : Member) (e : Element) : Member := { m with element := e }

/-- An object becomes one where the member that the path leads to comes twice or has a wrong value. -/
inductive Corrupted (Wrong : Kind → Prop) : List String → Bytes → Bytes → Prop where
  | repeated {name : String} {gap : Bytes} {xs ys : List Member} {m m' : Member} (blanks : Blanks gap)
    (proper : ∀ m ∈ xs ++ ys, m.Proper) (proper' : m'.Proper) (held : m ∈ xs ++ ys) (named : m.Names name)
    (named' : m'.Names name) :
    Corrupted Wrong [name] (objectText gap (xs ++ ys)) (objectText gap (xs ++ m' :: ys))
  | replaced {name : String} {gap : Bytes} {xs ys : List Member} {m : Member} {e : Element}
    (blanks : Blanks gap) (proper : ∀ m' ∈ xs ++ m :: ys, m'.Proper) (named : m.Names name)
    (padded : e.Padded) (value : IsValue e.kind e.value) (wrong : Wrong e.kind) :
    Corrupted Wrong [name] (objectText gap (xs ++ m :: ys)) (objectText gap (xs ++ m.hold e :: ys))
  | inside {name : String} {path : List String} {gap : Bytes} {xs ys : List Member} {m : Member} {v : Bytes}
    (blanks : Blanks gap) (proper : ∀ m' ∈ xs ++ m :: ys, m'.Proper) (named : m.Names name)
    (corrupted : Corrupted Wrong path m.element.value v) :
    Corrupted Wrong (name :: path) (objectText gap (xs ++ m :: ys))
      (objectText gap (xs ++ m.hold { m.element with kind := .object, value := v } :: ys))

/-! ## Objects that are read -/

namespace Record

variable {k : Record α} {first : Bool} {seen : List String} {a b : α}

/-- What it says of the members of an object that it is read: none that a field is named for is refused by
the field, and none comes twice. -/
structure Accepted (k : Record α) (ms : List Member) : Prop where
  each : ∀ m ∈ ms, ∀ f ∈ k.fields, m.Names f.name → ¬Refuses f.read m.element.value
  once : ms.Pairwise fun m m' => ∀ f ∈ k.fields, m.Names f.name → ¬m'.Names f.name

theorem members_inv (found : nextKey first s = .ok (true, r)) (read : members k first seen a s = .ok (b, t)) :
    ∃ key u seen' a' v, string r = .ok (key, u) ∧ member k seen a key u = .ok ((seen', a'), v) ∧
      members k false seen' a' v = .ok (b, t) := by
  rw [members] at read
  split at read
  · cases read
  · next last =>
    rw [found] at last
    cases last
  · next next =>
    rw [found] at next
    cases next
    split at read
    · cases read
    · next key u name =>
      split at read
      · cases read
      · next seen' a' v value => exact ⟨key, u, seen', a', v, name, value, read⟩

theorem member_inv {key : String} {seen' : List String} (read : member k seen a key s = .ok ((seen', b), t)) :
    (∀ x ∈ seen, x ∈ seen') ∧ ∀ f, k.fields.find? (·.name = key) = some f →
      key ∉ seen ∧ key ∈ seen' ∧ ∃ u put, readColon s = .ok u ∧ f.read.read u = .ok (put, t) := by
  unfold member at read
  split at read
  · next none =>
    split at read
    · cases read
    · next u _ =>
      cases passed : skipValue u with
      | error => simp [passed, Except.map] at read
      | ok v =>
        simp only [passed, Except.map, Except.ok.injEq, Prod.mk.injEq] at read
        obtain ⟨⟨rfl, -⟩, -⟩ := read
        exact ⟨fun _ mem => mem, fun f known => by rw [none] at known; cases known⟩
  · next field found =>
    split at read
    · exact (refuse_ne_ok _ _ _ _ read).elim
    · next new =>
      split at read
      · cases read
      · next u colon =>
        cases value : field.read.read u with
        | error => simp [value, Except.map] at read
        | ok y =>
          simp only [value, Except.map, Except.ok.injEq, Prod.mk.injEq] at read
          obtain ⟨⟨rfl, -⟩, rfl⟩ := read
          refine ⟨fun _ mem => .tail _ mem, fun f known => ?_⟩
          rw [found] at known
          cases known
          exact ⟨new, .head _, u, y.1, colon, value⟩

/-- Every field is read as one value, and no two have the same name. -/
structure Regular (k : Record α) : Prop where
  exact : ∀ f ∈ k.fields, Exact f.read
  distinct : (k.fields.map (·.name)).Nodup

section
variable (regular : k.Regular)
include regular

/-- If an object is read, its next member is, and the rest after it. -/
theorem members_next {m : Member} (proper : m.Proper) (delimited : Delimited r)
    (found : nextKey first s = .ok (true, m.key ++ quote :: (m.gap ++ colon :: (m.element.text ++ r))))
    (read : members k first seen a s = .ok (b, t)) : ∃ seen' a',
      members k false seen' a' (m.element.after ++ r) = .ok (b, t) ∧ (∀ x ∈ seen, x ∈ seen') ∧
      ∀ f ∈ k.fields, m.Names f.name →
        f.name ∉ seen ∧ f.name ∈ seen' ∧ ¬Refuses f.read m.element.value := by
  obtain ⟨key, u, seen', a', v, name, value, rest⟩ := members_inv found read
  have closed := skipString_of_string name
  rw [skipString_append proper.shaped.key] at closed
  cases closed
  obtain ⟨u, colon, passed⟩ := member_sound regular.exact value
  rw [readColon_append proper.shaped.gap] at colon
  cases colon
  have text : m.element.text ++ r = m.element.before ++ (m.element.value ++ (m.element.after ++ r)) := by
    simp [Element.text]
  rw [text, skipValue_complete proper.shaped.element.before proper.value
    fun _ => (delimited.append proper.shaped.element.after).unnumeric] at passed
  cases passed
  obtain ⟨grown, known⟩ := member_inv value
  refine ⟨seen', a', rest, grown, fun f mem named => ?_⟩
  rw [named] at name
  cases name
  obtain ⟨new, noted, u, put, colon, read⟩ := known f (find?_name regular.distinct mem)
  rw [readColon_append proper.shaped.gap] at colon
  cases colon
  exact ⟨new, noted, fun refuses => refuses _ _ _ _ proper.shaped.element.before (text ▸ read)⟩

theorem members_rest {ms : List Member} {gap : Bytes} (blanks : Blanks gap) (proper : ∀ m ∈ ms, m.Proper)
    (read : members k false seen a (gap ++ (closing .object (ms.map Member.text) ++ r)) = .ok (b, t)) :
    k.Accepted ms ∧ ∀ m ∈ ms, ∀ f ∈ k.fields, m.Names f.name → f.name ∉ seen := by
  -- a name that was seen stays seen, so a member that is read has another name than all before it
  induction ms generalizing gap seen a with
  | nil => exact ⟨⟨by simp, .nil⟩, by simp⟩
  | cons m ms ih =>
    obtain ⟨first, others⟩ := List.forall_mem_cons.mp proper
    have delimited := delimited_closing (r := r) .object (ms.map Member.text)
    have found := nextKey_comma (r := closing .object (ms.map Member.text) ++ r) blanks first.shaped.lead
    rw [List.map_cons, closing_cons, List.cons_append, List.append_assoc] at read
    obtain ⟨seen', a', read, grown, each⟩ := members_next regular first delimited found read
    obtain ⟨accepted, new⟩ := ih first.shaped.element.after others read
    refine ⟨⟨List.forall_mem_cons.mpr ⟨fun f mem named => (each f mem named).2.2, accepted.each⟩,
      .cons (fun m' mem' f mem named named' => ?_) accepted.once⟩,
      List.forall_mem_cons.mpr ⟨fun f mem named => (each f mem named).1, fun m' mem' f mem named => ?_⟩⟩
    · exact new m' mem' f mem named' (each f mem named).2.1
    · exact fun old => new m' mem' f mem named (grown _ old)

/-- If an object is read, all of its members are accepted. -/
theorem accepted_object {ms : List Member} {gap gap' : Bytes} (blanks : Blanks gap) (blanks' : Blanks gap')
    (proper : ∀ m ∈ ms, m.Proper) (read : k.decoder.read (gap ++ (objectText gap' ms ++ r)) = .ok (b, t)) :
    k.Accepted ms := by
  cases ms with
  | nil => exact ⟨by simp, .nil⟩
  | cons m ms =>
    obtain ⟨first, others⟩ := List.forall_mem_cons.mp proper
    have text : objectText gap' (m :: ms) ++ r =
        openBrace :: (gap' ++ (m.text ++ (closing .object (ms.map Member.text) ++ r))) := by
      simp [objectText, bracketed, Bracket.opener]
    have found : skipBlanks (gap ++ openBrace :: (gap' ++ (m.text ++ (closing .object (ms.map Member.text) ++ r)))) =
        openBrace :: (gap' ++ (m.text ++ (closing .object (ms.map Member.text) ++ r))) :=
      skipBlanks_first blanks rfl
    rw [text] at read
    simp only [decoder, Decoder.ofFirst, found, if_true] at read
    have delimited := delimited_closing (r := r) .object (ms.map Member.text)
    obtain ⟨seen', a', read, -, each⟩ := members_next regular first delimited
      (nextKey_first blanks' first.shaped.lead) read
    obtain ⟨accepted, new⟩ := members_rest regular first.shaped.element.after others read
    exact ⟨List.forall_mem_cons.mpr ⟨fun f mem named => (each f mem named).2.2, accepted.each⟩,
      .cons (fun m' mem' f mem named named' => new m' mem' f mem named' (each f mem named).2.1) accepted.once⟩

end

end Record

/-! ## Corrupted objects -/

variable {Wrong : Kind → Prop} {path : List String} {v v' : Bytes}

theorem Member.Proper.hold {m : Member} {e : Element} (proper : m.Proper) (padded : e.Padded)
    (value : IsValue e.kind e.value) : (m.hold e).Proper :=
  ⟨⟨proper.shaped.lead, proper.shaped.key, proper.shaped.gap, padded⟩, value⟩

theorem isValue_object {gap : Bytes} {ms : List Member} (blanks : Blanks gap) (proper : ∀ m ∈ ms, m.Proper) :
    IsValue .object (objectText gap ms) :=
  .object blanks (fun m mem => (proper m mem).shaped) fun m mem => (proper m mem).value

/-- Members of which one is exchanged. -/
theorem proper_exchange {xs ys : List Member} {m m' : Member} (proper : ∀ x ∈ xs ++ m :: ys, x.Proper)
    (proper' : m'.Proper) : ∀ x ∈ xs ++ m' :: ys, x.Proper := by
  simp only [List.forall_mem_append, List.forall_mem_cons] at proper ⊢
  exact ⟨proper.1, proper', proper.2.2⟩

/-- Members to which one is added. -/
theorem proper_insert {xs ys : List Member} {m' : Member} (proper : ∀ x ∈ xs ++ ys, x.Proper)
    (proper' : m'.Proper) : ∀ x ∈ xs ++ m' :: ys, x.Proper := by
  simp only [List.forall_mem_append, List.forall_mem_cons] at proper ⊢
  exact ⟨proper.1, proper', proper.2⟩

/-- A corrupted object is a well-formed object all the same. -/
theorem Corrupted.isValue (corrupted : Corrupted Wrong path v v') : IsValue .object v' := by
  induction corrupted with
  | repeated blanks proper proper' _ _ _ => exact isValue_object blanks (proper_insert proper proper')
  | @replaced _ _ xs ys m e blanks proper _ padded value _ =>
    have old : m.Proper := proper m (List.mem_append_right _ (.head _))
    exact isValue_object blanks (proper_exchange proper (old.hold padded value))
  | @inside _ _ _ xs ys m v blanks proper _ _ value =>
    have old : m.Proper := proper m (List.mem_append_right _ (.head _))
    exact isValue_object blanks (proper_exchange proper
      (old.hold ⟨old.shaped.element.before, old.shaped.element.after⟩ value))

/-- The decoder refuses every object that is corrupted at the path. -/
def Refusing (d : Decoder α) (Wrong : Kind → Prop) (path : List String) : Prop :=
  ∀ v v', Corrupted Wrong path v v' → Refuses d v'

theorem Refusing.map (refusing : Refusing d Wrong path) (f : α → β) : Refusing (d.map f) Wrong path :=
  fun v v' corrupted => (refusing v v' corrupted).map f

theorem Refusing.field {name : String} {absence : Absence} {set : α → β → β}
    (refusing : Refusing d Wrong path) : Refusing (Field.of name absence d set).read Wrong path :=
  refusing.map set

theorem Refusing.nullable (refusing : Refusing d Wrong path) : Refusing d.nullable Wrong path :=
  fun v v' corrupted => (refusing v v' corrupted).nullable corrupted.isValue (by decide)

theorem Refusing.orDefault [Inhabited α] (refusing : Refusing d Wrong path) :
    Refusing d.orDefault Wrong path :=
  refusing.nullable.map _

namespace Record

variable {k : Record α} {f : Field α}

theorem Accepted.not_names {xs ys : List Member} {m m' : Member} (accepted : k.Accepted (xs ++ m' :: ys))
    (held : m ∈ xs ++ ys) (mem : f ∈ k.fields) (named : m.Names f.name) : ¬m'.Names f.name := by
  obtain ⟨-, inner, cross⟩ := List.pairwise_append.mp accepted.once
  rcases List.mem_append.mp held with before | after
  · exact cross m before m' (.head _) f mem named
  · exact fun named' => (List.pairwise_cons.mp inner).1 m after f mem named' named

/-- A field that comes twice or has a value it refuses makes the record refused. -/
theorem refusing_field (regular : k.Regular) (mem : f ∈ k.fields)
    (refuses : ∀ kind w, IsValue kind w → Wrong kind → Refuses f.read w) :
    Refusing k.decoder Wrong [f.name] := by
  intro v v' corrupted gap r a t spaces read
  cases corrupted with
  | repeated blanks proper proper' held named named' =>
    have accepted := accepted_object regular spaces blanks (proper_insert proper proper') read
    exact accepted.not_names held mem named named'
  | @replaced _ _ xs ys m e blanks proper named padded value wrong =>
    have old : m.Proper := proper m (List.mem_append_right _ (.head _))
    have accepted := accepted_object regular spaces blanks
      (proper_exchange proper (old.hold padded value)) read
    exact accepted.each (m.hold e) (List.mem_append_right _ (.head _)) f mem named
      (refuses e.kind e.value value wrong)
  | inside _ _ _ corrupted => cases corrupted

/-- A field whose value is corrupted makes the record refused. -/
theorem refusing_inside {name : String} (regular : k.Regular) (mem : f ∈ k.fields)
    (refusing : Refusing f.read Wrong (name :: path)) : Refusing k.decoder Wrong (f.name :: name :: path) := by
  intro v v' corrupted gap r a t spaces read
  cases corrupted with
  | @inside _ _ _ xs ys m v blanks proper named corrupted =>
    have old : m.Proper := proper m (List.mem_append_right _ (.head _))
    have new := old.hold (e := { m.element with kind := .object, value := v })
      ⟨old.shaped.element.before, old.shaped.element.after⟩ corrupted.isValue
    have accepted := accepted_object regular spaces blanks (proper_exchange proper new) read
    exact accepted.each _ (List.mem_append_right _ (.head _)) f mem named (refusing _ _ corrupted)

end Record

end TierTagger.Json
