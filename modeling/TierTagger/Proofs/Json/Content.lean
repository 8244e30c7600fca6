import TierTagger.Proofs.Json.Escapes
import TierTagger.Proofs.Json.Extent

/-!
# Documents that say something

A `Content` is what a document says: a string, or a record of named contents. There are many documents that
say it (`Tells`): members come in any order, with others in between that hold any values, strings are spelled
in any way, and what is empty may be written out, `null` or left out.

- `Reads`: what a decoder makes of any document that says a content.
- `Covers`: a kind of record has just the fields of a content, and reading one of them leaves the others as
  they are. It then reads every document of that content (`Covers.reads_nullable`, `Covers.reads_orDefault`).
-/

namespace TierTagger.Json

open Ascii

variable {α β : Type} {d : Decoder α} {a : α} {s t r w : Bytes}

/-- What a document says. -/
inductive Content where
  | text (x : String)
  | record (entries : List (String × Content))

/-- Nothing is said. -/
inductive Content.Empty : Content → Prop where
  | text : Empty (.text "")
  | record {entries : List (String × Content)} (all : ∀ e ∈ entries, Empty e.2) : Empty (.record entries)

@[simp] theorem Content.empty_text {x : String} : (Content.text x).Empty ↔ x = "" := by
  constructor
  · intro empty
    cases empty
    rfl
  · rintro rfl
    exact .text

@[simp] theorem Content.empty_record {entries : List (String × Content)} :
    (Content.record entries).Empty ↔ ∀ e ∈ entries, e.2.Empty := by
  constructor
  · intro empty
    cases empty with
    | record all => exact all
  · exact .record

/-- The name is that of an entry. -/
def Among (entries : List (String × Content)) (name : String) : Prop := ∃ e ∈ entries, e.1 = name

/-- A value that says a content. The members of an object are listed with their names. -/
inductive Tells : Content → Bytes → Prop where
  | text {x : String} {w : Bytes} (spelled : SpelledText x w) : Tells (.text x) (quote :: (w ++ [quote]))
  | null {c : Content} (empty : c.Empty) : Tells c (ofChar 'n' :: nullTail)
  | object {entries : List (String × Content)} {gap : Bytes} {ms : List (String × Member)}
    (blanks : Blanks gap) (shaped : ∀ m ∈ ms, m.2.Shaped) (spelled : ∀ m ∈ ms, SpelledText m.1 m.2.key)
    (known : ∀ m ∈ ms, ∀ e ∈ entries, e.1 = m.1 → Tells e.2 m.2.element.value)
    (unknown : ∀ m ∈ ms, ¬Among entries m.1 → IsValue m.2.element.kind m.2.element.value)
    (once : ms.Pairwise fun m m' => m.1 = m'.1 → ¬Among entries m.1)
    (absent : ∀ e ∈ entries, (∀ m ∈ ms, m.1 ≠ e.1) → e.2.Empty) :
    Tells (.record entries) (objectText gap (ms.map (·.2)))

theorem SpelledText.isChars {x : String} {w : Bytes} (spelled : SpelledText x w) : IsChars w := by
  obtain ⟨v, same, chars⟩ := skipString_sound (skipString_of_string (string_spelled (r := []) spelled))
  exact List.append_cancel_right same ▸ chars

/-- An object with no blanks in it, its names written as they are. -/
def compactText (ms : List (String × Kind × Bytes)) : Bytes :=
  objectText [] (ms.map fun m => ⟨[], Utf8.encode m.1, [], [], m.2.1, m.2.2, []⟩)

theorem Tells.compact {entries : List (String × Content)} {ms : List (String × Kind × Bytes)}
    (simple : ∀ m ∈ ms, Simple m.1) (known : ∀ m ∈ ms, ∀ e ∈ entries, e.1 = m.1 → Tells e.2 m.2.2)
    (unknown : ∀ m ∈ ms, ¬Among entries m.1 → IsValue m.2.1 m.2.2) (once : (ms.map (·.1)).Nodup)
    (absent : ∀ e ∈ entries, e.1 ∉ ms.map (·.1) → e.2.Empty) : Tells (.record entries) (compactText ms) := by
  have listed : compactText ms = objectText [] ((ms.map fun m =>
      (m.1, Member.mk [] (Utf8.encode m.1) [] ⟨[], m.2.1, m.2.2, []⟩)).map (·.2)) := by
    simp [compactText, Function.comp_def]
  rw [listed]
  refine .object blanks_nil ?_ ?_ ?_ ?_ ?_ ?_
  · simp only [List.forall_mem_map]
    intro m mem
    exact ⟨blanks_nil, (spelledText_encode (simple m mem)).isChars, blanks_nil, blanks_nil, blanks_nil⟩
  · simp only [List.forall_mem_map]
    exact fun m mem => spelledText_encode (simple m mem)
  · simpa only [List.forall_mem_map] using known
  · simpa only [List.forall_mem_map] using unknown
  · rw [List.pairwise_map]
    exact (List.pairwise_map.mp once).imp fun apart same => absurd same apart
  · simp only [List.forall_mem_map]
    exact fun e held apart => absent e held fun mem => by
      obtain ⟨m, mem, same⟩ := List.mem_map.mp mem
      exact apart m mem same

/-- Of every document that says the content the decoder reads what satisfies `P`, and no byte more. -/
def Reads (d : Decoder α) (c : Content) (P : α → Prop) : Prop :=
  ∀ gap w r, Blanks gap → Tells c w → ∃ a, d.read (gap ++ (w ++ r)) = .ok (a, r) ∧ P a

section
variable {c : Content} {P Q : α → Prop}

theorem Reads.map {P : α → Prop} {Q : β → Prop} {f : α → β} (reads : Reads d c P) (into : ∀ a, P a → Q (f a)) :
    Reads (d.map f) c Q := by
  intro gap w r blanks tells
  obtain ⟨a, read, holds⟩ := reads gap w r blanks tells
  exact ⟨f a, Decoder.map_eq_ok.mpr ⟨a, read, rfl⟩, into a holds⟩

theorem Reads.decode (reads : Reads d c P) {before after : Bytes} (blanks : Blanks before) (tells : Tells c w)
    (blanks' : Blanks after) : ∃ a, d.decode (before ++ (w ++ after)) = .ok a ∧ P a := by
  obtain ⟨a, read, holds⟩ := reads before w after blanks tells
  refine ⟨a, ?_, holds⟩
  simp only [Decoder.decode, read, skipBlanks_blanks blanks']

end

/-! ## Values that may be `null` -/

theorem nullable_null {gap : Bytes} (blanks : Blanks gap) :
    d.nullable.read (gap ++ (ofChar 'n' :: nullTail ++ r)) = .ok (none, r) := by
  have found : skipBlanks (gap ++ (ofChar 'n' :: nullTail ++ r)) = ofChar 'n' :: (nullTail ++ r) :=
    skipBlanks_first blanks rfl
  simp only [Decoder.nullable, found, if_true, letters_append]
  rfl

theorem nullable_value {b : UInt8} {gap : Bytes} (blanks : Blanks gap) (visible : isBlank b = false)
    (other : b ≠ ofChar 'n') (read : d.read (gap ++ b :: s) = .ok (a, r)) :
    d.nullable.read (gap ++ b :: s) = .ok (some a, r) := by
  simp only [Decoder.nullable, skipBlanks_first blanks visible, if_neg other]
  exact Decoder.map_eq_ok.mpr ⟨a, read, rfl⟩

theorem orDefault_null [Inhabited α] {gap : Bytes} (blanks : Blanks gap) :
    d.orDefault.read (gap ++ (ofChar 'n' :: nullTail ++ r)) = .ok (default, r) :=
  Decoder.map_eq_ok.mpr ⟨none, nullable_null blanks, rfl⟩

theorem orDefault_value [Inhabited α] {b : UInt8} {gap : Bytes} (blanks : Blanks gap)
    (visible : isBlank b = false) (other : b ≠ ofChar 'n') (read : d.read (gap ++ b :: s) = .ok (a, r)) :
    d.orDefault.read (gap ++ b :: s) = .ok (a, r) :=
  Decoder.map_eq_ok.mpr ⟨some a, nullable_value blanks visible other read, rfl⟩

/-- A string is read, and `null` if it is empty. -/
theorem reads_text (x : String) : Reads Decoder.text.orDefault (.text x) (· = x) := by
  intro gap w r blanks tells
  refine ⟨x, ?_, rfl⟩
  cases tells with
  | null empty =>
    cases empty
    exact orDefault_null blanks
  | @text x w spelled =>
    refine orDefault_value blanks rfl (by decide) ?_
    simp only [Decoder.text, Decoder.ofFirst]
    rw [skipBlanks_first blanks rfl]
    show string (w ++ [quote] ++ r) = _
    rw [List.append_assoc]
    exact string_spelled spelled

/-! ## Records -/

namespace Record

variable {k : Record α} {seen : List String} {entries : List (String × Content)} {Holds : String → α → Prop}

/-- The field is an entry of the content, and reading it makes true what the entry says of the record. What
others say of it holds as before. -/
def Told (entries : List (String × Content)) (Holds : String → α → Prop) (f : Field α) : Prop :=
  ∃ e ∈ entries, e.1 = f.name ∧ Reads f.read e.2 fun put =>
    ∀ a, Holds f.name (put a) ∧ ∀ other, other ≠ f.name → Holds other a → Holds other (put a)

/-- A field that is read by a decoder of its content and put into place. -/
theorem told_of {c : Content} {P : β → Prop} {d : Decoder β} {name : String} {absence : Absence}
    {set : β → α → α} (mem : (name, c) ∈ entries) (reads : Reads d c P) (into : ∀ x, P x → ∀ a,
      Holds name (set x a) ∧ ∀ other, other ≠ name → Holds other a → Holds other (set x a)) :
    Told entries Holds (Field.of name absence d set) :=
  ⟨(name, c), mem, rfl, reads.map into⟩

/-- The fields of the record are the entries of the content, and what is not read is said by the blank
record if it is empty. -/
structure Covers (k : Record α) (entries : List (String × Content)) (Holds : String → α → Prop) : Prop where
  distinct : (k.fields.map (·.name)).Nodup
  field : ∀ e ∈ entries, ∃ f ∈ k.fields, f.name = e.1
  optional : ∀ f ∈ k.fields, f.absence ≠ .required
  told : ∀ f ∈ k.fields, Told entries Holds f
  blank : ∀ e ∈ entries, e.2.Empty → Holds e.1 k.blank

section
variable (covers : Covers k entries Holds)
include covers

theorem Covers.missing (seen : List String) : k.missing? seen = none := by
  rw [missing?, List.find?_eq_none]
  intro f mem
  simp [covers.optional f mem]

theorem Covers.unknown {name : String} (other : ¬Among entries name) :
    k.fields.find? (·.name = name) = none := by
  rw [List.find?_eq_none]
  intro f mem same
  obtain ⟨e, held, named, -⟩ := covers.told f mem
  exact other ⟨e, held, named.trans (of_decide_eq_true same)⟩

/-- A member is read: one of an entry into the record, any other past it. -/
theorem Covers.member {name : String} {m : Member} {a : α} (shaped : m.Shaped)
    (known : ∀ e ∈ entries, e.1 = name → Tells e.2 m.element.value)
    (unknown : ¬Among entries name → IsValue m.element.kind m.element.value)
    (delimited : Delimited r) (new : Among entries name → name ∉ seen) : ∃ seen' b,
      member k seen a name (m.gap ++ colon :: (m.element.text ++ r)) =
        .ok ((seen', b), m.element.after ++ r) ∧
      (∀ other, other ∈ seen' ↔ other ∈ seen ∨ other = name ∧ Among entries name) ∧
      (∀ other, other ≠ name → Holds other a → Holds other b) ∧ (Among entries name → Holds name b) := by
  have text : m.element.text ++ r =
      m.element.before ++ (m.element.value ++ (m.element.after ++ r)) := by
    simp [Element.text]
  unfold Record.member
  by_cases among : Among entries name
  · obtain ⟨e, held, named⟩ := id among
    obtain ⟨f, mem, same⟩ := covers.field e held
    obtain ⟨e', held', named', reads⟩ := covers.told f mem
    have called : f.name = name := same.trans named
    have found : k.fields.find? (·.name = name) = some f := called ▸ find?_name covers.distinct mem
    obtain ⟨put, read, puts⟩ := reads m.element.before m.element.value (m.element.after ++ r)
      shaped.element.before (known e' held' (named'.trans called))
    rw [called] at puts
    refine ⟨name :: seen, put a, ?_, ?_, fun other => (puts a).2 other, fun _ => (puts a).1⟩
    · simp only [found, if_neg (new among), readColon_append shaped.gap, text, read]
      rfl
    · intro other
      simp [among, or_comm]
  · have passed := skipValue_complete (r := m.element.after ++ r) shaped.element.before (unknown among)
      fun _ => (delimited.append shaped.element.after).unnumeric
    refine ⟨seen, a, ?_, by simp [among], fun _ _ holds => holds, fun held => absurd held among⟩
    simp only [covers.unknown among, readColon_append shaped.gap, text, passed]
    rfl

/-- What holds in between: the members `ms` are still to be read, `a` says what those read before told. -/
structure Pending (entries : List (String × Content)) (Holds : String → α → Prop) (seen : List String) (a : α)
    (ms : List (String × Member)) : Prop where
  shaped : ∀ m ∈ ms, m.2.Shaped
  spelled : ∀ m ∈ ms, SpelledText m.1 m.2.key
  known : ∀ m ∈ ms, ∀ e ∈ entries, e.1 = m.1 → Tells e.2 m.2.element.value
  unknown : ∀ m ∈ ms, ¬Among entries m.1 → IsValue m.2.element.kind m.2.element.value
  once : ms.Pairwise fun m m' => m.1 = m'.1 → ¬Among entries m.1
  new : ∀ m ∈ ms, Among entries m.1 → m.1 ∉ seen
  absent : ∀ e ∈ entries, (∀ m ∈ ms, m.1 ≠ e.1) → e.1 ∈ seen ∨ e.2.Empty
  holds : ∀ e ∈ entries, e.1 ∈ seen ∨ e.2.Empty → Holds e.1 a

/-- Reading the next member keeps what holds in between. -/
theorem Covers.step {m : String × Member} {ms : List (String × Member)} {first : Bool} {a : α}
    (pending : Pending entries Holds seen a (m :: ms)) (delimited : Delimited r)
    (found : nextKey first s =
      .ok (true, m.2.key ++ quote :: (m.2.gap ++ colon :: (m.2.element.text ++ r)))) :
    ∃ seen' b, members k first seen a s = members k false seen' b (m.2.element.after ++ r) ∧
      Pending entries Holds seen' b ms := by
  obtain ⟨shaped, shapeds⟩ := List.forall_mem_cons.mp pending.shaped
  obtain ⟨spelled, spelleds⟩ := List.forall_mem_cons.mp pending.spelled
  obtain ⟨known, knowns⟩ := List.forall_mem_cons.mp pending.known
  obtain ⟨unknown, unknowns⟩ := List.forall_mem_cons.mp pending.unknown
  obtain ⟨once, onces⟩ := List.pairwise_cons.mp pending.once
  obtain ⟨new, news⟩ := List.forall_mem_cons.mp pending.new
  obtain ⟨seen', b, read, grown, kept, told⟩ := covers.member (a := a) shaped known unknown delimited new
  refine ⟨seen', b, members_member found (string_spelled spelled) read, shapeds, spelleds, knowns, unknowns,
    onces, fun m' mem among => ?_, fun e held apart => ?_, fun e held either => ?_⟩
  -- what is still to come is new, what does not come any more was seen or is empty, and what was told stays
  · rw [grown]
    rintro (old | ⟨same, among'⟩)
    · exact news m' mem among old
    · exact once m' mem same.symm among'
  · by_cases same : m.1 = e.1
    · exact .inl ((grown e.1).mpr (.inr ⟨same.symm, e, held, same.symm⟩))
    · exact (pending.absent e held (List.forall_mem_cons.mpr ⟨same, apart⟩)).imp_left
        fun old => (grown e.1).mpr (.inl old)
  · by_cases same : e.1 = m.1
    · exact same ▸ told ⟨e, held, same⟩
    · refine kept e.1 same (pending.holds e held (either.imp_left fun old => ?_))
      exact ((grown e.1).mp old).resolve_right fun now => same now.1

/-- The members still to be read are read to the end of the object. -/
theorem Covers.rest {ms : List (String × Member)} {gap : Bytes} {a : α} (blanks : Blanks gap)
    (pending : Pending entries Holds seen a ms) : ∃ b,
      members k false seen a (gap ++ (closing .object (ms.map (·.2.text)) ++ r)) = .ok (b, r) ∧
      ∀ e ∈ entries, Holds e.1 b := by
  induction ms generalizing gap seen a with
  | nil =>
    refine ⟨a, members_end (nextKey_closer blanks) (covers.missing seen), fun e held => ?_⟩
    exact pending.holds e held (pending.absent e held (by simp))
  | cons m ms ih =>
    have shaped := pending.shaped m (.head _)
    have delimited := delimited_closing (r := r) .object (ms.map (·.2.text))
    have found := nextKey_comma (r := closing .object (ms.map (·.2.text)) ++ r) blanks shaped.lead
    obtain ⟨seen', a', same, pending⟩ := covers.step pending delimited found
    rw [List.map_cons, closing_cons, List.cons_append, List.append_assoc, same]
    exact ih shaped.element.after pending

/-- An object is read from its opening brace on. -/
theorem Covers.object {ms : List (String × Member)} {gap gap' : Bytes} (blanks : Blanks gap)
    (blanks' : Blanks gap') (pending : Pending entries Holds [] k.blank ms) : ∃ b,
      k.decoder.read (gap ++ (objectText gap' (ms.map (·.2)) ++ r)) = .ok (b, r) ∧
      ∀ e ∈ entries, Holds e.1 b := by
  have opened {t : Bytes} : k.decoder.read (gap ++ openBrace :: t) = members k true [] k.blank t := by
    simp only [decoder, Decoder.ofFirst]
    rw [skipBlanks_first blanks rfl]
    simp only [if_true]
  cases ms with
  | nil =>
    have text : objectText gap' [] ++ r = openBrace :: (gap' ++ closeBrace :: r) := by
      simp [objectText, bracketed, Bracket.opener, Bracket.closer]
    rw [List.map_nil, text, opened]
    refine ⟨k.blank, members_end (nextKey_closer blanks') (covers.missing []), fun e held => ?_⟩
    exact pending.holds e held (pending.absent e held (by simp))
  | cons m ms =>
    have text : objectText gap' ((m :: ms).map (·.2)) ++ r =
        openBrace :: (gap' ++ (m.2.text ++ (closing .object (ms.map (·.2.text)) ++ r))) := by
      simp [objectText, bracketed, Bracket.opener, Function.comp_def]
    have shaped := pending.shaped m (.head _)
    have delimited := delimited_closing (r := r) .object (ms.map (·.2.text))
    obtain ⟨seen, a, same, pending⟩ := covers.step pending delimited (nextKey_first blanks' shaped.lead)
    rw [text, opened, same]
    exact covers.rest shaped.element.after pending

/-- The record is read from every document that says the content. It may be `null` if it says nothing. -/
theorem Covers.reads_nullable : Reads k.decoder.nullable (.record entries) fun x =>
    (∃ b, x = some b ∧ ∀ e ∈ entries, Holds e.1 b) ∨ x = none ∧ ∀ e ∈ entries, e.2.Empty := by
  intro gap w r blanks tells
  cases tells with
  | null empty =>
    cases empty with
    | record all => exact ⟨none, nullable_null blanks, .inr ⟨rfl, all⟩⟩
  | @object _ gap' ms blanks' shaped spelled known unknown once absent =>
    have pending : Pending entries Holds [] k.blank ms :=
      ⟨shaped, spelled, known, unknown, once, by simp, fun e held apart => .inr (absent e held apart),
        fun e held either => covers.blank e held (either.resolve_left (by simp))⟩
    obtain ⟨b, read, holds⟩ := covers.object (r := r) blanks blanks' pending
    refine ⟨some b, ?_, .inl ⟨b, rfl, holds⟩⟩
    cases ms with
    | nil => exact nullable_value blanks rfl (by decide) read
    | cons m ms => exact nullable_value blanks rfl (by decide) read

theorem Covers.reads_orDefault [Inhabited α] : Reads k.decoder.orDefault (.record entries) fun b =>
    (∀ e ∈ entries, Holds e.1 b) ∨ b = default ∧ ∀ e ∈ entries, e.2.Empty := by
  refine covers.reads_nullable.map fun x => ?_
  rintro (⟨b, rfl, holds⟩ | ⟨rfl, empty⟩)
  · exact .inl holds
  · exact .inr ⟨rfl, empty⟩

end

end Record

end TierTagger.Json
