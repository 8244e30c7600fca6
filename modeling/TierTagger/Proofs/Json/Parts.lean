import TierTagger.Proofs.Json.Forms

/-!
# A record is what its fields say

`Reflects`: each field has its own say in a record, and all fields together determine it. Then a record is read
off a text exactly if the text has one of the two forms and the record agrees with each of its entries, and with
the absence of the others (`Reflects.means`).
-/

namespace TierTagger.Json

variable {α β : Type} {P : β → Bytes → Prop} {w : Bytes}

/-! ## Entries -/

section
variable {entries : List (String × Bytes)} {shape : Shape} {name : String}

theorem lookup_eq_none : entries.lookup name = none ↔ name ∉ entries.map (·.1) := by
  simp only [List.lookup_eq_none_iff, List.mem_map, not_exists, not_and, bne_iff_ne]
  exact forall₂_congr fun e mem => ne_comm

/-- An entry that comes once is found. -/
theorem lookup_eq_some (once : (entries.map (·.1)).count name ≤ 1) :
    entries.lookup name = some w ↔ (name, w) ∈ entries := by
  induction entries with
  | nil => simp
  | cons e es ih =>
    obtain ⟨x, v⟩ := e
    rw [List.map_cons] at once
    by_cases same : name = x
    · subst same
      rw [List.count_cons_self] at once
      have apart : name ∉ es.map (·.1) := List.count_eq_zero.mp (by omega)
      have other : (name, w) ∉ es := fun mem => apart (List.mem_map_of_mem mem)
      rw [List.lookup_cons, beq_self_eq_true, List.mem_cons, or_iff_left other, Prod.mk.injEq, and_iff_right rfl]
      exact ⟨fun found => (Option.some.inj found).symm, fun same => congrArg some same.symm⟩
    · rw [List.count_cons_of_ne (Ne.symm same)] at once
      rw [List.lookup_cons, beq_false_of_ne same, List.mem_cons, ih once]
      exact (or_iff_right fun found => same (Prod.mk.inj found).1).symm

theorem map_fst_zip_take (names : List String) (values : List Bytes) :
    (names.zip values).map (·.1) = names.take values.length := by
  induction names generalizing values with
  | nil => simp
  | cons n names ih => cases values <;> simp [ih]

/-- In both of its forms a record has each field at most once, and the required ones. -/
theorem IsRecord.fits (record : IsRecord shape entries w) (distinct : (shape.map (·.1)).Nodup) :
    shape.Fits (entries.map (·.1)) := by
  cases record with
  | object _ fits => exact fits
  | @list values _ _ few rest =>
    intro f mem
    rw [map_fst_zip_take]
    refine ⟨List.nodup_iff_count.mp (distinct.sublist (List.take_sublist _ _)) _, fun required => ?_⟩
    rw [← List.map_take]
    rw [← List.take_append_drop values.length shape, List.mem_append] at mem
    refine List.mem_map_of_mem (mem.resolve_right fun late => ?_)
    rw [rest f late] at required
    cases required

end

/-- What a field says: the given value if it is not written, and otherwise what its text says. -/
inductive Part (P : β → Bytes → Prop) (blank : β) : β → Option Bytes → Prop where
  | absent : Part P blank blank none
  | written {b : β} {w : Bytes} (told : P b w) : Part P blank b (some w)

@[simp] theorem part_none {blank b : β} : Part P blank b none ↔ b = blank :=
  ⟨fun part => by cases part; rfl, fun same => same ▸ .absent⟩

@[simp] theorem part_some {blank b : β} : Part P blank b (some w) ↔ P b w :=
  ⟨fun part => by cases part; assumption, .written⟩

/-- A field is written and its text says so. -/
def Stated (P : β → Bytes → Prop) (b : β) (o : Option Bytes) : Prop := ∃ w, o = some w ∧ P b w

theorem stated_congr {Q : α → Bytes → Prop} {a : α} {b : β} {o : Option Bytes} (same : ∀ w, P b w ↔ Q a w) :
    Stated P b o ↔ Stated Q a o :=
  exists_congr fun w => and_congr_right fun _ => same w

/-- What absence does not say is written. -/
theorem part_ne {blank b : β} (other : b ≠ blank) {o : Option Bytes} : Part P blank b o ↔ Stated P b o := by
  cases o with
  | none => simp [other, Stated]
  | some w => simp [Stated]

/-- What neither absence nor `null` says is written. -/
theorem part_orNull {blank b : β} (other : b ≠ blank) {o : Option Bytes} :
    Part (OrNull P blank) blank b o ↔ Stated P b o :=
  (part_ne other).trans (stated_congr fun _ => orNull_ne other)

theorem Means.part_unique {d : Decoder β} (means : Means d P) {blank b b' : β} {o : Option Bytes}
    (part : Part P blank b o) (part' : Part P blank b' o) : b = b' := by
  cases part with
  | absent => exact (part_none.mp part').symm
  | written told => exact means.unique told (part_some.mp part')

namespace Record

variable {k : Record α} {Says : String → Option Bytes → α → Prop} {entries : List (String × Bytes)} {a b : α}

/-- Reading the field makes the record agree with it and changes no other agreement, and whatever a record may
agree with is read. -/
def Reflected (Says : String → Option Bytes → α → Prop) (f : Field α) : Prop :=
  ∃ Q, Means f.read Q ∧
    (∀ put w, Q put w → ∀ a, Says f.name (some w) (put a) ∧
      ∀ other o, other ≠ f.name → Says other o a → Says other o (put a)) ∧
    ∀ a w, Says f.name (some w) a → ∃ put, Q put w

/-- A field that is read by a decoder and put into a place of its own. -/
theorem reflected_of {γ : Type} {d : Decoder β} {name : String} {absence : Absence} {set : β → α → α} (view : β → γ)
    (get : α → γ) (means : Means d P) (same : ∀ a w, Says name (some w) a ↔ ∃ b, P b w ∧ view b = get a)
    (put : ∀ b a, get (set b a) = view b)
    (frame : ∀ b a other o, other ≠ name → Says other o a → Says other o (set b a)) :
    Reflected Says (Field.of name absence d set) := by
  refine ⟨_, means.map set, ?_, fun a w agrees => ?_⟩
  · rintro _ w ⟨b, told, rfl⟩ a
    exact ⟨(same _ w).mpr ⟨b, told, (put b a).symm⟩, frame b a⟩
  · obtain ⟨b, told, -⟩ := (same a w).mp agrees
    exact ⟨_, b, told, rfl⟩

/-- Each field has its own say in a record, and together they determine it. -/
structure Reflects (k : Record α) (Says : String → Option Bytes → α → Prop) : Prop where
  distinct : (k.fields.map (·.name)).Nodup
  field : ∀ f ∈ k.fields, Reflected Says f
  blank : ∀ f ∈ k.fields, f.absence ≠ .required → Says f.name none k.blank
  unique : ∀ (parts : String → Option Bytes) (a b : α), (∀ f ∈ k.fields, Says f.name (parts f.name) a) →
    (∀ f ∈ k.fields, Says f.name (parts f.name) b) → a = b

/-- What the field is read as from a text on its own. -/
def Alone (f : Field α) (put : α → α) (w : Bytes) : Prop := (∃ kind, IsValue kind w) ∧ f.read.read w = .ok (put, [])

theorem alone_iff {f : Field α} {Q : (α → α) → Bytes → Prop} (means : Means f.read Q) (put : α → α) (w : Bytes) :
    Q put w ↔ Alone f put w := by
  have read {kind : Kind} (value : IsValue kind w) : f.read.read w = .ok (put, []) ↔ Q put w := by
    have ends : Unnumeric [] := fun _ mem => nomatch mem
    have whole := means.read (a := put) blanks_nil value ends
    rwa [List.append_nil, List.nil_append] at whole
  constructor
  · intro told
    obtain ⟨kind, value⟩ := means.value told
    exact ⟨⟨kind, value⟩, (read value).mpr told⟩
  · rintro ⟨⟨kind, value⟩, alone⟩
    exact (read value).mp alone

section
variable (reflects : Reflects k Says)
include reflects

theorem Reflects.means_alone (f : Field α) (mem : f ∈ k.fields) : Means f.read (Alone f) := by
  obtain ⟨Q, means, -⟩ := reflects.field f mem
  exact means.congr (alone_iff means)

/-- Reading a field makes the record agree with it and changes no other agreement. -/
theorem Reflects.says_put {f : Field α} {put : α → α} (mem : f ∈ k.fields) (told : Alone f put w) (a : α) :
    Says f.name (some w) (put a) ∧ ∀ other o, other ≠ f.name → Says other o a → Says other o (put a) := by
  obtain ⟨Q, means, into, -⟩ := reflects.field f mem
  exact into put w ((alone_iff means put w).mpr told) a

theorem Reflects.exists_alone {f : Field α} (mem : f ∈ k.fields) (agrees : Says f.name (some w) a) :
    ∃ put, Alone f put w := by
  obtain ⟨Q, means, -, back⟩ := reflects.field f mem
  obtain ⟨put, told⟩ := back a w agrees
  exact ⟨put, (alone_iff means put w).mp told⟩

/-- A record agrees with the entries that were put into it, and with the absence of others as before. -/
theorem Reflects.puts (puts : Puts k Alone entries a b) {f : Field α} (mem : f ∈ k.fields)
    (once : (entries.map (·.1)).count f.name ≤ 1) :
    (∀ w, entries.lookup f.name = some w → Says f.name (some w) b) ∧
    (entries.lookup f.name = none → ∀ o, Says f.name o a → Says f.name o b) := by
  induction puts with
  | nil => simp
  | @cons e es a a' b takes rest ih =>
    obtain ⟨x, v⟩ := e
    rw [List.map_cons] at once
    by_cases same : f.name = x
    · subst same
      rw [List.count_cons_self] at once
      have none : es.lookup f.name = none := lookup_eq_none.mpr (List.count_eq_zero.mp (by omega))
      have kept := (ih (by omega)).2 none
      obtain ⟨put, told, rfl⟩ := (takes_known reflects.distinct mem).mp takes
      rw [List.lookup_cons, beq_self_eq_true]
      refine ⟨fun w same => ?_, nofun⟩
      cases same
      exact kept _ (reflects.says_put mem told a).1
    · rw [List.count_cons_of_ne (Ne.symm same)] at once
      rw [List.lookup_cons, beq_false_of_ne same]
      refine ⟨(ih once).1, fun none o agrees => (ih once).2 none o ?_⟩
      cases takes with
      | known mem' told => exact (reflects.says_put mem' told a).2 _ o same agrees
      | unknown => exact agrees

/-- Entries that a record agrees with can be put into one. -/
theorem Reflects.exists_puts (agrees : ∀ e ∈ entries, ∀ f ∈ k.fields, f.name = e.1 → Says f.name (some e.2) b)
    (a : α) : ∃ a', Puts k Alone entries a a' := by
  induction entries generalizing a with
  | nil => exact ⟨a, .nil⟩
  | cons e es ih =>
    obtain ⟨x, v⟩ := e
    obtain ⟨first, others⟩ := List.forall_mem_cons.mp agrees
    by_cases known : k.Known x
    · obtain ⟨f, mem, rfl⟩ := known
      obtain ⟨put, told⟩ := reflects.exists_alone mem (first f mem rfl)
      obtain ⟨a', puts⟩ := ih others (put a)
      exact ⟨a', .cons (.known mem told) puts⟩
    · obtain ⟨a', puts⟩ := ih others a
      exact ⟨a', .cons ((takes_unknown known).mpr rfl) puts⟩

/-- A record is read if it agrees with each of its fields. -/
theorem Reflects.means : Means k.decoder fun b w =>
    ∃ entries, IsRecord k.shape entries w ∧ ∀ f ∈ k.fields, Says f.name (entries.lookup f.name) b := by
  refine (means_entries reflects.distinct reflects.means_alone).congr fun b w =>
    exists_congr fun entries => and_congr_right fun record => ?_
  have distinct : (k.shape.map (·.1)).Nodup := by
    simpa [shape, Function.comp_def] using reflects.distinct
  have fits : ∀ f ∈ k.fields, (entries.map (·.1)).count f.name ≤ 1 ∧
      (f.absence = .required → f.name ∈ entries.map (·.1)) := by
    simpa only [Shape.Fits, shape, List.forall_mem_map] using record.fits distinct
  have told {b : α} (puts : Puts k Alone entries k.blank b) :
      ∀ f ∈ k.fields, Says f.name (entries.lookup f.name) b := by
    intro f mem
    obtain ⟨once, present⟩ := fits f mem
    obtain ⟨written, absent⟩ := reflects.puts puts mem once
    cases found : entries.lookup f.name with
    | some w => exact written w found
    | none =>
      refine absent found none (reflects.blank f mem fun required => ?_)
      exact lookup_eq_none.mp found (present required)
  refine ⟨told, fun agrees => ?_⟩
  have each : ∀ e ∈ entries, ∀ f ∈ k.fields, f.name = e.1 → Says f.name (some e.2) b := by
    intro e held f mem same
    rw [← (lookup_eq_some (fits f mem).1).mpr (same ▸ held)]
    exact agrees f mem
  obtain ⟨b', puts⟩ := reflects.exists_puts each k.blank
  rwa [reflects.unique (entries.lookup ·) b b' agrees (told puts)]

end

/-- A record with a single field is what the field says. -/
theorem means_single {d : Decoder β} {name : String} {absence : Absence} (means : Means d P) (view : β → α)
    (single : k.fields = [.of name absence d fun b _ => view b]) : Means k.decoder fun a w =>
      ∃ entries, IsRecord [(name, absence)] entries w ∧
        Part (fun a w => ∃ b, P b w ∧ view b = a) k.blank a (entries.lookup name) := by
  have each {φ : Field α → Prop} : (∀ f ∈ k.fields, φ f) ↔ φ (.of name absence d fun b _ => view b) := by
    rw [single, List.forall_mem_singleton]
  have reflects : k.Reflects fun field o a =>
      field = name → Part (fun a w => ∃ b, P b w ∧ view b = a) k.blank a o := {
    distinct := by simp [single]
    field := each.mpr (reflected_of view id means (by simp) (fun _ _ => rfl) (by simp +contextual))
    blank := each.mpr (by simp [Field.of])
    unique := fun parts a b agrees agrees' =>
      (means.map view).part_unique (each.mp agrees rfl) (each.mp agrees' rfl) }
  refine reflects.means.congr fun a w => exists_congr fun entries => ?_
  rw [each, shape, single]
  simp [Field.of]

end Record

end TierTagger.Json
