import TierTagger.Proofs.Inventory.Effect
import TierTagger.Proofs.Url.Address

/-!
# Content that can be asked for

What a taxonomy has to be like so that every id and every name means one thing, and every id can stand
in an address.

- `Consistent`: ids and names are distinct, and no id is a name.
- `Consistent.categoryId?_eq`: a category is found by its id or name, wherever it is in the list.
-/

namespace TierTagger.Inventory

open Url (IsSegment)

variable {i : Inventory} {category id name : String}

/-- Ids and names are distinct, tags are in registered categories, and all ids can be segments. -/
structure Consistent (i : Inventory) : Prop where
  categoryIds : (i.categories.map (·.1)).Nodup
  categoryNames : (i.categories.map (·.2)).Nodup
  apart : ∀ x ∈ i.categories, ∀ y ∈ i.categories, x.1 ≠ y.2
  tagIds : (i.tags.map (·.id)).Nodup
  registered : ∀ t ∈ i.tags, t.categoryId ∈ i.categories.map (·.1)
  machineSegments : ∀ m ∈ i.machines, IsSegment m.1
  categorySegments : ∀ x ∈ i.categories, IsSegment x.1
  tagSegments : ∀ t ∈ i.tags, IsSegment t.id

theorem Consistent.unambiguous (consistent : i.Consistent) (category : String) :
    i.Unambiguous category := by
  intro x at_x y at_y x_meant y_meant
  rcases x_meant with x_id | x_name <;> rcases y_meant with y_id | y_name
  · exact List.inj_on_of_nodup_map consistent.categoryIds at_x at_y (x_id.trans y_id.symm)
  · exact absurd (x_id.trans y_name.symm) (consistent.apart x at_x y at_y)
  · exact absurd (y_id.trans x_name.symm) (consistent.apart y at_y x at_x)
  · exact List.inj_on_of_nodup_map consistent.categoryNames at_x at_y (x_name.trans y_name.symm)

theorem Unambiguous.categoryId?_eq (one : i.Unambiguous category) (mem : (id, name) ∈ i.categories)
    (meant : id = category ∨ name = category) : i.categoryId? category = some id := by
  cases found : i.categoryId? category with
  | none =>
    have none := List.find?_eq_none.mp (Option.map_eq_none_iff.mp found) (id, name) mem
    simp at none
    tauto
  | some id' =>
    obtain ⟨name', mem', meant'⟩ := categoryId?_eq_some found
    have same := one (id', name') mem' (id, name) mem meant' meant
    exact congrArg some (congrArg Prod.fst same)

theorem Consistent.name_eq {name' : String} (consistent : i.Consistent) (mem : (id, name) ∈ i.categories)
    (mem' : (id, name') ∈ i.categories) : name = name' :=
  congrArg Prod.snd (List.inj_on_of_nodup_map consistent.categoryIds mem mem' rfl)

theorem Consistent.lookup_eq (consistent : i.Consistent) (mem : (id, name) ∈ i.categories) :
    i.categories.lookup id = some name := by
  cases found : i.categories.lookup id with
  | none =>
    have none := List.lookup_eq_none_iff.mp found _ mem
    simp at none
  | some name' =>
    obtain ⟨before, after, split, -⟩ := List.lookup_eq_some_iff.mp found
    have mem' : (id, name') ∈ i.categories := by simp [split]
    rw [consistent.name_eq mem mem']

theorem Consistent.find?_eq {t : Tag} (consistent : i.Consistent) (mem : t ∈ i.tags) :
    i.tags.find? (·.id = t.id) = some t := by
  cases found : i.tags.find? (·.id = t.id) with
  | none =>
    have none := List.find?_eq_none.mp found t mem
    simp at none
  | some t' =>
    have same : t'.id = t.id := by simpa using List.find?_some found
    rw [List.inj_on_of_nodup_map consistent.tagIds (List.mem_of_find?_eq_some found) mem same]

/-- The id of the category with an id or a name, or the error of asking for one that is not there. -/
def foundId (i : Inventory) (category : String) : Except Directory.Error String :=
  match i.categoryId? category with
  | some id => .ok id
  | none => .error (.categoryNotFound category)

theorem foundId_eq_error (foreign : ∀ x ∈ i.categories, x.1 ≠ category)
    (unnamed : ∀ x ∈ i.categories, x.2 ≠ category) :
    i.foundId category = .error (.categoryNotFound category) := by
  have none : i.categoryId? category = none := by
    refine Option.map_eq_none_iff.mpr (List.find?_eq_none.mpr fun x mem => ?_)
    simp [foreign x mem, unnamed x mem]
  rw [foundId, none]

theorem foundId_mem (found : i.foundId category = .ok id) : id ∈ i.categories.map (·.1) := by
  unfold foundId at found
  split at found
  · next at_id =>
    cases found
    obtain ⟨name, mem, -⟩ := categoryId?_eq_some at_id
    exact List.mem_map_of_mem mem
  · cases found

/-- The tags of the category with an id or a name. -/
def listed (i : Inventory) (category : String) : Except Directory.Error (List Tag) :=
  i.foundId category >>= fun id => .ok (i.tags.filter (·.categoryId = id))

theorem mem_of_listed {tags : List Tag} (found : i.listed category = .ok tags) : ∀ t ∈ tags, t ∈ i.tags := by
  unfold listed at found
  cases at_id : i.foundId category with
  | error e =>
    rw [at_id] at found
    cases found
  | ok id =>
    rw [at_id] at found
    cases found
    exact fun t mem => (List.mem_filter.mp mem).1

end TierTagger.Inventory
