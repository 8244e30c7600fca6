import TierTagger.Proofs.Json.Number
import TierTagger.VCenter.Models

/-!
# What the server reads and writes

The bodies of requests as decoders of the server, which read back what the client wrote, and the bodies of
responses, which the client reads back.
-/

namespace TierTagger.VCenter

open Json

/-! ## Requests -/

/-- An object, by its id and its type. -/
def objectRecord : Record ObjectRef where
  name := "DynamicID"
  blank := default
  fields := [
    .of "id" .required .text fun t o => { o with value := t },
    .of "type" .required .text fun t o => { o with kind := t }]

/-- The object that a tag is to be attached to. -/
def attachRecord : Record ObjectRef where
  name := "AttachRequest"
  blank := default
  fields := [.of "object_id" .required objectRecord.decoder fun o _ => o]

/-- The category whose tags are to be listed. -/
def listRecord : Record String where
  name := "ListTagsRequest"
  blank := ""
  fields := [.of "category_id" .required .text fun t _ => t]

theorem spells_objectBody (vm : ObjectRef) : Spells attachRecord.decoder (objectBody vm) vm := by
  have inner : Spells objectRecord.decoder
      (Writer.object [("id", Writer.text vm.value), ("type", Writer.text vm.kind)]) vm :=
    Record.spells_object (by simp [objectRecord, Field.of])
      (.field (.head _) (by simp) (spells_text vm.value)
        (.field (.tail _ (.head _)) (by simp) (spells_text vm.kind)
          (.done (by simp [Record.missing?, objectRecord, Field.of]))))
  exact Record.spells_object (by simp [attachRecord, Field.of])
    (.field (.head _) (by simp) inner (.done (by simp [Record.missing?, attachRecord, Field.of])))

theorem spells_categoryBody (id : String) : Spells listRecord.decoder (categoryBody id) id :=
  Record.spells_object (by simp [listRecord, Field.of])
    (.field (.head _) (by simp) (spells_text id)
      (.done (by simp [Record.missing?, listRecord, Field.of])))

/-! ## Responses -/

/-- The record of a machine. -/
def machineText (h : Hardware) : String :=
  Writer.object [("cpu", Writer.object [("count", Writer.natural h.cpus.toNat)]),
    ("memory", Writer.object [("size_MiB", Writer.natural h.memoryMB.toNat)])]

/-- The record of a category. -/
def categoryText (c : Category) : String :=
  Writer.object [("id", Writer.text c.id), ("name", Writer.text c.name)]

theorem spells_ids (ids : List String) : Spells idsDecoder (listText (ids.map Writer.text)) ids :=
  spells_list spells_text starts_text rfl (by decide) ids

theorem spells_cpus (n : UInt32) :
    Spells cpuRecord.decoder (Writer.object [("count", Writer.natural n.toNat)]) n := by
  have small : n.toNat < Nat.pow 2 32 := n.toNat_lt
  have fills : Record.Fills cpuRecord (.ofNat n.toNat) [] cpuRecord.blank
      [("count", Writer.natural n.toNat)] :=
    .field (.head _) (by simp) (spells_natural (Nat.lt_trans small (by decide)) small)
      (.done (by simp [Record.missing?, cpuRecord, Field.of]))
  rw [UInt32.ofNat_toNat] at fills
  exact Record.spells_object (by simp [cpuRecord, Field.of]) fills

theorem spells_memory (n : UInt64) :
    Spells memoryRecord.decoder (Writer.object [("size_MiB", Writer.natural n.toNat)]) n := by
  have small : n.toNat < Nat.pow 2 64 := n.toNat_lt
  have fills : Record.Fills memoryRecord (.ofNat n.toNat) [] memoryRecord.blank
      [("size_MiB", Writer.natural n.toNat)] :=
    .field (.head _) (by simp) (spells_natural small small)
      (.done (by simp [Record.missing?, memoryRecord, Field.of]))
  rw [UInt64.ofNat_toNat] at fills
  exact Record.spells_object (by simp [memoryRecord, Field.of]) fills

theorem spells_machine (h : Hardware) :
    Spells Machine.decoder (machineText h) ⟨some h.cpus, some h.memoryMB⟩ := by
  have cpus := (spells_cpus h.cpus).nullable (Record.starts_object _) rfl (by decide)
  have memory := (spells_memory h.memoryMB).nullable (Record.starts_object _) rfl (by decide)
  exact Record.spells_object (by simp [Machine.record, Field.of])
    (.field (.head _) (by simp) cpus (.field (.tail _ (.head _)) (by simp) memory
      (.done (by simp [Record.missing?, Machine.record, Field.of]))))

theorem spells_category (c : Category) : Spells Category.decoder (categoryText c) c :=
  Record.spells_object (by simp [Category.record, Field.of])
    (.field (.head _) (by simp) (spells_text c.id)
      (.field (.tail _ (.head _)) (by simp) (spells_text c.name)
        (.done (by simp [Record.missing?, Category.record, Field.of]))))

end TierTagger.VCenter
