import TierTagger.Proofs.Alarm.Event
import TierTagger.Proofs.Json.Lexemes
import TierTagger.Proofs.Json.Number

/-!
# Values survive the wire

`wire_faithful`: whatever is exchanged in JSON is read back from its written form as it was, and a text that was
read and written again says the same as before, in words that do not change any more. The decoders take more than
what is written: members in any order, lists for records, objects for names, defaults.
-/

namespace TierTagger

open Json Ascii

variable {α : Type} {d : Decoder α} {write : α → String}

/-! ## Scalars -/

namespace Json

theorem spells_boolean (b : Bool) : Spells .boolean (Writer.boolean b) b := by
  intro r _
  cases b with
  | true =>
    have bytes : Utf8.encode (Writer.boolean true) ++ r = ofChar 't' :: (trueTail ++ r) := rfl
    rw [bytes]
    simp [Decoder.boolean, Decoder.ofFirst, skipBlanks_cons (b := ofChar 't') rfl, letters_append, Except.map]
  | false =>
    have bytes : Utf8.encode (Writer.boolean false) ++ r = ofChar 'f' :: (falseTail ++ r) := rfl
    rw [bytes]
    simp [Decoder.boolean, Decoder.ofFirst, skipBlanks_cons (b := ofChar 'f') rfl, letters_append, Except.map,
      show ofChar 'f' ≠ ofChar 't' by decide]

/-- A name is read as what it stands for. -/
theorem spells_choice {known : List (String × α)} {x : String} {a : α} (listed : known.lookup x = some a) :
    Spells (.choice known) (Writer.text x) a := by
  intro r _
  obtain ⟨written, bytes, read⟩ := string_written x
  rw [bytes, List.cons_append]
  have name : (Decoder.name known).read (quote :: (written ++ r)) = .ok (a, r) := by
    simp [Decoder.name, Decoder.ofFirst, skipBlanks_cons (b := quote) rfl, read r, listed]
  simp only [Decoder.choice, skipBlanks_cons (b := quote) rfl]
  rw [if_neg (by decide), if_pos trivial, name]

end Json

/-! ## Records -/

theorem Resource.spells (r : Resource) : Spells Resource.decoder r.toJson r := by
  cases r <;> exact spells_choice rfl

theorem Hardware.spells (h : Hardware) : Spells Hardware.decoder h.toJson h := by
  have cpus : h.cpus.toNat < Nat.pow 2 32 := h.cpus.toNat_lt
  have memory : h.memoryMB.toNat < Nat.pow 2 64 := h.memoryMB.toNat_lt
  have fills : Record.Fills Hardware.record ⟨.ofNat h.cpus.toNat, .ofNat h.memoryMB.toNat⟩ [] Hardware.record.blank
      [("num_cpu", Writer.natural h.cpus.toNat), ("memory_mb", Writer.natural h.memoryMB.toNat)] :=
    .field (.head _) (by simp) (spells_natural (Nat.lt_trans cpus (by decide)) cpus)
      (.field (.tail _ (.head _)) (by simp) (spells_natural memory memory)
        (.done (by simp [Record.missing?, Hardware.record, Field.of])))
  rw [UInt32.ofNat_toNat, UInt64.ofNat_toNat] at fills
  exact Record.spells_object (by simp [Hardware.record, Field.of]) fills

theorem Tier.spells (t : Tier) : Spells Tier.decoder t.toJson t := (spells_text t.name).map Tier.mk

/-- A tag is read back, whatever the record is called. -/
theorem Tag.spells (name : String) (t : Tag) : Spells (Tag.record name).decoder t.toJson t :=
  Record.spells_object (by simp [Tag.record, Field.of])
    (.field (.head _) (by simp) (spells_text t.id)
      (.field (.tail _ (.head _)) (by simp) (spells_text t.name)
        (.field (.tail _ (.tail _ (.head _))) (by simp) (spells_text t.categoryId)
          (.done (by simp [Record.missing?, Tag.record, Field.of])))))

theorem Connection.spells (c : Connection) : Spells Connection.decoder c.toJson c :=
  Record.spells_object (by simp [Connection.record, Field.of])
    (.field (.head _) (by simp) (spells_text c.server)
      (.field (.tail _ (.head _)) (by simp) (spells_text c.user)
        (.field (.tail _ (.tail _ (.head _))) (by simp) (spells_text c.password)
          (.field (.tail _ (.tail _ (.tail _ (.head _)))) (by simp) (spells_boolean c.insecure)
            (.done (by simp [Record.missing?, Connection.record, Field.of]))))))

theorem Settings.spells (s : Settings) : Spells Settings.decoder s.toJson s :=
  Record.spells_object (by simp [Settings.record, Field.of])
    (.field (.head _) (by simp) s.connection.spells (.done (by simp [Record.missing?, Settings.record, Field.of])))

/-! ## The wire -/

/-- Values are read back as they were, and what was read is written in a form that says it and stays. -/
structure Faithful (d : Decoder α) (write : α → String) : Prop where
  back : ∀ a, d.decode (Utf8.encode (write a)) = .ok a
  settled : ∀ s a, d.decode s = .ok a →
    d.decode (Utf8.encode (write a)) = d.decode s ∧ (d.decode (Utf8.encode (write a))).map write = .ok (write a)

theorem faithful_of_spells (spells : ∀ a, Spells d (write a) a) : Faithful d write where
  back a := (spells a).decode
  settled s a read := by
    rw [(spells a).decode, read]
    exact ⟨rfl, rfl⟩

/-- All that is exchanged in JSON is written and read faithfully. -/
theorem wire_faithful : Faithful ObjectRef.decoder ObjectRef.toJson ∧ Faithful Resource.decoder Resource.toJson ∧
    Faithful Hardware.decoder Hardware.toJson ∧ Faithful Tier.decoder Tier.toJson ∧
    Faithful Tag.decoder Tag.toJson ∧ Faithful Connection.decoder Connection.toJson ∧
    Faithful Settings.decoder Settings.toJson :=
  ⟨faithful_of_spells Alarm.spells_reference, faithful_of_spells Resource.spells, faithful_of_spells Hardware.spells,
    faithful_of_spells Tier.spells, faithful_of_spells (Tag.spells "Label"), faithful_of_spells Connection.spells,
    faithful_of_spells Settings.spells⟩

end TierTagger
