import TierTagger.Proofs.Json.Spelling
import TierTagger.Wire

/-!
# Written events

Every alarm that says enough can be told in an event, and is read back from it (`ofEvent_eventText`).
-/

namespace TierTagger.Alarm

open Json

/-- An event that tells of an alarm. -/
def eventText (a : Alarm) : String :=
  Writer.object [("Data", Writer.object [
    ("Vm", Writer.object [("Vm", a.vm.toJson)]),
    ("Alarm", Writer.object [("Name", Writer.text a.name)]),
    ("To", Writer.text a.level)])]

section
variable {α : Type} [Inhabited α] {d : Decoder α} {w : String} {a : α}

/-- A value is read where `null` is read as the default. -/
theorem spells_orDefault {b : UInt8} (spells : Spells d w a) (starts : Starts b w)
    (visible : isBlank b = false) (other : b ≠ Ascii.ofChar 'n') : Spells d.orDefault w a :=
  (spells.nullable starts visible other).map (·.getD default)

theorem spells_textOrDefault (x : String) : Spells Decoder.text.orDefault (Writer.text x) x :=
  spells_orDefault (spells_text x) (starts_text x) rfl (by decide)

end

theorem spells_reference (vm : ObjectRef) : Spells ObjectRef.decoder vm.toJson vm :=
  Record.spells_object (by simp [ObjectRef.record, Field.of])
    (.field (.head _) (by simp) (spells_textOrDefault vm.kind)
      (.field (.tail _ (.head _)) (by simp) (spells_textOrDefault vm.value)
        (.done (by simp [Record.missing?, ObjectRef.record, Field.of]))))

theorem spells_vm (vm : ObjectRef) :
    Spells Change.vmRecord.decoder (Writer.object [("Vm", vm.toJson)]) (some vm) := by
  have reference := (spells_reference vm).nullable (Record.starts_object _) rfl (by decide)
  exact Record.spells_object (by simp [Change.vmRecord, Field.of])
    (.field (.head _) (by simp) reference (.done (by simp [Record.missing?, Change.vmRecord, Field.of])))

theorem spells_alarmName (name : String) :
    Spells Change.alarmRecord.decoder (Writer.object [("Name", Writer.text name)]) name :=
  Record.spells_object (by simp [Change.alarmRecord, Field.of])
    (.field (.head _) (by simp) (spells_textOrDefault name)
      (.done (by simp [Record.missing?, Change.alarmRecord, Field.of])))

theorem spells_eventText (a : Alarm) : Spells Change.decoder a.eventText ⟨some a.vm, a.name, a.level⟩ := by
  have vm := (spells_vm a.vm).nullable (Record.starts_object _) rfl (by decide)
  have name := spells_orDefault (spells_alarmName a.name) (Record.starts_object _) rfl (by decide)
  have level := spells_textOrDefault a.level
  have change := Record.spells_object (k := Change.record) (by simp [Change.record, Field.of])
    (.field (.head _) (by simp) vm (.field (.tail _ (.head _)) (by simp) name
      (.field (.tail _ (.tail _ (.head _))) (by simp) level
        (.done (by simp [Record.missing?, Change.record, Field.of])))))
  have event := Record.spells_object (k := Change.eventRecord) (by simp [Change.eventRecord, Field.of])
    (.field (.head _) (by simp) (spells_orDefault change (Record.starts_object _) rfl (by decide))
      (.done (by simp [Record.missing?, Change.eventRecord, Field.of])))
  exact spells_orDefault event (Record.starts_object _) rfl (by decide)

/-- An alarm that says enough is read back from the event that tells of it. -/
theorem ofEvent_eventText {a : Alarm} (machine : a.vm.value ≠ "") (name : a.name ≠ "")
    (level : a.level ≠ "") : ofEvent (Utf8.encode a.eventText) = .ok a := by
  rw [ofEvent, (spells_eventText a).decode]
  simp [Change.alarm, machine, name, level]

end TierTagger.Alarm
