import TierTagger.Alarm.Event
import TierTagger.Proofs.Json.Content

/-!
# Every document of an event

`ofEvent_document`: an event is understood however its document is written, and if it says too little the
machine is missed first.
-/

namespace TierTagger.Alarm

open Json Ascii

variable {kind value name level : String} {p : Bytes}

/-- What a reference says: the type and the id of an object. -/
abbrev referenceEntries (kind value : String) : List (String × Content) :=
  [("Type", .text kind), ("Value", .text value)]

/-- What the data of an event say: a machine, the name of an alarm and its new level. -/
abbrev dataEntries (kind value name level : String) : List (String × Content) :=
  [("Vm", .record [("Vm", .record (referenceEntries kind value))]),
    ("Alarm", .record [("Name", .text name)]),
    ("To", .text level)]

/-- What an event says. -/
def eventContent (kind value name level : String) : Content :=
  .record [("Data", .record (dataEntries kind value name level))]

/-- A payload that says so, blanks around it included. -/
inductive Document (kind value name level : String) : Bytes → Prop where
  | of {before w after : Bytes} (blanks : Blanks before) (tells : Tells (eventContent kind value name level) w)
    (blanks' : Blanks after) : Document kind value name level (before ++ (w ++ after))

/-! ## The records of an event -/

/-- What is read of the machine: it may be missing if nothing is said of it. -/
def Machine (kind value : String) (vm : Option ObjectRef) : Prop :=
  vm = some ⟨kind, value⟩ ∨ vm = none ∧ kind = "" ∧ value = ""

theorem covers_reference : ObjectRef.record.Covers (referenceEntries kind value)
    fun field r => (field = "Type" → r.kind = kind) ∧ (field = "Value" → r.value = value) where
  distinct := by simp [ObjectRef.record, Field.of]
  field := by simp [ObjectRef.record, Field.of]
  optional := by simp [ObjectRef.record, Field.of]
  told := by
    intro f mem
    simp only [ObjectRef.record, List.mem_cons, List.not_mem_nil, or_false] at mem
    rcases mem with rfl | rfl
    · refine Record.told_of (.head _) (reads_text kind) ?_
      simp +contextual
    · refine Record.told_of (.tail _ (.head _)) (reads_text value) ?_
      simp +contextual
  blank := by
    simp +contextual only [referenceEntries, List.forall_mem_cons, Content.empty_text, List.not_mem_nil,
      false_implies, implies_true, and_true]
    exact ⟨fun _ => ⟨fun _ => rfl, by simp⟩, fun _ => ⟨by simp, fun _ => rfl⟩⟩

theorem covers_vm : Change.vmRecord.Covers [("Vm", .record (referenceEntries kind value))]
    fun field vm => field = "Vm" → Machine kind value vm where
  distinct := by simp [Change.vmRecord]
  field := by simp [Change.vmRecord, Field.of]
  optional := by simp [Change.vmRecord, Field.of]
  told := by
    intro f mem
    simp only [Change.vmRecord, List.mem_cons, List.not_mem_nil, or_false] at mem
    subst mem
    refine Record.told_of (.head _) covers_reference.reads_nullable ?_
    rintro vm (⟨⟨k, v⟩, rfl, told⟩ | ⟨rfl, empty⟩)
    · have same : k = kind := (told _ (.head _)).1 rfl
      have same' : v = value := (told _ (.tail _ (.head _))).2 rfl
      simp +contextual [Machine, same, same']
    · obtain ⟨rfl, rfl⟩ : kind = "" ∧ value = "" := by simpa using empty
      simp +contextual [Machine]
  blank := by simp +contextual [Change.vmRecord, Machine]

theorem covers_alarm :
    Change.alarmRecord.Covers [("Name", .text name)] fun field n => field = "Name" → n = name where
  distinct := by simp [Change.alarmRecord]
  field := by simp [Change.alarmRecord, Field.of]
  optional := by simp [Change.alarmRecord, Field.of]
  told := by
    intro f mem
    simp only [Change.alarmRecord, List.mem_cons, List.not_mem_nil, or_false] at mem
    subst mem
    refine Record.told_of (.head _) (reads_text name) ?_
    simp +contextual
  blank := by simp +contextual [Change.alarmRecord]

/-- What the data of an event say, field by field. -/
def DataSay (kind value name level : String) (field : String) (c : Change) : Prop :=
  (field = "Vm" → Machine kind value c.vm) ∧ (field = "Alarm" → c.name = name) ∧
    (field = "To" → c.level = level)

theorem covers_data :
    Change.record.Covers (dataEntries kind value name level) (DataSay kind value name level) where
  distinct := by simp [Change.record, Field.of]
  field := by simp [Change.record, Field.of]
  optional := by simp [Change.record, Field.of]
  told := by
    intro f mem
    simp only [Change.record, List.mem_cons, List.not_mem_nil, or_false] at mem
    rcases mem with rfl | rfl | rfl
    · refine Record.told_of (.head _) covers_vm.reads_nullable ?_
      rintro vm (⟨vm, rfl, told⟩ | ⟨rfl, empty⟩)
      · have machine : Machine kind value vm := told _ (.head _) rfl
        simp +contextual [DataSay, machine]
      · obtain ⟨rfl, rfl⟩ : kind = "" ∧ value = "" := by simpa using empty
        simp +contextual [DataSay, Machine]
    · refine Record.told_of (.tail _ (.head _)) covers_alarm.reads_orDefault ?_
      rintro n (told | ⟨rfl, empty⟩)
      · have same : n = name := told _ (.head _) rfl
        simp +contextual [DataSay, same]
      · obtain rfl : name = "" := by simpa using empty
        simp +contextual [DataSay, default]
    · refine Record.told_of (.tail _ (.tail _ (.head _))) (reads_text level) ?_
      simp +contextual [DataSay]
  blank := by
    intro e mem empty
    simp only [dataEntries, List.mem_cons, List.not_mem_nil, or_false] at mem
    rcases mem with rfl | rfl | rfl
    · obtain ⟨rfl, rfl⟩ : kind = "" ∧ value = "" := by simpa using empty
      exact ⟨fun _ => .inr ⟨rfl, rfl, rfl⟩, by simp, by simp⟩
    · obtain rfl : name = "" := by simpa using empty
      exact ⟨by simp, fun _ => rfl, by simp⟩
    · obtain rfl : level = "" := by simpa using empty
      exact ⟨by simp, by simp, fun _ => rfl⟩

/-- What is read of an event. -/
structure Says (kind value name level : String) (c : Change) : Prop where
  vm : Machine kind value c.vm
  name : c.name = name
  level : c.level = level

theorem says_of_entries {c : Change}
    (all : ∀ e ∈ dataEntries kind value name level, DataSay kind value name level e.1 c) :
    Says kind value name level c := by
  have vm := (all _ (.head _)).1 rfl
  have name := (all _ (.tail _ (.head _))).2.1 rfl
  have level := (all _ (.tail _ (.tail _ (.head _)))).2.2 rfl
  exact ⟨vm, name, level⟩

theorem says_default {c : Change} (empty : ∀ e ∈ dataEntries kind value name level, e.2.Empty)
    (blank : c = default) : Says kind value name level c := by
  obtain ⟨⟨rfl, rfl⟩, rfl, rfl⟩ : (kind = "" ∧ value = "") ∧ name = "" ∧ level = "" := by
    simpa using empty
  exact blank ▸ ⟨.inr ⟨rfl, rfl, rfl⟩, rfl, rfl⟩

theorem covers_event : Change.eventRecord.Covers [("Data", .record (dataEntries kind value name level))]
    fun field c => field = "Data" → Says kind value name level c where
  distinct := by simp [Change.eventRecord]
  field := by simp [Change.eventRecord, Field.of]
  optional := by simp [Change.eventRecord, Field.of]
  told := by
    intro f mem
    simp only [Change.eventRecord, List.mem_cons, List.not_mem_nil, or_false] at mem
    subst mem
    refine Record.told_of (.head _) covers_data.reads_orDefault ?_
    rintro c (told | ⟨blank, empty⟩) before
    · exact ⟨fun _ => says_of_entries told, fun other apart _ same => absurd same apart⟩
    · exact ⟨fun _ => says_default empty blank, fun other apart _ same => absurd same apart⟩
  blank := by
    intro e mem empty _
    rw [List.mem_singleton] at mem
    subst mem
    exact says_default (Content.empty_record.mp empty) rfl

/-- An event is read from every document of it. -/
theorem reads_event : Reads Change.decoder (eventContent kind value name level)
    (Says kind value name level) := by
  intro gap w r blanks tells
  obtain ⟨c, read, told | ⟨blank, empty⟩⟩ := covers_event.reads_orDefault gap w r blanks tells
  · exact ⟨c, read, told _ (.head _) rfl⟩
  · exact ⟨c, read, says_default (Content.empty_record.mp (empty _ (.head _))) blank⟩

/-! ## The alarm of an event -/

theorem Says.alarm {c : Change} (told : Says kind value name level c) : c.alarm =
    if value = "" then .error .noMachine
    else if name = "" ∨ level = "" then .error .noAlarm
    else .ok ⟨⟨kind, value⟩, name, level⟩ := by
  rcases told.vm with vm | ⟨vm, -, rfl⟩
  · simp only [Change.alarm, vm, told.name, told.level]
  · simp only [Change.alarm, vm, if_true]

/-- An event is understood however its document is written. If it says too little, a missing machine is told
of first and a missing name or level otherwise, each in its own words. -/
theorem ofEvent_document (document : Document kind value name level p) :
    ofEvent p =
      (if value = "" then .error .noMachine
      else if name = "" ∨ level = "" then .error .noAlarm
      else .ok ⟨⟨kind, value⟩, name, level⟩) ∧
    EventError.noMachine.message = "empty VM managed object reference" ∧
    EventError.noAlarm.message = "insufficient alarm information" := by
  refine ⟨?_, rfl, rfl⟩
  cases document with
  | of blanks tells blanks' =>
    obtain ⟨c, decoded, told⟩ := reads_event.decode blanks tells blanks'
    simp only [ofEvent, decoded]
    exact told.alarm

/-- A machine, its type `null`. -/
def sampleMachine : Bytes :=
  compactText [("Vm", .object,
    compactText [("Value", .text, Utf8.encode "\"vm-4\""), ("Type", .null, Utf8.encode "null")])]

/-- An event with its members out of order, another one among them, and escapes in its strings. -/
def sampleEvent : Bytes :=
  compactText [("Data", .object, compactText [
    ("To", .text, Utf8.encode "\"r\\u0065d\""),
    ("x", .list, Utf8.encode "[\x7b\x7d]"),
    ("Alarm", .object, compactText [("Name", .text, Utf8.encode "\"\\ud83d\\uDE00\"")]),
    ("Vm", .object, sampleMachine)])]

example : sampleEvent = Utf8.encode
    ("\x7b\"Data\":\x7b\"To\":\"r\\u0065d\",\"x\":[\x7b\x7d],\"Alarm\":\x7b\"Name\":\"\\ud83d\\uDE00\"\x7d," ++
      "\"Vm\":\x7b\"Vm\":\x7b\"Value\":\"vm-4\",\"Type\":null\x7d\x7d\x7d\x7d") := by
  decide +kernel

theorem tells_red : Tells (.text "red") (Utf8.encode "\"r\\u0065d\"") := by
  have text : Utf8.encode "\"r\\u0065d\"" = quote :: ((String.utf8EncodeChar 'r' ++
      (backslash :: ofChar 'u' :: Utf8.encode "0065" ++ (String.utf8EncodeChar 'd' ++ []))) ++ [quote]) := by
    decide
  rw [text]
  exact .text (.cons (.plain (by decide) (by decide) (by decide)) (.cons (c := 'e') (.unicode (.of_read rfl))
    (.cons (.plain (by decide) (by decide) (by decide)) .nil)))

theorem tells_smile : Tells (.text "😀") (Utf8.encode "\"\\ud83d\\uDE00\"") := by
  have text : Utf8.encode "\"\\ud83d\\uDE00\"" = quote :: ((backslash :: ofChar 'u' :: (Utf8.encode "d83d" ++
      backslash :: ofChar 'u' :: Utf8.encode "DE00")) ++ [] ++ [quote]) := by
    decide
  rw [text]
  have high : Hex4 0xd83d (Utf8.encode "d83d") := .of_read rfl
  have low : Hex4 0xde00 (Utf8.encode "DE00") := .of_read rfl
  exact .text (.cons (c := '😀') (.pair high low (by decide) (by decide) (by decide)) .nil)

theorem tells_machine : Tells (.record [("Vm", .record (referenceEntries "" "vm-4"))]) sampleMachine := by
  have value : Tells (.text "vm-4") (Utf8.encode "\"vm-4\"") := .text (spelledText_encode (by decide))
  have reference : Tells (.record (referenceEntries "" "vm-4")) (compactText
      [("Value", .text, Utf8.encode "\"vm-4\""), ("Type", .null, Utf8.encode "null")]) :=
    .compact (by decide) (by simpa using ⟨value, .null (by simp)⟩) (by simp [Among]) (by decide) (by simp)
  exact .compact (by decide) (by simpa using reference) (by simp [Among]) (by decide) (by simp)

theorem tells_sampleEvent : Tells (eventContent "" "vm-4" "😀" "red") sampleEvent := by
  have alarm : Tells (.record [("Name", .text "😀")])
      (compactText [("Name", .text, Utf8.encode "\"\\ud83d\\uDE00\"")]) :=
    .compact (by decide) (by simpa using tells_smile) (by simp [Among]) (by decide) (by simp)
  have empty : IsValue .object (objectText [] []) := .object blanks_nil (by simp) (by simp)
  have listed : IsValue .list (bracketed .list [] ([⟨[], .object, objectText [] [], []⟩].map Element.text)) :=
    .list blanks_nil (by simpa using ⟨blanks_nil, blanks_nil⟩) (by simpa using empty)
  have other : IsValue .list (Utf8.encode "[\x7b\x7d]") := listed
  refine .compact (by decide) ?_ (by simp [Among]) (by decide) (by simp)
  simp only [List.forall_mem_singleton]
  rintro -
  exact .compact (by decide) (by simpa using ⟨tells_red, alarm, tells_machine⟩)
      (by simpa [Among] using other) (by decide) (by simp)

/-- A machine without a type, an escape and a surrogate pair. -/
theorem ofEvent_sampleEvent :
    Document "" "vm-4" "😀" "red" (space :: (sampleEvent ++ [lineFeed])) ∧
    ofEvent (space :: (sampleEvent ++ [lineFeed])) = .ok ⟨⟨"", "vm-4"⟩, "😀", "red"⟩ := by
  have blank : Blanks [space] := by simp [Blanks, isBlank]
  have blank' : Blanks [lineFeed] := by simp [Blanks, isBlank]
  have document : Document "" "vm-4" "😀" "red" ([space] ++ (sampleEvent ++ [lineFeed])) :=
    Document.of (w := sampleEvent) blank tells_sampleEvent blank'
  exact ⟨document, (ofEvent_document document).1⟩

end TierTagger.Alarm
