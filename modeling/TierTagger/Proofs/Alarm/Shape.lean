import TierTagger.Alarm.Event
import TierTagger.Proofs.Json.Parts

/-!
# The shape of an event

`ofEvent_eq_ok`: an alarm is understood from a payload exactly if the payload is an event of it, blanks around it
aside. Each of the five records of an event has one of the two forms of a record. The machine, the name and the
level have to be told, and what is not read is free.
-/

namespace TierTagger.Alarm

open Json Ascii

variable {p w : Bytes} {a : Alarm}

/-! ## The records of an event -/

/-- A string that may be `null`. -/
abbrev NullableText : String → Bytes → Prop := OrNull IsText ""

theorem means_nullableText : Means Decoder.text.orDefault NullableText :=
  means_text.orDefault not_isText_null

/-- What a reference says, field by field. -/
def ReferenceSays (field : String) (o : Option Bytes) (r : ObjectRef) : Prop :=
  (field = "Type" → Part NullableText "" r.kind o) ∧ (field = "Value" → Part NullableText "" r.value o)

theorem reflects_reference : ObjectRef.record.Reflects ReferenceSays where
  distinct := by simp [ObjectRef.record, Field.of]
  field := by
    simp only [ObjectRef.record, List.forall_mem_cons, List.not_mem_nil, false_implies, implies_true, and_true]
    constructor
    · refine Record.reflected_of id ObjectRef.kind means_nullableText ?_ (fun _ _ => rfl) ?_
      all_goals simp +contextual [ReferenceSays]
    · refine Record.reflected_of id ObjectRef.value means_nullableText ?_ (fun _ _ => rfl) ?_
      all_goals simp +contextual [ReferenceSays]
  blank := by
    have blank : (default : ObjectRef) = ⟨"", ""⟩ := rfl
    simp [ObjectRef.record, Field.of, ReferenceSays, blank]
  unique := by
    rintro parts ⟨kind, value⟩ ⟨kind', value'⟩ agrees agrees'
    simp only [ObjectRef.record, Field.of, ReferenceSays, List.forall_mem_cons, List.not_mem_nil, false_implies,
      implies_true, and_true, true_implies, String.reduceEq, true_and] at agrees agrees'
    rw [means_nullableText.part_unique agrees.1 agrees'.1, means_nullableText.part_unique agrees.2 agrees'.2]

/-- A reference. -/
def IsReference (r : ObjectRef) (w : Bytes) : Prop :=
  ∃ entries, IsRecord [("Type", .defaulted), ("Value", .defaulted)] entries w ∧
    Part NullableText "" r.kind (entries.lookup "Type") ∧ Part NullableText "" r.value (entries.lookup "Value")

theorem means_reference : Means ObjectRef.decoder IsReference :=
  reflects_reference.means.congr fun r w => by
    simp [ObjectRef.record, Record.shape, Field.of, ReferenceSays, IsReference]

/-- The machine of an event, if it has one. -/
def IsMachine (vm : Option ObjectRef) (w : Bytes) : Prop :=
  ∃ entries, IsRecord [("Vm", .optional)] entries w ∧
    Part (OrNull (Held IsReference) none) none vm (entries.lookup "Vm")

theorem means_machine : Means Change.vmRecord.decoder IsMachine := by
  have means := means_reference.nullable (by rintro r ⟨entries, record, -⟩; exact not_isRecord_null record)
  exact (Record.means_single means id rfl).congr fun vm w => by simp [IsMachine, Change.vmRecord]

/-- The name of an alarm. -/
def IsName (name : String) (w : Bytes) : Prop :=
  ∃ entries, IsRecord [("Name", .defaulted)] entries w ∧ Part NullableText "" name (entries.lookup "Name")

theorem means_name : Means Change.alarmRecord.decoder IsName :=
  (Record.means_single means_nullableText id rfl).congr fun name w => by simp [IsName, Change.alarmRecord]

/-- What the data of an event say, field by field. -/
def DataSays (field : String) (o : Option Bytes) (c : Change) : Prop :=
  (field = "Vm" → Part (fun vm w => ∃ o, OrNull (Held IsMachine) none o w ∧ o.join = vm) none c.vm o) ∧
    (field = "Alarm" → Part (OrNull IsName "") "" c.name o) ∧ (field = "To" → Part NullableText "" c.level o)

theorem means_nullableMachine : Means Change.vmRecord.decoder.nullable (OrNull (Held IsMachine) none) :=
  means_machine.nullable (by rintro vm ⟨entries, record, -⟩; exact not_isRecord_null record)

theorem means_nullableName : Means Change.alarmRecord.decoder.orDefault (OrNull IsName "") :=
  means_name.orDefault (by rintro name ⟨entries, record, -⟩; exact not_isRecord_null record)

theorem reflects_data : Change.record.Reflects DataSays where
  distinct := by simp [Change.record, Field.of]
  field := by
    simp only [Change.record, List.forall_mem_cons, List.not_mem_nil, false_implies, implies_true, and_true]
    refine ⟨?_, ?_, ?_⟩
    · refine Record.reflected_of Option.join Change.vm means_nullableMachine ?_ (fun _ _ => rfl) ?_
      all_goals simp +contextual [DataSays]
    · refine Record.reflected_of id Change.name means_nullableName ?_ (fun _ _ => rfl) ?_
      all_goals simp +contextual [DataSays]
    · refine Record.reflected_of id Change.level means_nullableText ?_ (fun _ _ => rfl) ?_
      all_goals simp +contextual [DataSays]
  blank := by
    have blank : (default : Change) = ⟨none, "", ""⟩ := rfl
    simp [Change.record, Field.of, DataSays, blank]
  unique := by
    rintro parts ⟨vm, name, level⟩ ⟨vm', name', level'⟩ agrees agrees'
    simp only [Change.record, Field.of, DataSays, List.forall_mem_cons, List.not_mem_nil, false_implies,
      implies_true, and_true, true_implies, String.reduceEq, true_and] at agrees agrees'
    rw [(means_nullableMachine.map Option.join).part_unique agrees.1 agrees'.1,
      means_nullableName.part_unique agrees.2.1 agrees'.2.1, means_nullableText.part_unique agrees.2.2 agrees'.2.2]

/-- The data of an event. -/
def IsData (c : Change) (w : Bytes) : Prop :=
  ∃ entries, IsRecord [("Vm", .defaulted), ("Alarm", .defaulted), ("To", .defaulted)] entries w ∧
    Part (fun vm w => ∃ o, OrNull (Held IsMachine) none o w ∧ o.join = vm) none c.vm (entries.lookup "Vm") ∧
    Part (OrNull IsName "") "" c.name (entries.lookup "Alarm") ∧
    Part NullableText "" c.level (entries.lookup "To")

theorem means_data : Means Change.record.decoder IsData :=
  reflects_data.means.congr fun c w => by
    simp [Change.record, Record.shape, Field.of, DataSays, IsData]

/-- An event. -/
def IsEvent (c : Change) (w : Bytes) : Prop :=
  ∃ entries, IsRecord [("Data", .defaulted)] entries w ∧
    Part (OrNull IsData default) default c (entries.lookup "Data")

theorem means_event : Means Change.decoder (OrNull IsEvent default) := by
  have data : Means Change.record.decoder.orDefault (OrNull IsData default) :=
    means_data.orDefault (by rintro c ⟨entries, record, -⟩; exact not_isRecord_null record)
  have event : Means Change.eventRecord.decoder IsEvent :=
    (Record.means_single data id rfl).congr fun c w => by simp [IsEvent, Change.eventRecord]
  exact event.orDefault (by rintro c ⟨entries, record, -⟩; exact not_isRecord_null record)

/-! ## Events of an alarm -/

/-- A reference with an id. -/
def ShowsReference (r : ObjectRef) (w : Bytes) : Prop :=
  ∃ entries, IsRecord [("Type", .defaulted), ("Value", .defaulted)] entries w ∧
    Part NullableText "" r.kind (entries.lookup "Type") ∧ Stated IsText r.value (entries.lookup "Value")

/-- A machine with a reference. -/
def ShowsMachine (r : ObjectRef) (w : Bytes) : Prop :=
  ∃ entries, IsRecord [("Vm", .optional)] entries w ∧ Stated ShowsReference r (entries.lookup "Vm")

/-- An alarm with a name. -/
def ShowsName (name : String) (w : Bytes) : Prop :=
  ∃ entries, IsRecord [("Name", .defaulted)] entries w ∧ Stated IsText name (entries.lookup "Name")

/-- The data of an event with a machine, an alarm and a level. -/
def ShowsData (a : Alarm) (w : Bytes) : Prop :=
  ∃ entries, IsRecord [("Vm", .defaulted), ("Alarm", .defaulted), ("To", .defaulted)] entries w ∧
    Stated ShowsMachine a.vm (entries.lookup "Vm") ∧ Stated ShowsName a.name (entries.lookup "Alarm") ∧
    Stated IsText a.level (entries.lookup "To")

/-- An event with data. -/
def ShowsEvent (a : Alarm) (w : Bytes) : Prop :=
  ∃ entries, IsRecord [("Data", .defaulted)] entries w ∧ Stated ShowsData a (entries.lookup "Data")

/-- The machine, the name and the level are told. -/
def Told (a : Alarm) : Prop := a.vm.value ≠ "" ∧ a.name ≠ "" ∧ a.level ≠ ""

theorem alarm_eq_ok {c : Change} : c.alarm = .ok a ↔ c = ⟨some a.vm, a.name, a.level⟩ ∧ Told a := by
  obtain ⟨vm, name, level⟩ := c
  unfold Change.alarm Told
  constructor
  · intro read
    cases vm with
    | none => cases read
    | some vm =>
      dsimp only at read
      split at read
      · cases read
      split at read
      · cases read
      · next machine alarm =>
        cases read
        exact ⟨rfl, machine, not_or.mp alarm⟩
  · rintro ⟨same, machine, alarm⟩
    cases same
    simp only [if_neg machine, if_neg (not_or.mpr alarm)]

theorem isMachine_some {r : ObjectRef} (told : r.value ≠ "") : IsMachine (some r) w ↔ ShowsMachine r w := by
  refine exists_congr fun entries => and_congr_right fun _ => ?_
  rw [part_orNull (by simp)]
  refine stated_congr fun w => ?_
  simp only [Held, Option.some.injEq, exists_eq_left', IsReference, ShowsReference, part_orNull told]

theorem isData_told (told : Told a) : IsData ⟨some a.vm, a.name, a.level⟩ w ↔ ShowsData a w := by
  obtain ⟨value, name, level⟩ := told
  refine exists_congr fun entries => and_congr_right fun _ => ?_
  rw [part_ne (by simp), part_orNull name, part_orNull level]
  refine and_congr (stated_congr fun w => ?_) (and_congr_left fun _ => stated_congr fun w => ?_)
  · simp only [Option.join_eq_some_iff, exists_eq_right]
    rw [orNull_ne (by simp)]
    simp only [Held, Option.some.injEq, exists_eq_left', isMachine_some value]
  · exact exists_congr fun entries => and_congr_right fun _ => part_orNull name

theorem isEvent_told (told : Told a) :
    OrNull IsEvent default ⟨some a.vm, a.name, a.level⟩ w ↔ ShowsEvent a w := by
  have other : (⟨some a.vm, a.name, a.level⟩ : Change) ≠ default := nofun
  rw [orNull_ne other]
  refine exists_congr fun entries => and_congr_right fun _ => ?_
  rw [part_orNull other]
  exact stated_congr fun w => isData_told told

theorem ofEvent_eq_decode :
    ofEvent p = .ok a ↔ Told a ∧ Change.decoder.decode p = .ok ⟨some a.vm, a.name, a.level⟩ := by
  unfold ofEvent
  cases Change.decoder.decode p with
  | error f => simp
  | ok c => simp [alarm_eq_ok, and_comm]

theorem decode_told (told : Told a) : Change.decoder.decode p = .ok ⟨some a.vm, a.name, a.level⟩ ↔
    ∃ before w after, p = before ++ (w ++ after) ∧ Blanks before ∧ ShowsEvent a w ∧ Blanks after := by
  rw [means_event.decode_eq_ok]
  simp only [isEvent_told told]

/-- An alarm is understood from an event of it that tells the machine, the name and the level, and from nothing
else. -/
theorem ofEvent_eq_ok : ofEvent p = .ok a ↔ Told a ∧
    ∃ before w after, p = before ++ (w ++ after) ∧ Blanks before ∧ ShowsEvent a w ∧ Blanks after :=
  ofEvent_eq_decode.trans (and_congr_right decode_told)

/-- The machine of `listedEvent`, its records written as lists. -/
def listedMachine : Bytes :=
  compactList [(.list, compactList [(.text, quoted "VirtualMachine"), (.text, quoted "vm-42")])]

/-- An event written as a list, with a string in it that is not read and not UTF-8. -/
def listedEvent : Bytes :=
  compactList [(.object, compactText [("x", .text, [quote, 0xff, quote]), ("Vm", .list, listedMachine),
    ("Alarm", .list, compactList [(.text, quoted "VM CPU Usage")]), ("To", .text, quoted "red")])]

example : listedEvent = Utf8.encode "[\x7b\"x\":\"" ++ 0xff :: Utf8.encode
    ("\",\"Vm\":[[\"VirtualMachine\",\"vm-42\"]],\"Alarm\":[\"VM CPU Usage\"],\"To\":\"red\"\x7d]") := by
  decide +kernel

/-- The alarm of `listedEvent`. -/
def listedAlarm : Alarm := ⟨⟨"VirtualMachine", "vm-42"⟩, "VM CPU Usage", "red"⟩

theorem showsMachine_listed : IsValue .list listedMachine ∧ ShowsMachine listedAlarm.vm listedMachine := by
  have kind : IsText "VirtualMachine" (quoted "VirtualMachine") := isText_quoted (by decide)
  have value : IsText "vm-42" (quoted "vm-42") := isText_quoted (by decide)
  have reference := isList_compact [(.text, quoted "VirtualMachine"), (.text, quoted "vm-42")]
    (by simp [kind.isValue, value.isValue])
  have machine := isList_compact [(.list, _)] (by simpa using reference.isValue)
  refine ⟨machine.isValue, _, .list machine (by simp) (by simp), _, rfl, _,
    .list reference (by simp) (by simp), ?_, ?_⟩
  · exact .written (.stated kind)
  · exact ⟨_, rfl, value⟩

theorem showsEvent_listed : ShowsEvent listedAlarm listedEvent := by
  obtain ⟨isMachine, machine⟩ := showsMachine_listed
  have name : IsText "VM CPU Usage" (quoted "VM CPU Usage") := isText_quoted (by decide)
  have level : IsText "red" (quoted "red") := isText_quoted (by decide)
  have unread : IsValue .text [quote, 0xff, quote] := .text (.plain (by unfold Plain; decide) .nil)
  have alarm := isList_compact [(.text, quoted "VM CPU Usage")] (by simpa using name.isValue)
  have data := isObject_compact [("x", .text, [quote, 0xff, quote]), ("Vm", .list, listedMachine),
    ("Alarm", .list, compactList [(.text, quoted "VM CPU Usage")]), ("To", .text, quoted "red")]
    (by decide) (by simp [unread, isMachine, alarm.isValue, level.isValue])
  have event := isList_compact [(.object, _)] (by simpa using data.isValue)
  refine ⟨_, .list event (by simp) (by simp), _, rfl, _, .object data ?_, ⟨_, rfl, machine⟩, ⟨_, rfl, ?_⟩,
    _, rfl, level⟩
  · simp [Shape.Fits]
  · exact ⟨_, .list alarm (by simp) (by simp), _, rfl, name⟩

/-- A list is no object, nor is this one UTF-8, and yet an alarm is understood from it. -/
theorem ofEvent_listedEvent : ofEvent listedEvent = .ok listedAlarm ∧
    (¬∃ before w after, listedEvent = before ++ (w ++ after) ∧ Blanks before ∧ IsValue .object w) ∧
    Utf8.decode? listedEvent = none := by
  have told : Told listedAlarm := by simp [Told, listedAlarm]
  refine ⟨ofEvent_eq_decode.mpr ⟨told, (decode_told told).mpr
    ⟨[], listedEvent, [], by simp, blanks_nil, showsEvent_listed, blanks_nil⟩⟩, ?_, ?_⟩
  · rintro ⟨before, w, after, split, blanks, value⟩
    obtain ⟨b, t, rfl, opens, kind⟩ := value.first
    have found : skipBlanks listedEvent = b :: (t ++ after) := by
      rw [split]
      exact skipBlanks_first blanks opens.1
    have bracket : skipBlanks listedEvent = listedEvent := skipBlanks_cons (b := openBracket) rfl
    have opener : openBracket = b := (List.cons.inj (bracket.symm.trans found)).1
    exact absurd (opener ▸ kind) (by decide)
  · cases decoded : Utf8.decode? listedEvent with
    | none => rfl
    | some x =>
      have mem : 0xff ∈ listedEvent := by decide +kernel
      rw [Utf8.decode?_eq_some.mp decoded] at mem
      exact absurd mem (Utf8.not_mem_encode x)

end TierTagger.Alarm
