import TierTagger.Alarm
import TierTagger.Json.Record

/-!
# Alarm events

An alarm arrives as a cloud event in JSON. Of its `Data` three things matter: the machine at `Vm.Vm`,
the name at `Alarm.Name` and the new level at `To`. What is left out or `null` is read as empty, so
that `Alarm.ofEvent` can tell a payload that is no event (`malformed`) from one that says too little:
the machine has to be named first of all, then the alarm and the level.
-/

namespace TierTagger

open Json

namespace ObjectRef

/-- References in events: the members `Type` and `Value`. -/
def record : Record ObjectRef where
  name := "ObjectRef"
  blank := default
  fields := [
    .of "Type" .defaulted Decoder.text.orDefault fun t r => { r with kind := t },
    .of "Value" .defaulted Decoder.text.orDefault fun t r => { r with value := t }]

/-- Reads a reference. -/
def decoder : Decoder ObjectRef := record.decoder

end ObjectRef

namespace Alarm

/-- The data of an event as far as it is read. -/
structure Change where
  vm : Option ObjectRef
  name : String
  level : String
  deriving DecidableEq, Repr, Inhabited

namespace Change

/-- The machine of an event. -/
def vmRecord : Record (Option ObjectRef) where
  name := "VmEventArgument"
  blank := none
  fields := [.of "Vm" .optional ObjectRef.decoder.nullable fun v _ => v]

/-- The alarm of an event. -/
def alarmRecord : Record String where
  name := "AlarmEventArgument"
  blank := ""
  fields := [.of "Name" .defaulted Decoder.text.orDefault fun n _ => n]

/-- The data of an event. -/
def record : Record Change where
  name := "AlarmStatusChanged"
  blank := default
  fields := [
    .of "Vm" .defaulted vmRecord.decoder.nullable fun v c => { c with vm := v.join },
    .of "Alarm" .defaulted alarmRecord.decoder.orDefault fun n c => { c with name := n },
    .of "To" .defaulted Decoder.text.orDefault fun t c => { c with level := t }]

/-- An event: a record with its data. -/
def eventRecord : Record Change where
  name := "CloudEvent"
  blank := default
  fields := [.of "Data" .defaulted record.decoder.orDefault fun d _ => d]

/-- Reads an event; `null` is an event without data. -/
def decoder : Decoder Change := eventRecord.decoder.orDefault

end Change

/-- Why a payload holds no alarm. -/
inductive EventError where
  | malformed (payload : Bytes) (fault : Fault)
  | noMachine
  | noAlarm
  deriving DecidableEq, Repr

/-- The wording of an error. -/
def EventError.message : EventError → String
  | malformed payload fault => "unmarshalling json: " ++ fault.message payload
  | noMachine => "empty VM managed object reference"
  | noAlarm => "insufficient alarm information"

/-- The alarm that the data of an event tell of. -/
def Change.alarm (c : Change) : Except EventError Alarm :=
  match c.vm with
  | none => .error .noMachine
  | some vm =>
    if vm.value = "" then .error .noMachine
    else if c.name = "" ∨ c.level = "" then .error .noAlarm
    else .ok ⟨vm, c.name, c.level⟩

/-- The alarm that a payload tells of. -/
def ofEvent (payload : Bytes) : Except EventError Alarm :=
  match Change.decoder.decode payload with
  | .error f => .error (.malformed payload f)
  | .ok c => c.alarm

end Alarm
end TierTagger
