/-!
# Alarms

A monitor tells that the alarm of a virtual machine went to a new level. The name of the alarm says
which resource of the machine it is about.

* `Resource.ofAlarmName`: the two alarms that are known, by their exact names.
* `Alarm.isActionable`: an alarm that is known and went to the level `red`.
-/

namespace TierTagger

/-- A reference to a managed object: the type of the object and its id. -/
structure ObjectRef where
  kind : String
  value : String
  deriving DecidableEq, Repr, Inhabited

namespace ObjectRef

/-- The type and the id with a colon between them. -/
def display (r : ObjectRef) : String := r.kind ++ ":" ++ r.value

end ObjectRef

/-- What an alarm is about. -/
inductive Resource where
  | cpu
  | memory
  | unclassified
  deriving DecidableEq, Repr, Inhabited

namespace Resource

/-- The resource of an alarm with this name. -/
def ofAlarmName (name : String) : Resource :=
  if name = "VM CPU Usage" then cpu
  else if name = "VM Memory Usage" then memory
  else unclassified

/-- The category whose tags are the tiers of the resource. -/
def tagCategory? : Resource → Option String
  | cpu => some "config.hardware.numCPU"
  | memory => some "config.hardware.memoryMB"
  | unclassified => none

/-- The name of the resource in lower case. -/
def display : Resource → String
  | cpu => "cpu"
  | memory => "memory"
  | unclassified => "unclassified"

end Resource

/-- An alarm of a machine that went to a new level. -/
structure Alarm where
  vm : ObjectRef
  name : String
  level : String
  deriving DecidableEq, Repr

namespace Alarm

/-- The level that asks for action. -/
def red : String := "red"

/-- The resource that the alarm is about. -/
def resource (a : Alarm) : Resource := .ofAlarmName a.name

/-- Whether the alarm asks for a new tier. -/
def isActionable (a : Alarm) : Bool := a.level = red && a.resource ≠ .unclassified

end Alarm
end TierTagger
