import TierTagger.Alarm.Event
import TierTagger.Configuration
import TierTagger.Directory.Error
import TierTagger.Reply
import TierTagger.Tier

/-!
# Outcomes

How the handling of an alarm ends: with an outcome, or with an error that tells the stage it failed in.
Both are answered with their wording.
-/

namespace TierTagger.Tagging

/-- How an alarm was settled. -/
inductive Outcome where
  /-- The alarm asks for no tier. -/
  | notActionable
  /-- The category has no tag for the tier. -/
  | noMatchingTag (vm : ObjectRef) (category : String) (tier : Tier)
  | tagged (vm : ObjectRef) (tagId categoryId : String)
  deriving DecidableEq, Repr

/-- The wording of an outcome. -/
def Outcome.message : Outcome → String
  | notActionable => "Alert not for CPU/Memory in red, nothing to do."
  | noMatchingTag vm category tier =>
    "no tag named " ++ tier.name ++ " in category " ++ category ++ ", " ++ vm.value ++ " was not tagged"
  | tagged vm tagId categoryId => vm.value ++ " was tagged with " ++ tagId ++ ", " ++ categoryId

/-- Why the hardware of a machine is not known. -/
inductive FetchError where
  /-- The record of the machine says nothing of it. -/
  | unavailable (vm : String)
  | directory (reason : Directory.Error)
  deriving DecidableEq, Repr

/-- The wording of an error. -/
def FetchError.message : FetchError → String
  | unavailable vm => "no config info in vm " ++ vm
  | directory reason => reason.message

/-- Why an alarm was not settled, by the stage that failed. -/
inductive Error where
  | event (reason : Alarm.EventError)
  | configuration (reason : Configuration.Error)
  | connect (reason : Directory.Error)
  | fetch (reason : FetchError)
  | resolve (reason : Directory.Error)
  | apply (reason : Directory.Error)
  deriving Repr

/-- The wording of an error. -/
def Error.message : Error → String
  | event reason => "parsing cloud event data: " ++ reason.message
  | configuration reason => "loading of vcconfig: " ++ reason.message
  | connect reason => "connecting to vSphere: " ++ reason.message
  | fetch reason => "retrieving VM configuration: " ++ reason.message
  | resolve reason => "selecting tag: " ++ reason.message
  | apply reason => "tagging managed reference object: " ++ reason.message

/-- The reply to whoever reported an alarm. -/
def reply : Except Error Outcome → Reply
  | .ok o => .ok o.message
  | .error e => .internalError e.message

end TierTagger.Tagging
