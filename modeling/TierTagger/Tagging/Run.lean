import TierTagger.Session
import TierTagger.Tagging.Outcome

/-!
# Tagging a machine

From an alarm to a tag, in stages: read the alarm, load the parameters, get the session, fetch the
hardware of the machine, find the tag of the next tier, attach it. Each stage goes on, ends with an
outcome, or fails. An alarm that asks for nothing ends before any call.
-/

namespace TierTagger.Tagging

variable {δ : Type}

/-- A job that may fail. -/
abbrev Attempt (δ ε α : Type) :=
  Dialogue.Attempt (Sessions.Question.Answer (δ := δ) (Call.Answer (δ := δ))) ε α

/-- What an actionable alarm asks for: tiers of a resource, from the tags of a category. -/
structure Target where
  vm : ObjectRef
  resource : Resource
  category : String
  deriving DecidableEq, Repr

/-- The target of an alarm, if it is actionable. -/
def target? (a : Alarm) : Option Target :=
  if a.isActionable then a.resource.tagCategory?.map (⟨a.vm, a.resource, ·⟩) else none

/-- The hardware of a machine. A machine without any is an error. -/
def fetch (session : Session δ) (vm : ObjectRef) : Attempt δ FetchError Hardware := do
  match ← Dialogue.attempt .directory (Sessions.call (.hardware session.directory vm)) with
  | some h => return h
  | none => throw (.unavailable vm.value)

/-- The tag for a tier, if the category has one. -/
def resolve (session : Session δ) (category : String) (tier : Tier) :
    Attempt δ Directory.Error (Option Tag) := do
  let tags ← Dialogue.attempt id (Sessions.call (.tags session.directory category))
  return Tag.forTier? tags tier

/-- Settles a target. -/
def settle (t : Target) : Attempt δ Error Outcome := do
  let parameters ← Dialogue.attempt .configuration (Sessions.call .load)
  let session ← Dialogue.attempt .connect (Sessions.ensure parameters)
  let hardware ← Dialogue.attempt .fetch (fetch session t.vm).run
  match Tier.next? t.resource hardware with
  | none => return .notActionable
  | some tier =>
    match ← Dialogue.attempt .resolve (resolve session t.category tier).run with
    | none => return .noMatchingTag t.vm t.category tier
    | some tag =>
      let _ ← Dialogue.attempt .apply (Sessions.call (.attach session.directory tag.id t.vm))
      return .tagged t.vm tag.id tag.categoryId

/-- Settles the alarm in a payload. -/
def run (payload : Bytes) : Sessions.Job δ (Except Error Outcome) :=
  match Alarm.ofEvent payload with
  | .error e => pure (.error (.event e))
  | .ok alarm =>
    match target? alarm with
    | none => pure (.ok .notActionable)
    | some t => (settle t).run

/-- Settles the alarm in a payload and answers it. -/
def handle (payload : Bytes) : Sessions.Job δ Reply := do
  return reply (← run payload)

end TierTagger.Tagging
