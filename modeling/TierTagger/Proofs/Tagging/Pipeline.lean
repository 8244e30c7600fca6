import TierTagger.Proofs.Session.Alone
import TierTagger.Tagging.Run

/-!
# The pipeline, stage by stage

`Tagging.settle` is written with failures that pass through. Here it is a dialogue in which each
answer is looked at where it is given (`settle_run`): `fromFetch`, `fromResolve` and `fromApply` are
what follows the session, the hardware and the tag. A target has a resource with tiers
(`Target.next?_ne_none`), so nothing ends there as an alarm that asks for nothing.
-/

namespace TierTagger.Tagging

open Sessions (Job call ensure)

variable {δ : Type}

/-! ## Targets -/

theorem tagCategory?_eq_none {r : Resource} : r.tagCategory? = none ↔ r = .unclassified := by
  cases r <;> simp [Resource.tagCategory?]

theorem next?_eq_none {r : Resource} {h : Hardware} : Tier.next? r h = none ↔ r = .unclassified := by
  cases r <;> simp [Tier.next?]

/-- An alarm has a target if it went red and its name is one of those with a category. -/
theorem target?_eq_some {a : Alarm} {t : Target} : target? a = some t ↔
    a.level = Alarm.red ∧ ∃ c, a.resource.tagCategory? = some c ∧ t = ⟨a.vm, a.resource, c⟩ := by
  unfold target? Alarm.isActionable
  cases hc : a.resource.tagCategory? with
  | none => simp [tagCategory?_eq_none.mp hc]
  | some c =>
    have hr : a.resource ≠ .unclassified := fun h => by
      rw [tagCategory?_eq_none.mpr h] at hc; cases hc
    simp [hr, eq_comm]

theorem tagCategory?_isSome {a : Alarm} : (∃ c, a.resource.tagCategory? = some c) ↔
    a.name = "VM CPU Usage" ∨ a.name = "VM Memory Usage" := by
  unfold Alarm.resource Resource.ofAlarmName
  split
  · simp_all [Resource.tagCategory?]
  · split <;> simp_all [Resource.tagCategory?]

/-- A target of an alarm has a tier whatever hardware there is. -/
theorem Target.next?_ne_none {a : Alarm} {t : Target} (ht : target? a = some t) (h : Hardware) :
    Tier.next? t.resource h ≠ none := by
  obtain ⟨-, c, hc, rfl⟩ := target?_eq_some.mp ht
  intro hn
  rw [tagCategory?_eq_none.mpr (next?_eq_none.mp hn)] at hc
  cases hc

/-! ## Stages -/

/-- Attaching the tag, and the end. -/
def fromApply (session : Session δ) (t : Target) (tag : Tag) : Job δ (Except Error Outcome) := do
  match ← call (.attach session.directory tag.id t.vm) with
  | .error (e : Directory.Error) => return .error (.apply e)
  | .ok _ => return .ok (.tagged t.vm tag.id tag.categoryId)

/-- Finding the tag of a tier, and what follows. -/
def fromResolve (session : Session δ) (t : Target) (tier : Tier) :
    Job δ (Except Error Outcome) := do
  match ← call (.tags session.directory t.category) with
  | .error (e : Directory.Error) => return .error (.resolve e)
  | .ok (tags : List Tag) =>
    match Tag.forTier? tags tier with
    | none => return .ok (.noMatchingTag t.vm t.category tier)
    | some tag => fromApply session t tag

/-- Fetching the hardware, and what follows. -/
def fromFetch (session : Session δ) (t : Target) : Job δ (Except Error Outcome) := do
  match ← call (.hardware session.directory t.vm) with
  | .error (e : Directory.Error) => return .error (.fetch (.directory e))
  | .ok (none : Option Hardware) => return .error (.fetch (.unavailable t.vm.value))
  | .ok (some h) =>
    match Tier.next? t.resource h with
    | none => return .ok .notActionable
    | some tier => fromResolve session t tier

/-- A stage that fails ends the whole with its error. -/
theorem run_attempt_bind {ε ε' α β : Type} (f : ε → ε') (d : Job δ (Except ε α))
    (next : α → Attempt δ ε' β) :
    (Dialogue.attempt f d >>= next).run =
      d >>= fun
        | .error e => .done (.error (f e))
        | .ok a => (next a).run := by
  simp only [Dialogue.attempt, ExceptT.run_bind, ExceptT.run_mk, bind_assoc, Dialogue.done_bind]
  refine bind_congr fun r => ?_
  cases r <;> rfl

theorem settle_fromApply (session : Session δ) (t : Target) (tag : Tag) :
    (do
      let _ ← Dialogue.attempt Error.apply (call (.attach session.directory tag.id t.vm))
      return Outcome.tagged t.vm tag.id tag.categoryId : Attempt δ Error Outcome).run =
      fromApply session t tag := by
  refine (run_attempt_bind _ _ _).trans (bind_congr fun r => ?_)
  cases r <;> rfl

theorem settle_fromResolve (session : Session δ) (t : Target) (tier : Tier) :
    (do
      match ← Dialogue.attempt Error.resolve (resolve session t.category tier).run with
      | none => return .noMatchingTag t.vm t.category tier
      | some tag =>
        let _ ← Dialogue.attempt Error.apply (call (.attach session.directory tag.id t.vm))
        return .tagged t.vm tag.id tag.categoryId : Attempt δ Error Outcome).run =
      fromResolve session t tier := by
  refine (run_attempt_bind _ _ _).trans ?_
  simp only [resolve, run_attempt_bind, bind_assoc]
  refine bind_congr fun r => ?_
  cases r with
  | error e => rfl
  | ok tags =>
    simp only [ExceptT.run_pure, Dialogue.pure_eq_done, Dialogue.done_bind]
    cases Tag.forTier? tags tier with
    | none => rfl
    | some tag => exact settle_fromApply session t tag

/-- The pipeline, question by question. -/
theorem settle_run (t : Target) : (settle (δ := δ) t).run = (do
    match ← call .load with
    | .error (e : Configuration.Error) => return .error (.configuration e)
    | .ok (p : Connection) =>
      match ← ensure p with
      | .error e => return .error (.connect e)
      | .ok session => fromFetch session t) := by
  refine (run_attempt_bind _ _ _).trans (bind_congr fun r => ?_)
  cases r with
  | error e => rfl
  | ok p =>
    refine (run_attempt_bind _ _ _).trans (bind_congr fun r => ?_)
    cases r with
    | error e => rfl
    | ok session =>
      refine (run_attempt_bind _ _ _).trans ?_
      simp only [fetch, run_attempt_bind, bind_assoc]
      refine bind_congr fun r => ?_
      cases r with
      | error e => rfl
      | ok found =>
        cases found with
        | none => rfl
        | some h =>
          simp only [ExceptT.run_pure, Dialogue.pure_eq_done, Dialogue.done_bind]
          cases Tier.next? t.resource h with
          | none => rfl
          | some tier => exact settle_fromResolve session t tier

end TierTagger.Tagging
