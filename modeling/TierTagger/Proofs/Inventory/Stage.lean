import TierTagger.Proofs.Session.Protocol
import TierTagger.Proofs.Tagging.Pipeline
import TierTagger.Directory.Inventory

/-!
# Where the handling of a payload is

The code of `Tagging.handle` on an inventory, access by access. Others can come in between any two
of them.

- **After the session** (`tagging`): the same accesses whatever session there is, and without the
  lock.
- **Stages** (`Stage`): where the handling is. `Stage.Moves` has one rule for each step;
  `Stage.rest` is the code that is left. A payload begins at `Stage.ofPayload` (`refine_handle`).
- **The lock** (`Stage.protocol`): it is held from the look at the session until there is one, or
  none to be had.
-/

namespace TierTagger.Inventory

open Sessions (Job Protocol Question Work calling refine)

open Tagging (Outcome Target fromApply fromFetch fromResolve handle reply settle settle_run target?)

/-- The handling of a payload on an inventory, or what is left of it. -/
abbrev Handling : Type := Work Unit Access.Answer Reply

/-! ## After the session -/

/-- Attaching the tag. -/
def attaching (t : Target) (tag : Tag) : Dialogue Access.Answer Reply :=
  .ask (.attach tag.id t.vm) fun
    | .error e => .done (reply (.error (.apply e)))
    | .ok _ => .done (reply (.ok (.tagged t.vm tag.id tag.categoryId)))

/-- Finding the tag of a tier, and what follows. -/
def resolving (t : Target) (tier : Tier) : Dialogue Access.Answer Reply :=
  .ask (.tagsOf t.category) fun
    | .error e => .done (reply (.error (.resolve e)))
    | .ok tags =>
      match Tag.forTier? tags tier with
      | none => .done (reply (.ok (.noMatchingTag t.vm t.category tier)))
      | some tag => attaching t tag

/-- What follows the session. -/
def tagging (t : Target) : Dialogue Access.Answer Reply :=
  .ask (.hardware t.vm) fun
    | .error e => .done (reply (.error (.fetch (.directory e))))
    | .ok none => .done (reply (.error (.fetch (.unavailable t.vm.value))))
    | .ok (some h) =>
      match Tier.next? t.resource h with
      | none => .done (reply (.ok .notActionable))
      | some tier => resolving t tier

/-- A job on an inventory, answered at its end. -/
def handled (job : Job Unit (Except Tagging.Error Outcome)) : Handling :=
  refine serve (job >>= fun r => .done (reply r))

theorem handled_fromApply (x : Session Unit) (t : Target) (tag : Tag) :
    handled (fromApply x t tag) = calling (attaching t tag) := by
  refine Dialogue.ask_congr (Question.call (Access.attach tag.id t.vm)) fun r => ?_
  cases r <;> rfl

theorem handled_fromResolve (x : Session Unit) (t : Target) (tier : Tier) :
    handled (fromResolve x t tier) = calling (resolving t tier) := by
  refine Dialogue.ask_congr (Question.call (Access.tagsOf t.category)) fun r => ?_
  cases r with
  | error e => rfl
  | ok tags =>
    show handled (match Tag.forTier? tags tier with
        | none => .done (.ok (.noMatchingTag t.vm t.category tier))
        | some tag => fromApply x t tag) =
      calling (match Tag.forTier? tags tier with
        | none => .done (reply (.ok (.noMatchingTag t.vm t.category tier)))
        | some tag => attaching t tag)
    cases Tag.forTier? tags tier with
    | none => rfl
    | some tag => exact handled_fromApply x t tag

theorem handled_fromFetch (x : Session Unit) (t : Target) :
    handled (fromFetch x t) = calling (tagging t) := by
  refine Dialogue.ask_congr (Question.call (Access.hardware t.vm)) fun r => ?_
  cases r with
  | error e => rfl
  | ok found =>
    cases found with
    | none => rfl
    | some h =>
      show handled (match Tier.next? t.resource h with
          | none => .done (.ok .notActionable)
          | some tier => fromResolve x t tier) =
        calling (match Tier.next? t.resource h with
          | none => .done (reply (.ok .notActionable))
          | some tier => resolving t tier)
      cases Tier.next? t.resource h with
      | none => rfl
      | some tier => exact handled_fromResolve x t tier

/-! ## Stages -/

/-- Where the handling of a payload is. -/
inductive Stage where
  | loading (t : Target)
  /-- The parameters are loaded, and the lock is waited for. -/
  | waiting (t : Target)
  | found (t : Target) (session : Session Unit)
  /-- There is no session: before a connection. -/
  | beginning (t : Target)
  | ending (t : Target)
  | refused (reason : Directory.Error)
  | numbering (t : Target)
  | numbered (t : Target) (session : Session Unit)
  /-- After the session, or without any. -/
  | working (d : Dialogue Access.Answer Reply)

/-- Where the handling of a payload begins. -/
def Stage.ofPayload (payload : Bytes) : Stage :=
  match Alarm.ofEvent payload with
  | .error e => .working (.done (reply (.error (.event e))))
  | .ok alarm =>
    match target? alarm with
    | none => .working (.done (reply (.ok .notActionable)))
    | some t => .loading t

/-- One step: a question, its answer and the stage after it. -/
inductive Stage.Moves :
    Stage → (q : Question Unit Access) → q.Answer Access.Answer → Stage → Prop where
  | unloaded (t e) :
    Moves (.loading t) (.call .load) (.error e)
      (.working (.done (reply (.error (.configuration e)))))
  | loaded (t p) : Moves (.loading t) (.call .load) (.ok p) (.waiting t)
  | find (t x) : Moves (.waiting t) .lock (some x) (.found t x)
  | miss (t) : Moves (.waiting t) .lock none (.beginning t)
  | reuse (t x) : Moves (.found t x) (.unlock (some x)) () (.working (tagging t))
  | begin (t) : Moves (.beginning t) (.call .beginConnect) () (.ending t)
  | refuse (t e) : Moves (.ending t) (.call .endConnect) (.error e) (.refused e)
  | accept (t d) : Moves (.ending t) (.call .endConnect) (.ok d) (.numbering t)
  | giveUp (e) :
    Moves (.refused e) (.unlock none) () (.working (.done (reply (.error (.connect e)))))
  | number (t n) : Moves (.numbering t) .number n (.numbered t ⟨n, ()⟩)
  | install (t x) : Moves (.numbered t x) (.unlock (some x)) () (.working (tagging t))
  | work (a next b) : Moves (.working (.ask a next)) (.call a) b (.working (next b))

/-! ### The code that is left -/

/-- The lock is given up with a session behind it. -/
def leaving (t : Target) (x : Session Unit) : Handling :=
  .ask (.unlock (some x)) fun _ => calling (tagging t)

/-- The second half of a connection, and what follows. -/
def connecting (t : Target) : Handling :=
  .ask (.call .endConnect) fun
    | .error e => .ask (.unlock none) fun _ => .done (reply (.error (.connect e)))
    | .ok _ => .ask .number fun n => leaving t ⟨n, ()⟩

/-- The look at the session, and what follows. -/
def entering (t : Target) : Handling :=
  .ask .lock fun
    | some x => leaving t x
    | none => .ask (.call .beginConnect) fun _ => connecting t

/-- The code that is left. -/
def Stage.rest : Stage → Handling
  | loading t => .ask (.call .load) fun
    | .error e => .done (reply (.error (.configuration e)))
    | .ok _ => entering t
  | waiting t => entering t
  | found t x | numbered t x => leaving t x
  | beginning t => .ask (.call .beginConnect) fun _ => connecting t
  | ending t => connecting t
  | refused e => .ask (.unlock none) fun _ => .done (reply (.error (.connect e)))
  | numbering t => .ask .number fun n => leaving t ⟨n, ()⟩
  | working d => calling d

theorem handled_ensure (t : Target) (p : Connection) :
    handled (do
      match ← Sessions.ensure p with
      | .error e => return .error (.connect e)
      | .ok x => fromFetch x t) = entering t := by
  rw [handled, Sessions.ensure_eq]
  refine Dialogue.ask_congr Question.lock fun found => ?_
  cases found with
  | some x =>
    exact Dialogue.ask_congr (Question.unlock (some x)) fun _ => handled_fromFetch x t
  | none =>
    refine Dialogue.ask_congr (Question.call Access.beginConnect) fun _ => ?_
    refine Dialogue.ask_congr (Question.call Access.endConnect) fun r => ?_
    cases r with
    | error e => rfl
    | ok d =>
      refine Dialogue.ask_congr Question.number fun n => ?_
      exact Dialogue.ask_congr (Question.unlock _) fun _ => handled_fromFetch _ t

/-- The handling of a payload, access by access. -/
theorem refine_handle (payload : Bytes) :
    refine serve (handle payload) = (Stage.ofPayload payload).rest := by
  show handled (Tagging.run payload) = _
  unfold Tagging.run Stage.ofPayload
  cases Alarm.ofEvent payload with
  | error e => rfl
  | ok alarm =>
    simp only
    cases target? alarm with
    | none => rfl
    | some t =>
      have load
          (k : Except Configuration.Error Connection → Job Unit (Except Tagging.Error Outcome)) :
          handled (Sessions.call .load >>= k) = .ask (.call .load) fun r => handled (k r) := rfl
      refine (congrArg handled (settle_run t)).trans ((load _).trans ?_)
      refine Dialogue.ask_congr (Question.call Access.load) fun r => ?_
      cases r with
      | error e => rfl
      | ok p =>
        refine (congrArg handled (bind_congr fun r => ?_)).trans (handled_ensure t p)
        cases r <;> rfl

/-- Each step of the code that is left is a move, and its rest is what is left then. -/
theorem Stage.moves_of_rest {stage : Stage} {q : Question Unit Access}
    {next : q.Answer Access.Answer → Handling} (h : stage.rest = .ask q next)
    (a : q.Answer Access.Answer) : ∃ stage', Moves stage q a stage' ∧ next a = stage'.rest := by
  cases stage with
  | loading t =>
    cases h
    cases a with
    | error e => exact ⟨_, .unloaded t e, rfl⟩
    | ok p => exact ⟨_, .loaded t p, rfl⟩
  | waiting t =>
    cases h
    cases a with
    | some x => exact ⟨_, .find t x, rfl⟩
    | none => exact ⟨_, .miss t, rfl⟩
  | found t x => cases h; exact ⟨_, .reuse t x, rfl⟩
  | beginning t => cases h; exact ⟨_, .begin t, rfl⟩
  | ending t =>
    cases h
    cases a with
    | error e => exact ⟨_, .refuse t e, rfl⟩
    | ok d => exact ⟨_, .accept t d, rfl⟩
  | refused e => cases h; exact ⟨_, .giveUp e, rfl⟩
  | numbering t => cases h; exact ⟨_, .number t a, rfl⟩
  | numbered t x => cases h; exact ⟨_, .install t x, rfl⟩
  | working d =>
    cases d with
    | done r => cases h
    | ask access on => cases h; exact ⟨_, .work access on a, rfl⟩

/-- A handling that is over is at its last stage. -/
theorem Stage.eq_working {stage : Stage} {r : Reply} (ended : stage.rest = .done r) :
    stage = .working (.done r) := by
  cases stage with
  | working d =>
    cases d with
    | done r => cases ended; rfl
    | ask access on => cases ended
  | _ => cases ended

/-! ## The lock -/

/-- At this stage the handling has the lock. -/
def Stage.Holds : Stage → Prop
  | found _ _ | beginning _ | ending _ | refused _ | numbering _ | numbered _ _ => True
  | loading _ | waiting _ | working _ => False

/-- What a handling with the lock knows of the installed session. -/
def Stage.Sees (installed : Option (Session Unit)) : Stage → Prop
  | found _ x => installed = some x
  | beginning _ | ending _ | refused _ | numbering _ | numbered _ _ => installed = none
  | loading _ | waiting _ | working _ => True

/-- The handling of payloads respects the lock. -/
def Stage.protocol : Protocol Unit Access.Answer Reply Stage where
  rest := rest
  Moves := Moves
  Holds := Holds
  Sees := Sees
  moves_of_rest := moves_of_rest
  sees_of_not_holds {stage} out _ := by cases stage <;> simp_all [Holds, Sees]
  of_lock m := by cases m <;> simp [Holds, Sees]
  of_unlock m := by cases m <;> simp [Holds]
  of_number m := by cases m; simp [Holds]
  of_done ended := by rw [eq_working ended]; exact id
  of_other m lock unlock := by cases m <;> simp_all [Holds, Sees]

theorem Stage.ofPayload_outside (payload : Bytes) : ¬(ofPayload payload).Holds := by
  unfold ofPayload
  cases Alarm.ofEvent payload with
  | error e => exact id
  | ok alarm =>
    simp only
    cases target? alarm <;> exact id

end TierTagger.Inventory
