import TierTagger.Proofs.Inventory.Tally
import TierTagger.Proofs.Tagging.Calls

/-!
# Dialogues with an inventory

Since accesses are answered by the content, which stays, an inventory answers the same question
always the same. A dialogue with it is a plain evaluation, and what it leaves behind is a replay of
its accesses.

- **Dialogues with constant answers** (`Dialogue.result`, `Dialogue.questions`).
- `run_access`: a dialogue with an inventory is one with constant answers; then its accesses are
  replayed.
- `hold_respond`: so is a job that is held alone.
-/

namespace TierTagger

/-! ## Constant answers -/

namespace Dialogue

variable {Q α β : Type} {A : Q → Type} (answer : (q : Q) → A q)

/-- The result of a dialogue with constant answers. -/
def result : Dialogue A α → α
  | done a => a
  | ask q next => (next (answer q)).result

/-- The questions of a dialogue with constant answers. -/
def questions : Dialogue A α → List Q
  | done _ => []
  | ask q next => q :: (next (answer q)).questions

@[simp] theorem result_done (a : α) : (done a : Dialogue A α).result answer = a := rfl

@[simp] theorem result_ask (q : Q) (next : A q → Dialogue A α) :
    (ask q next).result answer = (next (answer q)).result answer := rfl

@[simp] theorem questions_done (a : α) : (done a : Dialogue A α).questions answer = [] := rfl

@[simp] theorem questions_ask (q : Q) (next : A q → Dialogue A α) :
    (ask q next).questions answer = q :: (next (answer q)).questions answer := rfl

end Dialogue

/-! ## Replays -/

namespace Inventory

open Sessions
open Tagging (held)

variable (source : Configuration.Source)

/-- The inventory after accesses. -/
def replay (l : List Access) (i : Inventory) : Inventory := l.foldl (accessed source) i

variable (i : Inventory)

@[simp] theorem replay_nil : replay source [] i = i := rfl

@[simp] theorem replay_cons (a : Access) (l : List Access) :
    replay source (a :: l) i = replay source l (accessed source i a) := rfl

theorem replay_append (l k : List Access) :
    replay source (l ++ k) i = replay source k (replay source l i) := List.foldl_append ..

@[simp] theorem replay_content (l : List Access) : (replay source l i).content = i.content := by
  induction l generalizing i with
  | nil => rfl
  | cons a l ih => rw [replay_cons, ih, accessed_content]

theorem told_eq {i j : Inventory} (same : i.content = j.content) :
    told source i = told source j := by
  funext a
  rw [← told_content source i, same, told_content]

@[simp] theorem told_accessed (a : Access) : told source (accessed source i a) = told source i :=
  told_eq source (accessed_content source i a)

/-- A dialogue with an inventory has constant answers, and leaves a replay of its accesses. -/
theorem run_access {α : Type} (d : Dialogue Access.Answer α) :
    (d.run (access source)).run i =
      (d.result (told source i), replay source (d.questions (told source i)) i) := by
  induction d generalizing i with
  | done a => rfl
  | ask a next ih =>
    have on := ih (told source i a) (accessed source i a)
    rw [told_accessed] at on
    exact on

/-! ## Jobs -/

/-- What an inventory answers to a call. -/
def answered (c : Call Unit) : c.Answer := (serve c).result (told source i)

/-- The accesses of a call. -/
def accesses : Call Unit → List Access
  | .load => [.load]
  | .connect _ => [.beginConnect, .endConnect]
  | .hardware _ vm => [.hardware vm]
  | .tags _ category => [.tagsOf category]
  | .attach _ tagId vm => [.attach tagId vm]
  | .logout _ => [.logout]

theorem respond_run (c : Call Unit) :
    (respond source c).run i = (answered source i c, replay source (accesses c) i) := by
  rw [respond, run_access]
  cases c <;> rfl

/-- A job that is held alone on an inventory has constant answers, and leaves a replay of the
accesses of its calls. -/
theorem hold_respond {α : Type} (job : Job Unit α) (s : Sessions Unit) (before : List (Call Unit)) :
    ∃ x cs, held (fun _ => answered source i) s before job = (x, before ++ cs) ∧
      ((hold (respond source) job).run s).run i = (x, replay source (cs.flatMap accesses) i) := by
  induction job generalizing s before i with
  | done a => exact ⟨(a, s), [], by simp, rfl⟩
  | ask q next ih =>
    -- All questions but calls only turn to the shared state, whoever answers.
    have pass (a : q.Answer Call.Answer) (s' : Sessions Unit)
        (same : ∀ {m : Type → Type} [Monad m] [LawfulMonad m] (serve : (c : Call Unit) → m c.Answer),
          (hold serve (.ask q next)).run s = (hold serve (next a)).run s') :
        ∃ x cs, held (fun _ => answered source i) s before (.ask q next) = (x, before ++ cs) ∧
          ((hold (respond source) (.ask q next)).run s).run i =
            (x, replay source (cs.flatMap accesses) i) := by
      obtain ⟨x, cs, told, run⟩ := ih a i s' before
      refine ⟨x, cs, ?_, ?_⟩
      · rw [← told, held, held, same]
      · rw [← run, same]
    cases q with
    | lock => exact pass s.installed s fun serve => hold_lock ..
    | unlock o => exact pass () { s with installed := o } fun serve => hold_unlock ..
    | number => exact pass s.nextId { s with nextId := s.nextId + 1 } fun serve => hold_number ..
    | beginShutdown =>
      exact pass (!s.shutDown) { s with shutDown := true } fun serve => hold_beginShutdown ..
    | call c =>
      have same : answered source (replay source (accesses c) i) = answered source i := by
        unfold answered
        rw [told_eq source (replay_content source i _)]
      obtain ⟨x, cs, told, run⟩ :=
        ih (answered source i c) (replay source (accesses c) i) s (before ++ [c])
      rw [same] at told
      refine ⟨x, c :: cs, ?_, ?_⟩
      · rw [List.append_assoc] at told
        exact told
      · rw [hold_ask_call, StateT.run_bind, respond_run, List.flatMap_cons, replay_append, ← run]
        rfl

end Inventory
end TierTagger
