/-!
# Dialogues

A computation that asks questions and ends: it is over with a result, or it asks a question and goes on
with the answer. Whoever answers is not part of it, so one dialogue can be held with a server, with a
model of one, or step by step beside others.

* `Dialogue.run`: holds the dialogue with answers from any monad, another dialogue's included.
* `Dialogue.replying`: answers that may depend on all questions before.
* `Dialogue.Attempt`: a dialogue that may fail.
-/

namespace TierTagger

/-- A computation that asks questions of type `Q` and gets answers of the types `A`. -/
inductive Dialogue {Q : Type} (A : Q → Type) (α : Type) where
  | done (result : α)
  | ask (question : Q) (resume : A question → Dialogue A α)

namespace Dialogue

variable {Q : Type} {A : Q → Type} {α β : Type}

/-- Goes on with the result of a dialogue. -/
def bind (d : Dialogue A α) (next : α → Dialogue A β) : Dialogue A β :=
  match d with
  | done a => next a
  | ask q resume => ask q fun a => (resume a).bind next

instance : Monad (Dialogue A) where
  pure := done
  bind := bind

@[simp] theorem pure_eq_done (a : α) : (pure a : Dialogue A α) = done a := rfl

@[simp] theorem done_bind (a : α) (next : α → Dialogue A β) : (done a >>= next) = next a := rfl

@[simp] theorem ask_bind (q : Q) (resume : A q → Dialogue A α) (next : α → Dialogue A β) :
    (ask q resume >>= next) = ask q fun a => resume a >>= next := rfl

theorem bind_done (d : Dialogue A α) : (d >>= done) = d := by
  induction d with
  | done a => rfl
  | ask q resume ih => simp [ih]

theorem bind_assoc {γ : Type} (d : Dialogue A α) (f : α → Dialogue A β) (g : β → Dialogue A γ) :
    ((d >>= f) >>= g) = (d >>= fun a => f a >>= g) := by
  induction d with
  | done a => rfl
  | ask q resume ih => simp [ih]

theorem map_eq_bind (f : α → β) (d : Dialogue A α) : (f <$> d) = (d >>= fun a => done (f a)) := rfl

instance : LawfulMonad (Dialogue A) := .mk' _
  (fun d => by rw [map_eq_bind]; exact bind_done d) (fun _ _ => rfl) bind_assoc

/-- Asks one question. -/
def question (q : Q) : Dialogue A (A q) := ask q done

/-- Holds a dialogue with somebody who answers each question. -/
def run {m : Type → Type} [Monad m] (answer : (q : Q) → m (A q)) : Dialogue A α → m α
  | done a => pure a
  | ask q resume => do (resume (← answer q)).run answer

section
variable {m : Type → Type} [Monad m] (answer : (q : Q) → m (A q))

@[simp] theorem run_done (a : α) : (done a : Dialogue A α).run answer = pure a := rfl

@[simp] theorem run_ask (q : Q) (resume : A q → Dialogue A α) :
    (ask q resume).run answer = (answer q >>= fun a => (resume a).run answer) := rfl

/-- A dialogue and what follows it are held one after the other. -/
theorem run_bind [LawfulMonad m] (d : Dialogue A α) (next : α → Dialogue A β) :
    (d >>= next).run answer = (d.run answer >>= fun a => (next a).run answer) := by
  induction d with
  | done a => simp
  | ask q resume ih => simp [ih]

end

/-- Somebody whose answers are a function of the questions before; the state holds those. -/
def replying (reply : List Q → (q : Q) → A q) (q : Q) : StateM (List Q) (A q) :=
  fun before => (reply before q, before ++ [q])

/-! ## Failures -/

/-- A dialogue that may fail. -/
abbrev Attempt {Q : Type} (A : Q → Type) (ε α : Type) : Type := ExceptT ε (Dialogue A) α

section
variable {ε ε' : Type}

/-- Holds a dialogue and fails where it fails, with the error as `f` tells it. -/
def attempt (f : ε → ε') (d : Dialogue A (Except ε α)) : Attempt A ε' α :=
  ExceptT.mk (d >>= fun r => done (r.mapError f))

/-- Goes on with a value that was found, or fails with the error as `f` tells it. -/
def check (f : ε → ε') (r : Except ε α) : Attempt A ε' α := ExceptT.mk (done (r.mapError f))

end

end Dialogue
end TierTagger
