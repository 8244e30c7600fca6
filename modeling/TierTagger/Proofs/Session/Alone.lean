import TierTagger.Session

/-!
# Computations that are held alone

What `Sessions.hold` does with each question, and what it makes of `Sessions.ensure`. Calls are
answered in any lawful monad, so the same facts serve an answer from a history and one from a
directory.

- **Questions** (`hold_lock`, `hold_unlock`, `hold_number`, `hold_beginShutdown`, `hold_ask_call`):
  each reads or sets the shared state; a call leaves it as it is.
- **The session** (`hold_ensure`): what is installed is reused without a call. Else there is one
  call, and only its success changes the shared state (`Sessions.install`).
- **The end** (`hold_shutdown`): the first shutdown takes the session away and logs out of it.
-/

namespace TierTagger

theorem Dialogue.ask_congr {Q α : Type} {A : Q → Type} (q : Q) {next next' : A q → Dialogue A α}
    (same : ∀ a, next a = next' a) : ask q next = ask q next' :=
  congrArg (ask q) (funext same)

namespace Sessions

section
variable {δ Q α β : Type} {A : Q → Type} {m : Type → Type} [Monad m]
variable (serve : (q : Q) → m (A q)) (s : Sessions δ)

@[simp] theorem hold_done (a : α) : (hold serve (.done a : Work δ A α)).run s = pure (a, s) := rfl

variable [LawfulMonad m]

@[simp] theorem hold_lock (next : Option (Session δ) → Work δ A α) :
    (hold serve (.ask .lock next)).run s = (hold serve (next s.installed)).run s := by
  simp only [hold, Dialogue.run_ask, answer, StateT.run_bind]
  exact pure_bind _ _

@[simp] theorem hold_unlock (session : Option (Session δ)) (next : Unit → Work δ A α) :
    (hold serve (.ask (.unlock session) next)).run s =
      (hold serve (next ())).run { s with installed := session } := by
  simp only [hold, Dialogue.run_ask, answer, StateT.run_bind]
  exact pure_bind _ _

@[simp] theorem hold_number (next : Nat → Work δ A α) :
    (hold serve (.ask .number next)).run s =
      (hold serve (next s.nextId)).run { s with nextId := s.nextId + 1 } := by
  simp only [hold, Dialogue.run_ask, answer, StateT.run_bind]
  exact pure_bind _ _

@[simp] theorem hold_beginShutdown (next : Bool → Work δ A α) :
    (hold serve (.ask .beginShutdown next)).run s =
      (hold serve (next !s.shutDown)).run { s with shutDown := true } := by
  simp only [hold, Dialogue.run_ask, answer, StateT.run_bind]
  exact pure_bind _ _

@[simp] theorem hold_ask_call (q : Q) (next : A q → Work δ A α) :
    (hold serve (.ask (.call q) next)).run s =
      serve q >>= fun a => (hold serve (next a)).run s := by
  simp only [hold, Dialogue.run_ask, answer, StateT.run_bind]
  refine (bind_assoc _ _ _).trans ?_
  exact bind_congr fun a => pure_bind _ _

theorem hold_bind (work : Work δ A α) (next : α → Work δ A β) :
    (hold serve (work >>= next)).run s =
      (hold serve work).run s >>= fun r => (hold serve (next r.1)).run r.2 := by
  simp only [hold, Dialogue.run_bind, StateT.run_bind]

end

section
variable {δ : Type}

/-- `ensure`, question by question. -/
theorem ensure_eq (p : Connection) : ensure (δ := δ) p =
    .ask .lock fun
      | some s => .ask (.unlock (some s)) fun _ => .done (.ok s)
      | none => .ask (.call (.connect p)) fun
        | .error e => .ask (.unlock none) fun _ => .done (.error e)
        | .ok d => .ask .number fun n =>
          .ask (.unlock (some ⟨n, d⟩)) fun _ => .done (.ok ⟨n, d⟩) := by
  refine Dialogue.ask_congr Question.lock fun found => ?_
  cases found with
  | some s => rfl
  | none =>
    refine Dialogue.ask_congr (Question.call (Call.connect p)) fun r => ?_
    cases r <;> rfl

/-- The state with a new session for a connection. -/
def install (s : Sessions δ) (d : δ) : Sessions δ :=
  { s with installed := some ⟨s.nextId, d⟩, nextId := s.nextId + 1 }

variable {m : Type → Type} [Monad m] [LawfulMonad m] (serve : (c : Call δ) → m c.Answer)

/-- The session that is installed, or else the one of a connection that is made now. -/
theorem hold_ensure (p : Connection) (s : Sessions δ) :
    (hold serve (ensure p)).run s =
      match s.installed with
      | some x => pure (.ok x, s)
      | none => serve (.connect p) >>= fun
        | .error e => pure (.error e, s)
        | .ok d => pure (.ok ⟨s.nextId, d⟩, s.install d) := by
  obtain ⟨installed, n, began⟩ := s
  rw [ensure_eq, hold_lock]
  cases installed with
  | some x => rw [hold_unlock, hold_done]
  | none =>
    rw [hold_ask_call]
    refine bind_congr fun r => ?_
    cases r with
    | error e => rw [hold_unlock, hold_done]
    | ok d => rw [hold_number, hold_unlock, hold_done]; rfl

/-- `shutdown`, question by question. -/
theorem shutdown_eq : shutdown (δ := δ) =
    .ask .beginShutdown fun
      | false => .done false
      | true => .ask .lock fun o => .ask (.unlock none) fun _ =>
        match o with
        | none => .done true
        | some s => .ask (.call (.logout s.directory)) fun _ => .done true := by
  refine Dialogue.ask_congr Question.beginShutdown fun first => ?_
  cases first with
  | false => rfl
  | true =>
    refine Dialogue.ask_congr Question.lock fun o => ?_
    refine Dialogue.ask_congr (Question.unlock none) fun _ => ?_
    cases o <;> rfl

/-- The first shutdown logs out of the session that is installed. -/
theorem hold_shutdown (s : Sessions δ) :
    (hold serve shutdown).run s =
      if s.shutDown then pure (false, s)
      else match s.installed with
        | none => pure (true, { s with shutDown := true })
        | some x => serve (.logout x.directory) >>= fun _ =>
          pure (true, { s with installed := none, shutDown := true }) := by
  obtain ⟨installed, n, began⟩ := s
  rw [shutdown_eq, hold_beginShutdown]
  cases began with
  | true => exact hold_done serve _ false
  | false =>
    show (hold serve (.ask .lock _)).run _ = _
    rw [hold_lock, hold_unlock]
    cases installed with
    | none => exact hold_done serve _ true
    | some x =>
      rw [hold_ask_call]
      exact bind_congr fun _ => hold_done serve _ true

end

end Sessions
end TierTagger
