import TierTagger.Session

/-!
# Concurrent work

Several computations that share the session, each held one step at a time in any order. Only the lock
makes one of them wait: its owner keeps it from `lock` to `unlock`, and nobody else gets past `lock`
meanwhile. Calls are answered by the world, whose state they may change.

* `Pool.advance`: one step of one computation, if it is not waiting and not over.
* `Pool.Steps`: what can be reached by such steps, however they are interleaved; `Pool.AnySteps`:
  however calls are answered, too.
* `Pool.rounds`: a fair way to interleave them, in which all take turns (`steps_rounds`).
-/

namespace TierTagger.Sessions

/-- Computations that run beside each other. -/
structure Pool (δ σ : Type) {Q : Type} (A : Q → Type) (α : Type) where
  sessions : Sessions δ
  /-- Who has the lock. -/
  owner : Option Nat
  world : σ
  threads : List (Work δ A α)

namespace Pool

variable {δ σ Q α : Type} {A : Q → Type}

/-- Before the first step. -/
def start (sessions : Sessions δ) (world : σ) (threads : List (Work δ A α)) : Pool δ σ A α :=
  ⟨sessions, none, world, threads⟩

/-- A computation that goes on. -/
def resume (p : Pool δ σ A α) (i : Nat) (d : Work δ A α) : Pool δ σ A α :=
  { p with threads := p.threads.set i d }

/-- One step of a computation, with the given answer if it is a call. -/
def advance (serve : (q : Q) → StateM σ (A q)) (i : Nat) (p : Pool δ σ A α) : Option (Pool δ σ A α) :=
  match p.threads[i]? with
  | none | some (.done _) => none
  | some (.ask .lock next) =>
    if p.owner = none then some { p.resume i (next p.sessions.installed) with owner := some i } else none
  | some (.ask (.unlock session) next) =>
    some { p.resume i (next ()) with
      owner := none
      sessions := { p.sessions with installed := session } }
  | some (.ask .number next) =>
    some { p.resume i (next p.sessions.nextId) with
      sessions := { p.sessions with nextId := p.sessions.nextId + 1 } }
  | some (.ask .beginShutdown next) =>
    some { p.resume i (next !p.sessions.shutDown) with
      sessions := { p.sessions with shutDown := true } }
  | some (.ask (.call q) next) =>
    let (a, world) := (serve q).run p.world
    some { p.resume i (next a) with world }

/-- What a pool can become while calls are answered by `serve`. -/
inductive Steps (serve : (q : Q) → StateM σ (A q)) : Pool δ σ A α → Pool δ σ A α → Prop where
  | refl (p : Pool δ σ A α) : Steps serve p p
  | step {p q r : Pool δ σ A α} (i : Nat) (before : Steps serve p q)
      (now : advance serve i q = some r) : Steps serve p r

/-- What a pool can become while calls are answered in any way. -/
inductive AnySteps : Pool δ σ A α → Pool δ σ A α → Prop where
  | refl (p : Pool δ σ A α) : AnySteps p p
  | step {p q r : Pool δ σ A α} (serve : (q : Q) → StateM σ (A q)) (i : Nat) (before : AnySteps p q)
      (now : advance serve i q = some r) : AnySteps p r

/-- The results of the computations, if all of them are over. -/
def results? (p : Pool δ σ A α) : Option (List α) :=
  p.threads.mapM fun
    | .done a => some a
    | .ask _ _ => none

/-! ## Taking turns -/

variable (serve : (q : Q) → StateM σ (A q))

/-- One step of a computation, if it can do one. -/
def turn (p : Pool δ σ A α) (i : Nat) : Pool δ σ A α := (advance serve i p).getD p

/-- One turn for each computation, in order. -/
def round (p : Pool δ σ A α) : Pool δ σ A α := (List.range p.threads.length).foldl (turn serve) p

/-- Many rounds. -/
def rounds : Nat → Pool δ σ A α → Pool δ σ A α
  | 0, p => p
  | n + 1, p => rounds n (round serve p)

theorem Steps.trans {p q r : Pool δ σ A α} (h : Steps serve p q) (k : Steps serve q r) :
    Steps serve p r := by
  induction k with
  | refl => exact h
  | step i _ now ih => exact .step i ih now

theorem steps_turn (p : Pool δ σ A α) (i : Nat) : Steps serve p (turn serve p i) := by
  unfold turn
  cases h : advance serve i p with
  | none => exact .refl p
  | some q => exact .step i (.refl p) h

theorem steps_turns (is : List Nat) (p : Pool δ σ A α) : Steps serve p (is.foldl (turn serve) p) := by
  induction is generalizing p with
  | nil => exact .refl p
  | cons i is ih => exact .trans serve (steps_turn serve p i) (ih _)

/-- Taking turns is one of the ways to go on. -/
theorem steps_rounds (n : Nat) (p : Pool δ σ A α) : Steps serve p (rounds serve n p) := by
  induction n generalizing p with
  | zero => exact .refl p
  | succ n ih => exact .trans serve (steps_turns serve _ p) (ih _)

end Pool
end TierTagger.Sessions
