import TierTagger.Call
import TierTagger.Dialogue

/-!
# The shared session

A process has at most one connection to the directory, its *session*. Whoever needs it first connects,
all others use the same. The session is kept behind a lock, which is held while a connection is made, so
that nobody else makes another meanwhile; it is not held while the session is used or logged out of.

* `Sessions.ensure`: the session, after connecting if there is none. A connection that fails changes
  nothing.
* `Sessions.shutdown`: takes the session away and logs out of it, once in the life of the process.

All of them are dialogues over `Sessions.Question`: the steps at which others may come in between are
visible. `Sessions.answer` answers the questions of one dialogue that is held alone.
-/

namespace TierTagger

/-- A connection that is shared, and its number. -/
structure Session (δ : Type) where
  id : Nat
  directory : δ
  deriving DecidableEq, Repr

/-- The session for a diagnosis. -/
def Session.debug {δ : Type} (s : Session δ) : String :=
  "Session \x7b id: " ++ toString s.id ++ ", .. \x7d"

/-- The state that is shared about sessions. -/
structure Sessions (δ : Type) where
  /-- The session in use. -/
  installed : Option (Session δ)
  /-- The number of the next session. -/
  nextId : Nat
  /-- Whether shutdown began. -/
  shutDown : Bool
  deriving Repr

namespace Sessions

/-- Before the first connection. -/
def initial {δ : Type} : Sessions δ := ⟨none, 1, false⟩

/-- A step that concerns the shared state, or a call that does not. -/
inductive Question (δ Q : Type) where
  /-- Waits for the lock; the answer is the session behind it. -/
  | lock
  /-- Puts a session, or none, behind the lock and gives the lock up. -/
  | unlock (session : Option (Session δ))
  /-- Takes the number of the next session. -/
  | number
  /-- Begins shutdown; the answer is whether it had not begun before. -/
  | beginShutdown
  | call (q : Q)

/-- What a question answers. -/
@[reducible] def Question.Answer {δ Q : Type} (A : Q → Type) : Question δ Q → Type
  | lock => Option (Session δ)
  | unlock _ => Unit
  | number => Nat
  | beginShutdown => Bool
  | call q => A q

/-- A computation that uses the shared session and makes calls. -/
abbrev Work (δ : Type) {Q : Type} (A : Q → Type) (α : Type) : Type :=
  Dialogue (Question.Answer (δ := δ) A) α

/-- A computation that uses the shared session and calls the directory. -/
abbrev Job (δ α : Type) : Type := Work δ (Call.Answer (δ := δ)) α

section
variable {δ : Type}

/-- Asks one question. -/
def ask (q : Question δ (Call δ)) : Job δ (q.Answer Call.Answer) := Dialogue.question q

/-- Makes a call. -/
def call (c : Call δ) : Job δ c.Answer := ask (.call c)

/-- The session, after connecting with the given parameters if there is none. -/
def ensure (parameters : Connection) : Job δ (Except Directory.Error (Session δ)) := do
  match ← ask .lock with
  | some (session : Session δ) =>
    let _ ← ask (.unlock (some session))
    return .ok session
  | none =>
    match ← call (.connect parameters) with
    | .error (e : Directory.Error) =>
      let _ ← ask (.unlock none)
      return .error e
    | .ok (directory : δ) =>
      let id ← ask .number
      let session : Session δ := ⟨id, directory⟩
      let _ ← ask (.unlock (some session))
      return .ok session

/-- The session, if there is one. -/
def current : Job δ (Option (Session δ)) := do
  let session ← ask .lock
  let _ ← ask (.unlock session)
  return session

/-- Logs out of the session if there is one. Only the first call does; the answer is whether this is it. A
logout that fails is passed over. -/
def shutdown : Job δ Bool := do
  let first ← ask .beginShutdown
  if !first then return false
  let session ← ask .lock
  let _ ← ask (.unlock none)
  match session with
  | none => return true
  | some (s : Session δ) =>
    let _ ← call (.logout s.directory)
    return true

end

section
variable {δ : Type} {m : Type → Type} [Monad m] {Q : Type} {A : Q → Type}

/-- Answers the questions of somebody who has the shared state alone. -/
def answer (serve : (q : Q) → m (A q)) :
    (q : Question δ Q) → StateT (Sessions δ) m (q.Answer A)
  | .lock => fun s => pure (s.installed, s)
  | .unlock session => fun s => pure ((), { s with installed := session })
  | .number => fun s => pure (s.nextId, { s with nextId := s.nextId + 1 })
  | .beginShutdown => fun s => pure (!s.shutDown, { s with shutDown := true })
  | .call q => fun s => do return (← serve q, s)

/-- Holds a computation alone. -/
def hold {α : Type} (serve : (q : Q) → m (A q)) (work : Work δ A α) : StateT (Sessions δ) m α :=
  work.run (answer serve)

end

section
variable {δ : Type} {Q R : Type} {A : Q → Type} {B : R → Type}

/-- Dialogues of another kind, as calls. -/
def calling {α : Type} (d : Dialogue B α) : Work δ B α := d.run fun r => Dialogue.question (.call r)

/-- Computations whose calls are worked out as dialogues of another kind. -/
def refine {α : Type} (serve : (q : Q) → Dialogue B (A q)) (work : Work δ A α) : Work δ B α :=
  work.run fun
    | .lock => Dialogue.question (A := Question.Answer B) .lock
    | .unlock session => Dialogue.question (A := Question.Answer B) (.unlock session)
    | .number => Dialogue.question (A := Question.Answer B) .number
    | .beginShutdown => Dialogue.question (A := Question.Answer B) .beginShutdown
    | .call q => calling (serve q)

end

end Sessions
end TierTagger
