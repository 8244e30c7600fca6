import TierTagger.Proofs.Session.Alone
import TierTagger.VCenter.Client

/-!
# Transcripts

What is asked and answered in a dialogue whose answers are of one type, as a list. A job that is
held over vCenter is such a dialogue: of requests to the server.

- **Transcripts** (`Dialogue.Told`): the questions and answers of a dialogue, and its result. A
  dialogue and what follows it are told one after the other (`told_bind`).
- **Answers by a function** (`Answered`): a dialogue with somebody who answers with a function has a
  transcript (`exists_told`).
- **Exchanges of a job** (`VCenter.exchange`, `hold_respond`): the requests of all its calls are the
  transcript of one dialogue.
-/

namespace TierTagger

namespace Dialogue

variable {Q R α β ε ε' : Type}

/-- The questions of a dialogue with their answers, and its result. -/
inductive Told : Dialogue (fun _ : Q => R) α → List (Q × R) → α → Prop where
  | done (a) : Told (.done a) [] a
  | ask {q next r xs a} (rest : Told (next r) xs a) : Told (.ask q next) ((q, r) :: xs) a

variable {d : Dialogue (fun _ : Q => R) α} {next : α → Dialogue (fun _ : Q => R) β}
variable {xs ys : List (Q × R)}

@[simp] theorem told_done {a b : α} : Told (.done a : Dialogue (fun _ : Q => R) α) xs b ↔
    xs = [] ∧ b = a := by
  constructor
  · rintro ⟨⟩
    exact ⟨rfl, rfl⟩
  · rintro ⟨rfl, rfl⟩
    exact .done b

theorem told_ask {q : Q} {next : R → Dialogue (fun _ : Q => R) α} {a : α} :
    Told (.ask q next) xs a ↔ ∃ r ys, xs = (q, r) :: ys ∧ Told (next r) ys a := by
  constructor
  · rintro ⟨⟩
    exact ⟨_, _, rfl, ‹_›⟩
  · rintro ⟨r, ys, rfl, rest⟩
    exact .ask rest

/-- A dialogue and what follows it are told one after the other. -/
theorem told_bind {b : β} : Told (d >>= next) xs b ↔
    ∃ ys zs a, xs = ys ++ zs ∧ Told d ys a ∧ Told (next a) zs b := by
  induction d generalizing xs with
  | done a =>
    rw [done_bind]
    constructor
    · exact fun rest => ⟨[], xs, a, rfl, .done a, rest⟩
    · rintro ⟨ys, zs, a', rfl, first, rest⟩
      obtain ⟨rfl, rfl⟩ := told_done.mp first
      exact rest
  | ask q resume ih =>
    simp only [ask_bind, told_ask, ih]
    constructor
    · rintro ⟨r, _, rfl, ys, zs, a, rfl, first, rest⟩
      exact ⟨_, zs, a, rfl, ⟨r, ys, rfl, first⟩, rest⟩
    · rintro ⟨_, zs, a, rfl, ⟨r, ys, rfl, first⟩, rest⟩
      exact ⟨r, _, rfl, ys, zs, a, rfl, first, rest⟩

/-! ## Answers by a function -/

/-- The answers are those of `reply`, after the questions `before`. -/
def Answered (reply : List Q → Q → R) : List Q → List (Q × R) → Prop
  | _, [] => True
  | before, (q, r) :: xs => r = reply before q ∧ Answered reply (before ++ [q]) xs

variable {reply : List Q → Q → R} {before : List Q}

theorem answered_append : Answered reply before (xs ++ ys) ↔
    Answered reply before xs ∧ Answered reply (before ++ xs.map (·.1)) ys := by
  induction xs generalizing before with
  | nil => simp [Answered]
  | cons x xs ih => simp [Answered, ih, and_assoc]

/-- A dialogue with somebody who answers with `reply` has a transcript. -/
theorem exists_told (reply : List Q → Q → R) (before : List Q) (d : Dialogue (fun _ : Q => R) α) :
    ∃ xs, Told d xs ((d.run (replying reply)).run before).1 ∧ Answered reply before xs ∧
      ((d.run (replying reply)).run before).2 = before ++ xs.map (·.1) := by
  induction d generalizing before with
  | done a => exact ⟨[], .done a, trivial, (List.append_nil _).symm⟩
  | ask q next ih =>
    obtain ⟨xs, told, answered, asked⟩ := ih (reply before q) (before ++ [q])
    exact ⟨(q, reply before q) :: xs, .ask told, ⟨rfl, answered⟩, asked.trans (by simp)⟩

end Dialogue

namespace Sessions

variable {δ α : Type} {Q R : Type} {A : Q → Type} {B : R → Type}
variable {m : Type → Type} [Monad m] [LawfulMonad m]

/-- A job whose calls are worked out as dialogues is held as one dialogue. -/
theorem hold_run (serve : (q : Q) → Dialogue B (A q)) (answer : (r : R) → m (B r)) (work : Work δ A α)
    (s : Sessions δ) :
    (hold (fun q => (serve q).run answer) work).run s = ((hold serve work).run s).run answer := by
  induction work generalizing s with
  | done a => rfl
  | ask q next ih =>
    cases q with
    | lock => rw [hold_lock, hold_lock, ih]
    | unlock session => rw [hold_unlock, hold_unlock, ih]
    | number => rw [hold_number, hold_number, ih]
    | beginShutdown => rw [hold_beginShutdown, hold_beginShutdown, ih]
    | call q =>
      rw [hold_ask_call, hold_ask_call, Dialogue.run_bind]
      exact bind_congr fun a => ih a s

end Sessions

namespace VCenter

open Http (Exchange Request)

/-! ## Exchanges of a job -/

/-- A call as an exchange with the server. The parameters are there without one. -/
def exchange (site : Site) (source : Configuration.Source) : (c : Call Link) → Exchange c.Answer
  | .load => .done source.load
  | .connect c => connect site c
  | .hardware link vm => (hardware link vm).run
  | .tags link category => (tags link category).run
  | .attach link tagId vm => (attach link tagId vm).run
  | .logout link => logout link

theorem steps_run {α : Type} (source : Configuration.Source) (network : Http.Network)
    (x : Exchange α) : (steps x).run (perform source network) = x.run (Dialogue.replying network) := by
  induction x with
  | done a => rfl
  | ask r next ih =>
    show (Dialogue.replying network r >>= fun a => (steps (next a)).run (perform source network)) = _
    exact bind_congr ih

theorem respond_eq (site : Site) (source : Configuration.Source) (network : Http.Network)
    (c : Call Link) : respond site source network c =
      (exchange site source c).run (Dialogue.replying network) := by
  cases c with
  | load => rfl
  | connect | hardware | tags | attach | logout => exact steps_run source network _

variable {α : Type} (site : Site) (source : Configuration.Source)

/-- The requests of a job that is held alone over vCenter are those of one dialogue. -/
theorem hold_respond (network : Http.Network) (job : Sessions.Job Link α) (s : Sessions Link) :
    (Sessions.hold (respond site source network) job).run s =
      ((Sessions.hold (exchange site source) job).run s).run (Dialogue.replying network) := by
  rw [← Sessions.hold_run]
  exact congrArg (fun serve => (Sessions.hold serve job).run s)
    (funext fun c => respond_eq site source network c)

end VCenter
end TierTagger
