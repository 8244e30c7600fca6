import TierTagger.Proofs.Session.Alone
import TierTagger.Proofs.Session.Protocol

/-!
# One after the other

Computations that are held alone, one after the other, and the same ones in a pool: to let each of
them run to its end before the next one begins is one of the interleavings.

- `hold_refine`: calls that are worked out as dialogues can be answered at once, too, where a
  computation is held alone.
- `Protocol.steps_alone`: a computation that respects the lock runs to its end while the others
  wait.
- `Protocol.steps_mapM`: so do all of them, one after the other.
-/

namespace TierTagger.Sessions

/-! ## Calls that are worked out -/

section
variable {δ Q R α β : Type} {A : Q → Type} {B : R → Type} (serve : (q : Q) → Dialogue B (A q))

theorem refine_bind (work : Work δ A α) (next : α → Work δ A β) :
    refine serve (work >>= next) = refine serve work >>= fun a => refine serve (next a) :=
  Dialogue.run_bind _ work next

theorem refine_mapM (l : List β) (code : β → Work δ A α) :
    refine serve (l.mapM code) = l.mapM fun b => refine serve (code b) := by
  induction l with
  | nil => rfl
  | cons b l ih =>
    simp only [List.mapM_cons, refine_bind, ih]
    rfl

variable {m : Type → Type} [Monad m] [LawfulMonad m] (access : (r : R) → m (B r))

theorem hold_calling (d : Dialogue B α) (s : Sessions δ) :
    (hold access (calling d)).run s = d.run access >>= fun a => pure (a, s) := by
  induction d with
  | done a => simp [calling, Dialogue.run_done]
  | ask r next ih =>
    rw [Dialogue.run_ask, bind_assoc]
    refine (hold_ask_call access s r _).trans (bind_congr fun b => ?_)
    exact ih b

/-- Whether calls are answered at once or worked out is the same for a computation that is held
alone. -/
theorem hold_refine (work : Work δ A α) (s : Sessions δ) :
    (hold access (refine serve work)).run s = (hold (fun q => (serve q).run access) work).run s := by
  induction work generalizing s with
  | done a => rfl
  | ask q next ih =>
    cases q with
    | lock => rw [hold_lock, ← ih]; exact hold_lock ..
    | unlock o => rw [hold_unlock, ← ih]; exact hold_unlock ..
    | number => rw [hold_number, ← ih]; exact hold_number ..
    | beginShutdown => rw [hold_beginShutdown, ← ih]; exact hold_beginShutdown ..
    | call q =>
      show (hold access (calling (serve q) >>= fun a => refine serve (next a))).run s = _
      rw [hold_bind, hold_calling, hold_ask_call, bind_assoc]
      refine bind_congr fun a => ?_
      rw [pure_bind]
      exact ih a s

end

/-! ## Pools in which one runs after the other -/

variable {δ σ Q α P : Type} {A : Q → Type}

/-- A step of a computation that is held alone is its step in a pool. -/
theorem hold_after (serve : (q : Q) → StateM σ (A q)) (i : Nat) (p : Pool δ σ A α) (q : Question δ Q)
    (next : q.Answer A → Work δ A α) :
    ((hold serve (.ask q next)).run p.sessions).run p.world =
      ((hold serve (next (p.answerTo serve q))).run (p.after serve i q).sessions).run
        (p.after serve i q).world := by
  cases q with
  | lock => rw [hold_lock]; rfl
  | unlock o => rw [hold_unlock]; rfl
  | number => rw [hold_number]; rfl
  | beginShutdown => rw [hold_beginShutdown]; rfl
  | call q => rw [hold_ask_call]; rfl

namespace Protocol

open Pool (Steps)

variable (C : Protocol δ A α P) (serve : (q : Q) → StateM σ (A q))

/-- Who has the lock after a move of computation `i`, if it had it before where it holds it. -/
theorem owner_after {i : Nat} {p : Pool δ σ A α} {place place' : P} {q : Question δ Q}
    (moves : C.Moves place q (p.answerTo serve q) place') (held : C.Holds place → p.owner = some i)
    (free : ¬C.Holds place → p.owner = none) :
    (C.Holds place' → (p.after serve i q).owner = some i) ∧
      (¬C.Holds place' → (p.after serve i q).owner = none) := by
  cases q with
  | lock => exact ⟨fun _ => rfl, fun out => absurd (C.of_lock moves).2.1 out⟩
  | unlock o => exact ⟨fun holds => absurd holds (C.of_unlock moves).2, fun _ => rfl⟩
  | number | beginShutdown | call c =>
    obtain ⟨same, -⟩ := C.of_other moves nofun nofun
    exact ⟨fun holds => held (same.mp holds), fun out => free (out ∘ same.mpr)⟩

/-- A computation at a place runs to its end while the others wait: those before it are `l₁`, those
behind it `l₂`. It has the lock at first if it holds it there. -/
theorem steps_alone (s : Sessions δ) (w : σ) (l₁ l₂ : List (Work δ A α)) {place : P}
    {owner : Option Nat} (held : C.Holds place → owner = some l₁.length)
    (free : ¬C.Holds place → owner = none) : ∃ a s' w',
      ((hold serve (C.rest place)).run s).run w = ((a, s'), w') ∧
      Steps serve ⟨s, owner, w, l₁ ++ C.rest place :: l₂⟩ ⟨s', none, w', l₁ ++ .done a :: l₂⟩ := by
  generalize left : C.rest place = d
  induction d generalizing s w place owner with
  | done a =>
    obtain rfl := free (C.of_done left)
    exact ⟨a, s, w, rfl, .refl _⟩
  | ask q next ih =>
    let p : Pool δ σ A α := ⟨s, owner, w, l₁ ++ .ask q next :: l₂⟩
    obtain ⟨place', moves, left'⟩ := C.moves_of_rest left (p.answerTo serve q)
    obtain ⟨held', free'⟩ := C.owner_after (p := p) serve moves held free
    have asks : p.threads[l₁.length]? = some (.ask q next) := by simp [p]
    have now : p.advance serve l₁.length = some ⟨(p.after serve l₁.length q).sessions,
        (p.after serve l₁.length q).owner, (p.after serve l₁.length q).world,
        l₁ ++ next (p.answerTo serve q) :: l₂⟩ := by
      refine (Pool.advance_ask asks).mpr ⟨?_, ?_⟩
      · rintro rfl
        exact free (C.of_lock moves).1
      · simp [p, Pool.resume]
    obtain ⟨a, s', w', run, more⟩ := ih _ _ _ held' free' left'.symm
    refine ⟨a, s', w', (hold_after serve l₁.length p q next).trans run, ?_⟩
    exact .trans serve (.step l₁.length (.refl p) now) more

/-- **One after the other is an interleaving.** Computations that are held alone, in order, are held
in a pool so. -/
theorem steps_mapM (s : Sessions δ) (w : σ) (l₁ : List (Work δ A α)) {places : List P}
    (outside : ∀ place ∈ places, ¬C.Holds place) : ∃ rs s' w',
      ((hold serve (places.mapM C.rest)).run s).run w = ((rs, s'), w') ∧
      Steps serve ⟨s, none, w, l₁ ++ places.map C.rest⟩ ⟨s', none, w', l₁ ++ rs.map .done⟩ := by
  induction places generalizing s w l₁ with
  | nil => exact ⟨[], s, w, rfl, .refl _⟩
  | cons place places ih =>
    obtain ⟨out, outside⟩ := List.forall_mem_cons.mp outside
    obtain ⟨a, s₁, w₁, run₁, steps₁⟩ :=
      C.steps_alone serve s w l₁ (places.map C.rest) (fun holds => absurd holds out) fun _ => rfl
    obtain ⟨rs, s₂, w₂, run₂, steps₂⟩ := ih s₁ w₁ (l₁ ++ [.done a]) outside
    refine ⟨a :: rs, s₂, w₂, ?_, ?_⟩
    · rw [List.mapM_cons, hold_bind, StateT.run_bind, run₁]
      show ((hold serve (places.mapM C.rest >>= fun rs => pure (a :: rs))).run s₁).run w₁ = _
      rw [hold_bind, StateT.run_bind, run₂]
      rfl
    · refine .trans serve steps₁ ?_
      simpa using steps₂

end Protocol
end TierTagger.Sessions
