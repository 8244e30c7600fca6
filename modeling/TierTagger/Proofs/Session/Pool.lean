import Mathlib.Data.Set.List
import Mathlib.Logic.Hydra
import TierTagger.Session.Pool

/-!
# Steps and histories of a pool

What one step of a pool can do, said once, and runs with a record of all questions and answers.

- **One step** (`advance_eq_some`): a computation asks its question and goes on with the answer
  (`answerTo`); the question changes the shared state, the owner of the lock or the world (`after`).
  Only a `lock` can have to wait.
- **Histories** (`Recorded`): a run with its entries, in which calls are answered in any way; every
  run has one (`anySteps_iff_recorded`).
- **Runs end** (`wellFounded_advance`): whatever the order of steps and the answers, no run goes on
  forever (`exists_stuck`).
-/

namespace TierTagger.Sessions.Pool

variable {δ σ Q α : Type} {A : Q → Type}

/-! ## One step -/

/-- What a question is answered now. -/
def answerTo (serve : (q : Q) → StateM σ (A q)) (p : Pool δ σ A α) :
    (q : Question δ Q) → q.Answer A
  | .lock => p.sessions.installed
  | .unlock _ => ()
  | .number => p.sessions.nextId
  | .beginShutdown => !p.sessions.shutDown
  | .call q => ((serve q).run p.world).1

/-- What a question of computation `i` changes beside that computation. -/
def after (serve : (q : Q) → StateM σ (A q)) (i : Nat) (p : Pool δ σ A α) :
    Question δ Q → Pool δ σ A α
  | .lock => { p with owner := some i }
  | .unlock session =>
    { p with owner := none, sessions := { p.sessions with installed := session } }
  | .number => { p with sessions := { p.sessions with nextId := p.sessions.nextId + 1 } }
  | .beginShutdown => { p with sessions := { p.sessions with shutDown := true } }
  | .call q => { p with world := ((serve q).run p.world).2 }

@[simp] theorem resume_threads (p : Pool δ σ A α) (i : Nat) (d : Work δ A α) :
    (p.resume i d).threads = p.threads.set i d := rfl

@[simp] theorem resume_sessions (p : Pool δ σ A α) (i : Nat) (d : Work δ A α) :
    (p.resume i d).sessions = p.sessions := rfl

@[simp] theorem resume_owner (p : Pool δ σ A α) (i : Nat) (d : Work δ A α) :
    (p.resume i d).owner = p.owner := rfl

@[simp] theorem resume_world (p : Pool δ σ A α) (i : Nat) (d : Work δ A α) :
    (p.resume i d).world = p.world := rfl

@[simp] theorem after_threads (serve : (q : Q) → StateM σ (A q)) (i : Nat) (p : Pool δ σ A α)
    (q : Question δ Q) : (p.after serve i q).threads = p.threads := by
  cases q <;> rfl

theorem advance_ask {serve : (q : Q) → StateM σ (A q)} {i : Nat} {p r : Pool δ σ A α}
    {q : Question δ Q} {next : q.Answer A → Work δ A α} (ht : p.threads[i]? = some (.ask q next)) :
    advance serve i p = some r ↔ (q = .lock → p.owner = none) ∧
      r = (p.after serve i q).resume i (next (p.answerTo serve q)) := by
  cases q with
  | lock =>
    by_cases free : p.owner = none
    · simp [advance, ht, free, after, answerTo, resume, eq_comm]
    · simp [advance, ht, free]
  | unlock session => simp [advance, ht, after, answerTo, resume, eq_comm]
  | number => simp [advance, ht, after, answerTo, resume, eq_comm]
  | beginShutdown => simp [advance, ht, after, answerTo, resume, eq_comm]
  | call c =>
    have called : advance serve i p =
        some ((p.after serve i (.call c)).resume i (next (p.answerTo serve (.call c)))) := by
      simp only [advance, ht]
      rfl
    simp [called, eq_comm]

/-- **One step.** It is a question of a computation; only `lock` waits until nobody has the lock. -/
theorem advance_eq_some {serve : (q : Q) → StateM σ (A q)} {i : Nat} {p r : Pool δ σ A α} :
    advance serve i p = some r ↔ ∃ q next, p.threads[i]? = some (.ask q next) ∧
      (q = .lock → p.owner = none) ∧
      r = (p.after serve i q).resume i (next (p.answerTo serve q)) := by
  constructor
  · intro now
    cases ht : p.threads[i]? with
    | none => simp [advance, ht] at now
    | some d =>
      cases d with
      | done a => simp [advance, ht] at now
      | ask q next => exact ⟨q, next, rfl, (advance_ask ht).mp now⟩
  · rintro ⟨q, next, ht, h⟩
    exact (advance_ask ht).mpr h

/-! ## Histories -/

/-- A question of one of the computations, and its answer. -/
structure Entry (δ : Type) (A : Q → Type) where
  thread : Nat
  question : Question δ Q
  answer : question.Answer A

/-- An entry that only the owner of the lock can make. -/
def Entry.Inside (e : Entry δ A) : Prop :=
  match e.question with
  | .lock | .unlock _ | .number => True
  | .beginShutdown | .call _ => False

/-- The runs from `p₀`, with their entries. Each call is answered in any way. -/
inductive Recorded (p₀ : Pool δ σ A α) : List (Entry δ A) → Pool δ σ A α → Prop where
  | start : Recorded p₀ [] p₀
  | step {h p r} (before : Recorded p₀ h p) (serve : (q : Q) → StateM σ (A q)) (e : Entry δ A) {next}
    (asks : p.threads[e.thread]? = some (.ask e.question next))
    (told : e.answer = p.answerTo serve e.question) (now : advance serve e.thread p = some r) :
    Recorded p₀ (h ++ [e]) r

variable {p₀ p r : Pool δ σ A α}

theorem Steps.any {serve : (q : Q) → StateM σ (A q)} (run : Steps serve p₀ p) : AnySteps p₀ p := by
  induction run with
  | refl => exact .refl p₀
  | step i _ now ih => exact .step serve i ih now

/-- Every run has a history. -/
theorem anySteps_iff_recorded : AnySteps p₀ p ↔ ∃ h, Recorded p₀ h p := by
  constructor
  · intro run
    induction run with
    | refl => exact ⟨[], .start⟩
    | step serve i _ now ih =>
      obtain ⟨h, recorded⟩ := ih
      obtain ⟨q, next, asks, -, -⟩ := advance_eq_some.mp now
      exact ⟨_, recorded.step serve ⟨i, q, answerTo serve _ q⟩ asks rfl now⟩
  · rintro ⟨h, recorded⟩
    induction recorded with
    | start => exact .refl p₀
    | step _ serve e _ _ now ih => exact .step serve e.thread ih now

/-- What happened at an entry; from there the rest of the history goes on, whatever was before. -/
theorem Recorded.at_entry {h k : List (Entry δ A)} {e : Entry δ A} (run : Recorded p₀ (h ++ e :: k) p) :
    ∃ q r serve next, Recorded p₀ h q ∧ q.threads[e.thread]? = some (.ask e.question next) ∧
      e.answer = q.answerTo serve e.question ∧ advance serve e.thread q = some r ∧
      ∀ h', Recorded p₀ h' r → Recorded p₀ (h' ++ k) p := by
  generalize same : h ++ e :: k = all at run
  induction run generalizing k with
  | start => cases h <;> cases same
  | @step all q r before serve e' next asks told now ih =>
    rcases k.eq_nil_or_concat' with rfl | ⟨k, last, rfl⟩
    · obtain ⟨rfl, lasts⟩ := List.append_inj' same rfl
      obtain rfl := List.singleton_inj.mp lasts
      exact ⟨q, r, serve, next, before, asks, told, now, fun h' run => by simpa using run⟩
    · rw [← List.cons_append, ← List.append_assoc] at same
      obtain ⟨rfl, lasts⟩ := List.append_inj' same rfl
      obtain rfl := List.singleton_inj.mp lasts
      obtain ⟨q', r', serve', next', before', asks', told', now', on⟩ := ih rfl
      refine ⟨q', r', serve', next', before', asks', told', now', fun h' run => ?_⟩
      rw [← List.append_assoc]
      exact (on h' run).step serve last asks told now

/-! ## Runs end -/

/-- One dialogue is what another one becomes with an answer. -/
inductive Follows {Q α : Type} {A : Q → Type} : Dialogue A α → Dialogue A α → Prop where
  | answered (q : Q) (next : A q → Dialogue A α) (a : A q) : Follows (next a) (.ask q next)

theorem wellFounded_follows : WellFounded (Follows (A := A) (α := α)) := by
  refine ⟨fun d => ?_⟩
  induction d with
  | done a => exact ⟨_, fun _ follows => nomatch follows⟩
  | ask q next ih =>
    refine ⟨_, fun d follows => ?_⟩
    cases follows with
    | answered _ _ a => exact ih a

theorem coe_exchange {β : Type} (l₁ l₂ : List β) (a b : β) :
    ((l₁ ++ b :: l₂ : List β) : Multiset β) + {a} = (l₁ ++ a :: l₂ : List β) + {b} := by
  have out (a b : β) : ((l₁ ++ b :: l₂ : List β) : Multiset β) + {a} =
      a ::ₘ b ::ₘ ((l₁ ++ l₂ : List β) : Multiset β) := by
    rw [add_comm, Multiset.singleton_add, Multiset.cons_coe, Multiset.cons_coe, Multiset.cons_coe]
    exact Multiset.coe_eq_coe.mpr (List.perm_middle.cons a)
  rw [out, out, Multiset.cons_swap]

/-- A list in which one element is replaced. -/
theorem exists_split {β : Type} {l : List β} {i : Nat} {b : β} (here : l[i]? = some b) (b' : β) :
    ∃ l₁ l₂, l = l₁ ++ b :: l₂ ∧ l.set i b' = l₁ ++ b' :: l₂ := by
  obtain ⟨hi, rfl⟩ := List.getElem?_eq_some_iff.mp here
  obtain ⟨l₁, l₂, split, -, set⟩ := List.exists_of_set hi
  exact ⟨l₁, l₂, split, set⟩

/-- A step replaces one computation by what follows it. -/
theorem cutExpand_of_advance {serve : (q : Q) → StateM σ (A q)} {i : Nat}
    (now : advance serve i p = some r) :
    Relation.CutExpand Follows (r.threads : Multiset (Work δ A α)) p.threads := by
  obtain ⟨q, next, ht, -, rfl⟩ := advance_eq_some.mp now
  obtain ⟨l₁, l₂, split, split'⟩ := exists_split ht (next (p.answerTo serve q))
  refine ⟨{next (p.answerTo serve q)}, .ask q next, ?_, ?_⟩
  · rintro d hd
    rw [Multiset.mem_singleton.mp hd]
    exact .answered q next _
  · rw [resume_threads, after_threads, split', split]
    exact coe_exchange ..

/-- **No run goes on forever**, in whatever order steps are taken and whatever calls answer. -/
theorem wellFounded_advance :
    WellFounded fun r p : Pool δ σ A α => ∃ serve i, advance serve i p = some r :=
  Subrelation.wf (fun ⟨_, _, now⟩ => cutExpand_of_advance now)
    (InvImage.wf (fun p : Pool δ σ A α => (p.threads : Multiset (Work δ A α)))
      wellFounded_follows.cutExpand)

/-- Every pool goes on to one in which nobody can do a step. -/
theorem exists_stuck (serve : (q : Q) → StateM σ (A q)) (p : Pool δ σ A α) :
    ∃ r, Steps serve p r ∧ ∀ i, advance serve i r = none := by
  induction p using wellFounded_advance.induction with
  | _ p ih =>
    by_cases stuck : ∀ i, advance serve i p = none
    · exact ⟨p, .refl p, stuck⟩
    · obtain ⟨i, hi⟩ := not_forall.mp stuck
      obtain ⟨q, now⟩ := Option.ne_none_iff_exists'.mp hi
      obtain ⟨r, on, stuck⟩ := ih q ⟨serve, i, now⟩
      exact ⟨r, .trans serve (.step i (.refl p) now) on, stuck⟩

/-- The results there are when all computations are over. -/
theorem results?_eq_some {rs : List α} : p.results? = some rs ↔ p.threads = rs.map .done := by
  unfold results?
  generalize p.threads = ds
  induction ds generalizing rs with
  | nil => cases rs <;> simp
  | cons d ds ih =>
    cases d with
    | ask q next => cases rs <;> simp
    | done a =>
      cases rs with
      | nil => simp [Option.bind_eq_some_iff]
      | cons b rs => simp [Option.bind_eq_some_iff, ih, and_left_comm]

theorem exists_results? : (∃ rs, p.results? = some rs) ↔ ∀ d ∈ p.threads, ∃ a, d = .done a := by
  have mem : p.threads ∈ Set.range (List.map Dialogue.done) ↔
      ∀ d ∈ p.threads, d ∈ Set.range Dialogue.done := by
    rw [Set.range_list_map, Set.mem_ofPred]
  simp only [results?_eq_some]
  simpa [eq_comm] using mem

end TierTagger.Sessions.Pool
