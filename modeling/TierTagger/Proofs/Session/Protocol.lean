import TierTagger.Proofs.Session.Pool

/-!
# Computations that respect the lock

What holds of every pool whose computations keep what is behind the lock to its owner. Such code is
given by its places (`Protocol`): where a computation can be, the code that is left there, and one
rule for each step.

- **Traces** (`Protocol.Traced`): histories in which the place of each computation is kept. Every
  history is one (`Recorded.traced`, `Steps.traced`).
- **The invariant** (`Protocol.Guarded`): the owner of the lock is the one computation at a place
  with the lock, and what it knows there of the installed session is true.
- **Progress** (`Traced.advance_or_over`, `Traced.can_end`): somebody can do a step unless all are
  over, and all can come to an end.
- `Traced.since`: induction on what follows an entry.
-/

namespace TierTagger.Sessions

variable {δ σ Q α P : Type} {A : Q → Type}

/-- The entries of computations. -/
abbrev Log (δ : Type) {Q : Type} (A : Q → Type) := List (Pool.Entry δ A)

/-- Code that respects the lock, by its places. -/
structure Protocol (δ : Type) {Q : Type} (A : Q → Type) (α P : Type) where
  /-- The code that is left. -/
  rest : P → Work δ A α
  /-- One step: a question, its answer and the place after it. -/
  Moves : P → (q : Question δ Q) → q.Answer A → P → Prop
  /-- At this place the computation has the lock. -/
  Holds : P → Prop
  /-- What a computation with the lock knows of the installed session. -/
  Sees : Option (Session δ) → P → Prop
  moves_of_rest : ∀ {place q next}, rest place = .ask q next → ∀ a,
    ∃ place', Moves place q a place' ∧ next a = rest place'
  sees_of_not_holds : ∀ {place}, ¬Holds place → ∀ o, Sees o place
  of_lock : ∀ {place place' o}, Moves place .lock o place' →
    ¬Holds place ∧ Holds place' ∧ Sees o place'
  of_unlock : ∀ {place place' o a}, Moves place (.unlock o) a place' → Holds place ∧ ¬Holds place'
  of_number : ∀ {place place' n}, Moves place .number n place' → Holds place
  of_done : ∀ {place a}, rest place = .done a → ¬Holds place
  /-- All other steps leave the lock and the session as they are. -/
  of_other : ∀ {place q a place'}, Moves place q a place' → q ≠ .lock → (∀ o, q ≠ .unlock o) →
    (Holds place' ↔ Holds place) ∧ ∀ o, Sees o place → Sees o place'

namespace Protocol

/-! ## Traces -/

/-- Histories of computations that began at `places₀`, without the lock, with the places they have
reached. Calls are answered in one of the ways in `served`. -/
inductive Traced (C : Protocol δ A α P) (served : ((q : Q) → StateM σ (A q)) → Prop)
    (sessions : Sessions δ) (world : σ) (places₀ : List P) :
    Log δ A → Pool δ σ A α → List P → Prop where
  | start (outside : ∀ place ∈ places₀, ¬C.Holds place) :
    Traced C served sessions world places₀ []
      (.start sessions world (places₀.map C.rest)) places₀
  | step {h p places} (before : Traced C served sessions world places₀ h p places) {serve}
    (allowed : served serve) {i q place place'} (here : places[i]? = some place)
    (free : q = .lock → p.owner = none) (moves : C.Moves place q (p.answerTo serve q) place') :
    Traced C served sessions world places₀ (h ++ [⟨i, q, p.answerTo serve q⟩])
      ((p.after serve i q).resume i (C.rest place')) (places.set i place')

variable {C : Protocol δ A α P} {served : ((q : Q) → StateM σ (A q)) → Prop}
variable {sessions : Sessions δ} {world : σ} {places₀ places : List P} {place place' : P}
variable {h k : Log δ A} {p r : Pool δ σ A α} {i : Nat} {q : Question δ Q} {a : q.Answer A}

theorem Traced.threads (trace : Traced C served sessions world places₀ h p places) :
    p.threads = places.map C.rest := by
  induction trace with
  | start _ => rfl
  | step _ _ _ _ _ ih => rw [Pool.resume_threads, Pool.after_threads, ih, List.map_set]

theorem Traced.at_thread (trace : Traced C served sessions world places₀ h p places)
    {d : Work δ A α} (at_i : p.threads[i]? = some d) :
    ∃ place, places[i]? = some place ∧ C.rest place = d := by
  simpa [trace.threads] using at_i

/-- A step of the pool is a move of one computation. -/
theorem Traced.advance (trace : Traced C served sessions world places₀ h p places)
    {serve : (q : Q) → StateM σ (A q)} (allowed : served serve) {next : q.Answer A → Work δ A α}
    (asks : p.threads[i]? = some (.ask q next)) (now : p.advance serve i = some r) :
    ∃ places',
      Traced C served sessions world places₀ (h ++ [⟨i, q, p.answerTo serve q⟩]) r places' := by
  obtain ⟨free, rfl⟩ := (Pool.advance_ask asks).mp now
  obtain ⟨place, here, rest⟩ := trace.at_thread asks
  obtain ⟨place', moves, rest'⟩ := C.moves_of_rest rest (p.answerTo serve q)
  rw [rest']
  exact ⟨_, trace.step allowed here free moves⟩

theorem Traced.steps (trace : Traced C served sessions world places₀ h p places)
    {serve : (q : Q) → StateM σ (A q)} (allowed : served serve) (more : Pool.Steps serve p r) :
    ∃ h places, Traced C served sessions world places₀ h r places := by
  induction more with
  | refl => exact ⟨h, places, trace⟩
  | step i _ now ih =>
    obtain ⟨h, places, trace⟩ := ih
    obtain ⟨q, next, asks, -, -⟩ := Pool.advance_eq_some.mp now
    exact ⟨_, trace.advance allowed asks now⟩

/-! ## What follows an entry -/

/-- Induction on what follows an entry: it holds after the entry, and each later step keeps it. -/
theorem Traced.since {e : Pool.Entry δ A} {motive : Log δ A → Pool δ σ A α → List P → Prop}
    (now : ∀ {p places} (serve) {place place'}, Traced C served sessions world places₀ h p places →
      places[e.thread]? = some place → (e.question = .lock → p.owner = none) →
      C.Moves place e.question e.answer place' →
      motive [] ((p.after serve e.thread e.question).resume e.thread (C.rest place'))
        (places.set e.thread place'))
    (later : ∀ {k p places} (serve) {i q place place'},
      Traced C served sessions world places₀ (h ++ e :: k) p places → places[i]? = some place →
      (q = .lock → p.owner = none) → C.Moves place q (p.answerTo serve q) place' →
      motive k p places → motive (k ++ [⟨i, q, p.answerTo serve q⟩])
        ((p.after serve i q).resume i (C.rest place')) (places.set i place'))
    (trace : Traced C served sessions world places₀ (h ++ e :: k) p places) : motive k p places := by
  generalize same : h ++ e :: k = all at trace
  induction trace generalizing k with
  | start _ => cases h <;> cases same
  | @step all p places before serve allowed i q place place' here free moves ih =>
    rcases k.eq_nil_or_concat' with rfl | ⟨k, last, rfl⟩
    · obtain ⟨rfl, lasts⟩ := List.append_inj' same rfl
      obtain rfl := List.singleton_inj.mp lasts
      exact now serve before here free moves
    · rw [← List.cons_append, ← List.append_assoc] at same
      obtain ⟨rfl, lasts⟩ := List.append_inj' same rfl
      obtain rfl := List.singleton_inj.mp lasts
      exact later serve before here free moves (ih rfl)

/-- What happened at an entry. -/
theorem Traced.at_entry {e : Pool.Entry δ A}
    (trace : Traced C served sessions world places₀ (h ++ e :: k) p places) :
    ∃ p' places' place place', Traced C served sessions world places₀ h p' places' ∧
      places'[e.thread]? = some place ∧ (e.question = .lock → p'.owner = none) ∧
      C.Moves place e.question e.answer place' := by
  refine Traced.since (motive := fun _ _ _ => _) ?_ ?_ trace
  · exact fun _ _ _ before here free moves => ⟨_, _, _, _, before, here, free, moves⟩
  · exact fun _ _ _ _ _ _ _ _ _ ih => ih

/-! ## The invariant -/

/-- The place of the computation that has the lock. -/
def inside (owner : Option Nat) (places : List P) : Option P := owner.bind (places[·]?)

/-- The lock is owned where it is held, and who holds it knows what is installed. -/
structure Guarded (C : Protocol δ A α P) (p : Pool δ σ A α) (places : List P) : Prop where
  owner : ∀ i, p.owner = some i ↔ ∃ place, places[i]? = some place ∧ C.Holds place
  sees : ∀ (i : Nat) place, places[i]? = some place → C.Sees p.sessions.installed place

theorem Guarded.holds (g : Guarded C p places) (here : places[i]? = some place)
    (holds : C.Holds place) : p.owner = some i :=
  (g.owner i).mpr ⟨place, here, holds⟩

theorem Guarded.owner_ne (g : Guarded C p places) (here : places[i]? = some place)
    (out : ¬C.Holds place) : p.owner ≠ some i := by
  intro owner
  obtain ⟨other, there, holds⟩ := (g.owner i).mp owner
  rw [here] at there
  cases there
  exact out holds

/-- Two computations with the lock are one. -/
theorem Guarded.unique {j : Nat} (g : Guarded C p places) (here : places[i]? = some place)
    (there : places[j]? = some place') (holds : C.Holds place) (holds' : C.Holds place') : i = j :=
  Option.some.inj ((g.holds here holds).symm.trans (g.holds there holds'))

theorem getElem?_set_place {j : Nat} (here : places[i]? = some place) :
    (places.set i place')[j]? = if i = j then some place' else places[j]? := by
  have hi : i < places.length := (List.getElem?_eq_some_iff.mp here).1
  rw [List.getElem?_set]
  split <;> simp_all

theorem Guarded.start (outside : ∀ place ∈ places, ¬C.Holds place) :
    Guarded C (.start sessions world (places.map C.rest)) places := by
  refine ⟨fun i => ⟨nofun, fun ⟨place, here, holds⟩ => ?_⟩, fun i place here => ?_⟩
  · exact absurd holds (outside place (List.mem_of_getElem? here))
  · exact C.sees_of_not_holds (outside place (List.mem_of_getElem? here)) _

/-- A move that keeps the owner, and after which who has the lock still knows what is installed. -/
theorem Guarded.keep (g : Guarded C p places) (here : places[i]? = some place)
    (owner : r.owner = p.owner) (holds : C.Holds place' ↔ C.Holds place)
    (installed : r.sessions.installed = p.sessions.installed)
    (sees : C.Sees p.sessions.installed place') : Guarded C r (places.set i place') := by
  refine ⟨fun j => ?_, fun j other there => ?_⟩
  · rw [owner, g.owner j, getElem?_set_place here]
    by_cases same : i = j
    · subst same
      simp [here, holds]
    · simp [same]
  · rw [getElem?_set_place here] at there
    rw [installed]
    split at there
    · cases there; exact sees
    · exact g.sees j other there

/-- What a step does to the invariant. -/
theorem Guarded.step (g : Guarded C p places) (serve) (here : places[i]? = some place)
    (free : q = .lock → p.owner = none) (moves : C.Moves place q (p.answerTo serve q) place') :
    Guarded C ((p.after serve i q).resume i (C.rest place')) (places.set i place') := by
  cases q with
  | lock =>
    obtain ⟨-, holds, sees⟩ := C.of_lock moves
    have nobody (j : Nat) (other : P) (there : places[j]? = some other) : ¬C.Holds other :=
      fun holds' => by simpa [free rfl] using g.holds there holds'
    refine ⟨fun j => ?_, fun j other there => ?_⟩
    · show some i = some j ↔ _
      rw [getElem?_set_place here]
      by_cases same : i = j
      · simp [same, holds]
      · simpa [same] using nobody j
    · rw [getElem?_set_place here] at there
      split at there
      · cases there; exact sees
      · exact g.sees j other there
  | unlock o =>
    obtain ⟨holds, released⟩ := C.of_unlock moves
    -- Whoever else has a place is without the lock there, so that a new session is no news to it.
    have nobody (j : Nat) (other : P) (ne : i ≠ j) (there : places[j]? = some other) :
        ¬C.Holds other :=
      fun holds' => ne (g.unique here there holds holds')
    refine ⟨fun j => ?_, fun j other there => ?_⟩
    · show none = some j ↔ _
      rw [getElem?_set_place here]
      by_cases same : i = j
      · simp [same, released]
      · simpa [same] using fun other => nobody j other same
    · rw [getElem?_set_place here] at there
      split at there
      · cases there; exact C.sees_of_not_holds released _
      · next ne => exact C.sees_of_not_holds (nobody j other ne there) _
  | number | beginShutdown | call c =>
    obtain ⟨holds, sees⟩ := C.of_other moves nofun nofun
    exact g.keep here rfl holds rfl (sees _ (g.sees i place here))

/-- **The invariant of all traces.** -/
theorem Traced.guarded (trace : Traced C served sessions world places₀ h p places) :
    Guarded C p places := by
  induction trace with
  | start outside => exact .start outside
  | step _ _ here free moves ih => exact ih.step _ here free moves

/-- Somebody else does not come behind the lock. -/
theorem Guarded.not_inside {j : Nat} (g : Guarded C p places) (owner : p.owner = some i) (ne : j ≠ i)
    (here : places[j]? = some place) (free : q = .lock → p.owner = none)
    (moves : C.Moves place q a place') : ¬Pool.Entry.Inside ⟨j, q, a⟩ := by
  have out : ¬C.Holds place := fun holds =>
    ne (Option.some.inj ((g.holds here holds).symm.trans owner))
  cases q with
  | lock => simp [free rfl] at owner
  | unlock o => exact fun _ => out (C.of_unlock moves).1
  | number => exact fun _ => out (C.of_number moves)
  | beginShutdown => exact id
  | call c => exact id

theorem Guarded.inside_eq (g : Guarded C p places) (here : places[i]? = some place)
    (holds : C.Holds place) : inside p.owner places = some place := by
  simp [inside, g.holds here holds, here]

/-- The computation with the lock goes on and keeps it. -/
theorem Guarded.inside_set (g : Guarded C p places) (here : places[i]? = some place)
    (holds : C.Holds place) : inside p.owner (places.set i place') = some place' := by
  simp [inside, g.holds here holds, getElem?_set_place here]

/-- A computation without the lock goes on. -/
theorem Guarded.inside_set_ne (g : Guarded C p places) (here : places[i]? = some place)
    (out : ¬C.Holds place) : inside p.owner (places.set i place') = inside p.owner places := by
  unfold inside
  cases owner : p.owner with
  | none => rfl
  | some j =>
    have ne : i ≠ j := fun same => g.owner_ne here out (same ▸ owner)
    simp [getElem?_set_place here, ne]

/-! ## Progress -/

/-- Somebody can do a step, whatever calls answer, unless all are over. -/
theorem Traced.advance_or_over (trace : Traced C served sessions world places₀ h p places)
    (serve : (q : Q) → StateM σ (A q)) :
    (∃ i, p.advance serve i ≠ none) ∨ ∃ rs, p.results? = some rs := by
  have guarded := trace.guarded
  have go {i : Nat} {q next} (at_i : p.threads[i]? = some (.ask q next))
      (free : q = .lock → p.owner = none) : p.advance serve i ≠ none := by
    rw [(Pool.advance_ask at_i).mpr ⟨free, rfl⟩]
    exact Option.some_ne_none _
  cases owner : p.owner with
  | some i =>
    obtain ⟨place, here, holds⟩ := (guarded.owner i).mp owner
    cases rest : C.rest place with
    | done a => exact absurd holds (C.of_done rest)
    | ask q next =>
      refine .inl ⟨i, go (by rw [trace.threads, List.getElem?_map, here, ← rest]; rfl) ?_⟩
      rintro rfl
      obtain ⟨place', moves, -⟩ := C.moves_of_rest rest none
      exact absurd holds (C.of_lock moves).1
  | none =>
    by_cases all : ∀ d ∈ p.threads, ∃ a, d = .done a
    · exact .inr (Pool.exists_results?.mpr all)
    · obtain ⟨d, mem, busy⟩ : ∃ d ∈ p.threads, ¬∃ a, d = .done a := by simpa using all
      obtain ⟨i, at_i⟩ := List.mem_iff_getElem?.mp mem
      cases d with
      | done a => exact absurd ⟨a, rfl⟩ busy
      | ask q next => exact .inl ⟨i, go at_i fun _ => owner⟩

/-- All can come to an end. -/
theorem Traced.can_end (trace : Traced C served sessions world places₀ h p places)
    {serve : (q : Q) → StateM σ (A q)} (allowed : served serve) :
    ∃ r rs, Pool.Steps serve p r ∧ r.results? = some rs := by
  obtain ⟨r, more, stuck⟩ := p.exists_stuck serve
  obtain ⟨h, places, trace⟩ := trace.steps allowed more
  rcases trace.advance_or_over serve with ⟨i, can⟩ | ⟨rs, ended⟩
  · exact absurd (stuck i) can
  · exact ⟨r, rs, more, ended⟩

end Protocol

open Protocol (Traced)

variable {C : Protocol δ A α P} {sessions : Sessions δ} {world : σ} {places₀ : List P}
variable {h : Log δ A} {p : Pool δ σ A α} (outside : ∀ place ∈ places₀, ¬C.Holds place)
include outside

/-- Every history has its places. -/
theorem Pool.Recorded.traced (run : Recorded (.start sessions world (places₀.map C.rest)) h p) :
    ∃ places, Traced C (fun _ => True) sessions world places₀ h p places := by
  induction run with
  | start => exact ⟨_, .start outside⟩
  | @step h p r _ serve e next asks told now ih =>
    obtain ⟨i, q, a⟩ := e
    obtain rfl : a = p.answerTo serve q := told
    obtain ⟨places, trace⟩ := ih
    exact trace.advance trivial asks now

theorem Pool.Steps.traced {serve : (q : Q) → StateM σ (A q)}
    (run : Steps serve (.start sessions world (places₀.map C.rest)) p) :
    ∃ h places, Traced C (· = serve) sessions world places₀ h p places :=
  Traced.steps (.start outside) rfl run

end TierTagger.Sessions
