import TierTagger.Proofs.Session.Alone
import TierTagger.Proofs.Session.Protocol

/-!
# Requests to the shared session

Any number of requests that run beside each other on a process without a session, with any answers
to the calls.

- **Requests** (`Request`): to ensure a session, to see the current one, to shut down.
- **Places** (`Place`): where a request is in its code, and what it knows there. `Moves` has one
  rule for each step; `Place.rest` is the code that is left.
- **The lock** (`Place.protocol`): requests respect it, so that all of `Protocol` holds of their
  traces (`Request.Trace`).
- `Traced.connecting_unique`: one connection at a time, and only while no session is installed.
-/

namespace TierTagger.Sessions

open Directory (Error)
open Protocol (Traced)

variable {δ σ : Type}

/-! ## Requests -/

/-- A request to the shared session. -/
inductive Request where
  | ensure (parameters : Connection)
  | current
  | shutdown
  deriving DecidableEq, Repr

/-- What a request is answered. -/
inductive Response (δ : Type) where
  | ensured (result : Except Error (Session δ))
  | current (session : Option (Session δ))
  | shutdown (first : Bool)

/-- The code of a request. -/
def Request.job : Request → Job δ (Response δ)
  | ensure p => do return .ensured (← Sessions.ensure p)
  | current => do return .current (← Sessions.current)
  | shutdown => do return .shutdown (← Sessions.shutdown)

/-- The requests of a process before the first step. -/
def Request.pool (requests : List Request) (world : σ) :
    Pool δ σ (Call.Answer (δ := δ)) (Response δ) :=
  .start .initial world (requests.map job)

/-! ## Places -/

/-- Where a request is in its code. -/
inductive Place (δ : Type) where
  /-- To ensure a session, before the lock. -/
  | waiting (parameters : Connection)
  | found (session : Session δ)
  /-- A connection is being made. -/
  | connecting (parameters : Connection)
  | refused (reason : Error)
  | accepted (directory : δ)
  | numbered (session : Session δ)
  /-- To see the current session, before the lock. -/
  | looking
  | seen (session : Option (Session δ))
  /-- To shut down, before the flag. -/
  | stopping
  /-- To shut down, before the lock. -/
  | taking
  | taken (session : Option (Session δ))
  | leaving (session : Session δ)
  | ended (response : Response δ)

/-- Where a request begins. -/
def Request.place : Request → Place δ
  | ensure p => .waiting p
  | current => .looking
  | shutdown => .stopping

/-- One step of a request: a question, its answer and the place after it. -/
inductive Moves : Place δ → (q : Question δ (Call δ)) → q.Answer Call.Answer → Place δ → Prop where
  | find (p s) : Moves (.waiting p) .lock (some s) (.found s)
  | miss (p) : Moves (.waiting p) .lock none (.connecting p)
  | reuse (s) : Moves (.found s) (.unlock (some s)) () (.ended (.ensured (.ok s)))
  | refuse (p e) : Moves (.connecting p) (.call (.connect p)) (.error e) (.refused e)
  | accept (p d) : Moves (.connecting p) (.call (.connect p)) (.ok d) (.accepted d)
  | giveUp (e) : Moves (.refused e) (.unlock none) () (.ended (.ensured (.error e)))
  | number (d n) : Moves (.accepted d) .number n (.numbered ⟨n, d⟩)
  | install (s) : Moves (.numbered s) (.unlock (some s)) () (.ended (.ensured (.ok s)))
  | look (o) : Moves .looking .lock o (.seen o)
  | putBack (o) : Moves (.seen o) (.unlock o) () (.ended (.current o))
  | begin : Moves .stopping .beginShutdown true .taking
  | late : Moves .stopping .beginShutdown false (.ended (.shutdown false))
  | take (o) : Moves .taking .lock o (.taken o)
  | empty : Moves (.taken none) (.unlock none) () (.ended (.shutdown true))
  | leave (s) : Moves (.taken (some s)) (.unlock none) () (.leaving s)
  | logout (s r) : Moves (.leaving s) (.call (.logout s.directory)) r (.ended (.shutdown true))

/-- The code that is left. -/
def Place.rest : Place δ → Job δ (Response δ)
  | waiting p => .ask .lock fun
    | some s => .ask (.unlock (some s)) fun _ => .done (.ensured (.ok s))
    | none => .ask (.call (.connect p)) fun
      | .error e => .ask (.unlock none) fun _ => .done (.ensured (.error e))
      | .ok d => .ask .number fun n =>
        .ask (.unlock (some ⟨n, d⟩)) fun _ => .done (.ensured (.ok ⟨n, d⟩))
  | found s => .ask (.unlock (some s)) fun _ => .done (.ensured (.ok s))
  | connecting p => .ask (.call (.connect p)) fun
    | .error e => .ask (.unlock none) fun _ => .done (.ensured (.error e))
    | .ok d => .ask .number fun n =>
      .ask (.unlock (some ⟨n, d⟩)) fun _ => .done (.ensured (.ok ⟨n, d⟩))
  | refused e => .ask (.unlock none) fun _ => .done (.ensured (.error e))
  | accepted d => .ask .number fun n =>
    .ask (.unlock (some ⟨n, d⟩)) fun _ => .done (.ensured (.ok ⟨n, d⟩))
  | numbered s => .ask (.unlock (some s)) fun _ => .done (.ensured (.ok s))
  | looking => .ask .lock fun o => .ask (.unlock o) fun _ => .done (.current o)
  | seen o => .ask (.unlock o) fun _ => .done (.current o)
  | stopping => .ask .beginShutdown fun
    | false => .done (.shutdown false)
    | true => .ask .lock fun o => .ask (.unlock none) fun _ =>
      match o with
      | none => .done (.shutdown true)
      | some s => .ask (.call (.logout s.directory)) fun _ => .done (.shutdown true)
  | taking => .ask .lock fun o => .ask (.unlock none) fun _ =>
    match o with
    | none => .done (.shutdown true)
    | some s => .ask (.call (.logout s.directory)) fun _ => .done (.shutdown true)
  | taken o => .ask (.unlock none) fun _ =>
    match o with
    | none => .done (.shutdown true)
    | some s => .ask (.call (.logout s.directory)) fun _ => .done (.shutdown true)
  | leaving s => .ask (.call (.logout s.directory)) fun _ => .done (.shutdown true)
  | ended r => .done r

theorem Request.job_eq (r : Request) : r.job (δ := δ) = r.place.rest := by
  cases r with
  | ensure p =>
    show (Sessions.ensure p >>= fun r => .done (Response.ensured r)) = Place.rest (.waiting p)
    rw [ensure_eq]
    refine Dialogue.ask_congr Question.lock fun found => ?_
    cases found with
    | some s => rfl
    | none =>
      refine Dialogue.ask_congr (Question.call (Call.connect p)) fun r => ?_
      cases r <;> rfl
  | current => rfl
  | shutdown =>
    refine Dialogue.ask_congr Question.beginShutdown fun first => ?_
    cases first with
    | false => rfl
    | true =>
      refine Dialogue.ask_congr Question.lock fun found => ?_
      refine Dialogue.ask_congr (Question.unlock none) fun _ => ?_
      cases found <;> rfl

/-- Each step of the code that is left is a move, and its rest is what is left then. -/
theorem Place.moves_of_rest {place : Place δ} {q : Question δ (Call δ)}
    {next : q.Answer Call.Answer → Job δ (Response δ)} (h : place.rest = .ask q next)
    (a : q.Answer Call.Answer) : ∃ place', Moves place q a place' ∧ next a = place'.rest := by
  cases place with
  | waiting p =>
    cases h
    cases a with
    | none => exact ⟨_, .miss p, rfl⟩
    | some s => exact ⟨_, .find p s, rfl⟩
  | found s => cases h; exact ⟨_, .reuse s, rfl⟩
  | connecting p =>
    cases h
    cases a with
    | error e => exact ⟨_, .refuse p e, rfl⟩
    | ok d => exact ⟨_, .accept p d, rfl⟩
  | refused e => cases h; exact ⟨_, .giveUp e, rfl⟩
  | accepted d => cases h; exact ⟨_, .number d a, rfl⟩
  | numbered s => cases h; exact ⟨_, .install s, rfl⟩
  | looking => cases h; exact ⟨_, .look a, rfl⟩
  | seen o => cases h; exact ⟨_, .putBack o, rfl⟩
  | stopping =>
    cases h
    cases a with
    | false => exact ⟨_, .late, rfl⟩
    | true => exact ⟨_, .begin, rfl⟩
  | taking =>
    cases h
    exact ⟨_, .take a, rfl⟩
  | taken o =>
    cases h
    cases o with
    | none => exact ⟨_, .empty, rfl⟩
    | some s => exact ⟨_, .leave s, rfl⟩
  | leaving s => cases h; exact ⟨_, .logout s a, rfl⟩
  | ended r => cases h

/-! ## The lock -/

/-- At this place a request has the lock. -/
def Place.Holds : Place δ → Prop
  | found _ | connecting _ | refused _ | accepted _ | numbered _ | seen _ | taken _ => True
  | waiting _ | looking | stopping | taking | leaving _ | ended _ => False

/-- What a request with the lock knows of the installed session. -/
def Place.Sees (installed : Option (Session δ)) : Place δ → Prop
  | found s => installed = some s
  | connecting _ | refused _ | accepted _ | numbered _ => installed = none
  | seen o | taken o => installed = o
  | waiting _ | looking | stopping | taking | leaving _ | ended _ => True

/-- Requests respect the lock. -/
def Place.protocol : Protocol δ (Call.Answer (δ := δ)) (Response δ) (Place δ) where
  rest := rest
  Moves := Moves
  Holds := Holds
  Sees := Sees
  moves_of_rest := moves_of_rest
  sees_of_not_holds {place} out _ := by cases place <;> simp_all [Holds, Sees]
  of_lock m := by cases m <;> simp [Holds, Sees]
  of_unlock m := by cases m <;> simp [Holds]
  of_number m := by cases m; simp [Holds]
  of_done {place a} h := by cases place <;> simp_all [Holds, rest]
  of_other m lock unlock := by cases m <;> simp_all [Holds, Sees]

/-! ## Traces -/

/-- The traces of requests, with any answers. -/
abbrev Request.Trace (requests : List Request) (world : σ) :=
  Traced Place.protocol (fun _ => True) .initial world (requests.map (Request.place (δ := δ)))

variable {requests : List Request} {world : σ} {h : Log δ (Call.Answer (δ := δ))}
variable {p : Pool δ σ (Call.Answer (δ := δ)) (Response δ)} {places : List (Place δ)} {i : Nat}

/-- Every history of requests has its places. -/
theorem Request.exists_trace (run : Pool.Recorded (pool requests world) h p) :
    ∃ places, Trace requests world h p places := by
  refine Pool.Recorded.traced ?_ ?_
  · intro place mem
    obtain ⟨r, -, rfl⟩ := List.mem_map.mp mem
    cases r <;> exact id
  · have same : requests.map job = (requests.map place).map (Place.rest (δ := δ)) := by
      rw [List.map_map]
      exact List.map_congr_left fun r _ => r.job_eq
    rw [pool, same] at run
    exact run

/-- A connection is being made for a request. -/
def Connecting (p : Pool δ σ (Call.Answer (δ := δ)) (Response δ)) (i : Nat) : Prop :=
  ∃ c next, p.threads[i]? = some (.ask (.call (.connect c)) next)

namespace Protocol.Traced

theorem place_of_connecting (trace : Request.Trace requests world h p places)
    (connecting : Connecting p i) : ∃ c, places[i]? = some (.connecting c) := by
  obtain ⟨c, next, at_i⟩ := connecting
  obtain ⟨place, here, rest⟩ := trace.at_thread at_i
  cases place <;> cases rest
  exact ⟨_, here⟩

/-- One connection is made at a time, and only while no session is installed. -/
theorem connecting_unique (trace : Request.Trace requests world h p places)
    (connecting : Connecting p i) :
    p.sessions.installed = none ∧ ∀ j, Connecting p j → j = i := by
  obtain ⟨c, here⟩ := trace.place_of_connecting connecting
  refine ⟨trace.guarded.sees i _ here, fun j connecting' => ?_⟩
  obtain ⟨c', there⟩ := trace.place_of_connecting connecting'
  exact trace.guarded.unique there here trivial trivial

/-- A request that is over is at its last place. -/
theorem place_of_done (trace : Request.Trace requests world h p places) {r : Response δ}
    (done : p.threads[i]? = some (.done r)) : places[i]? = some (.ended r) := by
  obtain ⟨place, here, rest⟩ := trace.at_thread done
  cases place <;> cases rest
  exact here

end Protocol.Traced
end TierTagger.Sessions
