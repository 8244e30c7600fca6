import TierTagger.Proofs.Session.Ledger

/-!
# One session for all

What requests that run beside each other can rely on, in every interleaving and with any answers.

- **A connection that fails** (`Traced.failing_of_connect`): until its request gives the lock up, as it
  was, nobody else is behind the lock, and the request is over with the error.
- **A session that is left behind the lock** (`Traced.installed_of_unlock`): it stays until a shutdown
  takes it.
- **A result** (`Traced.recalls`): a session was found or installed, an error was answered.
- **Without shutdown** (`Traced.answers_of_no_shutdown`): connections fail until one succeeds, and that
  is all.
- `recorded_orderly`: all of this for any history, and every history goes on until all requests are
  over.
-/

namespace TierTagger.Sessions

open Directory (Error)
open Protocol (Traced getElem?_set_place inside)

variable {δ σ : Type}

/-! ## Requests and their places -/

/-- A request can be at a place. -/
def Place.BelongsTo (r : Request) : Place δ → Prop
  | waiting p | connecting p => r = .ensure p
  | found _ | refused _ | accepted _ | numbered _ | ended (.ensured _) => ∃ p, r = .ensure p
  | looking | seen _ | ended (.current _) => r = .current
  | stopping | taking | taken _ | leaving _ | ended (.shutdown _) => r = .shutdown

theorem Request.place_belongsTo (r : Request) : (r.place : Place δ).BelongsTo r := by
  cases r <;> simp [Request.place, Place.BelongsTo]

variable {requests : List Request} {world : σ} {h k : Log δ (Call.Answer (δ := δ))}
variable {p : Pool δ σ (Call.Answer (δ := δ)) (Response δ)} {places : List (Place δ)}
variable {place place' : Place δ} {q : Question δ (Call δ)} {a : q.Answer Call.Answer} {i : Nat}

theorem Moves.belongsTo (m : Moves place q a place') {r : Request} (at_r : place.BelongsTo r) :
    place'.BelongsTo r := by
  cases m <;> simp_all [Place.BelongsTo]

theorem Protocol.Traced.belongsTo (trace : Request.Trace requests world h p places)
    (here : places[i]? = some place) :
    ∃ r, requests[i]? = some r ∧ place.BelongsTo r := by
  induction trace generalizing i place with
  | start _ =>
    rw [List.getElem?_map, Option.map_eq_some_iff] at here
    obtain ⟨r, at_i, rfl⟩ := here
    exact ⟨r, at_i, r.place_belongsTo⟩
  | step _ _ there _ moves ih =>
    rw [getElem?_set_place there] at here
    split at here
    · next same =>
      cases here
      subst same
      obtain ⟨r, at_i, before⟩ := ih there
      exact ⟨r, at_i, moves.belongsTo before⟩
    · exact ih here

/-! ## A connection that fails -/

/-- What can follow a connection of request `i` that failed with `e`: entries of others, which leave
the lock alone until the request gives it up. -/
inductive Failing (i : Nat) (e : Error) : Log δ (Call.Answer (δ := δ)) → Place δ → Prop where
  | refused {xs} (others : ∀ x ∈ xs, x.thread ≠ i ∧ ¬x.Inside) : Failing i e xs (.refused e)
  | ended {xs ys} (others : ∀ x ∈ xs, x.thread ≠ i ∧ ¬x.Inside) (rest : ∀ x ∈ ys, x.thread ≠ i) :
    Failing i e (xs ++ ⟨i, .unlock none, ()⟩ :: ys) (.ended (.ensured (.error e)))

theorem Protocol.Traced.failing_of_connect {c : Connection} {e : Error}
    (trace : Request.Trace requests world (h ++ ⟨i, .call (.connect c), .error e⟩ :: k) p places) :
    ∃ place, places[i]? = some place ∧ Failing i e k place := by
  refine Traced.since (motive := fun k _ places => ∃ place, places[i]? = some place ∧
    Failing i e k place) ?_ ?_ trace
  · intro p places serve place place' before here _ moves
    cases moves
    exact ⟨_, by simp [getElem?_set_place here], .refused (by simp)⟩
  · intro k p places serve j q place place' before here free moves ⟨mine, at_i, failing⟩
    by_cases same : i = j
    · subst same
      obtain rfl : mine = place := by simpa [at_i] using here
      cases failing with
      | refused others =>
        generalize p.answerTo serve q = a at moves
        cases moves
        exact ⟨_, by simp [getElem?_set_place here], .ended others (by simp)⟩
      | ended others rest => cases moves
    · refine ⟨mine, by simpa [getElem?_set_place here, Ne.symm same] using at_i, ?_⟩
      cases failing with
      | refused others =>
        have owner := before.guarded.holds at_i trivial
        have out := before.guarded.not_inside owner (Ne.symm same) here free moves
        refine .refused fun x mem => ?_
        rcases List.mem_append.mp mem with mem | mem
        · exact others x mem
        · rw [List.mem_singleton.mp mem]
          exact ⟨Ne.symm same, out⟩
      | ended others rest =>
        rw [List.append_assoc, List.cons_append]
        refine .ended others fun x mem => ?_
        rcases List.mem_append.mp mem with mem | mem
        · exact rest x mem
        · rw [List.mem_singleton.mp mem]
          exact Ne.symm same

/-! ## A session that is left behind the lock -/

/-- A shutdown finds a session, which it takes away. -/
def Pool.Entry.Takes (requests : List Request) (e : Pool.Entry δ (Call.Answer (δ := δ))) : Prop :=
  requests[e.thread]? = some .shutdown ∧ ∃ s, e = ⟨e.thread, .lock, some s⟩

/-- A session that was left behind the lock stays there until a shutdown finds it. -/
theorem Protocol.Traced.installed_of_unlock {s : Session δ}
    (trace : Request.Trace requests world (h ++ ⟨i, .unlock (some s), ()⟩ :: k) p places)
    (untaken : ∀ x ∈ k, ¬x.Takes requests) : p.sessions.installed = some s := by
  have both : (∀ x ∈ k, ¬x.Takes requests) → p.sessions.installed = some s ∧
      ∀ (j : Nat) o, places[j]? ≠ some (.taken o) := by
    refine Traced.since (motive := fun k p places => (∀ x ∈ k, ¬x.Takes requests) →
      p.sessions.installed = some s ∧ ∀ (j : Nat) o, places[j]? ≠ some (.taken o)) ?_ ?_ trace
    · intro p places serve place place' before here _ moves _
      refine ⟨rfl, fun j o there => ?_⟩
      rw [getElem?_set_place here] at there
      split at there
      · cases there; cases moves
      · next ne => exact ne (before.guarded.unique here there (Place.protocol.of_unlock moves).1 trivial)
    · intro k p places serve j q place place' before here free moves ih untaken
      obtain ⟨installed, nobody⟩ := ih fun x mem => untaken x (List.mem_append_left _ mem)
      have sees : place.Sees _ := before.guarded.sees j place here
      rw [installed] at sees
      -- Only the move of a shutdown into the lock would change this, and it would take the session.
      have goes (keeps : (p.after serve j q).sessions.installed = some s)
          (place_ne : ∀ o, place' ≠ .taken o) : (p.after serve j q).sessions.installed = some s ∧
            ∀ (j' : Nat) o, (places.set j place')[j']? ≠ some (.taken o) := by
        refine ⟨keeps, fun j' o there => ?_⟩
        rw [getElem?_set_place here] at there
        split at there
        · exact place_ne o (Option.some.inj there)
        · exact nobody j' o there
      generalize told : p.answerTo serve q = a at moves untaken
      cases moves with
      | take o =>
        obtain ⟨r, at_j, rfl⟩ := before.belongsTo here
        obtain rfl : p.sessions.installed = o := told
        exact absurd ⟨at_j, s, by rw [installed]⟩ (untaken _ List.mem_concat_self)
      | giveUp e | install s' => simp [Place.Sees] at sees
      | reuse s' | putBack o => exact goes sees.symm nofun
      | empty | leave s' => exact absurd here (nobody j _)
      | _ => exact goes installed nofun
  exact (both untaken).1

/-- Two sessions that were left behind the lock are the same, unless a shutdown found one since. -/
theorem Protocol.Traced.unlock_unique {s s' : Session δ} {j : Nat} {k' : Log δ (Call.Answer (δ := δ))}
    (trace : Request.Trace requests world
      (h ++ ⟨i, .unlock (some s), ()⟩ :: (k ++ ⟨j, .unlock (some s'), ()⟩ :: k')) p places)
    (untaken : ∀ x ∈ k, ¬x.Takes requests) : s' = s := by
  rw [← List.cons_append, ← List.append_assoc] at trace
  obtain ⟨p, places, place, place', before, here, -, moves⟩ := trace.at_entry
  have sees : place.Sees _ := before.guarded.sees j place here
  rw [before.installed_of_unlock untaken] at sees
  cases moves with
  | reuse | putBack => simpa [Place.Sees, eq_comm] using sees
  | install => simp [Place.Sees] at sees

/-! ## What a request remembers -/

/-- What a request knows of the history `h`. -/
def Place.Recalls (h : Log δ (Call.Answer (δ := δ))) (i : Nat) : Place δ → Prop
  | refused e | ended (.ensured (.error e)) =>
    ∃ c, (⟨i, .call (.connect c), .error e⟩ : Pool.Entry δ Call.Answer) ∈ h
  | accepted d => ∃ c, (⟨i, .call (.connect c), .ok d⟩ : Pool.Entry δ Call.Answer) ∈ h
  | numbered s => ∃ c, (⟨i, .call (.connect c), .ok s.directory⟩ : Pool.Entry δ Call.Answer) ∈ h
  | ended (.ensured (.ok s)) => ∃ h₁ h₂, h = h₁ ++ ⟨i, .unlock (some s), ()⟩ :: h₂ ∧
    (slot h₁ = some s ∨ slot h₁ = none ∧
      ∃ c, (⟨i, .call (.connect c), .ok s.directory⟩ : Pool.Entry δ Call.Answer) ∈ h₁)
  | _ => True

theorem Place.Recalls.append (recalls : place.Recalls h i) (k : Log δ (Call.Answer (δ := δ))) :
    place.Recalls (h ++ k) i := by
  unfold Recalls at *
  split at recalls
  · obtain ⟨c, mem⟩ := recalls; exact ⟨c, List.mem_append_left k mem⟩
  · obtain ⟨c, mem⟩ := recalls; exact ⟨c, List.mem_append_left k mem⟩
  · obtain ⟨c, mem⟩ := recalls; exact ⟨c, List.mem_append_left k mem⟩
  · obtain ⟨c, mem⟩ := recalls; exact ⟨c, List.mem_append_left k mem⟩
  · obtain ⟨h₁, h₂, rfl, before⟩ := recalls
    exact ⟨h₁, h₂ ++ k, by simp, before⟩
  · trivial

theorem Protocol.Traced.recalls (trace : Request.Trace requests world h p places)
    (here : places[i]? = some place) : place.Recalls h i := by
  induction trace generalizing i place with
  | start _ =>
    rw [List.getElem?_map, Option.map_eq_some_iff] at here
    obtain ⟨r, -, rfl⟩ := here
    cases r <;> trivial
  | @step h p places before serve _ j q place₀ place' there free moves ih =>
    rw [getElem?_set_place there] at here
    split at here
    · next same =>
      cases here
      subst same
      have recalls := ih there
      have sees : place₀.Sees _ := before.guarded.sees j place₀ there
      rw [before.slot_eq] at sees
      generalize p.answerTo serve q = a at moves
      cases moves with
      | refuse c e | accept c d => exact ⟨c, List.mem_concat_self⟩
      | giveUp | number => exact recalls.append _
      | reuse s => exact ⟨h, [], rfl, .inl sees⟩
      | install s => exact ⟨h, [], rfl, .inr ⟨sees, recalls⟩⟩
      | _ => trivial
    · exact (ih here).append _

/-! ## Without shutdown -/

/-- As long as nobody shuts down, there is one session at most, and connections fail until one
succeeds. -/
theorem Protocol.Traced.answers_of_no_shutdown (trace : Request.Trace requests world h p places)
    (never : .shutdown ∉ requests) :
    installs h = p.sessions.installed.toList ∧
      ∃ errors : List Error, answers h = errors.map .error ++ (accepted h).map .ok := by
  induction trace with
  | start _ => exact ⟨rfl, [], rfl⟩
  | @step h p places before serve _ i q place place' here free moves ih =>
    obtain ⟨lone, errors, each⟩ := ih
    obtain ⟨r, at_i, belongs⟩ := before.belongsTo here
    have sees : place.Sees _ := before.guarded.sees i place here
    have at_slot := before.slot_eq
    have keep {a : q.Answer Call.Answer} (no_install : Pool.Entry.installs (slot h) ⟨i, q, a⟩ = [])
        (no_connection : Pool.Entry.connection? ⟨i, q, a⟩ = none)
        (installed : (p.after serve i q).sessions.installed = p.sessions.installed) :
        installs (h ++ [⟨i, q, a⟩]) = (p.after serve i q).sessions.installed.toList ∧
          ∃ errors : List Error, answers (h ++ [⟨i, q, a⟩]) =
            errors.map .error ++ (accepted (h ++ [⟨i, q, a⟩])).map .ok := by
      refine ⟨?_, errors, ?_⟩
      · rw [installs_concat, no_install, List.append_nil, installed, lone]
      · simp [no_connection, each]
    -- While a connection is being made no other one has succeeded.
    have none_accepted {c} (connecting : place = .connecting c) : accepted h = [] := by
      subst connecting
      have numbered := before.numbered
      rw [before.guarded.inside_eq here trivial] at numbered
      simpa [lone, Place.pending, show p.sessions.installed = none from sees] using numbered.accepted
    generalize p.answerTo serve q = a at moves ⊢
    cases moves with
    | find | miss | look | number => exact keep (by simp [Pool.Entry.installs]) rfl rfl
    | reuse s =>
      refine keep ?_ rfl sees.symm
      rw [← at_slot, show p.sessions.installed = some s from sees]
      rfl
    | putBack o =>
      refine keep ?_ rfl sees.symm
      rw [← at_slot, show p.sessions.installed = o from sees]
      cases o <;> rfl
    | giveUp e =>
      refine keep ?_ rfl sees.symm
      simp [Pool.Entry.installs]
    | install s =>
      have empty : p.sessions.installed = none := sees
      refine ⟨?_, errors, ?_⟩
      · rw [installs_concat, lone, ← at_slot, empty]
        rfl
      · simp [Pool.Entry.connection?, each]
    | refuse c e =>
      refine ⟨by simpa [Pool.Entry.installs, Pool.after] using lone, errors ++ [e], ?_⟩
      simp [Pool.Entry.connection?, each, none_accepted rfl, Except.toOption]
    | accept c d =>
      refine ⟨by simpa [Pool.Entry.installs, Pool.after] using lone, errors, ?_⟩
      simp [Pool.Entry.connection?, each, none_accepted rfl, Except.toOption]
    | begin | late | take | empty | leave | logout =>
      exact absurd (List.mem_of_getElem? at_i) (belongs ▸ never)

/-! ## All histories -/

/-- What a history `h` of requests, which led to `p`, tells. -/
structure Orderly (requests : List Request) (h : Log δ (Call.Answer (δ := δ)))
    (p : Pool δ σ (Call.Answer (δ := δ)) (Response δ)) : Prop where
  /-- One connection is made at a time, and only while no session is installed. -/
  connecting : ∀ i, Connecting p i →
    p.sessions.installed = none ∧ ∀ j, Connecting p j → j = i
  installed : p.sessions.installed = slot h
  nextId : p.sessions.nextId = issued h + 1
  /-- Sessions get the numbers 1, 2, 3, … in the order in which they are installed. -/
  numbers : (installs h).map (·.id) = List.range' 1 (installs h).length
  /-- They are those of the connections that succeeded, in order; the last one can still be on its
  way, with the lock. -/
  directories : ∃ pending, accepted h = (installs h).map (·.directory) ++ pending ∧
    pending.length ≤ 1 ∧ (p.owner = none → pending = [] ∧ issued h = (installs h).length)
  /-- After a connection that fails nobody does anything behind the lock before its request gives
  the lock up, as it was, and is over with the error. -/
  failed : ∀ h₁ i c e h₂, h = h₁ ++ ⟨i, .call (.connect c), .error e⟩ :: h₂ → slot h₁ = none ∧
    (∀ r, p.threads[i]? = some (.done r) → r = .ensured (.error e)) ∧
    ∃ h₃ h₄, h₂ = h₃ ++ h₄ ∧ (∀ x ∈ h₃, x.thread ≠ i ∧ ¬x.Inside) ∧
      (h₄ = [] ∨ ∃ h₅, h₄ = ⟨i, .unlock none, ()⟩ :: h₅ ∧ ∀ x ∈ h₅, x.thread ≠ i)
  /-- Whoever fails made a connection that failed. -/
  error : ∀ (i : Nat) e, p.threads[i]? = some (.done (.ensured (.error e))) → ∃ c,
    requests[i]? = some (.ensure c) ∧ (⟨i, .call (.connect c), .error e⟩ : Pool.Entry δ _) ∈ h
  /-- Whoever gets a session found it behind the lock, or connected and installed it there. -/
  ok : ∀ (i : Nat) s, p.threads[i]? = some (.done (.ensured (.ok s))) → ∃ h₁ h₂,
    h = h₁ ++ ⟨i, .unlock (some s), ()⟩ :: h₂ ∧ (slot h₁ = some s ∨ slot h₁ = none ∧
      ∃ c, (⟨i, .call (.connect c), .ok s.directory⟩ : Pool.Entry δ Call.Answer) ∈ h₁)
  /-- Whoever gets a session gets the same one as the others, unless a shutdown took it since. -/
  same : ∀ h₁ i s h₂ j s' h₃,
    h = h₁ ++ ⟨i, .unlock (some s), ()⟩ :: (h₂ ++ ⟨j, .unlock (some s'), ()⟩ :: h₃) →
      (∀ x ∈ h₂, ¬x.Takes requests) → s' = s
  /-- Without shutdown, if the first connection succeeds, it is the only one and all get its
  session. -/
  lone : .shutdown ∉ requests → ∀ d rest, answers h = .ok d :: rest → rest = [] ∧
    ∀ (i : Nat) c r, requests[i]? = some (.ensure c) → p.threads[i]? = some (.done r) →
      r = .ensured (.ok ⟨1, d⟩)
  /-- Somebody can do a step, whatever calls answer, unless all requests are over. -/
  progress : ∀ serve, (∃ i, p.advance serve i ≠ none) ∨ ∃ rs, p.results? = some rs

theorem Protocol.Traced.orderly_directories (trace : Request.Trace requests world h p places) :
    ∃ pending, accepted h = (installs h).map (·.directory) ++ pending ∧
      pending.length ≤ 1 ∧ (p.owner = none → pending = [] ∧ issued h = (installs h).length) := by
  have numbered := trace.numbered
  refine ⟨_, numbered.accepted, ?_, fun owner => ?_⟩
  · cases inside p.owner places with
    | none => exact Nat.zero_le 1
    | some place => cases place <;> simp [Place.pending]
  · rw [owner] at numbered
    exact ⟨by simp [owner, inside], numbered.issued⟩

theorem Protocol.Traced.orderly_lone (trace : Request.Trace requests world h p places)
    (never : .shutdown ∉ requests)
    {d : δ} {rest : List (Except Error δ)} (first : answers h = .ok d :: rest) : rest = [] ∧
      ∀ (i : Nat) c r, requests[i]? = some (.ensure c) → p.threads[i]? = some (.done r) →
        r = .ensured (.ok ⟨1, d⟩) := by
  obtain ⟨lone, errors, each⟩ := trace.answers_of_no_shutdown never
  have numbered := trace.numbered
  have empty : errors = [] := by
    cases errors with
    | nil => rfl
    | cons e errors => simp [first] at each
  subst empty
  -- Either nothing is installed yet and one connection is on its way, or its session is installed.
  have one : accepted h = [d] := by
    have few : (accepted h).length ≤ 1 := by
      rw [numbered.accepted, lone, List.length_append, List.length_map]
      cases owner : p.owner with
      | none => cases p.sessions.installed <;> simp [inside]
      | some i =>
        obtain ⟨place, here, holds⟩ := (trace.guarded.owner i).mp owner
        have sees : place.Sees _ := trace.guarded.sees i place here
        cases place <;> simp_all [inside, Place.pending, Place.Sees]
    rw [first] at each
    cases same : accepted h with
    | nil => simp [same] at each
    | cons d' ds => simp_all
  refine ⟨by simpa [first, one] using each, fun i c r at_i done => ?_⟩
  have here := trace.place_of_done done
  obtain ⟨r', at_i', belongs⟩ := trace.belongsTo here
  rw [at_i] at at_i'
  cases at_i'
  have recalls := trace.recalls here
  cases r with
  | current | shutdown => cases belongs
  | ensured result =>
    cases result with
    | error e =>
      obtain ⟨c, mem⟩ := recalls
      have : (.error e : Except Error δ) ∈ answers h := mem_answers.mpr ⟨i, c, mem⟩
      simp [each, one] at this
    | ok s =>
      obtain ⟨h₁, h₂, rfl, -⟩ := recalls
      have installed := trace.installed_of_unlock fun x _ takes => never (List.mem_of_getElem? takes.1)
      rw [installed] at lone
      have ids := numbered.ids
      have directories := numbered.accepted
      rw [lone] at ids directories
      rw [one] at directories
      simp at ids directories
      obtain ⟨n, d'⟩ := s
      simp_all

theorem Protocol.Traced.orderly_failed {c : Connection} {e : Error}
    (trace : Request.Trace requests world (h ++ ⟨i, .call (.connect c), .error e⟩ :: k) p places) :
    slot h = none ∧ (∀ r, p.threads[i]? = some (.done r) → r = .ensured (.error e)) ∧
      ∃ h₃ h₄, k = h₃ ++ h₄ ∧ (∀ x ∈ h₃, x.thread ≠ i ∧ ¬x.Inside) ∧
        (h₄ = [] ∨ ∃ h₅, h₄ = ⟨i, .unlock none, ()⟩ :: h₅ ∧ ∀ x ∈ h₅, x.thread ≠ i) := by
  obtain ⟨p', places', place, place', before, there, -, moves⟩ := trace.at_entry
  have sees : place.Sees _ := before.guarded.sees i place there
  rw [before.slot_eq] at sees
  obtain ⟨now, here, failing⟩ := trace.failing_of_connect
  refine ⟨by cases moves; exact sees, fun r done => ?_, ?_⟩
  · rw [trace.place_of_done done] at here
    cases here
    cases failing
    rfl
  · cases failing with
    | refused others => exact ⟨k, [], by simp, others, .inl rfl⟩
    | @ended xs ys others rest => exact ⟨xs, _, rfl, others, .inr ⟨ys, rfl, rest⟩⟩

theorem Protocol.Traced.orderly_error (trace : Request.Trace requests world h p places) {e : Error}
    (done : p.threads[i]? = some (.done (.ensured (.error e)))) : ∃ c,
      requests[i]? = some (.ensure c) ∧
      (⟨i, .call (.connect c), .error e⟩ : Pool.Entry δ _) ∈ h := by
  have here := trace.place_of_done done
  obtain ⟨c, mem⟩ := trace.recalls here
  obtain ⟨h₁, h₂, rfl⟩ := List.append_of_mem mem
  obtain ⟨p', places', place, place', before, there, -, moves⟩ := trace.at_entry
  obtain ⟨r, at_i, belongs⟩ := before.belongsTo there
  cases moves
  cases belongs
  exact ⟨c, at_i, mem⟩

/-- **One session for all.** In every interleaving of any requests, with any answers to their calls,
all is in order; and whatever calls answer from then on, the requests can come to an end. -/
theorem recorded_orderly (run : Pool.Recorded (Request.pool requests world) h p) :
    Orderly requests h p ∧ ∀ serve, ∃ r rs, Pool.Steps serve p r ∧ r.results? = some rs := by
  obtain ⟨places, trace⟩ := Request.exists_trace run
  refine ⟨{
    connecting := fun i => trace.connecting_unique
    installed := trace.slot_eq
    nextId := trace.issued_eq
    numbers := trace.numbered.ids
    directories := trace.orderly_directories
    failed := ?_
    error := fun i e done => trace.orderly_error done
    ok := fun i s done => trace.recalls (trace.place_of_done done)
    same := ?_
    lone := fun never d rest => trace.orderly_lone never
    progress := trace.advance_or_over }, fun serve => trace.can_end trivial⟩
  · rintro h₁ i c e h₂ rfl
    exact trace.orderly_failed
  · rintro h₁ i s h₂ j s' h₃ rfl untaken
    exact trace.unlock_unique untaken

/-- Answers of a directory that refuses the first connection; the state counts the connections. -/
def refuseFirst : (c : Call Unit) → StateM Nat c.Answer
  | .load => pure (.ok default)
  | .connect _ => fun n =>
    (if n = 0 then .error (.taggingLogin (.injected .taggingLogin)) else .ok (), n + 1)
  | .hardware _ _ => pure (.ok none)
  | .tags _ _ => pure (.ok [])
  | .attach _ _ _ => pure (.ok ())
  | .logout _ => pure (.ok ())

/-- Five requests that take turns, with a connection that fails and a shutdown between two that
succeed. -/
theorem recorded_orderly_refuseFirst : ∃ h p,
    Pool.Recorded (Request.pool (σ := Nat)
      [.ensure default, .ensure default, .current, .shutdown, .ensure default] 0) h p ∧
    p.results? = some [.ensured (.error (.taggingLogin (.injected .taggingLogin))),
      .ensured (.ok ⟨1, ()⟩), .current (some ⟨1, ()⟩), .shutdown true, .ensured (.ok ⟨2, ()⟩)] ∧
    Orderly [.ensure default, .ensure default, .current, .shutdown, .ensure default] h p := by
  obtain ⟨h, run⟩ := Pool.anySteps_iff_recorded.mp (Pool.steps_rounds refuseFirst 12 _).any
  exact ⟨h, _, run, rfl, (recorded_orderly run).1⟩

end TierTagger.Sessions
