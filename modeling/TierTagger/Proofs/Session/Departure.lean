import TierTagger.Proofs.Session.Single

/-!
# How a session is taken away

Of all requests to shut down one begins shutdown (`winners`); only that one goes on to the lock, and
it logs out of what it finds there.

- **Ledgers** (`winners`, `logouts`): who began shutdown, who logged out of what.
- **Phases** (`Phase`): where the winner is, what it found behind the lock and what it did with it.
- **The invariant** (`Stage`): before shutdown begins nobody is past the flag, and nobody but the
  winner is from then on. The sessions that were installed are those it took away and the one that is
  installed. A step begins shutdown (`Stage.step_before`) or goes on with it (`Stage.step_after`), so this
  holds of every trace (`Traced.stage`).
- **What follows** for one winner (`Traced.shutdown_result`, `Traced.winner_logouts`), for the
  sessions there ever were (`Traced.accepted_account`), for a connection on its way when shutdown
  begins (`Traced.connect_overtaken_logout`) and for the lock afterwards
  (`Traced.connected_of_unlock`).
-/

namespace TierTagger.Sessions

open Protocol (Guarded Traced getElem?_set_place inside)

variable {δ σ : Type}

/-! ## Ledgers -/

/-- Who begins shutdown, if the entry does. -/
def Pool.Entry.begins? : Pool.Entry δ (Call.Answer (δ := δ)) → Option Nat
  | ⟨i, .beginShutdown, true⟩ => some i
  | _ => none

/-- Who logs out and of what, if the entry does. -/
def Pool.Entry.logout? : Pool.Entry δ (Call.Answer (δ := δ)) → Option (Nat × δ)
  | ⟨i, .call (.logout d), _⟩ => some (i, d)
  | _ => none

/-- Who began shutdown, in order. -/
def winners (h : Log δ (Call.Answer (δ := δ))) : List Nat := h.filterMap Pool.Entry.begins?

/-- Who logged out and of what, in order. -/
def logouts (h : Log δ (Call.Answer (δ := δ))) : List (Nat × δ) := h.filterMap Pool.Entry.logout?

/-- Request `i` got the lock when `o` was behind it. -/
def Found (h : Log δ (Call.Answer (δ := δ))) (i : Nat) (o : Option (Session δ)) : Prop :=
  ∃ h₁ h₂, h = h₁ ++ ⟨i, .lock, o⟩ :: h₂ ∧ slot h₁ = o

section
variable (h : Log δ (Call.Answer (δ := δ))) (e : Pool.Entry δ (Call.Answer (δ := δ)))

@[simp] theorem winners_nil : winners ([] : Log δ (Call.Answer (δ := δ))) = [] := rfl

@[simp] theorem winners_append (k : Log δ (Call.Answer (δ := δ))) :
    winners (h ++ k) = winners h ++ winners k := List.filterMap_append

@[simp] theorem winners_cons : winners (e :: h) = e.begins?.toList ++ winners h := by
  cases hc : e.begins? <;> simp [winners, hc]

@[simp] theorem logouts_nil : logouts ([] : Log δ (Call.Answer (δ := δ))) = [] := rfl

@[simp] theorem logouts_append (k : Log δ (Call.Answer (δ := δ))) :
    logouts (h ++ k) = logouts h ++ logouts k := List.filterMap_append

@[simp] theorem logouts_cons : logouts (e :: h) = e.logout?.toList ++ logouts h := by
  cases hc : e.logout? <;> simp [logouts, hc]

theorem accepted_append (k : Log δ (Call.Answer (δ := δ))) :
    accepted (h ++ k) = accepted h ++ accepted k := by
  simp [accepted, answers]

theorem Found.append {h : Log δ (Call.Answer (δ := δ))} {i : Nat} {o : Option (Session δ)}
    (found : Found h i o) (k : Log δ (Call.Answer (δ := δ))) : Found (h ++ k) i o := by
  obtain ⟨h₁, h₂, rfl, at_slot⟩ := found
  exact ⟨h₁, h₂ ++ k, by simp, at_slot⟩

end

variable {requests : List Request} {world : σ} {h k : Log δ (Call.Answer (δ := δ))}
variable {p : Pool δ σ (Call.Answer (δ := δ)) (Response δ)} {places : List (Place δ)}
variable {place place' : Place δ} {q : Question δ (Call δ)} {a : q.Answer Call.Answer} {i : Nat}

/-! ## One move -/

/-- The session that a shutdown has taken away and not yet logged out of. -/
def Place.parting : Place δ → List (Session δ)
  | leaving s => [s]
  | _ => []

/-- A move keeps account of the session behind the lock: it stays, it is new there, or it is taken
away. -/
theorem Moves.account (m : Moves place q a place') {o : Option (Session δ)} (sees : place.Sees o) :
    o.toList ++ Pool.Entry.installs o ⟨i, q, a⟩ =
      place'.parting ++ (Pool.Entry.leaves o ⟨i, q, a⟩).toList := by
  cases m <;> simp only [Place.Sees] at sees <;>
    simp [Pool.Entry.installs, Pool.Entry.leaves, Place.parting, sees]

/-- Only a shutdown that goes on to the lock moves on from there. -/
theorem Moves.logout?_eq (m : Moves place q a place') :
    Pool.Entry.logout? ⟨i, q, a⟩ = (place.parting.map fun s => (i, s.directory)).head? := by
  cases m <;> rfl

theorem Moves.begins?_eq (m : Moves place q a place') (past : place' ≠ .taking) :
    Pool.Entry.begins? (⟨i, q, a⟩ : Pool.Entry δ Call.Answer) = none := by
  cases m with
  | begin => exact absurd rfl past
  | _ => rfl

/-- Nobody goes back to where a request begins. -/
theorem Moves.ne_start (m : Moves place q a place') (r : Request) : place' ≠ r.place := by
  cases r <;> cases m <;> nofun

theorem Moves.of_connecting {c : Connection} (m : Moves place q a (.connecting c)) :
    place = .waiting c := by
  cases m
  rfl

/-- A request to shut down that is before the flag has asked nothing yet. -/
theorem Protocol.Traced.thread_ne_of_stopping (trace : Request.Trace requests world h p places)
    (here : places[i]? = some .stopping) : ∀ e ∈ h, e.thread ≠ i := by
  induction trace with
  | start _ => exact fun _ mem => absurd mem List.not_mem_nil
  | step _ _ there _ moves ih =>
    rw [getElem?_set_place there] at here
    split at here
    · exact absurd (Option.some.inj here) (moves.ne_start .shutdown)
    · next ne =>
      intro e mem
      rcases List.mem_append.mp mem with mem | mem
      · exact ih here e mem
      · rw [List.mem_singleton.mp mem]
        exact ne

/-! ## The winner -/

/-- What the winner did, at its place, and what it took away. -/
inductive Phase (h : Log δ (Call.Answer (δ := δ))) (i : Nat) :
    Place δ → List (Session δ) → Prop where
  | taking (unlocked : ∀ e ∈ h, e.thread = i → e.question ≠ .lock) (quiet : logouts h = []) :
    Phase h i .taking []
  | taken {o} (found : Found h i o) (quiet : logouts h = []) : Phase h i (.taken o) []
  | leaving {s} (found : Found h i (some s)) (quiet : logouts h = []) : Phase h i (.leaving s) [s]
  | empty (found : Found h i none) (quiet : logouts h = []) :
    Phase h i (.ended (.shutdown true)) []
  | left {s} (found : Found h i (some s)) (once : logouts h = [(i, s.directory)]) :
    Phase h i (.ended (.shutdown true)) [s]

/-- Entries of others leave the winner as it is. -/
theorem Phase.concat_other {gone : List (Session δ)} {e : Pool.Entry δ (Call.Answer (δ := δ))}
    (phase : Phase h i place gone) (other : e.thread ≠ i) (quiet : e.logout? = none) :
    Phase (h ++ [e]) i place gone := by
  have same : logouts (h ++ [e]) = logouts h := by simp [quiet]
  cases phase with
  | taking unlocked no =>
    refine .taking (fun x mem mine => ?_) (same.trans no)
    rcases List.mem_append.mp mem with mem | mem
    · exact unlocked x mem mine
    · rw [List.mem_singleton.mp mem] at mine
      exact absurd mine other
  | taken found no => exact .taken (found.append _) (same.trans no)
  | leaving found no => exact .leaving (found.append _) (same.trans no)
  | empty found no => exact .empty (found.append _) (same.trans no)
  | left found once => exact .left (found.append _) (same.trans once)

/-- The winner goes on: it finds what is behind the lock, takes it away and logs out of it. -/
theorem Phase.concat_move {gone : List (Session δ)} (phase : Phase h i place gone)
    (at_slot : p.sessions.installed = slot h) {serve} (told : p.answerTo serve q = a)
    (m : Moves place q a place') :
    Phase (h ++ [⟨i, q, a⟩]) i place' (gone ++ place'.parting) := by
  cases phase with
  | taking unlocked no =>
    cases m with
    | take o => exact .taken ⟨h, [], rfl, at_slot.symm.trans told⟩ (by simpa [Pool.Entry.logout?])
  | taken found no =>
    cases m with
    | empty => exact .empty (found.append _) (by simpa [Pool.Entry.logout?])
    | leave s => exact .leaving (found.append _) (by simpa [Pool.Entry.logout?])
  | leaving found no =>
    cases m with
    | logout s r => exact .left (found.append _) (by simp [no, Pool.Entry.logout?])
  | empty found no => cases m
  | left found once => cases m

/-! ## The invariant -/

/-- How far shutdown has come. -/
inductive Stage (h : Log δ (Call.Answer (δ := δ)))
    (p : Pool δ σ (Call.Answer (δ := δ)) (Response δ)) (places : List (Place δ)) : Prop where
  | before (nobody : winners h = []) (open_ : p.sessions.shutDown = false) (quiet : logouts h = [])
    (account : installs h = p.sessions.installed.toList)
    (stopping : ∀ (j : Nat) place, places[j]? = some place → place.BelongsTo .shutdown →
      place = .stopping)
  | after {i place gone} (won : winners h = [i]) (closed : p.sessions.shutDown = true)
    (here : places[i]? = some place) (phase : Phase h i place gone)
    (account : installs h = gone ++ p.sessions.installed.toList)
    (alone : ∀ (j : Nat) place', places[j]? = some place' → place'.BelongsTo .shutdown →
      j = i ∨ place' = .stopping ∨ place' = .ended (.shutdown false))

/-- Once the flag is set, a request that is not past it does not get past it. -/
theorem Moves.stays_late {serve} (m : Moves place q a place') (closed : p.sessions.shutDown = true)
    (told : p.answerTo serve q = a)
    (late : place.BelongsTo .shutdown → place = .stopping ∨ place = .ended (.shutdown false)) :
    place.parting = [] ∧ place'.parting = [] ∧
      (place'.BelongsTo .shutdown → place' = .ended (.shutdown false)) := by
  cases m with
  | begin =>
    have answer : (!p.sessions.shutDown) = true := told
    rw [closed] at answer
    cases answer
  | late => exact ⟨rfl, rfl, fun _ => rfl⟩
  | take | empty | leave | logout => rcases late rfl with same | same <;> cases same
  | _ => exact ⟨rfl, rfl, by simp [Place.BelongsTo]⟩

theorem Moves.begins?_late {serve} (m : Moves place q a place') (closed : p.sessions.shutDown = true)
    (told : p.answerTo serve q = a) : Pool.Entry.begins? (⟨i, q, a⟩ : Pool.Entry δ _) = none := by
  cases m with
  | begin =>
    have answer : (!p.sessions.shutDown) = true := told
    rw [closed] at answer
    cases answer
  | _ => rfl

/-- A step keeps account of all sessions that were installed. -/
theorem Moves.installs_step {serve} {gone : List (Session δ)}
    (m : Moves place q (p.answerTo serve q) place') (trace : Request.Trace requests world h p places)
    (here : places[i]? = some place)
    (account : installs h = gone ++ p.sessions.installed.toList) :
    installs (h ++ [⟨i, q, p.answerTo serve q⟩]) = gone ++ place'.parting ++
      ((p.after serve i q).resume i place'.rest).sessions.installed.toList := by
  have sees : place.Sees p.sessions.installed := trace.guarded.sees i place here
  have installed : Pool.Entry.leaves p.sessions.installed ⟨i, q, p.answerTo serve q⟩ =
      ((p.after serve i q).resume i place'.rest).sessions.installed := by
    cases q <;> rfl
  rw [installs_concat, account, ← trace.slot_eq, List.append_assoc, m.account sees, installed,
    List.append_assoc]

/-- **The first step of shutdown.** A request begins it, or it is still to begin. -/
theorem Stage.step_before {serve} (trace : Request.Trace requests world h p places)
    (here : places[i]? = some place) (m : Moves place q (p.answerTo serve q) place')
    (nobody : winners h = []) (open_ : p.sessions.shutDown = false) (quiet : logouts h = [])
    (account : installs h = p.sessions.installed.toList)
    (stopping : ∀ (j : Nat) place, places[j]? = some place → place.BelongsTo .shutdown →
      place = .stopping) :
    Stage (h ++ [⟨i, q, p.answerTo serve q⟩]) ((p.after serve i q).resume i place'.rest)
      (places.set i place') := by
  have nothing_gone : installs h = [] ++ p.sessions.installed.toList := account
  have books := m.installs_step trace here nothing_gone
  have logout := m.logout?_eq (i := i)
  generalize told : p.answerTo serve q = a at m books logout ⊢
  have keep (outside : ¬place'.BelongsTo .shutdown) (none_begins : place' ≠ .taking)
      (silent : place.parting = []) (kept : place'.parting = [])
      (open_' : (p.after serve i q).sessions.shutDown = p.sessions.shutDown) :
      Stage (h ++ [⟨i, q, a⟩]) ((p.after serve i q).resume i place'.rest) (places.set i place') := by
    refine .before ?_ (open_'.trans open_) ?_ ?_ fun j other there belongs => ?_
    · simp [nobody, m.begins?_eq none_begins]
    · simp [quiet, logout, silent]
    · rw [books, kept, List.nil_append, List.nil_append]
    · rw [getElem?_set_place here] at there
      split at there
      · cases there
        exact absurd belongs outside
      · exact stopping j other there belongs
  cases m with
  | begin =>
    have here' : (places.set i Place.taking)[i]? = some .taking := by
      simp [getElem?_set_place here]
    refine .after ?_ rfl here' (.taking ?_ ?_) books fun j other there belongs => ?_
    · simp [nobody, Pool.Entry.begins?]
    · intro e mem mine
      rcases List.mem_append.mp mem with mem | mem
      · exact absurd mine (trace.thread_ne_of_stopping here e mem)
      · rw [List.mem_singleton.mp mem]
        nofun
    · simp [quiet, Pool.Entry.logout?]
    · rw [getElem?_set_place here] at there
      split at there
      · next same => exact .inl same.symm
      · exact .inr (.inl (stopping j other there belongs))
  | late =>
    have answer : (!p.sessions.shutDown) = false := told
    rw [open_] at answer
    cases answer
  | take | empty | leave | logout => cases stopping i _ here rfl
  | _ => exact keep (by simp [Place.BelongsTo]) (by simp) rfl rfl rfl

/-- **A later step of shutdown.** The winner moves, or somebody else does. -/
theorem Stage.step_after {serve} {w : Nat} {at_w : Place δ} {gone : List (Session δ)}
    (trace : Request.Trace requests world h p places) (here : places[i]? = some place)
    (m : Moves place q (p.answerTo serve q) place') (won : winners h = [w])
    (closed : p.sessions.shutDown = true) (there : places[w]? = some at_w) (phase : Phase h w at_w gone)
    (account : installs h = gone ++ p.sessions.installed.toList)
    (alone : ∀ (j : Nat) place', places[j]? = some place' → place'.BelongsTo .shutdown →
      j = w ∨ place' = .stopping ∨ place' = .ended (.shutdown false)) :
    Stage (h ++ [⟨i, q, p.answerTo serve q⟩]) ((p.after serve i q).resume i place'.rest)
      (places.set i place') := by
  have books := m.installs_step trace here account
  have closed' : ((p.after serve i q).resume i place'.rest).sessions.shutDown = true := by
    cases q <;> first | exact closed | rfl
  have won' : winners (h ++ [⟨i, q, p.answerTo serve q⟩]) = [w] := by
    have late := m.begins?_late (i := i) closed rfl
    simp [won, late]
  by_cases mine : i = w
  · subst mine
    obtain rfl : at_w = place := Option.some.inj (there.symm.trans here)
    refine .after won' closed' (by simp [getElem?_set_place here])
      (phase.concat_move trace.slot_eq rfl m) books fun j other there' belongs => ?_
    rw [getElem?_set_place here] at there'
    split at there'
    · next same => exact .inl same.symm
    · exact alone j other there' belongs
  · obtain ⟨silent, kept, late⟩ := m.stays_late closed rfl fun belongs =>
      (alone i place here belongs).resolve_left mine
    refine .after won' closed' (by simpa [getElem?_set_place here, mine] using there)
      (phase.concat_other mine (by rw [m.logout?_eq, silent]; rfl)) ?_ fun j other there' belongs => ?_
    · rw [books, kept, List.append_nil]
    · rw [getElem?_set_place here] at there'
      split at there'
      · cases there'
        exact .inr (.inr (late belongs))
      · exact alone j other there' belongs

/-- **Shutdown goes on one step.** -/
theorem Stage.step {serve} (stage : Stage h p places) (trace : Request.Trace requests world h p places)
    (here : places[i]? = some place) (m : Moves place q (p.answerTo serve q) place') :
    Stage (h ++ [⟨i, q, p.answerTo serve q⟩]) ((p.after serve i q).resume i place'.rest)
      (places.set i place') := by
  cases stage with
  | before nobody open_ quiet account stopping =>
    exact step_before trace here m nobody open_ quiet account stopping
  | after won closed there phase account alone =>
    exact step_after trace here m won closed there phase account alone

/-- **Shutdown in every trace.** -/
theorem Protocol.Traced.stage (trace : Request.Trace requests world h p places) :
    Stage h p places := by
  induction trace with
  | start _ =>
    refine .before rfl rfl rfl rfl fun j place here belongs => ?_
    rw [List.getElem?_map, Option.map_eq_some_iff] at here
    obtain ⟨r, -, rfl⟩ := here
    cases r <;> simp_all [Request.place, Place.BelongsTo]
  | step before _ here _ moves ih => exact ih.step before here moves

/-! ## What follows -/

/-- Nobody who shuts down is past the lock. -/
def BeforeLock (places : List (Place δ)) : Prop :=
  ∀ (i : Nat) place, places[i]? = some place → place.BelongsTo .shutdown →
    place = .stopping ∨ place = .taking ∨ place = .ended (.shutdown false)

/-- Only the lock is the way past it. -/
theorem Moves.stays_beforeLock (m : Moves place q a place') (out : q ≠ .lock)
    (still : place.BelongsTo .shutdown → place = .stopping ∨ place = .taking ∨
      place = .ended (.shutdown false)) (belongs : place'.BelongsTo .shutdown) :
    place' = .stopping ∨ place' = .taking ∨ place' = .ended (.shutdown false) := by
  cases m with
  | begin => exact .inr (.inl rfl)
  | late => exact .inr (.inr rfl)
  | take => exact absurd rfl out
  | empty | leave | logout => rcases still rfl with same | same | same <;> cases same
  | _ => simp [Place.BelongsTo] at belongs

namespace Protocol.Traced

/-- A request to shut down that is over answers whether it began shutdown; somebody did. -/
theorem shutdown_result {b : Bool} (trace : Request.Trace requests world h p places)
    (finished : places[i]? = some (.ended (.shutdown b))) :
    winners h ≠ [] ∧ b = decide (i ∈ winners h) := by
  cases trace.stage with
  | before _ _ _ _ stopping => cases stopping i _ finished rfl
  | @after w place gone won _ here phase _ alone =>
    refine ⟨by simp [won], ?_⟩
    rw [won]
    by_cases mine : i = w
    · subst mine
      rw [finished] at here
      cases here
      cases phase <;> simp
    · rcases alone i _ finished rfl with same | same | same
      · exact absurd same mine
      · cases same
      · cases same
        simp [mine]

theorem winners_le (trace : Request.Trace requests world h p places) : (winners h).length ≤ 1 := by
  cases trace.stage with
  | before nobody => simp [nobody]
  | after won => simp [won]

theorem winner_phase (trace : Request.Trace requests world h p places) (won : i ∈ winners h) :
    ∃ place gone, places[i]? = some place ∧ Phase h i place gone ∧
      installs h = gone ++ p.sessions.installed.toList := by
  cases trace.stage with
  | before nobody => simp [nobody] at won
  | @after w place gone won' _ here phase account _ =>
    obtain rfl : i = w := by simpa [won'] using won
    exact ⟨place, gone, here, phase, account⟩

/-- Only requests to shut down begin shutdown. -/
theorem winner_shutdown (trace : Request.Trace requests world h p places) (won : i ∈ winners h) :
    requests[i]? = some .shutdown := by
  obtain ⟨place, gone, here, phase, -⟩ := trace.winner_phase won
  obtain ⟨r, at_i, belongs⟩ := trace.belongsTo here
  cases phase <;> exact at_i.trans (congrArg some belongs)

/-- Nobody logs out twice, and only the winner does: of the session it found. -/
theorem logout_found (trace : Request.Trace requests world h p places) :
    (logouts h).length ≤ 1 ∧ ∀ i d, (i, d) ∈ logouts h →
      i ∈ winners h ∧ ∃ s, Found h i (some s) ∧ s.directory = d := by
  cases trace.stage with
  | before _ _ quiet => simp [quiet]
  | @after w place gone won _ _ phase _ _ =>
    cases phase with
    | left found once =>
      refine ⟨by simp [once], fun i d mem => ?_⟩
      obtain ⟨rfl, rfl⟩ : i = w ∧ d = _ := by simpa [once] using mem
      exact ⟨by simp [won], _, found, rfl⟩
    | taking _ quiet | taken _ quiet | leaving _ quiet | empty _ quiet => simp [quiet]

/-- The winner, when it is over, has logged out of what was behind the lock when it got there. -/
theorem winner_logouts (trace : Request.Trace requests world h p places) (won : i ∈ winners h)
    {r : Response δ} (finished : places[i]? = some (.ended r)) :
    ∃ o, Found h i o ∧ logouts h = o.toList.map fun s => (i, s.directory) := by
  obtain ⟨place, gone, here, phase, -⟩ := trace.winner_phase won
  rw [finished] at here
  cases here
  cases phase with
  | empty found quiet => exact ⟨none, found, quiet⟩
  | @left s found once => exact ⟨some s, found, once⟩

/-- While a connection is to be installed, no session is. -/
theorem pending_le (trace : Request.Trace requests world h p places) :
    p.sessions.installed.toList.length + ((inside p.owner places).elim [] Place.pending).length ≤ 1 := by
  cases owner : p.owner with
  | none => cases p.sessions.installed <;> simp [inside]
  | some i =>
    obtain ⟨place, here, holds⟩ := (trace.guarded.owner i).mp owner
    have sees : place.Sees p.sessions.installed := trace.guarded.sees i place here
    have at_lock : inside (some i) places = some place := owner ▸ trace.guarded.inside_eq here holds
    rw [at_lock]
    cases place <;> simp only [Place.Sees] at sees <;> cases o : p.sessions.installed <;>
      simp_all [Place.pending]

/-- Every session that was ever created was taken away by the winner, or it is installed, or it is
about to be. -/
theorem accepted_account (trace : Request.Trace requests world h p places) : ∃ gone pending,
    accepted h = (gone ++ p.sessions.installed.toList).map (·.directory) ++ pending ∧
    gone.length ≤ 1 ∧ p.sessions.installed.toList.length + pending.length ≤ 1 ∧
    (p.owner = none → pending = []) ∧
    ∀ s ∈ gone, ∃ i ∈ winners h, Found h i (some s) ∧
      ∀ r, places[i]? = some (.ended r) → logouts h = [(i, s.directory)] := by
  have numbered := trace.numbered
  have none_pending (owner : p.owner = none) : (inside p.owner places).elim [] Place.pending = [] := by
    simp [inside, owner]
  cases trace.stage with
  | before _ _ _ account =>
    exact ⟨[], _, by rw [List.nil_append, ← account, numbered.accepted], by simp, trace.pending_le,
      none_pending, by simp⟩
  | @after w place gone won _ here phase account _ =>
    refine ⟨gone, _, by rw [← account, numbered.accepted], ?_, trace.pending_le, none_pending, ?_⟩
    · cases phase <;> simp
    · intro s mem
      cases phase with
      | taking | taken | empty => cases mem
      | leaving found =>
        obtain rfl := List.mem_singleton.mp mem
        refine ⟨w, by simp [won], found, fun r finished => ?_⟩
        rw [here] at finished
        cases finished
      | left found once =>
        obtain rfl := List.mem_singleton.mp mem
        exact ⟨w, by simp [won], found, fun _ _ => once⟩

/-! ## A connection on its way -/

/-- While a connection is being made that began before shutdown, nobody who shuts down gets past the
lock. -/
theorem beforeLock_of_connecting {j : Nat} {c : Connection} (trace : Request.Trace requests world
      (h ++ ⟨j, .lock, none⟩ :: k) p places) (nobody : winners h = [])
    (connecting : places[j]? = some (.connecting c)) : BeforeLock places := by
  have both : (∀ c, places[j]? ≠ some (.waiting c)) ∧
      ∀ c, places[j]? = some (.connecting c) → BeforeLock places := by
    refine Traced.since (motive := fun _ _ places => (∀ c, places[j]? ≠ some (.waiting c)) ∧
      ∀ c, places[j]? = some (.connecting c) → BeforeLock places) ?_ ?_ trace
    · intro p places _ place place' before here _ moves
      have set_j : (places.set j place')[j]? = some place' := by simp [getElem?_set_place here]
      refine ⟨fun c there => ?_, fun c there i other there' belongs => ?_⟩
      · rw [set_j] at there
        cases there
        cases moves
      · rw [set_j] at there
        cases there
        rw [getElem?_set_place here] at there'
        split at there'
        · cases there'
          cases belongs
        · cases before.stage with
          | before _ _ _ _ stopping => exact .inl (stopping i other there' belongs)
          | after won => simp [nobody] at won
    · intro k p places serve i q place place' before here free moves ⟨begun, still⟩
      by_cases same : i = j
      · subst same
        have set_i : (places.set i place')[i]? = some place' := by simp [getElem?_set_place here]
        refine ⟨fun c there => ?_, fun c there => ?_⟩
        · exact moves.ne_start (.ensure c) (Option.some.inj (set_i.symm.trans there))
        · obtain rfl := Option.some.inj (set_i.symm.trans there)
          exact absurd (moves.of_connecting ▸ here) (begun c)
      · have set_j : (places.set i place')[j]? = places[j]? := by
          simp [getElem?_set_place here, same]
        refine ⟨fun c => set_j ▸ begun c, fun c there i' other there' belongs => ?_⟩
        rw [set_j] at there
        have owner := before.guarded.holds there trivial
        rw [getElem?_set_place here] at there'
        split at there'
        · cases there'
          have out : q ≠ .lock := fun lock => by simp [free lock] at owner
          exact moves.stays_beforeLock out (still c there i place here) belongs
        · exact still c there i' other there' belongs
  exact both.2 c connecting

/-- When a connection succeeds while the winner is on its way to the lock, it is the first there is, and
nobody has logged out. -/
theorem connect_unlocked_first {j : Nat} {c : Connection} {d : δ}
    (trace : Request.Trace requests world (h ++ ⟨j, .call (.connect c), .ok d⟩ :: k) p places)
    (won : i ∈ winners h) (unlocked : ∀ e ∈ h, e.thread = i → e.question ≠ .lock) :
    accepted h = [] ∧ logouts h = [] := by
  obtain ⟨p', places', place, place', before, here, -, moves⟩ := trace.at_entry
  have no_lock {o} (found : Found h i o) : False := by
    obtain ⟨h₁, h₂, rfl, -⟩ := found
    exact unlocked _ (List.mem_append_right h₁ List.mem_cons_self) rfl rfl
  have sees : place.Sees p'.sessions.installed := before.guarded.sees j place here
  have numbered := before.numbered
  cases moves with
  | accept =>
    rw [before.guarded.inside_eq here trivial] at numbered
    have empty : p'.sessions.installed = none := sees
    obtain ⟨_, gone, -, phase, account⟩ := before.winner_phase won
    cases phase with
    | taking _ quiet =>
      refine ⟨?_, quiet⟩
      rw [numbered.accepted, account, empty]
      rfl
    | taken found | leaving found | empty found | left found => exact (no_lock found).elim

/-- When the winner gets the lock, the sessions there ever were are what it finds. -/
theorem winner_lock_accepted {o : Option (Session δ)}
    (trace : Request.Trace requests world (h ++ ⟨i, .lock, o⟩ :: k) p places) (won : i ∈ winners h)
    (at_slot : slot h = o) : accepted h = o.toList.map (·.directory) := by
  obtain ⟨p', places', place, place', before, here, free, moves⟩ := trace.at_entry
  obtain ⟨at_i, gone, here', phase, account⟩ := before.winner_phase won
  obtain rfl : place = at_i := Option.some.inj (here.symm.trans here')
  have none_pending : inside p'.owner places' = none := by rw [free rfl]; rfl
  have accepted_eq := before.numbered.accepted
  rw [none_pending, account, before.slot_eq, at_slot] at accepted_eq
  cases phase <;> cases moves
  exact accepted_eq.trans (List.append_nil _)

/-- A connection that succeeds after shutdown began, but before the winner has the lock, is logged out of
by the winner. -/
theorem connect_unlocked_logout {j : Nat} {c : Connection} {d : δ} {r : Response δ}
    (trace : Request.Trace requests world (h ++ ⟨j, .call (.connect c), .ok d⟩ :: k) p places)
    (won : i ∈ winners h) (unlocked : ∀ e ∈ h, e.thread = i → e.question ≠ .lock)
    (finished : places[i]? = some (.ended r)) : (i, d) ∈ logouts k := by
  obtain ⟨none_accepted, quiet⟩ := trace.connect_unlocked_first won unlocked
  obtain ⟨o, ⟨f₁, f₂, split, at_slot⟩, all⟩ :=
    trace.winner_logouts (by rw [winners_append]; exact List.mem_append_left _ won) finished
  -- The winner gets the lock later.
  obtain ⟨t, rfl⟩ : ∃ t, f₁ = h ++ ⟨j, .call (.connect c), .ok d⟩ :: t := by
    rcases List.append_eq_append_iff.mp split with ⟨t, rfl, tail⟩ | ⟨t, rfl, tail⟩
    · cases t with
      | nil => cases tail
      | cons e t =>
        obtain ⟨rfl, -⟩ := List.cons.inj tail
        exact ⟨t, rfl⟩
    · cases t with
      | nil => cases tail
      | cons e t =>
        obtain ⟨rfl, -⟩ := List.cons.inj tail
        exact absurd rfl (unlocked _ (List.mem_append_right f₁ List.mem_cons_self) rfl)
  have found : (d :: accepted t : List δ) = o.toList.map (·.directory) := by
    rw [split] at trace
    have accepted_eq := trace.winner_lock_accepted (i := i) (by simp [won]) at_slot
    rwa [accepted_append, none_accepted] at accepted_eq
  obtain ⟨s, rfl, rfl⟩ : ∃ s, o = some s ∧ s.directory = d := by
    cases o with
    | none => cases found
    | some s => exact ⟨s, rfl, (List.cons.inj found).1.symm⟩
  have once : logouts k = [(i, s.directory)] := by simpa [quiet, Pool.Entry.logout?] using all
  simp [once]

/-- A connection that was on its way when shutdown began, and that succeeds, is logged out of by the
winner. -/
theorem connect_overtaken_logout {j : Nat} {c : Connection} {d : δ} {r : Response δ}
    {h₁ h₂ h₃ h₄ : Log δ (Call.Answer (δ := δ))}
    (trace : Request.Trace requests world (h₁ ++ ⟨j, .lock, none⟩ :: (h₂ ++ ⟨i, .beginShutdown, true⟩ ::
      (h₃ ++ ⟨j, .call (.connect c), .ok d⟩ :: h₄))) p places)
    (finished : places[i]? = some (.ended r)) : (i, d) ∈ logouts h₄ := by
  have whole : h₁ ++ ⟨j, .lock, none⟩ :: (h₂ ++ ⟨i, .beginShutdown, true⟩ ::
      (h₃ ++ ⟨j, .call (.connect c), .ok d⟩ :: h₄)) =
        (h₁ ++ ⟨j, .lock, none⟩ :: (h₂ ++ ⟨i, .beginShutdown, true⟩ :: h₃)) ++
          ⟨j, .call (.connect c), .ok d⟩ :: h₄ := by simp
  rw [whole] at trace
  obtain ⟨p', places', place, place', before, here, -, moves⟩ := trace.at_entry
  have won : i ∈ winners (h₁ ++ ⟨j, .lock, none⟩ :: (h₂ ++ ⟨i, .beginShutdown, true⟩ :: h₃)) := by
    simp [Pool.Entry.begins?]
  have nobody : winners h₁ = [] := by
    have few := before.winners_le
    simp [Pool.Entry.begins?] at few
    exact List.eq_nil_of_length_eq_zero (by omega)
  refine trace.connect_unlocked_logout won ?_ finished
  obtain ⟨place_i, gone, here_i, phase, -⟩ := before.winner_phase won
  cases moves
  have early := before.beforeLock_of_connecting nobody here i place_i here_i
  cases phase with
  | taking unlocked => exact unlocked
  | taken | leaving | empty | left => rcases early rfl with same | same | same <;> cases same

/-! ## The lock afterwards -/

/-- Nobody comes in between while the winner takes what is behind the lock. -/
theorem taking_alone {o : Option (Session δ)} (trace : Request.Trace requests world
      (h ++ ⟨i, .lock, o⟩ :: k) p places) (stops : requests[i]? = some .shutdown) :
    ∃ h₁ h₂, k = h₁ ++ h₂ ∧ (∀ x ∈ h₁, x.thread ≠ i ∧ ¬x.Inside) ∧
      (h₂ = [] ∨ ∃ h₃, h₂ = ⟨i, .unlock none, ()⟩ :: h₃) := by
  have both : (places[i]? = some (.taken o) ∧ ∀ x ∈ k, x.thread ≠ i ∧ ¬x.Inside) ∨
      ∃ h₁ h₃, k = h₁ ++ ⟨i, .unlock none, ()⟩ :: h₃ ∧ ∀ x ∈ h₁, x.thread ≠ i ∧ ¬x.Inside := by
    refine Traced.since (motive := fun k _ places => (places[i]? = some (.taken o) ∧
      ∀ x ∈ k, x.thread ≠ i ∧ ¬x.Inside) ∨ ∃ h₁ h₃, k = h₁ ++ ⟨i, .unlock none, ()⟩ :: h₃ ∧
        ∀ x ∈ h₁, x.thread ≠ i ∧ ¬x.Inside) ?_ ?_ trace
    · intro p places serve place place' before here _ moves
      obtain ⟨r, at_i, belongs⟩ := before.belongsTo here
      obtain rfl : r = .shutdown := Option.some.inj (at_i.symm.trans stops)
      refine .inl ⟨?_, by simp⟩
      cases moves with
      | take => simp [getElem?_set_place here]
      | find | miss | look => cases belongs
    · intro k p places serve j q place place' before here free moves ih
      rcases ih with ⟨taken, others⟩ | ⟨h₁, h₃, rfl, others⟩
      · by_cases same : j = i
        · subst same
          obtain rfl : .taken o = place := Option.some.inj (taken.symm.trans here)
          refine .inr ⟨k, [], ?_, others⟩
          generalize p.answerTo serve q = a at moves
          cases moves <;> rfl
        · have owner := before.guarded.holds taken trivial
          have out := before.guarded.not_inside owner same here free moves
          refine .inl ⟨by simpa [getElem?_set_place here, same] using taken, fun x mem => ?_⟩
          rcases List.mem_append.mp mem with mem | mem
          · exact others x mem
          · rw [List.mem_singleton.mp mem]
            exact ⟨same, out⟩
      · exact .inr ⟨h₁, _, by rw [List.append_assoc, List.cons_append], others⟩
  rcases both with ⟨-, others⟩ | ⟨h₁, h₃, rfl, others⟩
  · exact ⟨k, [], by simp, others, .inl rfl⟩
  · exact ⟨h₁, _, rfl, others, .inr ⟨h₃, rfl⟩⟩

end Protocol.Traced

/-- Request `j` got the lock with nothing behind it, and then a connection to `d`. -/
def Connected (k : Log δ (Call.Answer (δ := δ))) (j : Nat) (d : δ) : Prop :=
  ∃ c k₁ k₂, k = k₁ ++ ⟨j, .lock, none⟩ :: k₂ ∧
    (⟨j, .call (.connect c), .ok d⟩ : Pool.Entry δ Call.Answer) ∈ k₂

/-- What a request with the lock got there is in `k`. -/
def Place.Fresh (k : Log δ (Call.Answer (δ := δ))) (j : Nat) : Place δ → Prop
  | connecting _ => ∃ k₁ k₂, k = k₁ ++ ⟨j, .lock, none⟩ :: k₂
  | accepted d => Connected k j d
  | numbered s => Connected k j s.directory
  | _ => True

theorem Connected.append {j : Nat} {d : δ} (connected : Connected k j d)
    (l : Log δ (Call.Answer (δ := δ))) : Connected (k ++ l) j d := by
  obtain ⟨c, k₁, k₂, rfl, mem⟩ := connected
  exact ⟨c, k₁, k₂ ++ l, by simp, List.mem_append_left l mem⟩

theorem Place.Fresh.append {j : Nat} (fresh : place.Fresh k j) (l : Log δ (Call.Answer (δ := δ))) :
    place.Fresh (k ++ l) j := by
  cases place with
  | connecting c =>
    obtain ⟨k₁, k₂, rfl⟩ := fresh
    exact ⟨k₁, k₂ ++ l, by simp⟩
  | accepted d => exact Connected.append fresh l
  | numbered s => exact Connected.append fresh l
  | _ => trivial

theorem Place.fresh_of_not_holds {j : Nat} (out : ¬place.Holds) : place.Fresh k j := by
  cases place with
  | connecting | accepted | numbered => exact absurd trivial out
  | _ => trivial

theorem Moves.fresh {j : Nat} (m : Moves place q a place') (fresh : place.Fresh k j) :
    place'.Fresh (k ++ [⟨j, q, a⟩]) j := by
  cases m with
  | miss c => exact ⟨k, [], rfl⟩
  | accept c d =>
    obtain ⟨k₁, k₂, rfl⟩ := fresh
    exact ⟨c, k₁, k₂ ++ [⟨j, .call (.connect c), .ok d⟩], by simp, List.mem_concat_self⟩
  | number d n => exact Connected.append fresh _
  | _ => trivial

/-- A session that is behind the lock where there was none is of a connection of somebody who got
the lock since. -/
theorem Protocol.Traced.connected_of_unlock {s : Session δ} (trace : Request.Trace requests world
      (h ++ ⟨i, .unlock none, ()⟩ :: k) p places) (installed : p.sessions.installed = some s) :
    ∃ j, Connected k j s.directory := by
  have both : (∀ s, p.sessions.installed = some s → ∃ j, Connected k j s.directory) ∧
      ∀ (j : Nat) place, places[j]? = some place → place.Fresh k j := by
    refine Traced.since (motive := fun k p places =>
      (∀ s, p.sessions.installed = some s → ∃ j, Connected k j s.directory) ∧
        ∀ (j : Nat) place, places[j]? = some place → place.Fresh k j) ?_ ?_ trace
    · intro p places serve place place' before here _ moves
      refine ⟨nofun, fun j other there => ?_⟩
      obtain ⟨holds, released⟩ := Place.protocol.of_unlock moves
      rw [getElem?_set_place here] at there
      split at there
      · cases there
        exact Place.fresh_of_not_holds released
      · next ne =>
        exact Place.fresh_of_not_holds fun holds' =>
          ne (before.guarded.unique here there holds holds')
    · intro k p places serve j q place place' before here free moves ⟨origin, fresh⟩
      have sees : place.Sees p.sessions.installed := before.guarded.sees j place here
      have mine := fresh j place here
      refine ⟨fun s installed => ?_, fun j' other there => ?_⟩
      · -- Only `install` puts a session where there was none.
        have keep (same : p.sessions.installed = some s) :
            ∃ j', Connected (k ++ [⟨j, q, p.answerTo serve q⟩]) j' s.directory := by
          obtain ⟨j', connected⟩ := origin s same
          exact ⟨j', connected.append _⟩
        generalize p.answerTo serve q = a at moves keep ⊢
        cases moves with
        | reuse s' | putBack o =>
          cases installed
          exact keep sees
        | install s' =>
          cases installed
          exact ⟨j, Connected.append mine _⟩
        | giveUp | empty | leave => cases installed
        | _ => exact keep installed
      · rw [getElem?_set_place here] at there
        split at there
        · next same =>
          cases there
          subst same
          exact moves.fresh mine
        · exact (fresh j' other there).append _
  exact both.1 s installed

end TierTagger.Sessions
