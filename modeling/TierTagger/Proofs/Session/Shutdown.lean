import TierTagger.Daemon
import TierTagger.Proofs.Session.Departure

/-!
# One shutdown

What becomes of the sessions of a process whatever callers shut down or stop it, in every interleaving
with others and with any answers.

- **Callers** (`Caller`): requests, and those that stop the process, which are told a line and not
  whether they were the first. Their histories are those of requests (`Pool.Recorded.of_relabel`).
- **What a logout answers** (`recorded_logout_answer`) changes nothing.
- `recorded_released`: who shuts down, what is logged out of, and what sessions there are.
-/

namespace TierTagger.Sessions

open Protocol (Traced)

/-! ## Results by another name -/

namespace Pool

variable {δ σ Q α β : Type} {A : Q → Type} {p₀ p : Pool δ σ A α} {i : Nat}

/-- A pool whose computations tell their results in another way. -/
def relabel (f : Nat → α → β) (p : Pool δ σ A α) : Pool δ σ A β :=
  ⟨p.sessions, p.owner, p.world, p.threads.mapIdx fun i d => f i <$> d⟩

theorem relabel_getElem? (f : Nat → α → β) (p : Pool δ σ A α) (i : Nat) :
    (p.relabel f).threads[i]? = p.threads[i]?.map (f i <$> ·) := by
  simp [relabel]

theorem relabel_resume (f : Nat → α → β) (p : Pool δ σ A α) (i : Nat) (d : Work δ A α) :
    (p.resume i d).relabel f = (p.relabel f).resume i (f i <$> d) := by
  simp [relabel, resume, List.mapIdx_set]

theorem relabel_after (f : Nat → α → β) (serve : (q : Q) → StateM σ (A q)) (p : Pool δ σ A α) (i : Nat)
    (q : Question δ Q) : (p.after serve i q).relabel f = (p.relabel f).after serve i q := by
  cases q <;> rfl

theorem relabel_answerTo (f : Nat → α → β) (serve : (q : Q) → StateM σ (A q)) (p : Pool δ σ A α)
    (q : Question δ Q) : (p.relabel f).answerTo serve q = p.answerTo serve q := by
  cases q <;> rfl

/-- A question of a computation that tells its result in another way. -/
theorem relabel_asks {f : Nat → α → β} {q : Question δ Q} {next : q.Answer A → Work δ A β}
    (asks : (p.relabel f).threads[i]? = some (.ask q next)) :
    ∃ next', p.threads[i]? = some (.ask q next') ∧ next = fun a => f i <$> next' a := by
  rw [relabel_getElem?, Option.map_eq_some_iff] at asks
  obtain ⟨d, at_i, same⟩ := asks
  cases d with
  | done a => cases same
  | ask q' next' =>
    cases same
    exact ⟨next', at_i, rfl⟩

theorem relabel_done {f : Nat → α → β} {b : β}
    (finished : (p.relabel f).threads[i]? = some (.done b)) :
    ∃ a, p.threads[i]? = some (.done a) ∧ b = f i a := by
  rw [relabel_getElem?, Option.map_eq_some_iff] at finished
  obtain ⟨d, at_i, same⟩ := finished
  cases d with
  | ask q next => cases same
  | done a =>
    cases same
    exact ⟨a, at_i, rfl⟩

theorem advance_relabel {f : Nat → α → β} {serve : (q : Q) → StateM σ (A q)} {r : Pool δ σ A α}
    (now : advance serve i p = some r) : advance serve i (p.relabel f) = some (r.relabel f) := by
  obtain ⟨q, next, at_i, free, rfl⟩ := advance_eq_some.mp now
  have asks : (p.relabel f).threads[i]? = some (.ask q fun a => f i <$> next a) := by
    rw [relabel_getElem?, at_i]
    rfl
  rw [relabel_resume, relabel_after, ← relabel_answerTo f]
  exact (advance_ask asks).mpr ⟨free, rfl⟩

theorem Steps.relabel {f : Nat → α → β} {serve : (q : Q) → StateM σ (A q)} {r : Pool δ σ A α}
    (run : Steps serve p r) : Steps serve (p.relabel f) (r.relabel f) := by
  induction run with
  | refl => exact .refl _
  | step i _ now ih => exact .step i ih (advance_relabel now)

/-- When all computations are over, they are so under another name. -/
theorem results?_relabel (f : Nat → α → β) {rs : List α} (ended : p.results? = some rs) :
    (p.relabel f).results? = some (rs.mapIdx f) := by
  refine results?_eq_some.mpr ?_
  show p.threads.mapIdx _ = _
  rw [results?_eq_some.mp ended]
  refine List.ext_getElem? fun i => ?_
  cases at_i : rs[i]? with
  | none => simp [at_i]
  | some a =>
    simp only [List.getElem?_mapIdx, List.getElem?_map, at_i]
    rfl

/-- How results are told makes no difference to a history. -/
theorem Recorded.of_relabel {f : Nat → α → β} {h : List (Entry δ A)} {p' : Pool δ σ A β}
    (run : Recorded (p₀.relabel f) h p') : ∃ p, Recorded p₀ h p ∧ p' = p.relabel f := by
  induction run with
  | start => exact ⟨p₀, .start, rfl⟩
  | step _ serve e asks told now ih =>
    obtain ⟨p, before, rfl⟩ := ih
    obtain ⟨free, rfl⟩ := (advance_ask asks).mp now
    obtain ⟨next, at_i, rfl⟩ := relabel_asks asks
    rw [relabel_answerTo] at told
    refine ⟨_, before.step serve e at_i told ((advance_ask at_i).mpr ⟨free, rfl⟩), ?_⟩
    rw [relabel_resume, relabel_after, relabel_answerTo]

end Pool

variable {δ σ : Type}

/-! ## Callers -/

/-- Somebody who uses the shared session: with a request, or to stop the process. -/
inductive Caller where
  | request (r : Request)
  | stop
  deriving DecidableEq, Repr

/-- What a caller is told. -/
inductive Report (δ : Type) where
  | response (r : Response δ)
  /-- The line about the end of the process. -/
  | line (l : Option String)

/-- The request that a caller makes. -/
def Caller.asks : Caller → Request
  | request r => r
  | stop => .shutdown

/-- The code of a caller. -/
def Caller.job : Caller → Job δ (Report δ)
  | request r => do return .response (← r.job)
  | stop => do return .line (← Daemon.stop)

/-- How a caller is told a response. -/
def Caller.tells : Caller → Response δ → Report δ
  | request _, r => .response r
  | stop, .shutdown true => .line (some Daemon.releasedMessage)
  | stop, _ => .line none

/-- Whether a caller that shuts down or stops was the first. -/
def Report.first? : Report δ → Option Bool
  | response (.shutdown first) => some first
  | response _ => none
  | line l => some l.isSome

/-- The callers of a process before the first step. -/
def Caller.pool (callers : List Caller) (world : σ) :
    Pool δ σ (Call.Answer (δ := δ)) (Report δ) :=
  .start .initial world (callers.map job)

theorem Caller.job_eq (c : Caller) : c.job (δ := δ) = c.tells <$> c.asks.job := by
  cases c with
  | request r => rfl
  | stop =>
    show (Sessions.shutdown >>= _) >>= _ = (Sessions.shutdown >>= _) >>= _
    rw [bind_assoc, bind_assoc]
    refine bind_congr fun first => ?_
    cases first <;> rfl

@[simp] theorem Caller.tells_first (c : Caller) (first : Bool) :
    (c.tells (δ := δ) (.shutdown first)).first? = some first := by
  cases c <;> cases first <;> rfl

/-- Callers are requests that are told in their own way. -/
theorem Caller.pool_eq (callers : List Caller) (world : σ) :
    pool (δ := δ) callers world = (Request.pool (callers.map asks) world).relabel fun i =>
      (callers[i]?).elim .response tells := by
  refine congrArg (Pool.start Sessions.initial world) (List.ext_getElem? fun i => ?_)
  cases at_i : callers[i]? with
  | none => simp [Request.pool, Pool.start, at_i]
  | some c => simp [Request.pool, Pool.start, at_i, c.job_eq]

/-! ## Histories -/

variable {callers : List Caller} {world : σ} {h k : Log δ (Call.Answer (δ := δ))}
variable {p : Pool δ σ (Call.Answer (δ := δ)) (Report δ)} {i : Nat}

/-- Every history of callers is a trace of their requests. -/
theorem Caller.exists_trace (run : Pool.Recorded (pool callers world) h p) : ∃ p' places,
    Request.Trace (callers.map asks) world h p' places ∧
      p = p'.relabel fun i => (callers[i]?).elim .response tells := by
  rw [pool_eq] at run
  obtain ⟨p', told, rfl⟩ := run.of_relabel
  obtain ⟨places, trace⟩ := Request.exists_trace told
  exact ⟨p', places, trace, rfl⟩

/-- A caller that is over and asked to shut down or stop is told whether it was the winner. -/
theorem Caller.told_first {p : Pool δ σ (Call.Answer (δ := δ)) (Response δ)} {places : List (Place δ)}
    (trace : Request.Trace (callers.map asks) world h p places) {c : Caller} {r : Response δ}
    (at_i : callers[i]? = some c) (stops : c.asks = .shutdown) (here : places[i]? = some (.ended r)) :
    winners h ≠ [] ∧ (c.tells r).first? = some (decide (i ∈ winners h)) := by
  obtain ⟨request, asked, belongs⟩ := trace.belongsTo here
  obtain rfl : c.asks = request := by simpa [at_i] using asked
  rw [stops] at belongs
  cases r with
  | ensured result => cases result <;> obtain ⟨_, same⟩ := belongs <;> cases same
  | current s => cases belongs
  | shutdown b =>
    obtain ⟨somebody, rfl⟩ := trace.shutdown_result here
    exact ⟨somebody, c.tells_first _⟩

theorem Pool.Recorded.of_append {Q α : Type} {A : Q → Type} {p₀ p : Pool δ σ A α} {h k : Log δ A}
    (run : Recorded p₀ (h ++ k) p) : ∃ q, Recorded p₀ h q := by
  cases k with
  | nil => exact ⟨p, by simpa using run⟩
  | cons e k =>
    obtain ⟨q, -, -, -, before, -⟩ := run.at_entry
    exact ⟨q, before⟩

/-- The same answers, but `r` is what comes of a logout. -/
def loggingOut (r : Except Directory.Error Unit) (serve : (c : Call δ) → StateM σ c.Answer) :
    (c : Call δ) → StateM σ c.Answer
  | .logout d => fun w => (r, ((serve (.logout d)).run w).2)
  | c => serve c

/-- What a logout answers makes no difference. -/
theorem recorded_logout_answer {d : δ} {r : Except Directory.Error Unit}
    (run : Pool.Recorded (Caller.pool callers world) (h ++ ⟨i, .call (.logout d), r⟩ :: k) p)
    (r' : Except Directory.Error Unit) :
    Pool.Recorded (Caller.pool callers world) (h ++ ⟨i, .call (.logout d), r'⟩ :: k) p := by
  obtain ⟨q, q', serve, next, before, asks, told, now, goes_on⟩ := run.at_entry
  obtain ⟨q₀, places, trace, rfl⟩ := Caller.exists_trace before
  obtain ⟨next, asks₀, rfl⟩ := Pool.relabel_asks asks
  obtain ⟨place, -, rest⟩ := trace.at_thread asks₀
  have last (a : Except Directory.Error Unit) : next a = .done (.shutdown true) := by
    cases place <;> cases rest
    rfl
  obtain ⟨-, rfl⟩ := (Pool.advance_ask asks).mp now
  rw [List.append_cons]
  refine goes_on _ (before.step (loggingOut r' serve) ⟨i, .call (.logout d), r'⟩ asks rfl ?_)
  refine (Pool.advance_ask asks).mpr ⟨nofun, ?_⟩
  simp only [last]
  rfl

/-- What a history `h` of callers, which led to `p`, tells about shutdown. -/
structure Released (callers : List Caller) (world : σ) (h : Log δ (Call.Answer (δ := δ)))
    (p : Pool δ σ (Call.Answer (δ := δ)) (Report δ)) : Prop where
  /-- One caller at most began shutdown: one of those that shut down or stop. -/
  winner : (winners h).length ≤ 1 ∧
    ∀ i ∈ winners h, ∃ c, callers[i]? = some c ∧ c.asks = .shutdown
  /-- It is told that it was the first, and all others are told that they were not. -/
  result : ∀ (i : Nat) c r, callers[i]? = some c → c.asks = .shutdown →
    p.threads[i]? = some (.done r) → winners h ≠ [] ∧ r.first? = some (decide (i ∈ winners h))
  /-- There is one logout at most, by the winner, of the session it found behind the lock. -/
  logout : (logouts h).length ≤ 1 ∧ ∀ i d, (i, d) ∈ logouts h →
    i ∈ winners h ∧ ∃ s, Found h i (some s) ∧ s.directory = d
  /-- The winner, when it is over, has logged out of what it found, if it found anything. -/
  found : ∀ i ∈ winners h, ∀ r, p.threads[i]? = some (.done r) →
    ∃ o, Found h i o ∧ logouts h = o.toList.map fun s => (i, s.directory)
  /-- So it has of a connection that was on its way when it began shutdown. -/
  overtaken : ∀ h₁ j h₂ i h₃ c d h₄, h = h₁ ++ ⟨j, .lock, none⟩ :: (h₂ ++ ⟨i, .beginShutdown, true⟩ ::
    (h₃ ++ ⟨j, .call (.connect c), .ok d⟩ :: h₄)) →
      ∀ r, p.threads[i]? = some (.done r) → (i, d) ∈ logouts h₄
  /-- What a logout answers changes neither a result nor anything else. -/
  swallowed : ∀ h₁ i d r h₂, h = h₁ ++ ⟨i, .call (.logout d), r⟩ :: h₂ → ∀ r',
    Pool.Recorded (Caller.pool callers world) (h₁ ++ ⟨i, .call (.logout d), r'⟩ :: h₂) p
  /-- Nobody else is behind the lock from when the winner has it until nothing is left there. -/
  taken : ∀ h₁ i o h₂, i ∈ winners h → h = h₁ ++ ⟨i, .lock, o⟩ :: h₂ → ∃ h₃ h₄, h₂ = h₃ ++ h₄ ∧
    (∀ x ∈ h₃, x.thread ≠ i ∧ ¬x.Inside) ∧ (h₄ = [] ∨ ∃ h₅, h₄ = ⟨i, .unlock none, ()⟩ :: h₅)
  /-- From then on what is there is of a connection of somebody who got the lock later. -/
  vacant : ∀ h₁ i h₂ h₃, h = h₁ ++ ⟨i, .unlock none, ()⟩ :: (h₂ ++ h₃) →
    ∀ s, slot (h₁ ++ ⟨i, .unlock none, ()⟩ :: h₂) = some s → ∃ j, Connected h₂ j s.directory
  installed : p.sessions.installed = slot h
  /-- Every session ever created was logged out of by the winner, or it is installed, or it is about
  to be. -/
  sessions : ∃ gone pending,
    accepted h = (gone ++ p.sessions.installed.toList).map (·.directory) ++ pending ∧
    gone.length ≤ 1 ∧ p.sessions.installed.toList.length + pending.length ≤ 1 ∧
    (p.owner = none → pending = []) ∧
    ∀ s ∈ gone, ∃ i ∈ winners h, Found h i (some s) ∧
      ∀ r, p.threads[i]? = some (.done r) → logouts h = [(i, s.directory)]
  /-- There were two sessions at most. -/
  two : (accepted h).length ≤ 2

/-- **One shutdown.** In every interleaving of callers that use the session, shut down or stop, with
any answers to their calls, all is in order; and whatever calls answer from then on, the callers can
come to an end. -/
theorem recorded_released (run : Pool.Recorded (Caller.pool callers world) h p) :
    Released callers world h p ∧ ∀ serve, ∃ r rs, Pool.Steps serve p r ∧ r.results? = some rs := by
  obtain ⟨p, places, trace, rfl⟩ := Caller.exists_trace run
  have ends {i : Nat} {r : Report δ} (finished : (p.relabel fun i =>
      (callers[i]?).elim .response Caller.tells).threads[i]? = some (.done r)) :
      ∃ r', places[i]? = some (.ended r') ∧ r = (callers[i]?).elim .response Caller.tells r' := by
    obtain ⟨r', at_i, rfl⟩ := Pool.relabel_done finished
    exact ⟨r', trace.place_of_done at_i, rfl⟩
  refine ⟨{
    winner := ⟨trace.winners_le, fun i won => by simpa using trace.winner_shutdown won⟩
    result := fun i c r at_i stops finished => ?result
    logout := trace.logout_found
    found := fun i won r finished => ?found
    overtaken := ?overtaken
    swallowed := ?swallowed
    taken := ?taken
    vacant := ?vacant
    installed := trace.slot_eq
    sessions := ?sessions
    two := ?two }, fun serve => ?ended⟩
  case result =>
    obtain ⟨r', here, rfl⟩ := ends finished
    rw [at_i]
    exact Caller.told_first trace at_i stops here
  case found =>
    obtain ⟨r', here, -⟩ := ends finished
    exact trace.winner_logouts won here
  case overtaken =>
    rintro h₁ j h₂ i h₃ c d h₄ rfl r finished
    obtain ⟨r', here, -⟩ := ends finished
    exact trace.connect_overtaken_logout here
  case swallowed =>
    rintro h₁ i d r h₂ rfl r'
    exact recorded_logout_answer run r'
  case taken =>
    rintro h₁ i o h₂ won rfl
    exact trace.taking_alone (trace.winner_shutdown won)
  case vacant =>
    -- the slot in the middle of the history is what was installed there
    rintro h₁ i h₂ h₃ rfl s at_slot
    rw [← List.cons_append, ← List.append_assoc] at run
    obtain ⟨q, before⟩ := run.of_append
    obtain ⟨q, places', trace', rfl⟩ := Caller.exists_trace before
    exact trace'.connected_of_unlock (trace'.slot_eq.trans at_slot)
  case sessions =>
    obtain ⟨gone, pending, account, few, few', free, origin⟩ := trace.accepted_account
    refine ⟨gone, pending, account, few, few', free, fun s mem => ?_⟩
    obtain ⟨i, won, found, left⟩ := origin s mem
    refine ⟨i, won, found, fun r finished => ?_⟩
    obtain ⟨r', here, -⟩ := ends finished
    exact left r' here
  case two =>
    obtain ⟨gone, pending, account, few, few', -⟩ := trace.accepted_account
    rw [account]
    simp only [List.map_append, List.length_append, List.length_map]
    omega
  case ended =>
    obtain ⟨q, rs, more, ended⟩ : ∃ q rs, Pool.Steps serve p q ∧ q.results? = some rs :=
      trace.can_end trivial
    exact ⟨_, _, more.relabel, Pool.results?_relabel _ ended⟩

/-- Answers of a directory from which nobody can log out; the state counts the connections. -/
def refuseLogout : (c : Call Nat) → StateM Nat c.Answer
  | .load => pure (.ok default)
  | .connect _ => fun n => (.ok n, n + 1)
  | .hardware _ _ => pure (.ok none)
  | .tags _ _ => pure (.ok [])
  | .attach _ _ _ => pure (.ok ())
  | .logout _ => pure (.error (.logout (.injected .logout)))

/-- Four callers that take turns: the process is stopped while the first one connects, and another
connection is made after the logout, which fails. -/
theorem recorded_released_refuseLogout : ∃ h p,
    Pool.Recorded (Caller.pool [.request (.ensure default), .stop, .request .shutdown,
      .request (.ensure default)] 0) h p ∧
    p.results? = some [.response (.ensured (.ok ⟨1, 0⟩)), .line (some "directory session released"),
      .response (.shutdown false), .response (.ensured (.ok ⟨2, 1⟩))] ∧
    Released [.request (.ensure default), .stop, .request .shutdown, .request (.ensure default)] 0
      h p := by
  obtain ⟨h, run⟩ := Pool.anySteps_iff_recorded.mp (Pool.steps_rounds refuseLogout 9 _).any
  exact ⟨h, _, run, rfl, (recorded_released run).1⟩

end TierTagger.Sessions
