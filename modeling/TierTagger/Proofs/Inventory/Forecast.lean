import Mathlib.Tactic.Abel
import TierTagger.Proofs.Inventory.Replay
import TierTagger.Proofs.Inventory.Stage

/-!
# Forecasts

What will come of payloads that are handled beside each other, told before it happens. The content
of an inventory stays, so all its answers are known. Only who connects is open, and that makes no
difference in the end: if connections fail, everybody who needs a session makes one; else one of
them does.

- **One payload** (`Stage.reply`, `Stage.due`): its reply, and what it will add to the records.
- **The session** (`awaited`): what the one connection will add, and the shared state after it.
- `Foreseen.forecast_eq`: no step changes the forecast for all payloads.
- `Trace.forecast_over`: when all is over, it is what there is.
-/

namespace TierTagger.Inventory

open Sessions (Log Pool Protocol Question)
open Sessions.Protocol (Guarded Traced getElem?_set_place inside)
open Tagging (Target reply)

variable (source : Configuration.Source) (i : Inventory) (refusal : Option Directory.Error)

/-! ## One payload -/

/-- Why nobody gets a session, if so: there is none, and connections fail. -/
def refusal? (i : Inventory) (installed : Option (Session Unit)) : Option Directory.Error :=
  match installed with
  | some _ => none
  | none =>
    match i.login with
    | .error e => some e
    | .ok _ => none

/-- What a dialogue adds to the records. -/
def bill (d : Dialogue Access.Answer Reply) : Tally :=
  ((d.questions (told source i)).map (cost source i)).sum

/-- What a connection adds. -/
def opening : Tally := cost source i .beginConnect + cost source i .endConnect

/-- The reply to an alarm with a target, after the parameters are loaded. -/
def verdict (t : Target) : Reply :=
  match refusal with
  | some e => reply (.error (.connect e))
  | none => (tagging t).result (told source i)

/-- What is added after a connection, or after the session is found. -/
def later (t : Target) : Tally :=
  match refusal with
  | some _ => 0
  | none => bill source i (tagging t)

namespace Stage

/-- The reply that is on its way. -/
def reply : Stage → Reply
  | loading t =>
    match told source i .load with
    | .error e => Tagging.reply (.error (.configuration e))
    | .ok _ => verdict source i refusal t
  | waiting t | found t _ | beginning t | ending t | numbering t | numbered t _ =>
    verdict source i refusal t
  | refused e => Tagging.reply (.error (.connect e))
  | working d => d.result (told source i)

/-- What is still to be added to the records. Who waits for the session pays for a connection only
if all who wait will have to make one. -/
def due : Stage → Tally
  | loading t => cost source i .load +
    match told source i .load with
    | .error _ => 0
    | .ok _ => (if refusal.isSome then opening source i else 0) + later source i refusal t
  | waiting t => (if refusal.isSome then opening source i else 0) + later source i refusal t
  | beginning t => opening source i + later source i refusal t
  | ending t => cost source i .endConnect + later source i refusal t
  | found t _ | numbering t | numbered t _ => later source i refusal t
  | refused _ => 0
  | working d => bill source i d

/-- The handling will look for the session. -/
def needs : Stage → Bool
  | loading _ => (told source i .load).isOk
  | waiting _ => true
  | _ => false

/-- The stage is reached with connections as they are. -/
def Fits : Stage → Prop
  | found _ _ | numbering _ | numbered _ _ => refusal = none
  | refused e => refusal = some e
  | _ => True

end Stage

/-! ### One move -/

/-- Calls are answered by the inventory. -/
def Granted : (q : Question Unit Access) → q.Answer Access.Answer → Prop
  | .call a, r => r = told source i a
  | _, _ => True

/-- What a question adds to the records. -/
def charge : Question Unit Access → Tally
  | .call a => cost source i a
  | _ => 0

variable {source i refusal} {stage stage' : Stage} {q : Question Unit Access}
variable {a : q.Answer Access.Answer}

@[simp] theorem bill_done (r : Reply) : bill source i (.done r) = 0 := rfl

theorem bill_ask (access : Access) (next : access.Answer → Dialogue Access.Answer Reply) :
    bill source i (.ask access next) =
      cost source i access + bill source i (next (told source i access)) := rfl

/-- A move does not change the reply. -/
theorem Stage.Moves.reply_eq (moves : Moves stage q a stage') (granted : Granted source i q a)
    (fits : stage.Fits refusal) (fits' : stage'.Fits refusal) :
    stage'.reply source i refusal = stage.reply source i refusal := by
  cases moves with
  | unloaded t e | loaded t p =>
    simp only [Granted] at granted
    simp [reply, ← granted]
  | refuse t e => simp_all [reply, verdict, Fits]
  | reuse t x | install t x => simp_all [reply, verdict, Fits]
  | work access next b => simp_all [reply, Granted]
  | find | miss | begin | accept | giveUp | number => rfl

/-- A move without the lock is paid from what is due. -/
theorem Stage.Moves.due_eq (moves : Moves stage q a stage') (granted : Granted source i q a)
    (fits : stage.Fits refusal) (fits' : stage'.Fits refusal) (lock : q ≠ .lock) :
    charge source i q + stage'.due source i refusal = stage.due source i refusal := by
  cases moves with
  | unloaded t e | loaded t p =>
    simp only [Granted] at granted
    simp [due, charge, ← granted]
  | begin t => simp [due, charge, opening, add_assoc]
  | refuse t e => simp_all [due, charge, later, Fits]
  | accept t d => rfl
  | giveUp e => simp [due, charge]
  | number t n => simp [due, charge]
  | reuse t x | install t x => simp_all [due, charge, later, Fits]
  | work access next b => simp_all [due, charge, Granted, bill_ask]
  | find | miss => exact absurd rfl lock

/-- Without the lock, who needs the session still does. -/
theorem Stage.Moves.needs_eq (moves : Moves stage q a stage') (granted : Granted source i q a)
    (out : ¬stage.Holds) (lock : q ≠ .lock) :
    stage'.needs source i = stage.needs source i := by
  cases moves with
  | unloaded t e | loaded t p =>
    simp only [Granted] at granted
    simp [needs, ← granted, Except.isOk, Except.toBool]
  | work => rfl
  | find | miss => exact absurd rfl lock
  | _ => exact absurd trivial out

/-! ## The session -/

/-- What is still to come of the one connection that succeeds: what it will add to the records, if
nobody makes it yet, and the shared state after it. The lock is held at stage `o`. -/
def awaited (source : Configuration.Source) (i : Inventory) (refusal : Option Directory.Error)
    (s : Sessions Unit) (o : Option Stage) (needed : Bool) : Tally × Sessions Unit :=
  match refusal, s.installed, o with
  | none, none, none => if needed then (opening source i, s.install ()) else (0, s)
  | none, none, some (.numbered _ x) => (0, { s with installed := some x })
  | none, none, some _ => (0, s.install ())
  | _, _, _ => (0, s)

variable {s : Sessions Unit} {o : Option Stage} {needed : Bool}

theorem awaited_installed {x : Session Unit} (installed : s.installed = some x) :
    awaited source i refusal s o needed = (0, s) := by
  unfold awaited
  rw [installed]
  cases refusal <;> rfl

@[simp] theorem awaited_refused (e : Directory.Error) :
    awaited source i (some e) s o needed = (0, s) := rfl

@[simp] theorem awaited_idle : awaited source i refusal s none false = (0, s) := by
  unfold awaited
  cases refusal <;> cases s.installed <;> rfl

/-- What is awaited at a state. -/
def session (source : Configuration.Source) (i : Inventory) (refusal : Option Directory.Error)
    (p : Pool Unit Inventory Access.Answer Reply) (stages : List Stage) : Tally × Sessions Unit :=
  awaited source i refusal p.sessions (inside p.owner stages) (stages.any (Stage.needs source i))

/-! ## All payloads -/

/-- What will come of payloads. -/
structure Forecast where
  replies : List Reply
  tally : Tally
  sessions : Sessions Unit

/-- The forecast at a state. -/
def forecast (source : Configuration.Source) (i : Inventory) (refusal : Option Directory.Error)
    (p : Pool Unit Inventory Access.Answer Reply) (stages : List Stage) : Forecast where
  replies := stages.map (Stage.reply source i refusal)
  tally := p.world.tally + (stages.map (Stage.due source i refusal)).sum +
    (session source i refusal p stages).1
  sessions := (session source i refusal p stages).2

/-- The state is as the forecast takes it to be. -/
structure Foreseen (i : Inventory) (refusal : Option Directory.Error)
    (p : Pool Unit Inventory Access.Answer Reply) (stages : List Stage) : Prop where
  content : p.world.content = i.content
  login : refusal? i p.sessions.installed = refusal
  fits : ∀ stage ∈ stages, stage.Fits refusal

/-! ### One step -/

section
variable {p : Pool Unit Inventory Access.Answer Reply} {stages : List Stage} {k : Nat}
variable (source)

theorem granted_answerTo (content : p.world.content = i.content) (q : Question Unit Access) :
    Granted source i q (p.answerTo (access source) q) := by
  cases q with
  | call a => exact congrFun (told_eq source content) a
  | _ => trivial

/-- A step adds to the records what its question adds. -/
theorem after_tally (content : p.world.content = i.content) (q : Question Unit Access) :
    (p.after (access source) k q).world.tally = p.world.tally + charge source i q := by
  cases q with
  | call a =>
    refine (accessed_tally source p.world a).trans ?_
    rw [← cost_content, content]
    rfl
  | _ => exact (add_zero _).symm

theorem after_content (q : Question Unit Access) :
    (p.after (access source) k q).world.content = p.world.content := by
  cases q with
  | call a => exact accessed_content source p.world a
  | _ => rfl

variable {source}

/-- Only logins that are as the refusal says are met. -/
theorem Foreseen.fits_after (f : Foreseen i refusal p stages) (g : Guarded Stage.protocol p stages)
    (here : stages[k]? = some stage)
    (moves : Stage.Moves stage q (p.answerTo (access source) q) stage') : stage'.Fits refusal := by
  have granted := granted_answerTo source f.content q
  have sees : stage.Sees _ := g.sees k stage here
  have fits := f.fits stage (List.mem_of_getElem? here)
  have login := f.login
  generalize told : p.answerTo (access source) q = a at moves granted
  cases moves with
  | find t x =>
    rw [show p.sessions.installed = some x from told] at login
    exact login.symm
  | refuse t e =>
    simp only [Granted, told_endConnect] at granted
    simp only [show p.sessions.installed = none from sees, refusal?, ← granted] at login
    exact login.symm
  | accept t d =>
    simp only [Granted, told_endConnect] at granted
    simp only [show p.sessions.installed = none from sees, refusal?, ← granted] at login
    exact login.symm
  | number t n => exact fits
  | _ => trivial

/-- What the refusal says stays. -/
theorem Foreseen.login_after (f : Foreseen i refusal p stages) (g : Guarded Stage.protocol p stages)
    (here : stages[k]? = some stage) (moves : Stage.Moves stage q a stage') :
    refusal? i (p.after (access source) k q).sessions.installed = refusal := by
  have sees : stage.Sees _ := g.sees k stage here
  have fits := f.fits stage (List.mem_of_getElem? here)
  cases moves with
  | reuse t x =>
    rw [← f.login, show p.sessions.installed = some x from sees]
    rfl
  | giveUp e =>
    rw [← f.login, show p.sessions.installed = none from sees]
    rfl
  | install t x => exact (show refusal = none from fits).symm
  | _ => exact f.login

theorem Foreseen.step (f : Foreseen i refusal p stages) (g : Guarded Stage.protocol p stages)
    (here : stages[k]? = some stage)
    (moves : Stage.Moves stage q (p.answerTo (access source) q) stage') :
    Foreseen i refusal ((p.after (access source) k q).resume k stage'.rest)
      (stages.set k stage') := by
  refine ⟨(after_content source q).trans f.content, f.login_after g here moves, fun other mem => ?_⟩
  rcases List.mem_or_eq_of_mem_set mem with mem | rfl
  · exact f.fits other mem
  · exact f.fits_after g here moves

/-- What is awaited stays, unless somebody gets the lock. -/
theorem Foreseen.session_eq (f : Foreseen i refusal p stages) (g : Guarded Stage.protocol p stages)
    (here : stages[k]? = some stage) (lock : q ≠ .lock)
    (moves : Stage.Moves stage q (p.answerTo (access source) q) stage') :
    session source i refusal (p.after (access source) k q) (stages.set k stage') =
      session source i refusal p stages := by
  have granted := granted_answerTo source f.content q
  have sees : stage.Sees _ := g.sees k stage here
  have fits := f.fits stage (List.mem_of_getElem? here)
  have outside (out : ¬stage.Holds) (sessions : (p.after (access source) k q).sessions = p.sessions)
      (owner : (p.after (access source) k q).owner = p.owner) :
      session source i refusal (p.after (access source) k q)
        (stages.set k stage') = session source i refusal p stages := by
    obtain ⟨l₁, l₂, split, split'⟩ := Pool.exists_split here stage'
    have needed : (stages.set k stage').any (Stage.needs source i) =
        stages.any (Stage.needs source i) := by
      rw [split', split, List.any_append, List.any_append, List.any_cons, List.any_cons,
        moves.needs_eq granted out lock]
    unfold session
    rw [needed, sessions, owner, g.inside_set_ne here out]
  generalize told : p.answerTo (access source) q = a at moves
  cases moves with
  | unloaded | loaded | work => exact outside id rfl rfl
  | begin | refuse | accept =>
    unfold session
    rw [g.inside_eq here trivial]
    show awaited _ _ _ p.sessions (inside p.owner _) _ = _
    rw [g.inside_set here trivial]
    unfold awaited
    rw [show p.sessions.installed = none from sees]
    cases refusal <;> rfl
  | number t n =>
    unfold session
    rw [g.inside_eq here trivial]
    show awaited _ _ _ { p.sessions with nextId := p.sessions.nextId + 1 } (inside p.owner _) _ = _
    rw [g.inside_set here trivial]
    obtain rfl : p.sessions.nextId = n := told
    obtain rfl : refusal = none := fits
    unfold awaited
    rw [show p.sessions.installed = none from sees]
    rfl
  | giveUp e =>
    obtain rfl : refusal = some e := fits
    unfold session
    rw [awaited_refused, awaited_refused]
    show (_, { p.sessions with installed := none }) = _
    rw [← show p.sessions.installed = none from sees]
  | reuse t x =>
    unfold session
    rw [awaited_installed (x := x) sees, awaited_installed (x := x) rfl]
    show (_, { p.sessions with installed := some x }) = _
    rw [← show p.sessions.installed = some x from sees]
  | install t x =>
    obtain rfl : refusal = none := fits
    unfold session
    rw [g.inside_eq here trivial, awaited_installed (x := x) rfl]
    unfold awaited
    rw [show p.sessions.installed = none from sees]
    rfl
  | find | miss => exact absurd rfl lock

/-- Who gets the lock takes the connection that is awaited upon itself. -/
theorem Foreseen.session_lock (f : Foreseen i refusal p stages) (here : stages[k]? = some stage)
    (free : p.owner = none) (moves : Stage.Moves stage .lock p.sessions.installed stage') :
    stage'.due source i refusal +
        (session source i refusal (p.after (access source) k .lock)
          (stages.set k stage')).1 =
      stage.due source i refusal + (session source i refusal p stages).1 ∧
    (session source i refusal (p.after (access source) k .lock)
      (stages.set k stage')).2 = (session source i refusal p stages).2 := by
  have login := f.login
  generalize told : p.sessions.installed = installed at moves login
  cases moves with
  | find t x =>
    obtain rfl : none = refusal := login
    unfold session
    have told' : (p.after (access source) k .lock).sessions.installed = some x := told
    rw [awaited_installed told, awaited_installed told']
    exact ⟨by simp [Stage.due], rfl⟩
  | miss t =>
    have enters : inside (some k) (stages.set k (.beginning t)) = some (.beginning t) := by
      simp [inside, getElem?_set_place here]
    have needed : stages.any (Stage.needs source i) = true :=
      List.any_eq_true.mpr ⟨_, List.mem_of_getElem? here, rfl⟩
    unfold session
    show _ + (awaited _ _ _ p.sessions (inside (some k) _) _).1 = _ ∧
      (awaited _ _ _ p.sessions (inside (some k) _) _).2 = _
    rw [enters, free, needed]
    unfold awaited
    rw [told]
    cases refusal with
    | some e => exact ⟨by simp [Stage.due], rfl⟩
    | none => exact ⟨by simp [Stage.due, inside, add_comm], rfl⟩

/-- **No step changes the forecast.** -/
theorem Foreseen.forecast_eq (f : Foreseen i refusal p stages) (g : Guarded Stage.protocol p stages)
    (here : stages[k]? = some stage) (free : q = .lock → p.owner = none)
    (moves : Stage.Moves stage q (p.answerTo (access source) q) stage') :
    forecast source i refusal (p.after (access source) k q)
      (stages.set k stage') = forecast source i refusal p stages := by
  have granted := granted_answerTo source f.content q
  have fits := f.fits stage (List.mem_of_getElem? here)
  have fits' := f.fits_after g here moves
  have paid : charge source i q + stage'.due source i refusal +
        (session source i refusal (p.after (access source) k q)
          (stages.set k stage')).1 =
      stage.due source i refusal + (session source i refusal p stages).1 ∧
    (session source i refusal (p.after (access source) k q)
      (stages.set k stage')).2 = (session source i refusal p stages).2 := by
    by_cases lock : q = .lock
    · subst lock
      simp only [charge, zero_add]
      exact f.session_lock here (free rfl) moves
    · rw [moves.due_eq granted fits fits' lock, f.session_eq g here lock moves]
      exact ⟨rfl, rfl⟩
  obtain ⟨l₁, l₂, split, split'⟩ := Pool.exists_split here stage'
  have replies : (stages.set k stage').map (Stage.reply source i refusal) =
      stages.map (Stage.reply source i refusal) := by
    rw [split', split, List.map_append, List.map_append, List.map_cons, List.map_cons,
      moves.reply_eq granted fits fits']
  let others : Tally := ((l₁ ++ l₂).map (Stage.due source i refusal)).sum
  have sum (x : Stage) : ((l₁ ++ x :: l₂).map (Stage.due source i refusal)).sum =
      x.due source i refusal + others := by
    simp [others, add_left_comm]
  have before : (stages.map (Stage.due source i refusal)).sum =
      stage.due source i refusal + others := by
    rw [← sum, ← split]
  have after : ((stages.set k stage').map (Stage.due source i refusal)).sum =
      stage'.due source i refusal + others := by
    rw [← sum, ← split']
  unfold forecast
  rw [replies, paid.2, after_tally source f.content, before, after]
  refine congrArg (Forecast.mk _ · _) ?_
  generalize
    (session source i refusal (p.after (access source) k q) (stages.set k stage')).1 = rest' at paid
  calc p.world.tally + charge source i q + (stage'.due source i refusal + others) + rest'
    _ = p.world.tally + others + (charge source i q + stage'.due source i refusal + rest') := by abel
    _ = p.world.tally + others +
        (stage.due source i refusal + (session source i refusal p stages).1) := by rw [paid.1]
    _ = p.world.tally + (stage.due source i refusal + others) +
        (session source i refusal p stages).1 := by abel

end

/-! ### Runs -/

/-- The traces of payloads that are handled on an inventory. -/
abbrev Trace (source : Configuration.Source) (s : Sessions Unit) (i : Inventory)
    (stages₀ : List Stage) :=
  Traced Stage.protocol (· = access source) s i stages₀

variable {stages₀ stages : List Stage} {h : Log Unit Access.Answer} {k : Nat}
variable {p : Pool Unit Inventory Access.Answer Reply}

theorem Stage.fits_of_outside (out : ¬stage.Holds) : stage.Fits refusal := by
  cases stage with
  | loading | waiting | working => trivial
  | _ => exact absurd trivial out

/-- **The forecast of all traces.** It is the one at the start. -/
theorem Trace.foreseen (trace : Trace source s i stages₀ h p stages) :
    Foreseen i (refusal? i s.installed) p stages ∧
      forecast source i (refusal? i s.installed) p stages =
        forecast source i (refusal? i s.installed) (.start s i []) stages₀ := by
  induction trace with
  | start outside =>
    exact ⟨⟨rfl, rfl, fun stage mem => Stage.fits_of_outside (outside stage mem)⟩, rfl⟩
  | step before allowed here free moves ih =>
    subst allowed
    obtain ⟨foreseen, same⟩ := ih
    exact ⟨foreseen.step before.guarded here moves,
      (foreseen.forecast_eq before.guarded here free moves).trans same⟩

/-- Attachments are added behind those there were. -/
theorem Trace.attachments (trace : Trace source s i stages₀ h p stages) :
    i.attachments <+: p.world.attachments := by
  induction trace with
  | start _ => exact List.prefix_rfl
  | @step h p stages _ serve allowed k q _ _ _ _ _ ih =>
    subst allowed
    cases q with
    | call a => exact ih.trans (prefix_accessed source p.world a)
    | _ => exact ih

/-- A reply that is given was forecast. -/
theorem Trace.reply_eq (trace : Trace source s i stages₀ h p stages) {r : Reply}
    (done : p.threads[k]? = some (.done r)) :
    (stages₀.map (Stage.reply source i (refusal? i s.installed)))[k]? = some r := by
  have replies := congrArg Forecast.replies trace.foreseen.2
  obtain ⟨stage, here, ended⟩ := trace.at_thread done
  obtain rfl := Stage.eq_working ended
  show (forecast source i (refusal? i s.installed) (.start s i []) stages₀).replies[k]? = some r
  rw [← replies, forecast, List.getElem?_map, here]
  rfl

theorem Stage.eq_over {rs : List Reply} (ended : stages.map rest = rs.map .done) :
    stages = rs.map fun r => working (.done r) := by
  induction stages generalizing rs with
  | nil => cases rs with
    | nil => rfl
    | cons r rs => cases ended
  | cons stage stages ih =>
    cases rs with
    | nil => cases ended
    | cons r rs =>
      obtain ⟨first, others⟩ := List.cons_eq_cons.mp ended
      rw [List.map_cons, ih others, eq_working first]

/-- When all is over, the forecast is what there is. -/
theorem Trace.forecast_over (trace : Trace source s i stages₀ h p stages) {rs : List Reply}
    (ended : p.results? = some rs) :
    forecast source i (refusal? i s.installed) (.start s i []) stages₀ =
      ⟨rs, p.world.tally, p.sessions⟩ := by
  have threads := Pool.results?_eq_some.mp ended
  rw [trace.threads] at threads
  obtain rfl := Stage.eq_over threads
  have owner : p.owner = none := by
    refine Option.eq_none_iff_forall_not_mem.mpr fun k owner => ?_
    obtain ⟨stage, here, holds⟩ := (trace.guarded.owner k).mp owner
    rw [List.getElem?_map, Option.map_eq_some_iff] at here
    obtain ⟨r, -, rfl⟩ := here
    exact holds
  have needed : (rs.map fun r => Stage.working (.done r)).any (Stage.needs source i) = false := by
    rw [List.any_map]
    exact List.any_eq_false.mpr fun _ _ => Bool.false_ne_true
  have paid : ((rs.map fun r => .working (.done r)).map
      (Stage.due source i (refusal? i s.installed))).sum = 0 := by
    refine List.sum_eq_zero fun t mem => ?_
    simp only [List.map_map, List.mem_map] at mem
    obtain ⟨r, -, rfl⟩ := mem
    rfl
  have said : (rs.map fun r => .working (.done r)).map
      (Stage.reply source i (refusal? i s.installed)) = rs := by
    rw [List.map_map]
    exact List.map_id rs
  rw [← trace.foreseen.2, forecast, session, owner, needed, paid, said]
  show Forecast.mk rs (_ + 0 + (awaited _ _ _ _ none false).1) (awaited _ _ _ _ none false).2 = _
  rw [awaited_idle, add_zero, add_zero]

end TierTagger.Inventory
