import TierTagger.Proofs.Session.Requests

/-!
# What a history tells about sessions

The entries of requests as a ledger: what was put behind the lock (`slot`), which sessions are new
there (`installs`), what connections were answered (`answers`, `accepted`).

- `Traced.slot_eq`: the installed session is the one the ledger ends with.
- `Traced.numbered`: the sessions that were installed are those of the successful connections, in
  order, and their numbers are 1, 2, 3, …. At most one connection, that of the request with the
  lock, is still to be installed.
-/

namespace TierTagger.Sessions

open Directory (Error)
open Protocol (Guarded Traced getElem?_set_place inside)

variable {δ σ : Type}

/-! ## Ledgers -/

/-- The session behind the lock after an entry. -/
def Pool.Entry.leaves (o : Option (Session δ)) (e : Pool.Entry δ (Call.Answer (δ := δ))) :
    Option (Session δ) :=
  match e.question with
  | .unlock o' => o'
  | _ => o

/-- The session that an entry puts behind the lock, if there was none. -/
def Pool.Entry.installs (o : Option (Session δ)) (e : Pool.Entry δ (Call.Answer (δ := δ))) :
    List (Session δ) :=
  match o, e.question with
  | none, .unlock (some s) => [s]
  | _, _ => []

/-- What a connection was answered, if the entry is one. -/
def Pool.Entry.connection? : Pool.Entry δ (Call.Answer (δ := δ)) → Option (Except Error δ)
  | ⟨_, .call (.connect _), r⟩ => some r
  | _ => none

/-- The session behind the lock after a history; there is none before it. -/
def slot (h : Log δ (Call.Answer (δ := δ))) : Option (Session δ) := h.foldl Pool.Entry.leaves none

/-- The sessions that were put behind the lock where `o` was at first. -/
def installsFrom : Option (Session δ) → Log δ (Call.Answer (δ := δ)) → List (Session δ)
  | _, [] => []
  | o, e :: h => e.installs o ++ installsFrom (e.leaves o) h

/-- The sessions that were put behind the lock when there was none, in order. -/
def installs (h : Log δ (Call.Answer (δ := δ))) : List (Session δ) := installsFrom none h

/-- What the connections were answered, in order. -/
def answers (h : Log δ (Call.Answer (δ := δ))) : List (Except Error δ) :=
  h.filterMap Pool.Entry.connection?

/-- The directories of the connections that succeeded, in order. -/
def accepted (h : Log δ (Call.Answer (δ := δ))) : List δ := (answers h).filterMap Except.toOption

/-- How many numbers of sessions were taken. -/
def issued (h : Log δ (Call.Answer (δ := δ))) : Nat := h.countP fun e => e.question matches .number

section
variable (h : Log δ (Call.Answer (δ := δ))) (e : Pool.Entry δ (Call.Answer (δ := δ)))

@[simp] theorem slot_nil : slot ([] : Log δ (Call.Answer (δ := δ))) = none := rfl

@[simp] theorem slot_concat : slot (h ++ [e]) = e.leaves (slot h) := by simp [slot]

@[simp] theorem installs_nil : installs ([] : Log δ (Call.Answer (δ := δ))) = [] := rfl

@[simp] theorem installs_concat : installs (h ++ [e]) = installs h ++ e.installs (slot h) := by
  unfold installs slot
  generalize (none : Option (Session δ)) = o
  induction h generalizing o with
  | nil => simp [installsFrom]
  | cons x h ih => simp [installsFrom, ih]

@[simp] theorem answers_nil : answers ([] : Log δ (Call.Answer (δ := δ))) = [] := rfl

@[simp] theorem answers_concat : answers (h ++ [e]) = answers h ++ e.connection?.toList := by
  cases hc : e.connection? <;> simp [answers, hc]

theorem mem_answers {h : Log δ (Call.Answer (δ := δ))} {r : Except Error δ} :
    r ∈ answers h ↔ ∃ i p, (⟨i, .call (.connect p), r⟩ : Pool.Entry δ Call.Answer) ∈ h := by
  rw [answers, List.mem_filterMap]
  constructor
  · rintro ⟨⟨i, q, a⟩, mem, hr⟩
    unfold Pool.Entry.connection? at hr
    split at hr
    · next same => cases same; cases hr; exact ⟨_, _, mem⟩
    · cases hr
  · rintro ⟨i, p, mem⟩
    exact ⟨_, mem, rfl⟩

@[simp] theorem accepted_nil : accepted ([] : Log δ (Call.Answer (δ := δ))) = [] := rfl

@[simp] theorem accepted_concat :
    accepted (h ++ [e]) = accepted h ++ (e.connection?.toList.filterMap Except.toOption) := by
  simp [accepted]

@[simp] theorem issued_nil : issued ([] : Log δ (Call.Answer (δ := δ))) = 0 := rfl

@[simp] theorem issued_concat :
    issued (h ++ [e]) = issued h + if e.question matches .number then 1 else 0 := by
  simp [issued, List.countP_append, List.countP_cons]

end

variable {requests : List Request} {world : σ} {h : Log δ (Call.Answer (δ := δ))}
variable {p : Pool δ σ (Call.Answer (δ := δ)) (Response δ)} {places : List (Place δ)}
variable {place place' : Place δ} {i : Nat}

theorem Protocol.Traced.slot_eq (trace : Request.Trace requests world h p places) :
    p.sessions.installed = slot h := by
  induction trace with
  | start _ => rfl
  | @step h p _ _ _ _ _ q _ _ _ _ _ ih =>
    rw [slot_concat, ← ih]
    cases q <;> rfl

theorem Protocol.Traced.issued_eq (trace : Request.Trace requests world h p places) :
    p.sessions.nextId = issued h + 1 := by
  induction trace with
  | start _ => rfl
  | @step h p _ _ _ _ _ q _ _ _ _ _ ih =>
    rw [issued_concat]
    cases q with
    | number => exact congrArg (· + 1) ih
    | _ => exact ih

/-! ## The request with the lock -/

/-- The directory of a connection that is still to be installed. -/
def Place.pending : Place δ → List δ
  | accepted d => [d]
  | numbered s => [s.directory]
  | _ => []

/-- How many numbers are still to be installed. -/
def Place.numbers : Place δ → Nat
  | numbered _ => 1
  | _ => 0

/-! ## Numbers -/

/-- The books of a process: `o` is the place of the request with the lock. -/
structure Numbered (h : Log δ (Call.Answer (δ := δ))) (o : Option (Place δ)) : Prop where
  ids : (installs h).map (·.id) = List.range' 1 (installs h).length
  issued : issued h = (installs h).length + o.elim 0 Place.numbers
  accepted : accepted h = (installs h).map (·.directory) ++ o.elim [] Place.pending
  next : ∀ s, o = some (.numbered s) → s.id = (installs h).length + 1

/-- Nothing is booked by an entry that is neither a connection that succeeds, nor takes a number,
nor installs a session. -/
theorem Numbered.keep {o o' : Option (Place δ)} {e : Pool.Entry δ (Call.Answer (δ := δ))}
    (n : Numbered h o) (installs : e.installs (slot h) = [])
    (refused : e.connection?.toList.filterMap Except.toOption = [])
    (number : e.question ≠ .number) (pending : o'.elim [] Place.pending = o.elim [] Place.pending)
    (numbers : o'.elim 0 Place.numbers = o.elim 0 Place.numbers)
    (next : ∀ s, o' = some (.numbered s) → o = o') : Numbered (h ++ [e]) o' := by
  have same : Sessions.installs (h ++ [e]) = Sessions.installs h := by simp [installs]
  refine ⟨by rw [same]; exact n.ids, ?_, ?_, fun s at_s => ?_⟩
  · rw [same, issued_concat, numbers, n.issued]
    cases hq : e.question <;> simp_all
  · rw [same, accepted_concat, refused, List.append_nil, pending, n.accepted]
  · rw [same]
    exact n.next s ((next s at_s).trans at_s)

/-- **The books are kept.** One case for each move. -/
theorem Numbered.step {serve} {q : Question δ (Call δ)} (g : Guarded Place.protocol p places)
    (slot_eq : p.sessions.installed = slot h) (issued_eq : p.sessions.nextId = Sessions.issued h + 1)
    (n : Numbered h (inside p.owner places)) (here : places[i]? = some place)
    (free : q = .lock → p.owner = none) (moves : Moves place q (p.answerTo serve q) place') :
    Numbered (h ++ [⟨i, q, p.answerTo serve q⟩])
      (inside ((p.after serve i q).resume i place'.rest).owner (places.set i place')) := by
  have sees : place.Sees p.sessions.installed := g.sees i place here
  rw [slot_eq] at sees
  have locked (lock : q = .lock) : inside p.owner places = none := by simp [inside, free lock]
  have enters (lock : q = .lock) :
      inside ((p.after serve i q).resume i place'.rest).owner (places.set i place') =
        some place' := by
    subst lock
    simp [inside, Pool.after, getElem?_set_place here]
  generalize told : p.answerTo serve q = a at moves ⊢
  cases moves with
  | find c s | miss c | look o | take o =>
    rw [enters rfl]
    rw [locked rfl] at n
    exact n.keep (by simp [Pool.Entry.installs]) rfl (by simp) rfl rfl (by simp)
  | reuse s | giveUp e | putBack o | empty | leave s =>
    rw [g.inside_eq here trivial] at n
    show Numbered _ none
    simp only [Place.Sees] at sees
    exact n.keep (by simp [Pool.Entry.installs, sees]) rfl (by simp) rfl rfl (by simp)
  | refuse c e =>
    rw [g.inside_eq here trivial] at n
    show Numbered _ (inside p.owner _)
    rw [g.inside_set here trivial]
    exact n.keep (by simp [Pool.Entry.installs]) rfl (by simp) rfl rfl (by simp)
  | accept c d =>
    rw [g.inside_eq here trivial] at n
    show Numbered _ (inside p.owner _)
    rw [g.inside_set here trivial]
    refine ⟨?_, ?_, ?_, by simp⟩
    · simpa [Pool.Entry.installs] using n.ids
    · simpa [Pool.Entry.installs, Place.numbers] using n.issued
    · simp [Pool.Entry.installs, Pool.Entry.connection?, Except.toOption, n.accepted, Place.pending]
  | number d m =>
    rw [g.inside_eq here trivial] at n
    show Numbered _ (inside p.owner _)
    rw [g.inside_set here trivial]
    have at_m : m = Sessions.issued h + 1 := told.symm.trans issued_eq
    refine ⟨?_, ?_, ?_, ?_⟩
    · simpa [Pool.Entry.installs] using n.ids
    · simpa [Pool.Entry.installs, Place.numbers] using n.issued
    · simp [Pool.Entry.installs, Pool.Entry.connection?, n.accepted, Place.pending]
    · rintro s ⟨rfl⟩
      simpa [Pool.Entry.installs, Place.numbers, at_m] using n.issued
  | install s =>
    rw [g.inside_eq here trivial] at n
    show Numbered _ none
    simp only [Place.Sees] at sees
    have next := n.next s rfl
    refine ⟨?_, ?_, ?_, by simp⟩
    · have more : installs (h ++ [⟨i, .unlock (some s), ()⟩]) = installs h ++ [s] := by
        simp [Pool.Entry.installs, sees]
      rw [more, List.map_append, n.ids, List.length_append, List.length_singleton,
        List.range'_1_concat, List.map_singleton, next, Nat.add_comm]
    · simpa [Pool.Entry.installs, sees, Place.numbers] using n.issued
    · simp [Pool.Entry.installs, sees, Pool.Entry.connection?, n.accepted, Place.pending]
  | begin | late | logout s r =>
    show Numbered _ (inside p.owner _)
    rw [g.inside_set_ne here id]
    exact n.keep (by simp [Pool.Entry.installs]) rfl (by simp) rfl rfl fun _ _ => rfl

/-- **Numbers without gap or repetition**, in every trace. -/
theorem Protocol.Traced.numbered (trace : Request.Trace requests world h p places) :
    Numbered h (inside p.owner places) := by
  induction trace with
  | start _ => exact ⟨rfl, rfl, rfl, nofun⟩
  | step before _ here free moves ih =>
    exact ih.step before.guarded before.slot_eq before.issued_eq here free moves

end TierTagger.Sessions
