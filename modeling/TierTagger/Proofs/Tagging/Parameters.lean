import Mathlib.Data.List.Basic
import TierTagger.Proofs.Tagging.Calls

/-!
# Which parameters are used

Alarms are handled one after the other. Each asks the source for the connection parameters, whose answer
may be another one each time; but a session that is installed is used whatever they are.

- **Sources** (`sourced`): a source answers its calls by number, everybody else by the calls before.
- **Invocations** (`Invocation`, `Handled`): payloads that are handled one after the other, each with its
  exchanges and its result.
- **One invocation** (`Course.obtains`): it asks the source once, ends there if there are no parameters,
  and connects with just those if nobody has connected before.
- **Other parameters** (`held_mapM_replaced`): behind a session, one answer with parameters is as good as
  another.
- `loads_governed`: the invocations of any actionable payloads.
-/

namespace TierTagger.Tagging

open Sessions (Job call ensure hold)

variable {δ α : Type}

/-! ## Sources -/

/-- The answers of a source of parameters, by how often it was asked before. -/
abbrev Loads := Nat → Except Configuration.Error Connection

/-- A call to the source. -/
def isLoad : Call δ → Bool
  | .load => true
  | _ => false

/-- A call for a connection. -/
def isConnect : Call δ → Bool
  | .connect _ => true
  | _ => false

/-- The answers of a source, and of others to all other calls. -/
def sourced (loads : Loads) (reply : List (Call δ) → (c : Call δ) → c.Answer)
    (before : List (Call δ)) : (c : Call δ) → c.Answer
  | .load => loads (before.countP isLoad)
  | c => reply before c

/-! ## Invocations -/

/-- The payload is an alarm that asks for a tier. -/
def Actionable (payload : Bytes) : Prop :=
  ∃ a, Alarm.ofEvent payload = .ok a ∧ (target? a).isSome

/-- An actionable payload is settled, which follows a course. -/
theorem Actionable.course {payload : Bytes} (actionable : Actionable payload)
    (reply : List (Call δ) → (c : Call δ) → c.Answer) (s : Sessions δ) (before : List (Call δ)) :
    ∃ t xs r, run (δ := δ) payload = (settle t).run ∧
      held reply s before (run payload) = ((r, afterwards s xs), before ++ calls xs) ∧
      Replies reply before xs ∧ Course s t xs r := by
  obtain ⟨a, event, target⟩ := actionable
  obtain ⟨t, at_t⟩ := Option.isSome_iff_exists.mp target
  have settled : run (δ := δ) payload = (settle t).run := by simp only [run, event, at_t]
  have ends : Ends reply before s t [] (settle t).run := ends_settle at_t
  obtain ⟨xs, r, alone, replies, course⟩ := ends trivial
  refine ⟨t, xs, r, settled, ?_, replies, course⟩
  rw [settled, ← alone]
  simp [afterwards, calls]

/-- A payload that was handled: its exchanges and its result. -/
structure Invocation (δ : Type) where
  payload : Bytes
  exchanges : List (Exchange δ)
  result : Except Error Outcome

/-- The reply to whoever sent the payload. -/
def Invocation.response (i : Invocation δ) : Reply := Tagging.reply i.result

/-- The exchanges of invocations. -/
abbrev exchanges (is : List (Invocation δ)) : List (Exchange δ) := is.flatMap Invocation.exchanges

/-- The invocations are handled one after the other, each from the shared state and the calls that those
before it leave behind. -/
inductive Handled (reply : List (Call δ) → (c : Call δ) → c.Answer) :
    Sessions δ → List (Call δ) → List (Invocation δ) → Prop where
  | nil {s before} : Handled reply s before []
  | cons {s before i is}
    (alone : held reply s before (run i.payload) =
      ((i.result, afterwards s i.exchanges), before ++ calls i.exchanges))
    (replies : Replies reply before i.exchanges)
    (rest : Handled reply (afterwards s i.exchanges) (before ++ calls i.exchanges) is) :
    Handled reply s before (i :: is)

section
variable (reply : List (Call δ) → (c : Call δ) → c.Answer) (s : Sessions δ) (before : List (Call δ))

theorem held_bind {β : Type} (job : Job δ α) (next : α → Job δ β) :
    held reply s before (job >>= next) =
      held reply (held reply s before job).1.2 (held reply s before job).2
        (next (held reply s before job).1.1) := by
  unfold held
  rw [Sessions.hold_bind]
  rfl

theorem held_mapM_cons {β : Type} (f : β → Job δ α) (b : β) (bs : List β) :
    held reply s before ((b :: bs).mapM f) =
      let first := held reply s before (f b)
      let rest := held reply first.1.2 first.2 (bs.mapM f)
      ((first.1.1 :: rest.1.1, rest.1.2), rest.2) := by
  rw [List.mapM_cons, held_bind, held_bind]
  rfl

theorem held_handle (payload : Bytes) : held reply s before (handle payload) =
    let x := held reply s before (run payload)
    ((Tagging.reply x.1.1, x.1.2), x.2) :=
  held_bind reply s before (run payload) fun r => .done (Tagging.reply r)

/-- Actionable payloads have invocations. -/
theorem exists_handled {payloads : List Bytes} (actionable : ∀ p ∈ payloads, Actionable p) :
    ∃ is : List (Invocation δ), is.map Invocation.payload = payloads ∧ Handled reply s before is := by
  induction payloads generalizing s before with
  | nil => exact ⟨[], rfl, .nil⟩
  | cons payload payloads ih =>
    obtain ⟨first, actionable⟩ := List.forall_mem_cons.mp actionable
    obtain ⟨t, xs, r, -, alone, replies, -⟩ := first.course reply s before
    obtain ⟨is, rfl, handled⟩ := ih (afterwards s xs) (before ++ calls xs) actionable
    exact ⟨⟨payload, xs, r⟩ :: is, rfl, .cons alone replies handled⟩

end

section
variable {reply : List (Call δ) → (c : Call δ) → c.Answer} {s : Sessions δ} {before : List (Call δ)}
variable {is js : List (Invocation δ)}

/-- The responses, the shared state and the calls that invocations leave behind. -/
theorem Handled.held_mapM (handled : Handled reply s before is) :
    held reply s before ((is.map Invocation.payload).mapM handle) =
      ((is.map Invocation.response, afterwards s (exchanges is)), before ++ calls (exchanges is)) := by
  induction handled with
  | @nil s before => exact congrArg (([], s), ·) (List.append_nil before).symm
  | @cons s before i is alone replies rest ih =>
    rw [List.map_cons, held_mapM_cons, held_handle, alone]
    simp only [ih]
    simp [exchanges, afterwards_append, Invocation.response]

theorem handled_append : Handled reply s before (is ++ js) ↔ Handled reply s before is ∧
    Handled reply (afterwards s (exchanges is)) (before ++ calls (exchanges is)) js := by
  induction is generalizing s before with
  | nil => simpa [exchanges, afterwards] using fun _ => Handled.nil
  | cons i is ih =>
    have state : afterwards (afterwards s i.exchanges) (exchanges is) =
      afterwards s (exchanges (i :: is)) := (afterwards_append ..).symm
    have made : before ++ calls i.exchanges ++ calls (exchanges is) =
      before ++ calls (exchanges (i :: is)) := by simp [exchanges]
    constructor
    · intro handled
      cases handled with
      | cons alone replies rest =>
        obtain ⟨handled, later⟩ := ih.mp rest
        exact ⟨.cons alone replies handled, state ▸ made ▸ later⟩
    · rintro ⟨handled, later⟩
      cases handled with
      | cons alone replies rest => exact .cons alone replies (ih.mpr ⟨rest, by rwa [state, made]⟩)

end

/-! ## One invocation -/

/-- What an invocation does with the answer `r` of the source, if a session is there unless `vacant`. -/
structure Obtains (r : Except Configuration.Error Connection) (vacant : Prop)
    (xs : List (Exchange δ)) (result : Except Error Outcome) : Prop where
  /-- The source is asked first, and once. -/
  loads : ∃ rest, xs = ⟨.load, r⟩ :: rest ∧ ∀ c ∈ calls rest, isLoad c = false
  /-- Without parameters nothing else is done. -/
  refused : ∀ e, r = .error e → xs = [⟨.load, r⟩] ∧ result = .error (.configuration e)
  /-- A connection is made with these parameters, if there is no session. -/
  connects : ∀ p, Call.connect p ∈ calls xs ↔ r = .ok p ∧ vacant
  /-- It is made once. -/
  once : (calls xs).countP isConnect ≤ 1

variable {s : Sessions δ} {t : Target} {xs ys : List (Exchange δ)} {x : Session δ}
variable {result : Except Error Outcome} {before : List (Call δ)}

/-- An invocation that gets a session goes on without the source and without a connection. -/
theorem Opening.obtains (opening : Opening s xs x)
    (plain : ∀ c ∈ calls ys, isLoad c = false ∧ isConnect c = false) :
    ∃ r, Obtains r (s.installed = none) (xs ++ ys) result := by
  have unloaded (c : Call δ) (mem : c ∈ calls ys) : isLoad c = false := (plain c mem).1
  have unasked : (calls ys).countP isConnect = 0 := by
    rw [List.countP_eq_zero]
    intro c mem
    simp [(plain c mem).2]
  have absent (p : Connection) : Call.connect p ∉ calls ys := fun mem => nomatch (plain _ mem).2
  cases opening with
  | @reused p x installed =>
    have same : calls ([⟨.load, .ok p⟩] ++ ys) = .load :: calls ys := rfl
    refine ⟨.ok p, ⟨ys, rfl, unloaded⟩, nofun, fun q => ?_, ?_⟩
    · simp only [same, List.mem_cons, reduceCtorEq, absent, installed, and_false, or_self]
    · simp [unasked, isConnect]
  | @connected p d installed =>
    have same : calls ([⟨.load, .ok p⟩, ⟨.connect p, .ok d⟩] ++ ys) =
      .load :: .connect p :: calls ys := rfl
    refine ⟨.ok p, ⟨⟨.connect p, .ok d⟩ :: ys, rfl, ?_⟩, nofun, fun q => ?_, ?_⟩
    · exact List.forall_mem_cons.mpr ⟨rfl, unloaded⟩
    · simp only [same, List.mem_cons, reduceCtorEq, absent, installed, and_true, or_false, false_or,
        Call.connect.injEq, Except.ok.injEq, eq_comm]
    · rw [same, List.countP_cons, List.countP_cons, unasked]
      simp [isConnect]

/-- **One invocation.** -/
theorem Course.obtains (course : Course s t xs result) :
    ∃ r, Obtains r (s.installed = none) xs result := by
  cases course with
  | unloaded e =>
    refine ⟨.error e, ⟨[], rfl, by simp⟩, ?_, by simp [calls], by simp [calls, isConnect]⟩
    rintro _ ⟨rfl⟩
    exact ⟨rfl, rfl⟩
  | unconnected installed p e =>
    refine ⟨.ok p, ⟨[_], rfl, by simp [isLoad]⟩, nofun, fun q => ?_, by simp [calls, isConnect]⟩
    simp [calls, installed, eq_comm]
  | unfetched opening e => exact opening.obtains (by simp [isLoad, isConnect])
  | unavailable opening => exact opening.obtains (by simp [isLoad, isConnect])
  | unresolved opening next e => exact opening.obtains (by simp [isLoad, isConnect])
  | unmatched opening next none => exact opening.obtains (by simp [isLoad, isConnect])
  | unapplied opening next first e => exact opening.obtains (by simp [isLoad, isConnect])
  | applied opening next first => exact opening.obtains (by simp [isLoad, isConnect])

/-- A session is there after exchanges if it was before or a connection succeeded. -/
theorem afterwards_vacant (s : Sessions δ) (xs : List (Exchange δ)) :
    (afterwards s xs).installed = none ↔
      s.installed = none ∧ ∀ p d, (⟨.connect p, .ok d⟩ : Exchange δ) ∉ xs := by
  induction xs generalizing s with
  | nil => simp [afterwards]
  | cons y xs ih =>
    rw [afterwards, List.foldl_cons]
    refine (ih _).trans ?_
    split
    · next p d =>
      refine ⟨fun gone => absurd gone.1 (by simp [Sessions.install]), fun gone => ?_⟩
      exact absurd List.mem_cons_self (gone.2 p d)
    · next other =>
      have kept (p : Connection) (d : δ) : (⟨.connect p, .ok d⟩ : Exchange δ) ≠ y :=
        fun same => other p d same.symm
      simp [kept]

/-- The answers of exchanges are told by their calls. -/
theorem replies_unique {reply : List (Call δ) → (c : Call δ) → c.Answer}
    (replies : Replies reply before xs) (replies' : Replies reply before ys) (same : calls xs = calls ys) :
    xs = ys := by
  induction xs generalizing ys before with
  | nil =>
    cases ys with
    | nil => rfl
    | cons y ys => cases same
  | cons x xs ih =>
    cases ys with
    | nil => cases same
    | cons y ys =>
      obtain ⟨c, a⟩ := x
      obtain ⟨c', a'⟩ := y
      obtain ⟨rfl, rest⟩ := List.cons.inj same
      obtain ⟨rfl, later⟩ := replies
      obtain ⟨rfl, later'⟩ := replies'
      rw [ih later later' rest]

variable {reply : List (Call δ) → (c : Call δ) → c.Answer} {loads loads' : Loads} {payload : Bytes}

/-- An actionable payload obtains what the source answers next. -/
theorem obtains_alone (actionable : Actionable payload)
    (alone : held (sourced loads reply) s before (run payload) =
      ((result, afterwards s xs), before ++ calls xs))
    (replies : Replies (sourced loads reply) before xs) :
    Obtains (loads (before.countP isLoad)) (s.installed = none) xs result := by
  obtain ⟨t, xs', result', -, alone', replies', course⟩ := actionable.course (sourced loads reply) s before
  have same := alone.symm.trans alone'
  obtain rfl : xs = xs' := replies_unique replies replies'
    (List.append_cancel_left (congrArg Prod.snd same))
  obtain rfl : result = result' := congrArg (fun h => h.1.1) same
  obtain ⟨r, obtains⟩ := course.obtains
  obtain ⟨rest, rfl, -⟩ := obtains.loads
  obtain rfl : loads (before.countP isLoad) = r := replies.1
  exact obtains

/-- Each invocation takes one answer of the source. -/
theorem Obtains.countP {r : Except Configuration.Error Connection} {vacant : Prop}
    (obtains : Obtains r vacant xs result) : (calls xs).countP isLoad = 1 := by
  obtain ⟨rest, rfl, others⟩ := obtains.loads
  have none : (calls rest).countP isLoad = 0 := by
    rw [List.countP_eq_zero]
    intro c mem
    simp [others c mem]
  rw [calls, List.map_cons, List.countP_cons, none]
  rfl

/-! ## Other parameters -/

/-- Two answers of a source that are parameters both, or the same. -/
def Interchangeable (r r' : Except Configuration.Error Connection) : Prop :=
  r = r' ∨ ∃ p p', r = .ok p ∧ r' = .ok p'

theorem sourced_eq (loads : Loads) (reply : List (Call δ) → (c : Call δ) → c.Answer)
    (before : List (Call δ)) {c : Call δ} (other : isLoad c = false) :
    sourced loads reply before c = reply before c := by
  cases c with
  | load => cases other
  | _ => rfl

/-- What follows the session does not ask for parameters. -/
theorem held_fromFetch (loads : Loads) (s : Sessions δ) (before : List (Call δ)) (x : Session δ)
    (t : Target) : held (sourced loads reply) s before (fromFetch x t) =
      held reply s before (fromFetch x t) := by
  have applied (before : List (Call δ)) (tag : Tag) :
      held (sourced loads reply) s before (fromApply x t tag) = held reply s before (fromApply x t tag) := by
    unfold fromApply
    rw [held_call, held_call, sourced_eq loads reply before rfl]
    cases reply before (.attach x.directory tag.id t.vm) <;> rfl
  have resolved (before : List (Call δ)) (tier : Tier) :
      held (sourced loads reply) s before (fromResolve x t tier) =
        held reply s before (fromResolve x t tier) := by
    unfold fromResolve
    rw [held_call, held_call, sourced_eq loads reply before rfl]
    cases reply before (.tags x.directory t.category) with
    | error e => rfl
    | ok tags =>
      simp only
      cases Tag.forTier? tags tier with
      | none => rfl
      | some tag => exact applied _ tag
  unfold fromFetch
  rw [held_call, held_call, sourced_eq loads reply before rfl]
  cases reply before (.hardware x.directory t.vm) with
  | error e => rfl
  | ok found =>
    cases found with
    | none => rfl
    | some h =>
      simp only
      cases Tier.next? t.resource h with
      | none => rfl
      | some tier => exact resolved _ tier

/-- Getting the session, and what follows. -/
def fromConnect (p : Connection) (t : Target) : Job δ (Except Error Outcome) := do
  match ← ensure p with
  | .error e => return .error (.connect e)
  | .ok session => fromFetch session t

/-- What follows the answer of the source. -/
def fromLoad (t : Target) : Except Configuration.Error Connection → Job δ (Except Error Outcome)
  | .error e => .done (.error (.configuration e))
  | .ok p => fromConnect p t

theorem settle_eq (t : Target) : (settle (δ := δ) t).run = call .load >>= fromLoad t := by
  refine (settle_run t).trans (bind_congr fun r => ?_)
  cases r <;> rfl

/-- The first thing that a payload does is to ask the source. Without parameters that is all: neither the
shared session nor the directory is asked for anything. -/
def StartsAtSource (δ : Type) (payload : Bytes) : Prop :=
  ∃ next : Except Configuration.Error Connection → Job δ (Except Error Outcome),
    run payload = .ask (.call .load) next ∧ ∀ e, next (.error e) = .done (.error (.configuration e))

theorem Actionable.startsAtSource (actionable : Actionable payload) : StartsAtSource δ payload := by
  obtain ⟨a, event, target⟩ := actionable
  obtain ⟨t, at_t⟩ := Option.isSome_iff_exists.mp target
  have settled : run (δ := δ) payload = (settle t).run := by simp only [run, event, at_t]
  exact ⟨fromLoad t, settled.trans (settle_eq t), fun _ => rfl⟩

/-- With a session the parameters do not matter. -/
theorem held_fromConnect_installed (installed : s.installed = some x) (p : Connection) (t : Target) :
    held reply s before (fromConnect p t) = held reply s before (fromFetch x t) := by
  unfold fromConnect
  rw [held_ensure, installed]

/-- Only the first call is one to the source. -/
theorem held_settle (loads : Loads) (reply : List (Call δ) → (c : Call δ) → c.Answer) (s : Sessions δ)
    (before : List (Call δ)) (t : Target) : held (sourced loads reply) s before (settle t).run =
      held reply s (before ++ [.load]) (fromLoad t (loads (before.countP isLoad))) := by
  rw [settle_eq, held_call]
  change held _ s _ (fromLoad t (loads (before.countP isLoad))) = _
  cases loads (before.countP isLoad) with
  | error e => rfl
  | ok p =>
    change held _ s _ (fromConnect p t) = held _ s _ (fromConnect p t)
    unfold fromConnect
    rw [held_ensure, held_ensure, sourced_eq loads reply _ rfl]
    cases s.installed with
    | some x => exact held_fromFetch loads s _ x t
    | none =>
      cases reply (before ++ [.load]) (.connect p) with
      | error e => rfl
      | ok d => exact held_fromFetch loads _ _ _ t

/-- With the same answer, or behind a session with other parameters, an invocation is the same. -/
theorem held_run_replaced (actionable : Actionable payload)
    (alike : loads (before.countP isLoad) = loads' (before.countP isLoad) ∨ s.installed ≠ none ∧
      Interchangeable (loads (before.countP isLoad)) (loads' (before.countP isLoad))) :
    held (sourced loads reply) s before (run payload) =
      held (sourced loads' reply) s before (run payload) := by
  obtain ⟨t, -, -, settled, -⟩ := actionable.course reply s before
  rw [settled, held_settle, held_settle]
  rcases alike with same | ⟨there, same | ⟨p, p', loaded, loaded'⟩⟩
  · rw [same]
  · rw [same]
  · obtain ⟨x, installed⟩ := Option.ne_none_iff_exists'.mp there
    rw [loaded, loaded']
    exact (held_fromConnect_installed installed p t).trans (held_fromConnect_installed installed p' t).symm

/-- What an actionable payload leaves behind: one more call to the source, and a session if there was
one. -/
theorem after_handle (actionable : Actionable payload) (loads : Loads)
    (reply : List (Call δ) → (c : Call δ) → c.Answer) (s : Sessions δ) (before : List (Call δ)) :
    (held (sourced loads reply) s before (handle payload)).2.countP isLoad = before.countP isLoad + 1 ∧
      (s.installed ≠ none → (held (sourced loads reply) s before (handle payload)).1.2.installed ≠ none) := by
  obtain ⟨t, xs, r, -, alone, replies, -⟩ := actionable.course (sourced loads reply) s before
  rw [held_handle, alone, List.countP_append, (obtains_alone actionable alone replies).countP]
  exact ⟨rfl, fun there gone => there ((afterwards_vacant s xs).mp gone).1⟩

/-- **Other parameters.** Behind a session, which is there after the first `m` payloads, all answers with
parameters are as good as others. -/
theorem held_mapM_replaced {payloads : List Bytes} (actionable : ∀ p ∈ payloads, Actionable p) (m : Nat)
    (same : ∀ i < m, loads (before.countP isLoad + i) = loads' (before.countP isLoad + i))
    (alike : ∀ i, m ≤ i →
      Interchangeable (loads (before.countP isLoad + i)) (loads' (before.countP isLoad + i)))
    (there : (held (sourced loads reply) s before ((payloads.take m).mapM handle)).1.2.installed ≠ none) :
    held (sourced loads reply) s before (payloads.mapM handle) =
      held (sourced loads' reply) s before (payloads.mapM handle) := by
  induction payloads generalizing s before m with
  | nil => rfl
  | cons payload payloads ih =>
    obtain ⟨first, actionable⟩ := List.forall_mem_cons.mp actionable
    obtain ⟨asked, stays⟩ := after_handle first loads reply s before
    have one : held (sourced loads reply) s before (handle payload) =
        held (sourced loads' reply) s before (handle payload) := by
      have alike : loads (before.countP isLoad) = loads' (before.countP isLoad) ∨ s.installed ≠ none ∧
          Interchangeable (loads (before.countP isLoad)) (loads' (before.countP isLoad)) := by
        cases m with
        | zero => exact .inr ⟨there, alike 0 (Nat.le_refl 0)⟩
        | succ m => exact .inl (same 0 (Nat.succ_pos m))
      rw [held_handle, held_handle, held_run_replaced first alike]
    have next (i : Nat) : (held (sourced loads reply) s before (handle payload)).2.countP isLoad + i =
        before.countP isLoad + (i + 1) := by omega
    rw [held_mapM_cons, held_mapM_cons, ← one]
    simp only
    rw [ih actionable (m - 1)]
    · intro i low
      rw [next]
      exact same _ (by omega)
    · intro i high
      rw [next]
      exact alike _ (by omega)
    · cases m with
      | zero => exact stays there
      | succ m => rwa [List.take_succ_cons, held_mapM_cons] at there

/-! ## All invocations -/

/-- Each of the invocations takes one answer of the source. -/
theorem Handled.countP {is : List (Invocation δ)} (handled : Handled (sourced loads reply) s before is)
    (actionable : ∀ i ∈ is, Actionable i.payload) :
    (before ++ calls (exchanges is)).countP isLoad = before.countP isLoad + is.length := by
  induction handled with
  | nil => simp [exchanges]
  | @cons s before i is alone replies rest ih =>
    obtain ⟨first, actionable⟩ := List.forall_mem_cons.mp actionable
    have made : before ++ calls (exchanges (i :: is)) =
      before ++ calls i.exchanges ++ calls (exchanges is) := by simp [exchanges]
    rw [made, ih actionable, List.countP_append, (obtains_alone first alone replies).countP,
      List.length_cons]
    omega

/-- The invocations that a source governs. A session is there at the start if `s` has one. -/
structure Governed (loads : Loads) (reply : List (Call δ) → (c : Call δ) → c.Answer) (s : Sessions δ)
    (is : List (Invocation δ)) : Prop where
  /-- They are handled one after the other, with these responses and calls. -/
  together : held (sourced loads reply) s [] ((is.map Invocation.payload).mapM handle) =
    ((is.map Invocation.response, afterwards s (exchanges is)), calls (exchanges is))
  handled : Handled (sourced loads reply) s [] is
  /-- Without parameters neither the shared session nor the directory is asked for anything. -/
  starts : ∀ i ∈ is, StartsAtSource δ i.payload
  /-- Each takes the next answer of the source, and connects with it if nobody has succeeded in that. -/
  obtains : ∀ earlier i later, is = earlier ++ i :: later →
    Obtains (loads earlier.length)
      (s.installed = none ∧ ∀ p d, (⟨.connect p, .ok d⟩ : Exchange δ) ∉ exchanges earlier)
      i.exchanges i.result
  /-- Behind a connection that succeeded, other parameters change no response and no call. -/
  replaced : ∀ earlier later p d, is = earlier ++ later →
    (⟨.connect p, .ok d⟩ : Exchange δ) ∈ exchanges earlier → ∀ loads' : Loads,
    (∀ i < earlier.length, loads i = loads' i) →
    (∀ i, earlier.length ≤ i → Interchangeable (loads i) (loads' i)) →
    held (sourced loads' reply) s [] ((is.map Invocation.payload).mapM handle) =
      held (sourced loads reply) s [] ((is.map Invocation.payload).mapM handle)

/-- **The parameters of each invocation.** Actionable payloads are handled one after the other, whatever
the source answers and whatever everybody else does. -/
theorem loads_governed (loads : Loads) (reply : List (Call δ) → (c : Call δ) → c.Answer)
    (s : Sessions δ) {payloads : List Bytes} (actionable : ∀ p ∈ payloads, Actionable p) :
    ∃ is : List (Invocation δ), is.map Invocation.payload = payloads ∧ Governed loads reply s is := by
  obtain ⟨is, rfl, handled⟩ := exists_handled (sourced loads reply) s [] actionable
  replace actionable : ∀ i ∈ is, Actionable i.payload := by simpa using actionable
  refine ⟨is, rfl, ?_⟩
  constructor
  case together => exact handled.held_mapM
  case handled => exact handled
  case starts => exact fun i mem => (actionable i mem).startsAtSource
  case obtains =>
    rintro earlier i later rfl
    obtain ⟨before, later⟩ := handled_append.mp handled
    cases later with
    | cons alone replies rest =>
      have first := obtains_alone (actionable i (by simp)) alone replies
      rw [before.countP fun j mem => actionable j (by simp [mem])] at first
      simpa only [List.countP_nil, Nat.zero_add, afterwards_vacant] using first
  case replaced =>
    rintro earlier later p d rfl connected loads' same alike
    obtain ⟨before, -⟩ := handled_append.mp handled
    refine (held_mapM_replaced ?_ earlier.length ?_ ?_ ?_).symm
    · exact List.forall_mem_map.mpr actionable
    · simpa using same
    · simpa using alike
    · rw [List.map_append, List.take_left' (List.length_map _), before.held_mapM]
      exact fun gone => ((afterwards_vacant s _).mp gone).2 p d connected

/-- An alarm of the machine `vm-7` about its processors. -/
def cpuAlarm : Bytes :=
  ("\x7b\"Data\":\x7b\"Vm\":\x7b\"Vm\":\x7b\"Type\":\"VM\",\"Value\":\"vm-7\"\x7d\x7d," ++
    "\"Alarm\":\x7b\"Name\":\"VM CPU Usage\"\x7d,\"To\":\"red\"\x7d\x7d").toUTF8.toList

/-- A source without a password at first, and with another one each time after that. -/
def renewed : Loads
  | 0 => .error (.incomplete .password)
  | 1 => .ok ⟨"vc", "user", "first", false⟩
  | _ => .ok ⟨"vc", "user", "second", false⟩

/-- A directory that grants everything. -/
def granting : List (Call Unit) → (c : Call Unit) → c.Answer
  | _, .load => .error (.incomplete .server)
  | _, .connect _ => .ok ()
  | _, .hardware _ _ => .ok (some ⟨2, 2048⟩)
  | _, .tags _ _ => .ok [⟨"t3", "3", "c1"⟩]
  | _, .attach _ _ _ => .ok ()
  | _, .logout _ => .ok ()

theorem ofEvent_cpuAlarm : Alarm.ofEvent cpuAlarm = .ok ⟨⟨"VM", "vm-7"⟩, "VM CPU Usage", "red"⟩ := by
  decide +kernel

/-- The calls about the machine of the alarm. -/
def cpuCalls : List (Call Unit) :=
  [.hardware () ⟨"VM", "vm-7"⟩, .tags () "config.hardware.numCPU", .attach () "t3" ⟨"VM", "vm-7"⟩]

/-- The first alarm fails, the second connects, and the third does without the new password. -/
theorem loads_governed_renewed : (∀ p ∈ List.replicate 3 cpuAlarm, Actionable p) ∧
    ∃ is : List (Invocation Unit), is.map Invocation.payload = List.replicate 3 cpuAlarm ∧
      Governed renewed granting .initial is ∧
      calls (exchanges is) = [.load] ++ ([.load, .connect ⟨"vc", "user", "first", false⟩] ++ cpuCalls) ++
        ([.load] ++ cpuCalls) := by
  have actionable : ∀ p ∈ List.replicate 3 cpuAlarm, Actionable p := fun p mem =>
    (List.mem_replicate.mp mem).2 ▸ ⟨_, ofEvent_cpuAlarm, rfl⟩
  obtain ⟨is, payloads, governed⟩ := loads_governed renewed granting .initial actionable
  have together := governed.together
  rw [payloads] at together
  have made := congrArg Prod.snd together
  simp only [List.replicate, List.mapM_cons, List.mapM_nil, handle, run, ofEvent_cpuAlarm] at made
  exact ⟨actionable, is, payloads, governed, made.symm⟩

end TierTagger.Tagging
