import TierTagger.Proofs.Tagging.Pipeline

/-!
# The calls of one alarm

Which calls the handling of a payload makes when nobody else interferes, whatever is answered to
them, and how its result follows from the answers.

- **Exchanges** (`Exchange`, `Replies`): calls with their answers, which are any function of the
  calls before.
- **The order of calls** (`schedule`): the parameters, a connection if there is no session, the
  hardware, the tags, the attachment. An alarm makes a prefix of these.
- **Where they end** (`Course`): one rule for each place at which the calls of a target can end,
  with the result that this place gives. A result belongs to one course only (`Course.unique`).
- `run_course`: the handling of any payload, from any shared state.
-/

namespace TierTagger.Tagging

open Sessions (Job call ensure hold)

variable {δ : Type}

/-! ## Exchanges -/

/-- A call and its answer. -/
abbrev Exchange (δ : Type) := (c : Call δ) × c.Answer

/-- The call succeeded with a value to go on with. -/
def Exchange.Yields : Exchange δ → Prop
  | ⟨.load, r⟩ => ∃ p, r = .ok p
  | ⟨.connect _, r⟩ => ∃ d, r = .ok d
  | ⟨.hardware _ _, r⟩ => ∃ h, r = .ok (some h)
  | ⟨.tags _ _, r⟩ => ∃ tags, r = .ok tags ∧ tags ≠ []
  | ⟨.attach _ _ _, r⟩ => r = .ok ()
  | ⟨.logout _, r⟩ => r = .ok ()

/-- The exchanges with somebody who answers with `reply`, after the calls `before`. -/
def Replies (reply : List (Call δ) → (c : Call δ) → c.Answer) :
    List (Call δ) → List (Exchange δ) → Prop
  | _, [] => True
  | before, ⟨c, a⟩ :: xs => reply before c = a ∧ Replies reply (before ++ [c]) xs

/-- The calls of exchanges. -/
abbrev calls (xs : List (Exchange δ)) : List (Call δ) := xs.map (·.1)

/-- The shared state after exchanges: a session is installed for a connection that was made. -/
def afterwards (s : Sessions δ) (xs : List (Exchange δ)) : Sessions δ :=
  xs.foldl (fun s x => match x with
    | ⟨.connect _, .ok d⟩ => s.install d
    | _ => s) s

theorem afterwards_append (s : Sessions δ) (xs ys : List (Exchange δ)) :
    afterwards s (xs ++ ys) = afterwards (afterwards s xs) ys := List.foldl_append ..

theorem replies_append {reply : List (Call δ) → (c : Call δ) → c.Answer} {before : List (Call δ)}
    {xs ys : List (Exchange δ)} :
    Replies reply before (xs ++ ys) ↔
      Replies reply before xs ∧ Replies reply (before ++ calls xs) ys := by
  induction xs generalizing before with
  | nil => simp [Replies]
  | cons x xs ih => simp [Replies, ih, and_assoc]

/-! ## Courses -/

/-- The calls that get a session, and the session. -/
inductive Opening (s : Sessions δ) : List (Exchange δ) → Session δ → Prop where
  /-- The installed session is used, whatever was loaded. -/
  | reused {p x} (installed : s.installed = some x) : Opening s [⟨.load, .ok p⟩] x
  /-- A connection is made with what was loaded. -/
  | connected {p d} (installed : s.installed = none) :
    Opening s [⟨.load, .ok p⟩, ⟨.connect p, .ok d⟩] ⟨s.nextId, d⟩

/-- The exchanges of a target and its result, by the place at which they end. -/
inductive Course (s : Sessions δ) (t : Target) :
    List (Exchange δ) → Except Error Outcome → Prop where
  | unloaded (e) : Course s t [⟨.load, .error e⟩] (.error (.configuration e))
  | unconnected (installed : s.installed = none) (p e) :
    Course s t [⟨.load, .ok p⟩, ⟨.connect p, .error e⟩] (.error (.connect e))
  | unfetched {xs x} (opening : Opening s xs x) (e) :
    Course s t (xs ++ [⟨.hardware x.directory t.vm, .error e⟩]) (.error (.fetch (.directory e)))
  | unavailable {xs x} (opening : Opening s xs x) :
    Course s t (xs ++ [⟨.hardware x.directory t.vm, .ok none⟩])
      (.error (.fetch (.unavailable t.vm.value)))
  | unresolved {xs x h tier} (opening : Opening s xs x) (next : Tier.next? t.resource h = some tier)
    (e) :
    Course s t (xs ++ [⟨.hardware x.directory t.vm, .ok (some h)⟩,
      ⟨.tags x.directory t.category, .error e⟩]) (.error (.resolve e))
  | unmatched {xs x h tier tags} (opening : Opening s xs x)
    (next : Tier.next? t.resource h = some tier) (none : ∀ tag ∈ tags, tag.name ≠ tier.name) :
    Course s t (xs ++ [⟨.hardware x.directory t.vm, .ok (some h)⟩,
      ⟨.tags x.directory t.category, .ok tags⟩]) (.ok (.noMatchingTag t.vm t.category tier))
  | unapplied {xs x h tier tags tag} (opening : Opening s xs x)
    (next : Tier.next? t.resource h = some tier)
    (first : tags.find? (·.name = tier.name) = some tag) (e) :
    Course s t (xs ++ [⟨.hardware x.directory t.vm, .ok (some h)⟩,
      ⟨.tags x.directory t.category, .ok tags⟩,
      ⟨.attach x.directory tag.id t.vm, .error e⟩]) (.error (.apply e))
  | applied {xs x h tier tags tag} (opening : Opening s xs x)
    (next : Tier.next? t.resource h = some tier)
    (first : tags.find? (·.name = tier.name) = some tag) :
    Course s t (xs ++ [⟨.hardware x.directory t.vm, .ok (some h)⟩,
      ⟨.tags x.directory t.category, .ok tags⟩,
      ⟨.attach x.directory tag.id t.vm, .ok ()⟩]) (.ok (.tagged t.vm tag.id tag.categoryId))

/-- All calls that a target can make, in order: `p` are the parameters that were loaded, `d` is the
directory of the session, if there is one, and `tagId` the tag. -/
def schedule (s : Sessions δ) (t : Target) (p : Connection) (d : Option δ) (tagId : String) :
    List (Call δ) :=
  .load :: (if s.installed.isSome then [] else [.connect p]) ++
    d.elim [] fun d => [.hardware d t.vm, .tags d t.category, .attach d tagId t.vm]

variable {s : Sessions δ} {t : Target} {xs ys : List (Exchange δ)} {x : Session δ}
variable {r r' : Except Error Outcome}

/-! ### The order -/

/-- A session is got by the first calls of the schedule. -/
theorem Opening.schedule_eq (h : Opening s xs x) (t : Target) : ∃ p, ∀ tagId,
    schedule s t p (some x.directory) tagId = calls xs ++
      [.hardware x.directory t.vm, .tags x.directory t.category,
        .attach x.directory tagId t.vm] := by
  cases h with
  | @reused p x installed => exact ⟨p, fun tagId => by simp [schedule, installed]⟩
  | @connected p d installed => exact ⟨p, fun tagId => by simp [schedule, installed]⟩

theorem Opening.yields (h : Opening s xs x) : ∀ y ∈ xs, y.Yields := by
  cases h <;> simp [Exchange.Yields]

/-- What follows the session goes on with the schedule. -/
theorem Opening.calls_prefix (h : Opening s xs x) (tagId : String)
    (hy : calls ys <+: [.hardware x.directory t.vm, .tags x.directory t.category,
      .attach x.directory tagId t.vm]) :
    ∃ p d tagId, calls (xs ++ ys) <+: schedule s t p d tagId := by
  obtain ⟨p, hp⟩ := h.schedule_eq t
  refine ⟨p, some x.directory, tagId, ?_⟩
  rw [hp, calls, List.map_append]
  exact (List.prefix_append_right_inj _).mpr hy

/-- The calls of a target are made in the order of the schedule. -/
theorem Course.calls_prefix (h : Course s t xs r) :
    ∃ p d tagId, calls xs <+: schedule s t p d tagId := by
  cases h with
  | unloaded e => exact ⟨default, none, "", by simp [schedule]⟩
  | unconnected installed p e => exact ⟨p, none, "", by simp [schedule, installed]⟩
  | unfetched opening e => exact opening.calls_prefix "" (by simp)
  | unavailable opening => exact opening.calls_prefix "" (by simp)
  | unresolved opening next e => exact opening.calls_prefix "" (by simp)
  | unmatched opening next none => exact opening.calls_prefix "" (by simp)
  | @unapplied _ _ _ _ _ tag opening next first e => exact opening.calls_prefix tag.id (by simp)
  | @applied _ _ _ _ _ tag opening next first => exact opening.calls_prefix tag.id (by simp)

/-- All calls but the last succeeded with a value. -/
theorem Course.yields (h : Course s t xs r) : ∀ y ∈ xs.dropLast, y.Yields := by
  have tags_ne {tags : List Tag} {p : Tag → Bool} {tag : Tag} (first : tags.find? p = some tag) :
      tags ≠ [] := List.ne_nil_of_mem (List.mem_of_find?_eq_some first)
  have cut {xs ys : List (Exchange δ)} {x : Session δ} (opening : Opening s xs x) (ne : ys ≠ [])
      (hy : ∀ y ∈ ys.dropLast, y.Yields) : ∀ y ∈ (xs ++ ys).dropLast, y.Yields := by
    rw [List.dropLast_append_of_ne_nil ne]
    exact List.forall_mem_append.mpr ⟨opening.yields, hy⟩
  cases h with
  | unloaded e => simp
  | unconnected installed p e => simp [Exchange.Yields]
  | unfetched opening e => exact cut opening (by simp) (by simp)
  | unavailable opening => exact cut opening (by simp) (by simp)
  | unresolved opening next e => exact cut opening (by simp) (by simp [Exchange.Yields])
  | unmatched opening next none => exact cut opening (by simp) (by simp [Exchange.Yields])
  | unapplied opening next first e =>
    exact cut opening (by simp) (by simp [Exchange.Yields, tags_ne first])
  | applied opening next first =>
    exact cut opening (by simp) (by simp [Exchange.Yields, tags_ne first])

/-! ### The result -/

/-- The calls of a target do not end in an alarm that asks for nothing. -/
theorem Course.ne_notActionable (h : Course s t xs r) : r ≠ .ok .notActionable := by
  cases h <;> simp

/-- The exchanges determine the result: each place at which they can end gives its own. The lists
are compared from their ends, since there the rules differ. -/
theorem Course.unique (h : Course s t xs r) (h' : Course s t ys r')
    (same : xs.reverse = ys.reverse) : r = r' := by
  cases h <;> cases h' <;>
    simp only [List.reverse_cons, List.reverse_nil, List.reverse_append, List.nil_append,
      List.cons_append, List.cons.injEq, Sigma.mk.injEq, reduceCtorEq, false_and, heq_eq_eq,
      Except.error.injEq, Except.ok.injEq, Option.some.injEq, and_false] at same
  all_goals grind

/-! ## The pipeline -/

section
variable {α β : Type} (reply : List (Call δ) → (c : Call δ) → c.Answer)

/-- A job held alone with somebody who answers with `reply`: its result, the shared state after it,
and all calls. -/
def held (s : Sessions δ) (before : List (Call δ)) (job : Job δ α) :
    (α × Sessions δ) × List (Call δ) :=
  ((hold (Dialogue.replying reply) job).run s).run before

variable (s : Sessions δ) (before : List (Call δ))

@[simp] theorem held_done (a : α) : held reply s before (.done a) = ((a, s), before) := rfl

@[simp] theorem held_call (c : Call δ) (next : c.Answer → Job δ α) :
    held reply s before (call c >>= next) =
      held reply s (before ++ [c]) (next (reply before c)) := by
  show held reply s before (.ask (.call c) next) = _
  unfold held
  rw [Sessions.hold_ask_call]
  rfl

theorem held_ensure (p : Connection) (next : Except Directory.Error (Session δ) → Job δ α) :
    held reply s before (ensure p >>= next) =
      match s.installed with
      | some x => held reply s before (next (.ok x))
      | none => match reply before (.connect p) with
        | .error e => held reply s (before ++ [.connect p]) (next (.error e))
        | .ok d =>
          held reply (s.install d) (before ++ [.connect p]) (next (.ok ⟨s.nextId, d⟩)) := by
  unfold held
  rw [Sessions.hold_bind, Sessions.hold_ensure]
  cases s.installed with
  | some x => rfl
  | none =>
    have told : (Dialogue.replying reply (.connect p)).run before =
      (reply before (.connect p), before ++ [.connect p]) := rfl
    simp only [bind_assoc, StateT.run_bind, told]
    cases reply before (.connect p) <;> rfl

/-! ### Stages

`Ends` is said of the rest of a pipeline, after the exchanges `xs`. One rule for each question makes
the stages a matter of following the code. -/

/-- The rest of the pipeline ends a course that began with `xs`. The shared state was `s` at first.
-/
def Ends (s : Sessions δ) (t : Target) (xs : List (Exchange δ))
    (rest : Job δ (Except Error Outcome)) : Prop :=
  Replies reply before xs → ∃ ys r,
    held reply (afterwards s xs) (before ++ calls xs) rest =
      ((r, afterwards s ys), before ++ calls ys) ∧
    Replies reply before ys ∧ Course s t ys r

variable {reply before s} {t : Target} {xs : List (Exchange δ)} {x : Session δ}

theorem Ends.done {r : Except Error Outcome} (course : Course s t xs r) :
    Ends reply before s t xs (.done r) :=
  fun replies => ⟨xs, r, held_done .., replies, course⟩

/-- A call that is no connection leaves the shared state as it is. -/
theorem Ends.call {c : Call δ} {next : c.Answer → Job δ (Except Error Outcome)}
    (plain : ∀ p, c ≠ .connect p)
    (h : ∀ a, Ends reply before s t (xs ++ [⟨c, a⟩]) (next a)) :
    Ends reply before s t xs (call c >>= next) := by
  intro replies
  have more : Replies reply before (xs ++ [⟨c, reply (before ++ calls xs) c⟩]) :=
    replies_append.mpr ⟨replies, rfl, trivial⟩
  have same (a : c.Answer) : afterwards s (xs ++ [⟨c, a⟩]) = afterwards s xs := by
    rw [afterwards_append]
    cases c with
    | connect p => exact absurd rfl (plain p)
    | _ => rfl
  obtain ⟨ys, r, hh, hr, hc⟩ := h _ more
  refine ⟨ys, r, ?_, hr, hc⟩
  rw [held_call, ← hh, same]
  simp

/-- A session is reused, or a connection is made for it. -/
theorem Ends.ensure {p : Connection}
    {next : Except Directory.Error (Session δ) → Job δ (Except Error Outcome)}
    (first : afterwards s xs = s)
    (reused : ∀ x, s.installed = some x → Ends reply before s t xs (next (.ok x)))
    (refused : ∀ e, s.installed = none →
      Ends reply before s t (xs ++ [⟨.connect p, .error e⟩]) (next (.error e)))
    (connected : ∀ d, s.installed = none →
      Ends reply before s t (xs ++ [⟨.connect p, .ok d⟩]) (next (.ok ⟨s.nextId, d⟩))) :
    Ends reply before s t xs (ensure p >>= next) := by
  intro replies
  rw [first, held_ensure]
  cases installed : s.installed with
  | some x =>
    have reused := reused x installed replies
    rw [first] at reused
    exact reused
  | none =>
    have more : Replies reply before
        (xs ++ [⟨.connect p, reply (before ++ calls xs) (.connect p)⟩]) :=
      replies_append.mpr ⟨replies, rfl, trivial⟩
    cases answer : reply (before ++ calls xs) (.connect p) with
    | error e =>
      have refused := refused e installed (answer ▸ more)
      rw [afterwards_append, first] at refused
      simpa [answer, calls, afterwards] using refused
    | ok d =>
      have connected := connected d installed (answer ▸ more)
      rw [afterwards_append, first] at connected
      simpa [answer, calls, afterwards] using connected

theorem ends_fromApply {h : Hardware} {tier : Tier} {tags : List Tag} {tag : Tag}
    (opening : Opening s xs x) (next : Tier.next? t.resource h = some tier)
    (first : Tag.forTier? tags tier = some tag) :
    Ends reply before s t (xs ++ [⟨.hardware x.directory t.vm, .ok (some h)⟩] ++
      [⟨.tags x.directory t.category, .ok tags⟩]) (fromApply x t tag) := by
  refine .call nofun fun a => ?_
  rw [List.append_assoc, List.append_assoc]
  cases a with
  | error e => exact .done (.unapplied opening next first e)
  | ok _ => exact .done (.applied opening next first)

theorem ends_fromResolve {h : Hardware} {tier : Tier} (opening : Opening s xs x)
    (next : Tier.next? t.resource h = some tier) :
    Ends reply before s t (xs ++ [⟨.hardware x.directory t.vm, .ok (some h)⟩])
      (fromResolve x t tier) := by
  refine .call nofun fun a => ?_
  cases a with
  | error e =>
    rw [List.append_assoc]
    exact .done (.unresolved opening next e)
  | ok tags =>
    cases first : Tag.forTier? tags tier with
    | none =>
      simp only [first]
      rw [List.append_assoc]
      exact .done (.unmatched opening next (by simpa [Tag.forTier?] using first))
    | some tag =>
      simp only [first]
      exact ends_fromApply opening next first

theorem ends_fromFetch {a : Alarm} (ht : target? a = some t) (opening : Opening s xs x) :
    Ends reply before s t xs (fromFetch x t) := by
  refine .call nofun fun a => ?_
  cases a with
  | error e => exact .done (.unfetched opening e)
  | ok found =>
    cases found with
    | none => exact .done (.unavailable opening)
    | some h =>
      cases next : Tier.next? t.resource h with
      | none => exact absurd next (Target.next?_ne_none ht h)
      | some tier =>
        simp only [next]
        exact ends_fromResolve opening next

theorem ends_settle {a : Alarm} (ht : target? a = some t) :
    Ends reply before s t [] (settle t).run := by
  rw [settle_run]
  refine .call nofun fun a => ?_
  cases a with
  | error e => exact .done (.unloaded e)
  | ok p =>
    refine .ensure rfl (fun x installed => ?_) (fun e installed => ?_) (fun d installed => ?_)
    · exact ends_fromFetch ht (.reused installed)
    · exact .done (.unconnected installed p e)
    · exact ends_fromFetch ht (.connected installed)

end

/-! ## All payloads -/

/-- **The calls of a payload.** Held alone, with any answers and from any shared state, `run` makes
calls `xs` such that:

- a payload that is no alarm is answered with its error, an alarm that is not red or not one of the
  two with that it asks for nothing, and both make no call;
- any other alarm follows a course, which determines the result: its calls are a prefix of the
  schedule, and all but the last succeeded with a value;
- only without a call is the outcome that the alarm asks for nothing. -/
theorem run_course (reply : List (Call δ) → (c : Call δ) → c.Answer) (before : List (Call δ))
    (s : Sessions δ) (payload : Bytes) :
    ∃ xs result,
      held reply s before (run payload) =
        ((result, afterwards s xs), before ++ calls xs) ∧
      Replies reply before xs ∧
      (∀ e, Alarm.ofEvent payload = .error e → xs = [] ∧ result = .error (.event e)) ∧
      (∀ a, Alarm.ofEvent payload = .ok a →
        ¬(a.level = Alarm.red ∧ (a.name = "VM CPU Usage" ∨ a.name = "VM Memory Usage")) →
        xs = [] ∧ result = .ok .notActionable) ∧
      (∀ a, Alarm.ofEvent payload = .ok a →
        a.level = Alarm.red → (a.name = "VM CPU Usage" ∨ a.name = "VM Memory Usage") →
        ∃ category, a.resource.tagCategory? = some category ∧
          Course s ⟨a.vm, a.resource, category⟩ xs result ∧
          (∀ r, Course s ⟨a.vm, a.resource, category⟩ xs r → r = result) ∧
          (∃ p d tagId, calls xs <+: schedule s ⟨a.vm, a.resource, category⟩ p d tagId) ∧
          (∀ x ∈ xs.dropLast, x.Yields)) ∧
      (result = .ok .notActionable → xs = []) := by
  cases event : Alarm.ofEvent payload with
  | error e =>
    exact ⟨[], .error (.event e), by simp [run, event, afterwards], by simp [Replies], by simp⟩
  | ok a =>
    cases ht : target? a with
    | none =>
      have unknown : ¬(a.level = Alarm.red ∧
          (a.name = "VM CPU Usage" ∨ a.name = "VM Memory Usage")) := by
        rintro ⟨hred, hname⟩
        obtain ⟨c, hc⟩ := tagCategory?_isSome.mpr hname
        rw [target?_eq_some.mpr ⟨hred, c, hc, rfl⟩] at ht
        cases ht
      refine ⟨[], .ok .notActionable, by simp [run, event, ht, afterwards], trivial, by simp,
        by simp, ?_, fun _ => rfl⟩
      rintro _ ⟨rfl⟩ hred hname
      exact absurd ⟨hred, hname⟩ unknown
    | some t =>
      have ends : Ends reply before s t [] (settle t).run := ends_settle ht
      obtain ⟨xs, r, hh, replies, course⟩ := ends trivial
      obtain ⟨hred, c, hc, rfl⟩ := target?_eq_some.mp ht
      refine ⟨xs, r, ?_, replies, by simp, ?_, ?_, fun h => absurd h course.ne_notActionable⟩
      · rw [← hh]; simp [run, event, ht, afterwards]
      · rintro _ ⟨rfl⟩ hno
        exact absurd ⟨hred, tagCategory?_isSome.mp ⟨c, hc⟩⟩ hno
      · rintro _ ⟨rfl⟩ - -
        exact ⟨c, hc, course, fun r' h' => h'.unique course rfl, course.calls_prefix, course.yields⟩

end TierTagger.Tagging
