import Mathlib.Data.List.Forall2
import TierTagger.Proofs.Tagging.Pipeline
import TierTagger.Proofs.VCenter.Logins

/-!
# The password stays in the login

Two runs side by side, whose parameters differ in nothing but the password, against a server that does not
look at credentials.

- **Twins** (`Dialogue.Twin`): two dialogues that ask alike questions and come to the same result. Held with
  somebody who cannot tell alike questions apart, they stay side by side (`Twin.held`).
- **Requests** (`Alike`): what may differ are the credentials of a login, and nothing else does.
- **Jobs** (`Pair`): two jobs that are the same but for the parameters they connect with. Held over vCenter
  they are twins (`Pair.twin`); the pipeline and all that is done with a session are such jobs.
- **Actions** (`Action`, `execute`): what is done one after the other, each with the sessions obtained so far.
- `password_unseen`: whatever is done in whatever order, what is reported, the shared state and the requests
  are the same, the credentials of logins apart.
-/

namespace TierTagger

namespace Dialogue

variable {Q R α β : Type} {Alike : Q → Q → Prop}

/-! ## Twins -/

/-- Two dialogues that ask alike questions and, answered the same, come to the same result. -/
inductive Twin (Alike : Q → Q → Prop) :
    Dialogue (fun _ : Q => R) α → Dialogue (fun _ : Q => R) α → Prop where
  | done (a : α) : Twin Alike (.done a) (.done a)
  | ask {q q' : Q} {next next' : R → Dialogue (fun _ : Q => R) α} (alike : Alike q q')
    (rest : ∀ r, Twin Alike (next r) (next' r)) : Twin Alike (.ask q next) (.ask q' next')

theorem Twin.refl (same : ∀ q, Alike q q) (d : Dialogue (fun _ : Q => R) α) : Twin Alike d d := by
  induction d with
  | done a => exact .done a
  | ask q next ih => exact .ask (same q) ih

theorem Twin.bind {d d' : Dialogue (fun _ : Q => R) α} {next next' : α → Dialogue (fun _ : Q => R) β}
    (first : Twin Alike d d') (rest : ∀ a, Twin Alike (next a) (next' a)) :
    Twin Alike (d >>= next) (d' >>= next') := by
  induction first with
  | done a => exact rest a
  | ask alike _ ih => exact .ask alike ih

/-- The answers do not tell alike questions apart, now or before. -/
def Blind (Alike : Q → Q → Prop) (reply : List Q → Q → R) : Prop :=
  ∀ before before' q q', List.Forall₂ Alike before before' → Alike q q' →
    reply before q = reply before' q'

/-- Twins stay side by side: they come to the same result, having asked alike questions. -/
theorem Twin.held {reply : List Q → Q → R} {d d' : Dialogue (fun _ : Q => R) α} {before before' : List Q}
    (twin : Twin Alike d d') (blind : Blind Alike reply) (alike : List.Forall₂ Alike before before') :
    ((d.run (replying reply)).run before).1 = ((d'.run (replying reply)).run before').1 ∧
      List.Forall₂ Alike ((d.run (replying reply)).run before).2
        ((d'.run (replying reply)).run before').2 := by
  induction twin generalizing before before' with
  | done a => exact ⟨rfl, alike⟩
  | @ask q q' next next' same _ ih =>
    have more : List.Forall₂ Alike (before ++ [q]) (before' ++ [q']) :=
      List.rel_append alike (.cons same .nil)
    have answer : reply before q = reply before' q' := blind before before' q q' alike same
    have first : ((Dialogue.ask q next : Dialogue (fun _ : Q => R) α).run (replying reply)).run before =
        ((next (reply before q)).run (replying reply)).run (before ++ [q]) := rfl
    have second : ((Dialogue.ask q' next' : Dialogue (fun _ : Q => R) α).run (replying reply)).run before' =
        ((next' (reply before' q')).run (replying reply)).run (before' ++ [q']) := rfl
    rw [first, second, ← answer]
    exact ih (reply before q) more

end Dialogue

namespace VCenter

open Dialogue (Twin Blind)
open Directory (Failure)
open Http (Request)
open Sessions (Job call hold)

/-! ## Requests -/

/-- The same request, but for the credentials if it is a login at the base address. -/
inductive Alike (base : String) : Request → Request → Prop where
  | same (r : Request) : Alike base r r
  | login {url : Url} (credentials credentials' : List String) (at_url : sessionAddress base = .ok url) :
    Alike base { Request.ofUrl .post url with credentials }
      { Request.ofUrl .post url with credentials := credentials' }

variable {base : String} {r r' : Request} {site : Site} {c c' : Connection}

/-- Only the header `authorization` may differ, and only in a request that logs in. -/
theorem Alike.fields (alike : Alike base r r') : r' = { r with credentials := r'.credentials } := by
  cases alike <;> rfl

theorem Alike.fault?_eq (alike : Alike base r r') : fault? r = fault? r' := by
  cases alike <;> rfl

theorem Alike.heard_eq (alike : Alike base r r') (a : Http.Answer) : heard r a = heard r' a := by
  cases alike <;> rfl

/-! ## Logins -/

theorem twin_once {ρ : Type} {judge : Except Failure (Nat × Bytes) → ρ} (alike : Alike base r r') :
    Twin (Alike base) (once r judge) (once r' judge) := by
  unfold once
  rw [← alike.fault?_eq]
  cases fault? r with
  | some e => exact .done _
  | none => exact .ask alike fun a => alike.heard_eq a ▸ .done _

theorem twin_login (base : String) (c c' : Connection) :
    Twin (Alike base) (login base c).run (login base c').run := by
  rw [login_run, login_run]
  unfold loginRequest sessionRequest
  cases at_url : sessionAddress base with
  | error e => exact .done _
  | ok url => exact twin_once (.login _ _ at_url)

/-- Parameters with another password. -/
structure SameButPassword (c c' : Connection) : Prop where
  server : c.server = c'.server
  user : c.user = c'.user
  insecure : c.insecure = c'.insecure

theorem SameButPassword.baseFor (same : SameButPassword c c') (site : Site) :
    site.baseFor c = site.baseFor c' := by
  unfold Site.baseFor
  cases site.base with
  | some b => rfl
  | none => rw [same.server]

theorem twin_connect (same : SameButPassword c c') (site : Site) :
    Twin (Alike (site.baseFor c)) (connect site c) (connect site c') := by
  unfold connect
  rw [← same.baseFor site]
  refine (twin_login _ c c').bind fun first => ?_
  cases first with
  | error e => exact .done _
  | ok inventory =>
    refine (twin_login _ c c').bind fun second => ?_
    cases second with
    | error e => exact (Twin.refl .same _)
    | ok tagging => exact .done _

/-! ## Jobs -/

variable {α β : Type}

/-- The same job, but for the parameters it is given by the source and connects with. -/
inductive Pair (c c' : Connection) : Job Link α → Job Link α → Prop where
  | done (a : α) : Pair c c' (.done a) (.done a)
  | ask {q : Sessions.Question Link (Call Link)} {next next' : q.Answer Call.Answer → Job Link α}
    (other : q ≠ .call .load) (rest : ∀ a, Pair c c' (next a) (next' a)) :
    Pair c c' (.ask q next) (.ask q next')
  | load {next next' : Except Configuration.Error Connection → Job Link α}
    (rest : Pair c c' (next (.ok c)) (next' (.ok c'))) :
    Pair c c' (.ask (.call .load) next) (.ask (.call .load) next')
  | connect {next next' : Except Directory.Error Link → Job Link α}
    (rest : ∀ a, Pair c c' (next a) (next' a)) :
    Pair c c' (.ask (.call (.connect c)) next) (.ask (.call (.connect c')) next')

theorem Pair.bind {job job' : Job Link α} {next next' : α → Job Link β} (first : Pair c c' job job')
    (rest : ∀ a, Pair c c' (next a) (next' a)) : Pair c c' (job >>= next) (job' >>= next') := by
  induction first with
  | done a => exact rest a
  | ask other _ ih => exact .ask other ih
  | load _ ih => exact .load ih
  | connect _ ih => exact .connect ih

/-- Held over vCenter, the two jobs are twins, from the same shared state on. -/
theorem Pair.twin {job job' : Job Link α} (pair : Pair c c' job job') (site : Site)
    (same : SameButPassword c c') (complete : c.missing? = none) (complete' : c'.missing? = none)
    (s : Sessions Link) :
    Twin (Alike (site.baseFor c)) ((hold (exchange site (.fixed c)) job).run s)
      ((hold (exchange site (.fixed c')) job').run s) := by
  induction pair generalizing s with
  | done a => exact .done _
  | @ask q next next' other _ ih =>
    -- whatever is asked, both go on from the same shared state
    cases q with
    | lock =>
      rw [Sessions.hold_lock, Sessions.hold_lock]
      exact ih _ s
    | unlock session =>
      rw [Sessions.hold_unlock, Sessions.hold_unlock]
      exact ih () _
    | number =>
      rw [Sessions.hold_number, Sessions.hold_number]
      exact ih _ _
    | beginShutdown =>
      rw [Sessions.hold_beginShutdown, Sessions.hold_beginShutdown]
      exact ih _ _
    | call q =>
      rw [Sessions.hold_ask_call, Sessions.hold_ask_call]
      have worked : exchange site (.fixed c) q = exchange site (.fixed c') q := by
        cases q with
        | load => exact absurd rfl other
        | connect | hardware | tags | attach | logout => rfl
      rw [worked]
      exact (Twin.refl .same _).bind fun a => ih a s
  | load _ ih =>
    -- the only answer that differs, and no request is made for it
    rw [Sessions.hold_ask_call, Sessions.hold_ask_call]
    have loads : exchange site (.fixed c) .load = .done (.ok c) := by
      simp [exchange, Configuration.Source.load, Configuration.complete, complete]
    have loads' : exchange site (.fixed c') .load = .done (.ok c') := by
      simp [exchange, Configuration.Source.load, Configuration.complete, complete']
    rw [loads, loads']
    exact ih s
  | connect _ ih =>
    rw [Sessions.hold_ask_call, Sessions.hold_ask_call]
    exact (twin_connect same site).bind fun a => ih a s

/-! Nothing but a connection looks at the parameters. -/

theorem pair_call {q : Call Link} (other : q ≠ .load) : Pair c c' (call q) (call q) :=
  .ask (by simpa using other) fun a => .done a

theorem pair_current : Pair c c' (Sessions.current (δ := Link)) Sessions.current :=
  .ask nofun fun _ => .ask nofun fun _ => .done _

theorem pair_ensure : Pair c c' (Sessions.ensure (δ := Link) c) (Sessions.ensure c') := by
  rw [Sessions.ensure_eq, Sessions.ensure_eq]
  refine .ask nofun fun found => ?_
  cases found with
  | some s => exact .ask nofun fun _ => .done _
  | none =>
    refine .connect fun r => ?_
    cases r with
    | error e => exact .ask nofun fun _ => .done _
    | ok d => exact .ask nofun fun _ => .ask nofun fun _ => .done _

theorem pair_shutdown : Pair c c' (Sessions.shutdown (δ := Link)) Sessions.shutdown := by
  rw [Sessions.shutdown_eq]
  refine .ask nofun fun first => ?_
  cases first with
  | false => exact .done _
  | true =>
    refine .ask nofun fun found => .ask nofun fun _ => ?_
    cases found with
    | none => exact .done _
    | some s => exact .ask nofun fun _ => .done _

/-- A failure ends both. -/
theorem Pair.attempt_bind {ε ε' : Type} {f : ε → ε'} {job job' : Job Link (Except ε α)}
    {next next' : α → Tagging.Attempt Link ε' β} (first : Pair c c' job job')
    (rest : ∀ a, Pair c c' (next a).run (next' a).run) :
    Pair c c' (Dialogue.attempt f job >>= next).run (Dialogue.attempt f job' >>= next').run := by
  rw [Tagging.run_attempt_bind, Tagging.run_attempt_bind]
  refine first.bind fun r => ?_
  cases r with
  | error e => exact .done _
  | ok a => exact rest a

theorem pair_fetch (session : Session Link) (vm : ObjectRef) :
    Pair c c' (Tagging.fetch session vm).run (Tagging.fetch session vm).run := by
  refine Pair.attempt_bind (pair_call (q := .hardware _ _) nofun) fun found => ?_
  cases found <;> exact .done _

theorem pair_resolve (session : Session Link) (category : String) (tier : Tier) :
    Pair c c' (Tagging.resolve session category tier).run (Tagging.resolve session category tier).run :=
  Pair.attempt_bind (pair_call (q := .tags _ _) nofun) fun _ => .done _

theorem pair_settle (t : Tagging.Target) :
    Pair c c' (Tagging.settle (δ := Link) t).run (Tagging.settle t).run := by
  unfold Tagging.settle
  rw [Tagging.run_attempt_bind]
  refine .load (Pair.attempt_bind pair_ensure fun session => ?_)
  refine Pair.attempt_bind (pair_fetch session t.vm) fun hardware => ?_
  cases Tier.next? t.resource hardware with
  | none => exact .done _
  | some tier =>
    refine Pair.attempt_bind (pair_resolve session t.category tier) fun found => ?_
    cases found with
    | none => exact .done _
    | some tag => exact Pair.attempt_bind (pair_call (q := .attach _ _ _) nofun) fun _ => .done _

theorem pair_run (payload : Bytes) :
    Pair c c' (Tagging.run (δ := Link) payload) (Tagging.run payload) := by
  unfold Tagging.run
  cases Alarm.ofEvent payload with
  | error e => exact .done _
  | ok alarm =>
    simp only
    cases Tagging.target? alarm with
    | none => exact .done _
    | some t => exact pair_settle t

theorem pair_handle (payload : Bytes) :
    Pair c c' (Tagging.handle (δ := Link) payload) (Tagging.handle payload) :=
  (pair_run payload).bind fun _ => .done _

/-! ## Actions -/

/-- What is done with the parameters, or with a session by its place among those obtained. -/
inductive Action where
  | handle (payload : Bytes)
  | run (payload : Bytes)
  | ensure
  | connect
  | current
  | fetch (place : Nat) (vm : ObjectRef)
  | resolve (place : Nat) (category : String) (tier : Tier)
  | attach (place : Nat) (tagId : String) (vm : ObjectRef)
  | logout (place : Nat)
  | shutdown

/-- What an action comes to. -/
inductive Report where
  | reply (r : Reply)
  | outcome (r : Except Tagging.Error Tagging.Outcome)
  | session (r : Except Directory.Error (Session Link))
  | link (r : Except Directory.Error Link)
  | current (r : Option (Session Link))
  | hardware (r : Except Tagging.FetchError Hardware)
  | tag (r : Except Directory.Error (Option Tag))
  | ended (r : Except Directory.Error Unit)
  | shutdown (first : Bool)
  /-- There is no session at the place. -/
  | nothing

/-- The session that was obtained, if one was. A connection that is not shared has the number 0. -/
def Report.obtained : Report → List (Session Link)
  | session (.ok s) => [s]
  | link (.ok l) => [⟨0, l⟩]
  | _ => []

/-- Does something with the session at a place. -/
def withHeld (held : List (Session Link)) (place : Nat) (next : Session Link → Job Link Report) :
    Job Link Report :=
  match held[place]? with
  | none => pure .nothing
  | some s => next s

/-- An action as a job, of somebody who has these parameters and holds these sessions. -/
def Action.job (c : Connection) (held : List (Session Link)) : Action → Job Link Report
  | handle payload => .reply <$> Tagging.handle payload
  | run payload => .outcome <$> Tagging.run payload
  | ensure => .session <$> Sessions.ensure c
  | connect => .link <$> call (.connect c)
  | current => .current <$> Sessions.current
  | fetch place vm => withHeld held place fun s => .hardware <$> (Tagging.fetch s vm).run
  | resolve place category tier =>
    withHeld held place fun s => .tag <$> (Tagging.resolve s category tier).run
  | attach place tagId vm => withHeld held place fun s => .ended <$> call (.attach s.directory tagId vm)
  | logout place => withHeld held place fun s => .ended <$> call (.logout s.directory)
  | shutdown => .shutdown <$> Sessions.shutdown

/-- Actions one after the other. Each may use the sessions that those before it obtained. -/
def program (c : Connection) (held : List (Session Link)) : List Action → Job Link (List Report)
  | [] => pure []
  | a :: rest => do
    let report ← a.job c held
    let reports ← program c (held ++ report.obtained) rest
    return report :: reports

/-- What a process reports that has these parameters, with the shared state and the requests at its end. -/
def execute (site : Site) (network : Http.Network) (c : Connection) (actions : List Action) :
    (List Report × Sessions Link) × List Request :=
  ((hold (respond site (.fixed c) network) (program c [] actions)).run .initial).run []

theorem Pair.map {job job' : Job Link α} (pair : Pair c c' job job') (f : α → β) :
    Pair c c' (f <$> job) (f <$> job') := pair.bind fun _ => .done _

theorem pair_withHeld {held : List (Session Link)} {place : Nat} {next : Session Link → Job Link Report}
    (each : ∀ s, Pair c c' (next s) (next s)) :
    Pair c c' (withHeld held place next) (withHeld held place next) := by
  unfold withHeld
  cases held[place]? with
  | none => exact .done _
  | some s => exact each s

theorem pair_action (held : List (Session Link)) (a : Action) : Pair c c' (a.job c held) (a.job c' held) := by
  cases a with
  | handle payload => exact (pair_handle payload).map _
  | run payload => exact (pair_run payload).map _
  | ensure => exact pair_ensure.map _
  | connect => exact Pair.map (.connect fun a => .done a) _
  | current => exact pair_current.map _
  | fetch place vm => exact pair_withHeld fun s => (pair_fetch s vm).map _
  | resolve place category tier => exact pair_withHeld fun s => (pair_resolve s category tier).map _
  | attach place tagId vm =>
    exact pair_withHeld fun s => (pair_call (q := .attach s.directory tagId vm) nofun).map _
  | logout place => exact pair_withHeld fun s => (pair_call (q := .logout s.directory) nofun).map _
  | shutdown => exact pair_shutdown.map _

theorem pair_program (held : List (Session Link)) (actions : List Action) :
    Pair c c' (program c held actions) (program c' held actions) := by
  induction actions generalizing held with
  | nil => exact .done _
  | cons a rest ih => exact (pair_action held a).bind fun report => (ih _).bind fun _ => .done _

/-! ## Servers -/

/-- A request without credentials. -/
def anonymous (r : Request) : Request := { r with credentials := [] }

/-- The answers do not depend on credentials, now or before. -/
def Indifferent (network : Http.Network) : Prop :=
  ∀ before r, network before r = network (before.map anonymous) (anonymous r)

theorem Alike.anonymous_eq (alike : Alike base r r') : anonymous r = anonymous r' := by
  rw [alike.fields]
  rfl

theorem Indifferent.blind {network : Http.Network} (indifferent : Indifferent network) :
    Blind (Alike base) network := by
  intro before before' r r' alike same
  have before_eq : before.map anonymous = before'.map anonymous :=
    List.forall₂_eq_eq_eq ▸ List.forall₂_map_left_iff.mpr
      (List.forall₂_map_right_iff.mpr (alike.imp fun _ _ => Alike.anonymous_eq))
  rw [indifferent before r, indifferent before' r', before_eq, same.anonymous_eq]

/-- **The password is not seen.** Whatever is done and however it fails, with another password the reports
and the shared state are the same, and so are the requests but for the credentials of logins. -/
theorem password_unseen (site : Site) {network : Http.Network} (indifferent : Indifferent network)
    (same : SameButPassword c c') (complete : c.missing? = none) (complete' : c'.missing? = none)
    (actions : List Action) :
    (execute site network c actions).1 = (execute site network c' actions).1 ∧
      List.Forall₂ (Alike (site.baseFor c)) (execute site network c actions).2
        (execute site network c' actions).2 ∧
      c.debug = c'.debug := by
  have twin := (pair_program [] actions).twin site same complete complete' .initial
  obtain ⟨reports, requests⟩ := twin.held indifferent.blind .nil
  unfold execute
  rw [hold_respond, hold_respond]
  refine ⟨reports, requests, ?_⟩
  unfold Connection.debug
  rw [same.server, same.user, same.insecure]

/-- Every login is granted, and no answer comes when a session is to be ended. -/
def grantLogins : Http.Network := fun _ r =>
  if r.method = .delete then .lost else .response 200 (Utf8.encode "\"token\"")

/-- Parameters with a password. -/
def withPassword (password : String) : Connection := ⟨"vc", "user", password, false⟩

/-- Connects, looks for a machine whose record is no record, and logs out. -/
def visit : List Action := [.ensure, .fetch 0 ⟨"VirtualMachine", "vm-42"⟩, .shutdown]

/-- What a process with a password does on its visit. -/
def visitWith (password : String) : (List Report × Sessions Link) × List Request :=
  execute ⟨some "http://vc"⟩ grantLogins (withPassword password) visit

/-- Two passwords that only the logins tell apart. -/
theorem password_unseen_grantLogins :
    (Indifferent grantLogins ∧ SameButPassword (withPassword "one") (withPassword "two") ∧
        (withPassword "one").missing? = none ∧ (withPassword "two").missing? = none) ∧
      ((visitWith "one").1 = (visitWith "two").1 ∧
        List.Forall₂ (Alike "http://vc") (visitWith "one").2 (visitWith "two").2 ∧
        (withPassword "one").debug = (withPassword "two").debug) ∧
      (visitWith "one").2.map (fun r => (r.method, r.credentials)) =
        [(.post, ["Basic dXNlcjpvbmU="]), (.post, ["Basic dXNlcjpvbmU="]), (.get, []), (.delete, []),
          (.delete, [])] ∧
      (visitWith "two").2.map (fun r => (r.method, r.credentials)) =
        [(.post, ["Basic dXNlcjp0d28="]), (.post, ["Basic dXNlcjp0d28="]), (.get, []), (.delete, []),
          (.delete, [])] := by
  have indifferent : Indifferent grantLogins := fun _ _ => rfl
  have same : SameButPassword (withPassword "one") (withPassword "two") := ⟨rfl, rfl, rfl⟩
  have complete : (withPassword "one").missing? = none := by decide
  have complete' : (withPassword "two").missing? = none := by decide
  exact ⟨⟨indifferent, same, complete, complete'⟩,
    password_unseen ⟨some "http://vc"⟩ indifferent same complete complete' visit,
    by decide +kernel, by decide +kernel⟩

end VCenter

end TierTagger
