import Mathlib.Algebra.Order.Group.Multiset
import Mathlib.Data.List.Induction
import TierTagger.Proofs.Tagging.Pipeline
import TierTagger.Proofs.VCenter.Operations

/-!
# Tokens are accounted for

Every session that vCenter opens is ended, or it is one of the two of the installed session.

- **Books** (`obtained`, `closed`, `Books`): the tokens of logins that succeeded and of requests that
  end a session, and their balance.
- **Jobs that keep the books** (`Keeps`): connections (`keeps_ensure`), logouts (`keeps_shutdown`), and
  everything that makes neither.
- `sessions_accounted`: the books of any run, and what is sent when a login fails and at the end.
-/

namespace TierTagger.VCenter

open Dialogue (Told Answered told_done told_ask told_bind)
open Directory (Endpoint Failure)
open Http (Answer Request)
open Sessions (Job hold)

/-! ## Books -/

/-- The token in an answer to a login that succeeded. -/
def token? : Answer → Option String
  | .response status body =>
    if 200 ≤ status ∧ status < 300 then (Json.Decoder.text.decode body).toOption else none
  | .lost => none

/-- The token that an exchange obtains, if it is a login. -/
def gain? (x : Request × Answer) : Option String :=
  if x.1.method = .post ∧ x.1.token = none then token? x.2 else none

/-- The token that an exchange gives up, if it ends a session. -/
def loss? (x : Request × Answer) : Option String :=
  if x.1.method = .delete then x.1.token else none

/-- The tokens of the logins that succeeded. -/
def obtained (xs : List (Request × Answer)) : Multiset String := ↑(xs.filterMap gain?)

/-- The tokens of the requests that end a session. -/
def closed (xs : List (Request × Answer)) : Multiset String := ↑(xs.filterMap loss?)

/-- The tokens of the installed session. -/
def kept (s : Sessions Link) : Multiset String :=
  match s.installed with
  | some x => {x.directory.inventory, x.directory.tagging}
  | none => 0

/-- The tokens of logins can be the values of a header. -/
def Legal (xs : List (Request × Answer)) : Prop :=
  ∀ x ∈ xs, ∀ t, gain? x = some t → Request.isHeaderValue t

/-- Only logins are made without a token, and only the end of a session is asked with `DELETE`. -/
def Known (r : Request) : Prop :=
  (r.token = none → ∃ base c, loginRequest base c = .ok r) ∧
    (r.method = .delete → ∃ base token, logoutRequest base token = .ok r)

/-- Both sessions of a link can be ended. -/
def Live (link : Link) : Prop :=
  (∃ c r, Ready link.base c r) ∧ Request.isHeaderValue link.inventory ∧
    Request.isHeaderValue link.tagging

/-- What is obtained is given up or kept, and what is kept can be given up. -/
structure Books (s : Sessions Link) (xs : List (Request × Answer)) : Prop where
  balance : obtained xs = closed xs + kept s
  known : ∀ x ∈ xs, Known x.1
  live : ∀ x, s.installed = some x → Live x.directory

section
variable (xs ys : List (Request × Answer))

@[simp] theorem obtained_nil : obtained [] = 0 := rfl

@[simp] theorem closed_nil : closed [] = 0 := rfl

@[simp] theorem obtained_append : obtained (xs ++ ys) = obtained xs + obtained ys := by
  simp [obtained]

@[simp] theorem closed_append : closed (xs ++ ys) = closed xs + closed ys := by
  simp [closed]

end

variable {xs ys : List (Request × Answer)} {s s' : Sessions Link}

/-- Nothing is obtained or given up by an exchange. -/
def Quiet (x : Request × Answer) : Prop := gain? x = none ∧ loss? x = none ∧ Known x.1

theorem Books.quiet (books : Books s xs) (quiet : ∀ x ∈ ys, Quiet x) : Books s (xs ++ ys) := by
  refine ⟨?_, List.forall_mem_append.mpr ⟨books.known, fun x mem => (quiet x mem).2.2⟩, books.live⟩
  have none_obtained : obtained ys = 0 := by
    simp only [obtained, Multiset.coe_eq_zero]
    exact List.filterMap_eq_nil_iff.mpr fun x mem => (quiet x mem).1
  have none_closed : closed ys = 0 := by
    simp only [closed, Multiset.coe_eq_zero]
    exact List.filterMap_eq_nil_iff.mpr fun x mem => (quiet x mem).2.1
  rw [obtained_append, closed_append, none_obtained, none_closed, add_zero, add_zero, books.balance]

/-! ## Exchanges -/

theorem token?_response (status : Nat) (body : Bytes) : token? (.response status body) =
    if 200 ≤ status ∧ status < 300 then (Json.Decoder.text.decode body).toOption else none := rfl

theorem tokenIn_eq_ok {r : Request} {a : Answer} {t : String} :
    tokenIn (heard r a) = .ok t ↔ token? a = some t := by
  rw [tokenIn, readOf_eq_ok]
  cases a with
  | lost => exact ⟨nofun, nofun⟩
  | response status body =>
    rw [token?_response]
    by_cases success : 200 ≤ status ∧ status < 300
    · rw [if_pos success]
      cases value : Json.Decoder.text.decode body <;> simp [success, value, Except.toOption]
    · rw [if_neg success]
      refine ⟨?_, nofun⟩
      rintro ⟨_, _, ⟨⟩, low, high, -⟩
      exact absurd ⟨low, high⟩ success

theorem gain?_login {base : String} {c : Connection} {r : Request} {a : Answer}
    (request : loginRequest base c = .ok r) : gain? (r, a) = token? a ∧ loss? (r, a) = none := by
  obtain ⟨url, -, rfl⟩ := loginRequest_eq_ok.mp request
  simp [gain?, loss?]

theorem known_login {base : String} {c : Connection} {r : Request}
    (request : loginRequest base c = .ok r) : Known r := by
  refine ⟨fun _ => ⟨base, c, request⟩, fun method => ?_⟩
  obtain ⟨url, -, rfl⟩ := loginRequest_eq_ok.mp request
  simp at method

theorem known_logout {base token : String} {r : Request}
    (request : logoutRequest base token = .ok r) : Known r := by
  refine ⟨fun none_token => ?_, fun _ => ⟨base, token, request⟩⟩
  obtain ⟨url, -, rfl⟩ := logoutRequest_eq_ok.mp request
  cases none_token

theorem loss?_logout {base token : String} {r : Request} {a : Answer}
    (request : logoutRequest base token = .ok r) : gain? (r, a) = none ∧ loss? (r, a) = some token := by
  obtain ⟨url, -, rfl⟩ := logoutRequest_eq_ok.mp request
  simp [gain?, loss?]

/-- Other requests neither obtain nor give up a token. -/
theorem Asks.quiet {link : Link} {c : Connection} {vm : ObjectRef} {k : Endpoint} {r : Request}
    {a : Answer} (asks : Asks link c vm k r) (login : k ≠ .login) (logout : k ≠ .logout) :
    Quiet (r, a) := by
  have made {base token : String} {method : Http.Method} {segments : List String}
      {query body : Option String} (made : Made base token method segments query body r)
      (kept : method ≠ .delete) : Quiet (r, a) := by
    simp [Quiet, Known, gain?, loss?, made.token_eq, made.method_eq, kept]
  cases k with
  | login => exact absurd rfl login
  | logout => exact absurd rfl logout
  | machine | categories => exact made asks nofun
  | category | tagsOfCategory | tag | attach =>
    obtain ⟨id, asks⟩ := asks
    exact made asks nofun

theorem Asking.exists_kind {K : Endpoint → Request → Prop} {kinds : List Endpoint}
    (asking : Asking K kinds xs) : ∀ x ∈ xs, ∃ k ∈ kinds, K k x.1 := by
  induction asking with
  | none => simp
  | last asks => simpa using asks
  | next asks _ _ ih =>
    intro x mem
    rcases List.mem_cons.mp mem with rfl | mem
    · exact ⟨_, List.mem_cons_self, asks⟩
    · obtain ⟨k, mem, asks⟩ := ih x mem
      exact ⟨k, List.mem_cons_of_mem _ mem, asks⟩

/-- Operations neither obtain nor give up a token. -/
theorem Goes.quiet {link : Link} {c : Connection} {vm : ObjectRef} {word : List Endpoint} {ok : Prop}
    (goes : Goes (Asks link c vm) word xs ok) (login : .login ∉ word) (logout : .logout ∉ word) :
    ∀ x ∈ xs, Quiet x := by
  obtain ⟨⟨kinds, first, asking⟩, -⟩ := goes
  intro x mem
  obtain ⟨k, mem, asks⟩ := asking.exists_kind x mem
  have within : k ∈ word := first.subset mem
  exact asks.quiet (fun same => login (same ▸ within)) fun same => logout (same ▸ within)

theorem legal_append : Legal (xs ++ ys) ↔ Legal xs ∧ Legal ys := List.forall_mem_append

theorem gain?_refused {r : Request} {a : Answer} {e : Failure} {base : String} {c : Connection}
    (request : loginRequest base c = .ok r) (fails : tokenIn (heard r a) = .error e) :
    gain? (r, a) = none := by
  rw [(gain?_login request).1]
  cases token : token? a with
  | none => rfl
  | some t =>
    rw [tokenIn_eq_ok.mpr token] at fails
    cases fails

theorem gain?_granted {r : Request} {a : Answer} {t : String} {base : String} {c : Connection}
    (request : loginRequest base c = .ok r) (token : tokenIn (heard r a) = .ok t) :
    gain? (r, a) = some t := by
  rw [(gain?_login request).1, tokenIn_eq_ok.mp token]

/-! ## Connections and logouts -/

/-- A connection that is refused keeps the books, and so does one that is made. -/
theorem Connects.books {site : Site} {c : Connection} {x : Except Directory.Error Link}
    (connects : Connects site c ys x) (legal : Legal ys) (books : Books s xs)
    (empty : s.installed = none) :
    match x with
    | .error _ => Books s (xs ++ ys)
    | .ok link => Books (s.install link) (xs ++ ys) := by
  have balance : obtained xs = closed xs := by simpa [kept, empty] using books.balance
  have none_kept : kept s = 0 := by simp [kept, empty]
  cases connects with
  | unmade e => simpa using books
  | @refused r a e ready fails =>
    refine books.quiet ?_
    simpa using ⟨gain?_refused ready.request fails, (gain?_login ready.request).2,
      known_login ready.request⟩
  | @connected r a a' t t' ready first second =>
    have gain := gain?_granted ready.request first
    have gain' := gain?_granted ready.request second
    have loss (a : Answer) : loss? (r, a) = none := (gain?_login ready.request).2
    refine ⟨?_, ?_, ?_⟩
    · have got : obtained [(r, a), (r, a')] = {t, t'} := by simp [obtained, gain, gain']; rfl
      have lost : closed [(r, a), (r, a')] = 0 := by simp [closed, loss]
      rw [obtained_append, closed_append, balance, got, lost, add_zero]
      rfl
    · exact List.forall_mem_append.mpr ⟨books.known, by simpa using known_login ready.request⟩
    · rintro _ ⟨rfl⟩
      exact ⟨⟨c, r, ready⟩, legal _ (by simp) _ gain, legal _ (by simp) _ gain'⟩
  | @released r r' a a' b t e ready first fails _ ends =>
    have got : obtained [(r, a), (r, a'), (r', b)] = {t} := by
      simp [obtained, gain?_granted ready.request first, gain?_refused ready.request fails,
        loss?_logout ends]
    have lost : closed [(r, a), (r, a'), (r', b)] = {t} := by
      simp [closed, (gain?_login ready.request).2, loss?_logout ends]
    refine ⟨?_, ?_, fun x installed => ?_⟩
    · rw [obtained_append, closed_append, balance, got, lost, none_kept, add_zero]
    · exact List.forall_mem_append.mpr ⟨books.known,
        by simpa using ⟨known_login ready.request, known_logout ends⟩⟩
    · rw [empty] at installed
      cases installed
  | stuck ready first fails illegal =>
    exact absurd (legal _ (by simp) _ (gain?_granted ready.request first)) illegal

/-! ## Jobs -/

variable (site : Site) (source : Configuration.Source)

/-- Held alone, the job keeps the books, as long as tokens are legal. -/
def Keeps {α : Type} (job : Job Link α) : Prop :=
  ∀ s xs ys a s', Books s xs → Legal ys →
    Told ((hold (exchange site source) job).run s) ys (a, s') → Books s' (xs ++ ys)

variable {site source} {α β : Type}

theorem keeps_done (a : α) : Keeps site source (.done a) := by
  rintro s xs ys a s' books - told
  rw [Sessions.hold_done] at told
  obtain ⟨rfl, same⟩ := told_done.mp told
  cases same
  simpa using books

theorem Keeps.bind {job : Job Link α} {next : α → Job Link β} (first : Keeps site source job)
    (rest : ∀ a, Keeps site source (next a)) : Keeps site source (job >>= next) := by
  intro s xs ys b s' books legal told
  rw [Sessions.hold_bind] at told
  obtain ⟨us, vs, ⟨a, t⟩, rfl, told, told'⟩ := told_bind.mp told
  obtain ⟨legal, legal'⟩ := legal_append.mp legal
  rw [← List.append_assoc]
  exact rest a t _ vs b s' (first s xs us a t books legal told) legal' told'

/-- A call that neither obtains nor gives up a token. -/
theorem keeps_call {c : Call Link} (quiet : ∀ ys a, Told (exchange site source c) ys a →
    ∀ x ∈ ys, Quiet x) : Keeps site source (Sessions.call c) := by
  intro s xs ys a s' books _ told
  replace told : Told ((hold (exchange site source) (.ask (.call c) .done)).run s) ys (a, s') := told
  rw [Sessions.hold_ask_call] at told
  obtain ⟨us, vs, a', rfl, first, last⟩ := told_bind.mp told
  rw [Sessions.hold_done] at last
  obtain ⟨rfl, same⟩ := told_done.mp last
  cases same
  rw [List.append_nil]
  exact books.quiet (quiet us a first)

theorem keeps_ensure (c : Connection) : Keeps site source (Sessions.ensure c) := by
  intro s xs ys a s' books legal told
  rw [Sessions.hold_ensure] at told
  cases installed : s.installed with
  | some x =>
    rw [installed] at told
    obtain ⟨rfl, same⟩ := told_done.mp told
    cases same
    simpa using books
  | none =>
    rw [installed] at told
    obtain ⟨us, vs, x, rfl, told, last⟩ := told_bind.mp told
    have kept (rest : vs = []) := (told_connect told).books (by simpa [rest] using legal) books installed
    cases x with
    | error e =>
      obtain ⟨rfl, same⟩ := told_done.mp last
      cases same
      simpa using kept rfl
    | ok link =>
      obtain ⟨rfl, same⟩ := told_done.mp last
      cases same
      simpa using kept rfl

/-- The first shutdown ends both sessions. -/
theorem told_shutdown {x : Session Link} {a : Bool} (live : Live x.directory)
    (installed : s.installed = some x) (open_ : s.shutDown = false)
    (told : Told ((hold (exchange site source) Sessions.shutdown).run s) ys (a, s')) :
    ∃ r r' b b', logoutRequest x.directory.base x.directory.inventory = .ok r ∧
      logoutRequest x.directory.base x.directory.tagging = .ok r' ∧ ys = [(r, b), (r', b')] ∧
      s'.installed = none := by
  rw [Sessions.hold_shutdown, open_, installed] at told
  obtain ⟨us, vs, result, rfl, left, last⟩ := told_bind.mp told
  obtain ⟨rfl, same⟩ := told_done.mp last
  cases same
  obtain ⟨⟨c, r, ready⟩, legal, legal'⟩ := live
  obtain ⟨r, r', b, b', ends, ends', rfl⟩ := ready.told_logout legal legal' left
  exact ⟨r, r', b, b', ends, ends', by simp, rfl⟩

theorem keeps_shutdown : Keeps site source Sessions.shutdown := by
  intro s xs ys a s' books _ told
  by_cases began : s.shutDown
  · rw [Sessions.hold_shutdown, if_pos began] at told
    obtain ⟨rfl, same⟩ := told_done.mp told
    cases same
    simpa using books
  · cases installed : s.installed with
    | none =>
      rw [Sessions.hold_shutdown, if_neg began, installed] at told
      obtain ⟨rfl, same⟩ := told_done.mp told
      cases same
      rw [List.append_nil]
      exact ⟨by simpa [kept, installed] using books.balance, books.known, nofun⟩
    | some x =>
      obtain ⟨r, r', b, b', ends, ends', rfl, gone⟩ :=
        told_shutdown (books.live x installed) installed (by simpa using began) told
      have got : obtained [(r, b), (r', b')] = 0 := by
        simp [obtained, loss?_logout ends, loss?_logout ends']
      have lost : closed [(r, b), (r', b')] = {x.directory.inventory, x.directory.tagging} := by
        simp [closed, loss?_logout ends, loss?_logout ends']
        rfl
      have were : kept s = {x.directory.inventory, x.directory.tagging} := by simp [kept, installed]
      have are : kept s' = 0 := by simp [kept, gone]
      refine ⟨?_, ?_, by simp [gone]⟩
      · rw [obtained_append, closed_append, books.balance, got, lost, were, are, add_zero]
      · exact List.forall_mem_append.mpr ⟨books.known,
          by simpa using ⟨known_logout ends, known_logout ends'⟩⟩

theorem keeps_hardware (link : Link) (vm : ObjectRef) :
    Keeps site source (Sessions.call (.hardware link vm)) :=
  keeps_call fun _ _ told => (goes_hardware (c := default) told).quiet (by simp) (by simp)

theorem keeps_tags (link : Link) (category : String) :
    Keeps site source (Sessions.call (.tags link category)) :=
  keeps_call fun _ _ told => by
    obtain ⟨m, n, goes⟩ := @goes_tags _ link default default _ _ told
    exact goes.quiet (by simp [List.mem_replicate]) (by simp [List.mem_replicate])

theorem keeps_attach (link : Link) (tagId : String) (vm : ObjectRef) :
    Keeps site source (Sessions.call (.attach link tagId vm)) :=
  keeps_call fun _ _ told => (goes_attach (c := default) told).1.quiet (by simp) (by simp)

theorem keeps_load : Keeps site source (Sessions.call .load) :=
  keeps_call fun _ _ told => by
    obtain ⟨rfl, -⟩ := told_done.mp told
    simp

/-- Nothing of the pipeline but its connection obtains a token. -/
theorem keeps_settle (t : Tagging.Target) : Keeps site source (Tagging.settle t).run := by
  rw [Tagging.settle_run]
  refine keeps_load.bind fun loaded => ?_
  cases loaded with
  | error e => exact keeps_done _
  | ok p =>
    refine (keeps_ensure p).bind fun session => ?_
    cases session with
    | error e => exact keeps_done _
    | ok session =>
      refine (keeps_hardware _ _).bind fun found => ?_
      rcases found with e | _ | hardware
      · exact keeps_done _
      · exact keeps_done _
      · cases tier : Tier.next? t.resource hardware with
        | none =>
          simp only [tier]
          exact keeps_done _
        | some tier' =>
          simp only [tier]
          refine (keeps_tags _ _).bind fun listed => ?_
          cases listed with
          | error e => exact keeps_done _
          | ok tags =>
            cases found : Tag.forTier? tags tier' with
            | none =>
              simp only [found]
              exact keeps_done _
            | some tag =>
              simp only [found]
              refine (keeps_attach _ _ _).bind fun attached => ?_
              cases attached <;> exact keeps_done _

theorem keeps_run (payload : Bytes) : Keeps site source (Tagging.run payload) := by
  unfold Tagging.run
  cases Alarm.ofEvent payload with
  | error e => exact keeps_done _
  | ok alarm =>
    simp only
    cases Tagging.target? alarm with
    | none => exact keeps_done _
    | some t => exact keeps_settle t

/-! ## Tasks -/

/-- What is done to the shared session. -/
inductive Task where
  | ensure (parameters : Connection)
  | handle (payload : Bytes)
  | shutdown
  deriving DecidableEq, Repr

/-- The code of a task. -/
def Task.job : Task → Job Link Unit
  | ensure c => do let _ ← Sessions.ensure c
  | handle payload => do let _ ← Tagging.handle payload
  | shutdown => do let _ ← Sessions.shutdown

/-- The shared state and the requests so far after a task, with the source that it has. -/
def Task.after (site : Site) (network : Http.Network) (state : Sessions Link × List Request)
    (t : Configuration.Source × Task) : Sessions Link × List Request :=
  let ((_, s), sent) := ((hold (respond site t.1 network) t.2.job).run state.1).run state.2
  (s, sent)

/-- The shared state and all requests after tasks, one after the other. -/
def tasks (site : Site) (network : Http.Network) (ts : List (Configuration.Source × Task)) :
    Sessions Link × List Request :=
  ts.foldl (Task.after site network) (.initial, [])

theorem keeps_task (t : Task) : Keeps site source t.job := by
  cases t with
  | ensure c => exact (keeps_ensure c).bind fun _ => keeps_done _
  | handle payload =>
    exact ((keeps_run payload).bind fun _ => keeps_done _).bind fun _ => keeps_done _
  | shutdown => exact keeps_shutdown.bind fun _ => keeps_done _

/-- The tokens of all logins can be the values of a header. -/
def LegalTokens (network : Http.Network) : Prop :=
  ∀ before r t, gain? (r, network before r) = some t → Request.isHeaderValue t

theorem LegalTokens.legal {network : Http.Network} (legal : LegalTokens network)
    {before : List Request} (answered : Answered network before xs) : Legal xs := by
  induction xs generalizing before with
  | nil => exact fun _ mem => absurd mem List.not_mem_nil
  | cons x xs ih =>
    obtain ⟨told, rest⟩ := answered
    refine List.forall_mem_cons.mpr ⟨fun t gain => ?_, ih rest⟩
    exact legal before x.1 t (by rwa [← told])

theorem ready_of_login {network : Http.Network} {base t : String} {c : Connection}
    {sent sent' : List Request} (granted : ((login base c).run.run
      (Dialogue.replying network)).run sent = (.ok t, sent')) :
    ∃ r, Ready base c r ∧ gain? (r, network sent r) = some t := by
  obtain ⟨xs, told, answered, -⟩ := Dialogue.exists_told network sent (login base c).run
  rw [granted] at told
  rcases told_login told with ⟨e, -, absent⟩ | ⟨r, a, ready, rfl, token⟩
  · cases absent
  · obtain ⟨rfl, -⟩ := answered
    exact ⟨r, ready, gain?_granted ready.request token.symm⟩

theorem Ready.run_endSession {base t : String} {c : Connection} {r : Request} (ready : Ready base c r)
    (legal : Request.isHeaderValue t) (network : Http.Network) (sent : List Request) :
    ∃ r' y, VCenter.logoutRequest base t = .ok r' ∧
      ((endSession base t).run.run (Dialogue.replying network)).run sent = (y, sent ++ [r']) := by
  obtain ⟨xs, told, -, sent'⟩ := Dialogue.exists_told network sent (endSession base t).run
  obtain ⟨r', b, ends, rfl⟩ := ready.told_endSession legal told
  exact ⟨r', _, ends, Prod.ext rfl sent'⟩

/-- One task more goes on after the requests so far. -/
theorem tasks_concat (site : Site) (network : Http.Network) (ts : List (Configuration.Source × Task))
    (t : Configuration.Source × Task) : ∃ ys,
      Told ((hold (exchange site t.1) t.2.job).run (tasks site network ts).1) ys
        ((), (tasks site network (ts ++ [t])).1) ∧
      Answered network (tasks site network ts).2 ys ∧
      (tasks site network (ts ++ [t])).2 = (tasks site network ts).2 ++ ys.map (·.1) := by
  have next : tasks site network (ts ++ [t]) = Task.after site network (tasks site network ts) t := by
    simp [tasks]
  rw [next]
  unfold Task.after
  rw [hold_respond]
  exact Dialogue.exists_told network (tasks site network ts).2
    ((hold (exchange site t.1) t.2.job).run (tasks site network ts).1)

/-- The books of any tasks. -/
theorem tasks_books {network : Http.Network} (legal : LegalTokens network)
    (ts : List (Configuration.Source × Task)) : ∃ xs, Answered network [] xs ∧
      (tasks site network ts).2 = xs.map (·.1) ∧ Books (tasks site network ts).1 xs := by
  induction ts using List.reverseRecOn with
  | nil => exact ⟨[], trivial, rfl, rfl, by simp, nofun⟩
  | append_singleton ts t ih =>
    obtain ⟨xs, answered, sent, books⟩ := ih
    obtain ⟨ys, told, answered', sent'⟩ := tasks_concat site network ts t
    have all : Answered network [] (xs ++ ys) :=
      Dialogue.answered_append.mpr ⟨answered, by simpa [sent] using answered'⟩
    refine ⟨xs ++ ys, all, ?_, ?_⟩
    · rw [List.map_append, ← sent]
      exact sent'
    · exact keeps_task t.2 _ xs ys () _ books (legal.legal answered') told

/-- What a network in which tokens are legal leads to at a site. -/
structure Accounted (site : Site) (network : Http.Network) : Prop where
  /-- After any tasks, the tokens that were obtained are those that were given up and the two of the
  installed session. -/
  balance : ∀ ts, ∃ xs, Answered network [] xs ∧ (tasks site network ts).2 = xs.map (·.1) ∧
    obtained xs = closed xs + kept (tasks site network ts).1
  /-- Requests without a token are logins, and requests with `DELETE` end sessions. -/
  known : ∀ ts, ∀ r ∈ (tasks site network ts).2, Known r
  /-- After a first login that fails nothing is sent. -/
  refused : ∀ c sent e sent',
    ((login (site.baseFor c) c).run.run (Dialogue.replying network)).run sent = (.error e, sent') →
    ((connect site c).run (Dialogue.replying network)).run sent =
      (.error (.inventoryLogin (.exchange e)), sent')
  /-- After a second login that fails the first session is ended, whatever comes of that. -/
  released : ∀ c sent t sent' e sent'',
    ((login (site.baseFor c) c).run.run (Dialogue.replying network)).run sent = (.ok t, sent') →
    ((login (site.baseFor c) c).run.run (Dialogue.replying network)).run sent' = (.error e, sent'') →
    ∃ r, logoutRequest (site.baseFor c) t = .ok r ∧
      ((connect site c).run (Dialogue.replying network)).run sent =
        (.error (.taggingLogin (.exchange e)), sent'' ++ [r])
  /-- The first shutdown ends both sessions, whatever comes of the first. -/
  left : ∀ ts source x, (tasks site network ts).1.installed = some x →
    (tasks site network ts).1.shutDown = false →
    ∃ r r', logoutRequest x.directory.base x.directory.inventory = .ok r ∧
      logoutRequest x.directory.base x.directory.tagging = .ok r' ∧
      (tasks site network (ts ++ [(source, .shutdown)])).2 = (tasks site network ts).2 ++ [r, r']

/-- **No token is lost.** Wherever the server is and whatever it answers, as long as its tokens can be
the values of a header. -/
theorem sessions_accounted (site : Site) {network : Http.Network} (legal : LegalTokens network) :
    Accounted site network := by
  constructor
  case balance =>
    intro ts
    obtain ⟨xs, answered, sent, books⟩ := tasks_books legal ts
    exact ⟨xs, answered, sent, books.balance⟩
  case known =>
    intro ts r mem
    obtain ⟨xs, -, sent, books⟩ := tasks_books legal ts
    rw [sent] at mem
    obtain ⟨x, within, rfl⟩ := List.mem_map.mp mem
    exact books.known x within
  case refused =>
    intro c sent e sent' refused
    unfold connect
    rw [Dialogue.run_bind, StateT.run_bind, refused]
    rfl
  case released =>
    intro c sent t sent' e sent'' granted refused
    obtain ⟨r, ready, gain⟩ := ready_of_login granted
    obtain ⟨r', y, ends, ended⟩ := ready.run_endSession (legal sent r t gain) network sent''
    refine ⟨r', ends, ?_⟩
    unfold connect
    rw [Dialogue.run_bind, StateT.run_bind, granted]
    change (((login (site.baseFor c) c).run >>= _).run (Dialogue.replying network)).run sent' = _
    rw [Dialogue.run_bind, StateT.run_bind, refused]
    change (((endSession (site.baseFor c) t).run >>= _).run (Dialogue.replying network)).run sent'' = _
    rw [Dialogue.run_bind, StateT.run_bind, ended]
    rfl
  case left =>
    intro ts source x installed open_
    obtain ⟨xs, -, -, books⟩ := tasks_books legal ts
    obtain ⟨ys, told, -, sent⟩ := tasks_concat site network ts (source, .shutdown)
    unfold Task.job at told
    rw [Sessions.hold_bind] at told
    obtain ⟨us, vs, ⟨first, s'⟩, rfl, ended, last⟩ := told_bind.mp told
    obtain ⟨rfl, -⟩ := told_done.mp last
    obtain ⟨r, r', b, b', ends, ends', rfl, -⟩ :=
      told_shutdown (books.live x installed) installed open_ ended
    exact ⟨r, r', ends, ends', sent⟩

/-- The second login is refused, and no answer comes when a session is to be ended. -/
def refuseSecond : Http.Network := fun before r =>
  if r.method = .delete then .lost
  else if before.length = 1 then .response 401 []
  else .response 200 (Utf8.encode "\"token\"")

theorem legalTokens_refuseSecond : LegalTokens refuseSecond := by
  have token : token? (.response 200 (Utf8.encode "\"token\"")) = some "token" := by decide +kernel
  intro before r t gain
  unfold gain? refuseSecond at gain
  split_ifs at gain
  · cases gain
  · cases gain
  · rw [token] at gain
    cases gain
    decide

/-- A connection that is refused at its second login, and one that is made and ended. -/
theorem sessions_accounted_refuseSecond :
    LegalTokens refuseSecond ∧ Accounted ⟨some "http://vc"⟩ refuseSecond ∧
      (tasks ⟨some "http://vc"⟩ refuseSecond [(.fixed default, .ensure default),
        (.fixed default, .ensure default), (.fixed default, .shutdown)]).2.map
          (fun r => (r.method, r.token)) =
        [(.post, none), (.post, none), (.delete, some "token"), (.post, none), (.post, none),
          (.delete, some "token"), (.delete, some "token")] :=
  ⟨legalTokens_refuseSecond, sessions_accounted _ legalTokens_refuseSecond, by decide +kernel⟩

end TierTagger.VCenter
