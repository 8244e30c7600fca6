import TierTagger.Proofs.VCenter.Transcript

/-!
# Transcripts of logins and logouts

What the exchanges of a connection and of a logout are, whatever the server answers.

- **Attempts** (`told_run_bind` and its like): failures end a transcript.
- **One request** (`Once`): a request that cannot be made is not sent; one that is sent is judged by
  its answer.
- `told_login`, `told_endSession`, `told_connect`, `told_logout`: what each of them sends, in order.
-/

namespace TierTagger

namespace Dialogue

variable {Q R α β ε : Type} {xs : List (Q × R)}

/-! ## Attempts -/

@[simp] theorem told_run_pure {a : α} {r : Except ε α} :
    Told (pure a : Attempt (fun _ : Q => R) ε α).run xs r ↔ xs = [] ∧ r = .ok a := told_done

@[simp] theorem told_run_throw {e : ε} {r : Except ε α} :
    Told (throw e : Attempt (fun _ : Q => R) ε α).run xs r ↔ xs = [] ∧ r = .error e := told_done

/-- A failure ends an attempt. -/
theorem told_run_bind {x : Attempt (fun _ : Q => R) ε α} {next : α → Attempt (fun _ : Q => R) ε β}
    {r : Except ε β} : Told (x >>= next).run xs r ↔
      (∃ e, Told x.run xs (.error e) ∧ r = .error e) ∨
        ∃ ys zs a, xs = ys ++ zs ∧ Told x.run ys (.ok a) ∧ Told (next a).run zs r := by
  rw [ExceptT.run_bind, told_bind]
  constructor
  · rintro ⟨ys, zs, a, rfl, first, rest⟩
    cases a with
    | error e =>
      obtain ⟨rfl, rfl⟩ := told_done.mp rest
      exact .inl ⟨e, by simpa using first, rfl⟩
    | ok a => exact .inr ⟨ys, zs, a, rfl, first, rest⟩
  · rintro (⟨e, first, rfl⟩ | ⟨ys, zs, a, rfl, first, rest⟩)
    · exact ⟨xs, [], .error e, by simp, first, .done _⟩
    · exact ⟨ys, zs, .ok a, rfl, first, rest⟩

end Dialogue

namespace VCenter

open Dialogue (Told told_done told_ask told_bind told_run_bind)
open Directory (Endpoint Failure)
open Http (Answer Request)

variable {xs : List (Request × Answer)} {ρ : Type}

/-! ## One request -/

/-- Why a request is not sent. -/
def fault? (r : Request) : Option Http.Error :=
  if !(r.token.map Request.isHeaderValue).getD true then some .unstated
  else if !Request.isSupported r.url then some (.unsupported r.url)
  else none

theorem fault?_eq_none {r : Request} : fault? r = none ↔
    (∀ t, r.token = some t → Request.isHeaderValue t) ∧ Request.isSupported r.url := by
  unfold fault?
  cases r.token with
  | none => simp
  | some t => by_cases legal : Request.isHeaderValue t <;> simp [legal]

/-- What comes of a request that is sent. -/
def heard (r : Request) : Answer → Except Failure (Nat × Bytes)
  | .response status body => .ok (status, body)
  | .lost => .error (.http (.lost r.url))

/-- Makes a request, if it can be made; `judge` says what comes of it. -/
def once (r : Request) (judge : Except Failure (Nat × Bytes) → ρ) : Http.Exchange ρ :=
  match fault? r with
  | some e => .done (judge (.error (.http e)))
  | none => .ask r fun a => .done (judge (heard r a))

theorem told_once {r : Request} {judge : Except Failure (Nat × Bytes) → ρ} {x : ρ} :
    Told (once r judge) xs x ↔
      (∃ e, fault? r = some e ∧ xs = [] ∧ x = judge (.error (.http e))) ∨
        fault? r = none ∧ ∃ a, xs = [(r, a)] ∧ x = judge (heard r a) := by
  unfold once
  cases fault : fault? r with
  | some e => simp
  | none =>
    simp only [told_ask, told_done]
    constructor
    · rintro ⟨a, ys, rfl, rfl, rfl⟩
      exact .inr ⟨trivial, a, rfl, rfl⟩
    · rintro (⟨e, absent, -⟩ | ⟨-, a, rfl, rfl⟩)
      · cases absent
      · exact ⟨a, [], rfl, rfl, rfl⟩

theorem once_bind {r : Request} {judge : Except Failure (Nat × Bytes) → ρ} {ρ' : Type} (f : ρ → ρ') :
    (once r judge >>= fun x => .done (f x)) = once r fun h => f (judge h) := by
  unfold once
  cases fault? r <;> rfl

theorem send_run (r : Request) : (send r).run = once r id := by
  unfold send Request.send once fault?
  by_cases stated : (r.token.map Request.isHeaderValue).getD true
  · by_cases supported : Request.isSupported r.url
    · simp only [stated, supported, Bool.not_true, Bool.false_eq_true, if_false]
      refine Dialogue.ask_congr r fun a => ?_
      cases a <;> rfl
    · simp only [stated, supported, Bool.not_true, Bool.not_false, Bool.false_eq_true, if_false, if_true]
      rfl
  · simp only [stated, Bool.not_false, if_true]
    rfl

/-- A request after which nothing else is asked. -/
theorem run_bind_of_once {α β ε : Type} {x : Attempt ε α} {next : α → Attempt ε β} {r : Request}
    {judge : Except Failure (Nat × Bytes) → Except ε α} {last : α → Except ε β}
    (first : x.run = once r judge) (rest : ∀ a, (next a).run = .done (last a)) :
    (x >>= next).run = once r fun h => judge h >>= last := by
  rw [ExceptT.run_bind, first, ← once_bind (fun x => x >>= last)]
  refine bind_congr fun x => ?_
  cases x with
  | error e => rfl
  | ok a => exact rest a

theorem grant_run (endpoint : Endpoint) (r : Request) :
    (grant endpoint r).run = once r fun h => h >>= granted endpoint :=
  run_bind_of_once (send_run r) fun _ => rfl

/-- What comes of an exchange that has to be granted and whose body has to be read. -/
def readOf {α : Type} (endpoint : Endpoint) (d : Json.Decoder α) (h : Except Failure (Nat × Bytes)) :
    Except Failure α :=
  (h >>= granted endpoint) >>= decoded d

theorem fetch_run {α : Type} (endpoint : Endpoint) (d : Json.Decoder α) (r : Request) :
    (fetch endpoint d r).run = once r (readOf endpoint d) :=
  run_bind_of_once (grant_run endpoint r) fun _ => rfl

section
variable {k : Endpoint} {r : Request} {a : Answer}

/-- What is granted was answered with a status of success. -/
theorem heard_granted {body : Bytes} : (heard r a >>= granted k) = .ok body ↔
    ∃ status, a = .response status body ∧ 200 ≤ status ∧ status < 300 := by
  cases a with
  | lost => exact ⟨nofun, nofun⟩
  | response status body' =>
    show granted k (status, body') = .ok body ↔ _
    by_cases success : 200 ≤ status ∧ status < 300
    · have granted : granted k (status, body') = .ok body' := by simp [granted, isSuccess, success]
      rw [granted]
      constructor
      · rintro ⟨⟩
        exact ⟨status, rfl, success⟩
      · rintro ⟨_, ⟨⟩, -⟩
        rfl
    · have refused : granted k (status, body') = .error (.status k status) := by
        simp [granted, isSuccess, success]
      rw [refused]
      refine ⟨nofun, fun ⟨_, same, range⟩ => ?_⟩
      cases same
      exact absurd range success

theorem readOf_eq_ok {α : Type} {d : Json.Decoder α} {y : α} : readOf k d (heard r a) = .ok y ↔
    ∃ status body, a = .response status body ∧ 200 ≤ status ∧ status < 300 ∧
      d.decode body = .ok y := by
  have read (body : Bytes) : decoded d body = .ok y ↔ d.decode body = .ok y := by
    unfold decoded
    cases d.decode body <;> simp
  unfold readOf
  cases h : heard r a >>= granted k with
  | error e =>
    refine ⟨nofun, fun ⟨status, body, same, low, high, _⟩ => ?_⟩
    rw [heard_granted.mpr ⟨status, same, low, high⟩] at h
    cases h
  | ok body =>
    obtain ⟨status, rfl, low, high⟩ := heard_granted.mp h
    refine (read body).trans ⟨fun value => ⟨status, body, rfl, low, high, value⟩, ?_⟩
    rintro ⟨_, _, same, -, -, value⟩
    cases same
    exact value

end

/-! ## Logins and logouts -/

/-- The request of a login. -/
def loginRequest (base : String) (c : Connection) : Except Failure Request :=
  (sessionRequest .post base).map fun r =>
    { r with credentials := r.credentials ++ [Http.basic c.user c.password] }

/-- The request that ends a session. -/
def logoutRequest (base token : String) : Except Failure Request :=
  (sessionRequest .delete base).map fun r => { r with token := some token }

/-- The token that a login comes to. -/
def tokenIn : Except Failure (Nat × Bytes) → Except Failure String := readOf .login .text

theorem login_run (base : String) (c : Connection) : (login base c).run =
    match loginRequest base c with
    | .error e => .done (.error e)
    | .ok r => once r tokenIn := by
  unfold login loginRequest
  rw [ExceptT.run_bind]
  cases sessionRequest .post base with
  | error e => rfl
  | ok r => exact fetch_run _ _ _

theorem endSession_run (base token : String) : (endSession base token).run =
    match logoutRequest base token with
    | .error e => .done (.error e)
    | .ok r => once r fun h => (h >>= granted .logout) >>= fun _ => .ok () := by
  unfold endSession logoutRequest
  rw [ExceptT.run_bind]
  cases sessionRequest .delete base with
  | error e => rfl
  | ok r => exact run_bind_of_once (grant_run _ _) fun _ => rfl

/-- Logins at a base address can be made, with the request `r`. -/
structure Ready (base : String) (c : Connection) (r : Request) : Prop where
  request : loginRequest base c = .ok r
  clear : fault? r = none

section
variable {base token : String} {c : Connection} {r : Request} {site : Site}

/-- Where a request is sent does not depend on its method. -/
theorem ofUrl_url (method : Http.Method) (url : Url) :
    (Request.ofUrl method url).url = (Request.ofUrl .delete url).url := by
  unfold Request.ofUrl
  split <;> (try split) <;> rfl

@[simp] theorem ofUrl_token (method : Http.Method) (url : Url) :
    (Request.ofUrl method url).token = none := by
  unfold Request.ofUrl
  split <;> (try split) <;> rfl

@[simp] theorem ofUrl_method (method : Http.Method) (url : Url) :
    (Request.ofUrl method url).method = method := by
  unfold Request.ofUrl
  split <;> (try split) <;> rfl

theorem loginRequest_eq_ok : loginRequest base c = .ok r ↔ ∃ url, sessionAddress base = .ok url ∧
    r = { Request.ofUrl .post url with
      credentials := (Request.ofUrl .post url).credentials ++ [Http.basic c.user c.password] } := by
  unfold loginRequest sessionRequest
  cases sessionAddress base <;> simp [Except.map, eq_comm]

theorem logoutRequest_eq_ok : logoutRequest base token = .ok r ↔ ∃ url, sessionAddress base = .ok url ∧
    r = { Request.ofUrl .delete url with token := some token } := by
  unfold logoutRequest sessionRequest
  cases sessionAddress base <;> simp [Except.map, eq_comm]

/-- Where logins can be made, sessions can be ended, if their tokens are values of a header. -/
theorem Ready.logoutRequest (ready : Ready base c r) (token : String) :
    ∃ r', logoutRequest base token = .ok r' ∧
      fault? r' = if Request.isHeaderValue token then none else some .unstated := by
  obtain ⟨url, at_url, rfl⟩ := loginRequest_eq_ok.mp ready.request
  refine ⟨_, logoutRequest_eq_ok.mpr ⟨url, at_url, rfl⟩, ?_⟩
  have supported : Request.isSupported (Request.ofUrl .post url).url :=
    (fault?_eq_none.mp ready.clear).2
  rw [ofUrl_url] at supported
  by_cases legal : Request.isHeaderValue token
  · simp [fault?, legal, supported]
  · simp [fault?, legal]

/-- The exchanges of a connection and its result, by the place at which they end. -/
inductive Connects (site : Site) (c : Connection) :
    List (Request × Answer) → Except Directory.Error Link → Prop where
  | unmade (e) : Connects site c [] (.error (.inventoryLogin (.exchange e)))
  | refused {r a e} (ready : Ready (site.baseFor c) c r) (fails : tokenIn (heard r a) = .error e) :
    Connects site c [(r, a)] (.error (.inventoryLogin (.exchange e)))
  | connected {r a a' t t'} (ready : Ready (site.baseFor c) c r) (first : tokenIn (heard r a) = .ok t)
    (second : tokenIn (heard r a') = .ok t') :
    Connects site c [(r, a), (r, a')] (.ok ⟨site.baseFor c, t, t'⟩)
  /-- The first session is given up. -/
  | released {r r' a a' b t e} (ready : Ready (site.baseFor c) c r)
    (first : tokenIn (heard r a) = .ok t) (fails : tokenIn (heard r a') = .error e)
    (legal : Request.isHeaderValue t) (ends : VCenter.logoutRequest (site.baseFor c) t = .ok r') :
    Connects site c [(r, a), (r, a'), (r', b)] (.error (.taggingLogin (.exchange e)))
  /-- It cannot be given up, since no request can have its token. -/
  | stuck {r a a' t e} (ready : Ready (site.baseFor c) c r) (first : tokenIn (heard r a) = .ok t)
    (fails : tokenIn (heard r a') = .error e) (illegal : ¬Request.isHeaderValue t) :
    Connects site c [(r, a), (r, a')] (.error (.taggingLogin (.exchange e)))

/-- A login is made with one request, or with none. -/
theorem told_login {x : Except Failure String} (told : Told (login base c).run xs x) :
    (∃ e, xs = [] ∧ x = .error e) ∨
      ∃ r a, Ready base c r ∧ xs = [(r, a)] ∧ x = tokenIn (heard r a) := by
  rw [login_run] at told
  cases request : loginRequest base c with
  | error e =>
    rw [request] at told
    exact .inl ⟨e, told_done.mp told⟩
  | ok r =>
    rw [request] at told
    rcases told_once.mp told with ⟨e, -, rfl, rfl⟩ | ⟨clear, a, rfl, rfl⟩
    · exact .inl ⟨.http e, rfl, rfl⟩
    · exact .inr ⟨r, a, ⟨request, clear⟩, rfl, rfl⟩

/-- Where one login was made, another one can be. -/
theorem Ready.told_login {x : Except Failure String} (ready : Ready base c r)
    (told : Told (login base c).run xs x) : ∃ a, xs = [(r, a)] ∧ x = tokenIn (heard r a) := by
  rw [login_run, ready.request] at told
  rcases told_once.mp told with ⟨e, fault, -⟩ | ⟨-, a, rfl, same⟩
  · rw [ready.clear] at fault
    cases fault
  · exact ⟨a, rfl, same⟩

theorem Ready.told_endSession {x : Except Failure Unit} (ready : Ready base c r)
    (legal : Request.isHeaderValue token) (told : Told (endSession base token).run xs x) :
    ∃ r' b, VCenter.logoutRequest base token = .ok r' ∧ xs = [(r', b)] := by
  obtain ⟨r', request, fault⟩ := ready.logoutRequest token
  rw [if_pos legal] at fault
  rw [endSession_run, request] at told
  rcases told_once.mp told with ⟨e, absent, -⟩ | ⟨-, b, rfl, -⟩
  · rw [fault] at absent
    cases absent
  · exact ⟨r', b, request, rfl⟩

theorem told_connect {x : Except Directory.Error Link} (told : Told (connect site c) xs x) :
    Connects site c xs x := by
  obtain ⟨ys, zs, y, rfl, first, rest⟩ := told_bind.mp told
  rcases told_login first with ⟨e, rfl, rfl⟩ | ⟨r, a, ready, rfl, rfl⟩
  · obtain ⟨rfl, rfl⟩ := told_done.mp rest
    exact .unmade e
  cases first : tokenIn (heard r a) with
  | error e =>
    rw [first] at rest
    obtain ⟨rfl, rfl⟩ := told_done.mp rest
    exact .refused ready first
  | ok t =>
    rw [first] at rest
    obtain ⟨us, vs, y, rfl, second, rest⟩ := told_bind.mp rest
    obtain ⟨a', rfl, rfl⟩ := ready.told_login second
    cases second : tokenIn (heard r a') with
    | ok t' =>
      rw [second] at rest
      obtain ⟨rfl, rfl⟩ := told_done.mp rest
      exact .connected ready first second
    | error e =>
      rw [second] at rest
      obtain ⟨ws, _, y, rfl, ended, last⟩ := told_bind.mp rest
      obtain ⟨rfl, rfl⟩ := told_done.mp last
      by_cases legal : Request.isHeaderValue t
      · obtain ⟨r', b, request, rfl⟩ := ready.told_endSession legal ended
        exact .released ready first second legal request
      · obtain ⟨r', request, fault⟩ := ready.logoutRequest t
        rw [if_neg legal] at fault
        rw [endSession_run, request] at ended
        rcases told_once.mp ended with ⟨e, -, rfl, -⟩ | ⟨clear, -⟩
        · exact .stuck ready first second legal
        · rw [fault] at clear
          cases clear

/-- A logout ends the second session whatever becomes of the first. -/
theorem Ready.told_logout {link : Link} {x : Except Directory.Error Unit}
    (ready : Ready link.base c r) (legal : Request.isHeaderValue link.inventory)
    (legal' : Request.isHeaderValue link.tagging) (told : Told (logout link) xs x) :
    ∃ r r' b b', VCenter.logoutRequest link.base link.inventory = .ok r ∧
      VCenter.logoutRequest link.base link.tagging = .ok r' ∧ xs = [(r, b), (r', b')] := by
  obtain ⟨ys, zs, y, rfl, first, rest⟩ := told_bind.mp told
  obtain ⟨us, vs, z, rfl, second, last⟩ := told_bind.mp rest
  obtain ⟨r, b, request, rfl⟩ := ready.told_endSession legal first
  obtain ⟨r', b', request', rfl⟩ := ready.told_endSession legal' second
  refine ⟨r, r', b, b', request, request', ?_⟩
  cases y <;> cases z <;> (obtain ⟨rfl, -⟩ := told_done.mp last; rfl)

end

end VCenter
end TierTagger
