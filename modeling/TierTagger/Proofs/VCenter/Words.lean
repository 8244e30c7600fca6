import TierTagger.Proofs.Tagging.Pipeline
import TierTagger.Proofs.VCenter.Accounts
import TierTagger.Proofs.VCenter.Bodies

/-!
# The requests of a run

Whatever the server answers, the requests that the pipeline sends over vCenter are a prefix of one
word (`word`): logins if no session is installed, the machine, categories, tags, and the attachment.

- **Attachments** (`IsAttach`): a request that attaches a tag is told by its method, its token and its
  query.
- **Stages** (`Attaches`): each stage goes some way in its word, and what it attaches is the end.
- `run_spelled`: the exchanges of a run.
-/

namespace TierTagger.VCenter

open Dialogue (Told Answered told_done told_ask told_bind)
open Directory (Endpoint Failure)
open Http (Answer Request)
open Sessions (Job hold)
open Tagging (Outcome Target)

variable {link : Link} {c : Connection} {vm : ObjectRef} {xs ys : List (Request × Answer)}

/-! ## Attachments -/

/-- A request that attaches a tag. -/
def IsAttach (r : Request) : Prop :=
  r.method = .post ∧ r.token ≠ none ∧ r.url.query = some "action=attach"

theorem ofUrl_query (method : Http.Method) (url : Url) :
    (Request.ofUrl method url).url.query = url.query := by
  unfold Request.ofUrl
  split <;> (try split) <;> rfl

theorem address_query {base : String} {segments : List String} {query : Option String} {url : Url}
    (made : address base segments query = .ok url) : url.query = query := by
  unfold address at made
  split at made
  · cases made
  · next u _ =>
    unfold Url.extend at made
    cases path : u.path with
    | flat text =>
      rw [path] at made
      cases made
    | rooted path' =>
      rw [path] at made
      cases made
      rfl

theorem Made.query_eq {base token : String} {method : Http.Method} {segments : List String}
    {query body : Option String} {r : Request} (made : Made base token method segments query body r) :
    r.url.query = query := by
  obtain ⟨url, at_url, same⟩ := made.url_eq
  rw [same, ofUrl_query, address_query at_url]

theorem Asks.isAttach {k : Endpoint} {r : Request} (asks : Asks link c vm k r) :
    IsAttach r ↔ k = .attach := by
  have other {base token : String} {method : Http.Method} {segments : List String}
      {query body : Option String} (made : Made base token method segments query body r)
      (different : method ≠ .post ∨ query ≠ some "action=attach") : ¬IsAttach r := by
    rintro ⟨post, -, attach⟩
    rw [made.method_eq] at post
    rw [made.query_eq] at attach
    rcases different with other | other
    · exact other post
    · exact other attach
  cases k with
  | login =>
    obtain ⟨url, -, rfl⟩ := loginRequest_eq_ok.mp asks
    simp [IsAttach]
  | logout =>
    obtain ⟨url, -, rfl⟩ := logoutRequest_eq_ok.mp asks
    simp [IsAttach]
  | machine | categories => simpa using other asks (.inl nofun)
  | category | tag =>
    obtain ⟨id, asks⟩ := asks
    simpa using other asks (.inl nofun)
  | tagsOfCategory =>
    obtain ⟨id, asks⟩ := asks
    simpa using other asks (.inr (by decide))
  | attach =>
    obtain ⟨id, asks⟩ := asks
    simpa using ⟨asks.method_eq, by simp [asks.token_eq], asks.query_eq⟩

theorem Goes.unattached {word : List Endpoint} {ok : Prop} (goes : Goes (Asks link c vm) word xs ok)
    (absent : .attach ∉ word) : ∀ x ∈ xs, ¬IsAttach x.1 := by
  obtain ⟨⟨kinds, first, asking⟩, -⟩ := goes
  intro x mem attach
  obtain ⟨k, within, asks⟩ := asking.exists_kind x mem
  obtain rfl := asks.isAttach.mp attach
  exact absent (first.subset within)

/-! ## Stages -/

/-- The run ended with a tag. -/
def Tagged (x : Except Tagging.Error Outcome) : Prop := ∃ vm tag category, x = .ok (.tagged vm tag category)

/-- A stage of a run goes some way in its word, and it ends with a tag if one was attached. -/
structure Attaches (link : Link) (c : Connection) (vm : ObjectRef) (word : List Endpoint)
    (xs : List (Request × Answer)) (x : Except Tagging.Error Outcome) : Prop where
  goes : Goes (Asks link c vm) word xs (Tagged x)
  granted : (∃ y ∈ xs, IsAttach y.1 ∧ Succeeds .attach y.2) → Tagged x

variable {word word' : List Endpoint} {ok : Prop} {x : Except Tagging.Error Outcome}

/-- An operation that fails ends the run. -/
theorem Attaches.fails (goes : Goes (Asks link c vm) word xs ok) (absent : .attach ∉ word)
    (rest : List Endpoint) (untagged : ¬Tagged x) : Attaches link c vm (word ++ rest) xs x := by
  refine ⟨goes.fails rest untagged, ?_⟩
  rintro ⟨y, mem, attach, -⟩
  exact absurd attach (goes.unattached absent y mem)

/-- An operation that succeeds, and what follows. -/
theorem Attaches.after (goes : Goes (Asks link c vm) word xs ok) (succeeds : ok)
    (absent : .attach ∉ word) (rest : Attaches link c vm word' ys x) :
    Attaches link c vm (word ++ word') (xs ++ ys) x := by
  refine ⟨goes.andThen succeeds rest.goes, ?_⟩
  rintro ⟨y, mem, attach, granted⟩
  rcases List.mem_append.mp mem with mem | mem
  · exact absurd attach (goes.unattached absent y mem)
  · exact rest.granted ⟨y, mem, attach, granted⟩

variable {site : Site} {source : Configuration.Source} {s s' : Sessions Link}

/-- A call and what follows it are told one after the other. -/
theorem told_call_bind {α : Type} {call : Call Link} {next : call.Answer → Job Link α} {y : α × Sessions Link} :
    Told ((hold (exchange site source) (Sessions.call call >>= next)).run s) xs y ↔
      ∃ us vs a, xs = us ++ vs ∧ Told (exchange site source call) us a ∧
        Told ((hold (exchange site source) (next a)).run s) vs y := by
  show Told ((hold (exchange site source) (.ask (.call call) next)).run s) xs y ↔ _
  rw [Sessions.hold_ask_call]
  exact told_bind

theorem told_hold_done {α : Type} {a : α} {y : α × Sessions Link} :
    Told ((hold (exchange site source) (.done a : Job Link α)).run s) xs y ↔ xs = [] ∧ y = (a, s) := told_done

/-- The stage that attaches the tag. -/
theorem told_fromApply {session : Session Link} {t : Target} {tag : Tag}
    (told : Told ((hold (exchange site source) (Tagging.fromApply session t tag)).run s) xs (x, s')) :
    Attaches session.directory c t.vm [.attach] xs x := by
  obtain ⟨us, vs, a, rfl, attached, last⟩ := told_call_bind.mp told
  have ends : vs = [] ∧ (Tagged x ↔ a = .ok ()) := by
    cases a with
    | error e =>
      obtain ⟨rfl, same⟩ := told_hold_done.mp last
      cases same
      exact ⟨rfl, by simp [Tagged]⟩
    | ok =>
      obtain ⟨rfl, same⟩ := told_hold_done.mp last
      cases same
      exact ⟨rfl, by simp [Tagged]⟩
  obtain ⟨rfl, tagged⟩ := ends
  obtain ⟨goes, granted⟩ := goes_attach (c := c) attached
  rw [List.append_nil]
  refine ⟨by rwa [tagged], ?_⟩
  rintro ⟨y, mem, -, succeeds⟩
  rw [tagged, granted]
  exact ⟨y, mem, succeeds⟩

/-- The word from the categories on. -/
def resolveWord (m n : Nat) : List Endpoint :=
  (.categories :: List.replicate m .category ++ .tagsOfCategory :: List.replicate n .tag) ++ [.attach]

/-- The stages from the tag on. -/
theorem told_fromResolve {session : Session Link} {t : Target} {tier : Tier}
    (told : Told ((hold (exchange site source) (Tagging.fromResolve session t tier)).run s) xs (x, s')) :
    ∃ m n, Attaches session.directory c t.vm (resolveWord m n) xs x := by
  obtain ⟨us, vs, a, rfl, listed, rest⟩ := told_call_bind.mp told
  obtain ⟨m, n, goes⟩ := @goes_tags _ session.directory c t.vm _ _ listed
  have absent : Endpoint.attach ∉ .categories :: List.replicate m .category ++
      .tagsOfCategory :: List.replicate n .tag := by simp [List.mem_replicate]
  refine ⟨m, n, ?_⟩
  cases a with
  | error e =>
    obtain ⟨rfl, same⟩ := told_hold_done.mp rest
    cases same
    rw [List.append_nil]
    exact .fails goes absent _ (by simp [Tagged])
  | ok tags =>
    cases found : Tag.forTier? tags tier with
    | none =>
      simp only [found] at rest
      obtain ⟨rfl, same⟩ := told_hold_done.mp rest
      cases same
      rw [List.append_nil]
      exact .fails goes absent _ (by simp [Tagged])
    | some tag =>
      simp only [found] at rest
      exact .after goes ⟨tags, rfl⟩ absent (told_fromApply rest)

/-- The word from the machine on. -/
def fetchWord (m n : Nat) : List Endpoint := .machine :: resolveWord m n

/-- The stages from the hardware on. -/
theorem told_fromFetch {session : Session Link} {t : Target}
    (told : Told ((hold (exchange site source) (Tagging.fromFetch session t)).run s) xs (x, s')) :
    ∃ m n, Attaches session.directory c t.vm (fetchWord m n) xs x := by
  obtain ⟨us, vs, a, rfl, fetched, rest⟩ := told_call_bind.mp told
  have goes := goes_hardware (c := c) fetched
  have absent : Endpoint.attach ∉ [.machine] := by decide
  rcases a with e | _ | hardware
  · obtain ⟨rfl, same⟩ := told_hold_done.mp rest
    cases same
    rw [List.append_nil]
    exact ⟨0, 0, .fails goes absent _ (by simp [Tagged])⟩
  · obtain ⟨rfl, same⟩ := told_hold_done.mp rest
    cases same
    rw [List.append_nil]
    exact ⟨0, 0, .fails goes absent _ (by simp [Tagged])⟩
  · cases tier : Tier.next? t.resource hardware with
    | none =>
      simp only [tier] at rest
      obtain ⟨rfl, same⟩ := told_hold_done.mp rest
      cases same
      rw [List.append_nil]
      exact ⟨0, 0, .fails goes absent _ (by simp [Tagged])⟩
    | some tier' =>
      simp only [tier] at rest
      obtain ⟨m, n, attaches⟩ := told_fromResolve (c := c) rest
      exact ⟨m, n, .after goes ⟨hardware, rfl⟩ absent attaches⟩

/-! ## Runs -/

/-- The word of a run. If no session is installed, it begins with two logins. -/
def runWord (fresh : Bool) (m n : Nat) : List Endpoint :=
  (if fresh then [.login, .login] else []) ++ fetchWord m n

/-- The exchanges of a run in the sessions of a link. -/
inductive Spelled (link : Link) (c : Connection) (vm : ObjectRef) (fresh : Bool) :
    List (Request × Answer) → Prop where
  /-- The requests are a prefix of the word, and all exchanges but the last one succeed. -/
  | word {m n kinds xs} (first : kinds <+: runWord fresh m n) (asking : Asking (Asks link c vm) kinds xs) :
    Spelled link c vm fresh xs
  /-- The second login fails, and the first session is ended. -/
  | released {x y z} (unconnected : fresh) (login : Asks link c vm .login x.1) (succeeds : Succeeds .login x.2)
    (second : Asks link c vm .login y.1) (fails : ¬Succeeds .login y.2)
    (logout : Asks link c vm .logout z.1) : Spelled link c vm fresh [x, y, z]

/-- The link of a run: that of the installed session, or one with the tokens of its own logins. -/
structure Linked (site : Site) (s : Sessions Link) (c : Connection) (xs : List (Request × Answer))
    (link : Link) : Prop where
  installed : ∀ x, s.installed = some x → link = x.directory
  base : s.installed = none → link.base = site.baseFor c
  inventory : s.installed = none → ∀ x t, xs[0]? = some x → token? x.2 = some t → link.inventory = t
  tagging : s.installed = none → ∀ x t, xs[1]? = some x → token? x.2 = some t → link.tagging = t

/-- The exchanges of a run and what comes of them. -/
structure Course (site : Site) (source : Configuration.Source) (s : Sessions Link) (payload : Bytes)
    (xs : List (Request × Answer)) (x : Except Tagging.Error Outcome) : Prop where
  /-- Whatever is sent is for the machine of an alarm that asks for a tier. -/
  spelled : xs = [] ∨ ∃ alarm c link, Alarm.ofEvent payload = .ok alarm ∧
    Tagging.target? alarm ≠ none ∧ source.load = .ok c ∧ Linked site s c xs link ∧
    Spelled link c alarm.vm s.installed.isNone xs
  /-- After a second login that fails, the first session is ended if a request can name it. -/
  ended : s.installed = none → ∀ x y zs t, xs = x :: y :: zs → ¬Succeeds .login y.2 →
    token? x.2 = some t → Request.isHeaderValue t →
      ∃ z c, zs = [z] ∧ source.load = .ok c ∧ logoutRequest (site.baseFor c) t = .ok z.1
  /-- Requests without a token are logins with the credentials of the parameters. -/
  logins : ∀ x ∈ xs, x.1.token = none → x.1.method = .post ∧ ∃ c, source.load = .ok c ∧
    x.1.credentials.getLast? = some (Http.basic c.user c.password)
  /-- Only the last request attaches a tag, and to the machine of the alarm. -/
  attached : ∀ us x vs, xs = us ++ x :: vs → IsAttach x.1 → vs = [] ∧
    ∃ alarm body, Alarm.ofEvent payload = .ok alarm ∧ x.1.body = some body ∧
      attachRecord.decoder.decode (Utf8.encode body) = .ok alarm.vm
  /-- The run ends with a tag if and only if that was asked for and granted. -/
  tagged : Tagged x ↔ ∃ y ∈ xs, IsAttach y.1 ∧ Succeeds .attach y.2

theorem Course.of_nil {payload : Bytes} (untagged : ¬Tagged x) : Course site source s payload [] x :=
  ⟨.inl rfl, by simp, by simp, by simp, by simpa using untagged⟩

/-! ### What the words say -/

theorem Asks.credentials_of_bare {k : Endpoint} {r : Request} (asks : Asks link c vm k r)
    (bare : r.token = none) :
    r.method = .post ∧ r.credentials.getLast? = some (Http.basic c.user c.password) := by
  cases k with
  | login =>
    obtain ⟨url, -, rfl⟩ := loginRequest_eq_ok.mp asks
    simp
  | logout =>
    obtain ⟨url, -, rfl⟩ := logoutRequest_eq_ok.mp asks
    cases bare
  | machine | categories => simp [asks.token_eq] at bare
  | category | tagsOfCategory | tag | attach =>
    obtain ⟨id, asks⟩ := asks
    simp [asks.token_eq] at bare

theorem Asks.attach_body {r : Request} (asks : Asks link c vm .attach r) :
    ∃ body, r.body = some body ∧ attachRecord.decoder.decode (Utf8.encode body) = .ok vm := by
  obtain ⟨id, asks⟩ := asks
  exact ⟨_, asks.body_eq, (spells_objectBody vm).decode⟩

/-- The attachment is the end of the word. -/
theorem attach_last {fresh : Bool} {m n : Nat} {us vs : List Endpoint}
    (first : us ++ .attach :: vs <+: runWord fresh m n) : vs = [] := by
  obtain ⟨front, word, absent⟩ : ∃ front, runWord fresh m n = front ++ [.attach] ∧
      Endpoint.attach ∉ front := by
    refine ⟨(if fresh then [.login, .login] else []) ++ .machine :: (.categories ::
      List.replicate m .category ++ .tagsOfCategory :: List.replicate n .tag), ?_, ?_⟩
    · simp [runWord, fetchWord, resolveWord]
    · cases fresh <;> simp [List.mem_replicate]
  rw [word] at first
  clear word
  induction us generalizing front with
  | nil =>
    cases front with
    | nil => simpa using first
    | cons k front =>
      obtain ⟨rfl, -⟩ := List.cons_prefix_cons.mp first
      exact absurd List.mem_cons_self absent
  | cons u us ih =>
    cases front with
    | nil => simp at first
    | cons k front =>
      obtain ⟨rfl, rest⟩ := List.cons_prefix_cons.mp first
      exact ih front rest fun mem => absent (List.mem_cons_of_mem _ mem)

theorem Asking.split {K : Endpoint → Request → Prop} {kinds : List Endpoint} {us vs : List (Request × Answer)}
    {x : Request × Answer} (asking : Asking K kinds (us ++ x :: vs)) :
    ∃ ks k ks', kinds = ks ++ k :: ks' ∧ K k x.1 ∧ (ks' = [] → vs = []) := by
  induction us generalizing kinds with
  | nil =>
    cases asking with
    | last asks => exact ⟨[], _, [], rfl, asks, fun _ => rfl⟩
    | next asks _ rest =>
      refine ⟨[], _, _, rfl, asks, ?_⟩
      rintro rfl
      cases rest
      rfl
  | cons u us ih =>
    generalize whole : (u :: us) ++ x :: vs = all at asking
    cases asking with
    | none => cases whole
    | last asks =>
      have short := congrArg List.length whole
      simp at short
    | next asks _ rest =>
      cases whole
      obtain ⟨ks, k, ks', rfl, asks, last⟩ := ih rest
      exact ⟨_ :: ks, k, ks', rfl, asks, last⟩

variable {fresh : Bool}

theorem Spelled.exists_kind (spelled : Spelled link c vm fresh xs) :
    ∀ x ∈ xs, ∃ k, Asks link c vm k x.1 := by
  intro x mem
  cases spelled with
  | word first asking =>
    obtain ⟨k, -, asks⟩ := asking.exists_kind x mem
    exact ⟨k, asks⟩
  | released _ login _ second _ logout =>
    simp only [List.mem_cons, List.not_mem_nil, or_false] at mem
    rcases mem with rfl | rfl | rfl
    · exact ⟨_, login⟩
    · exact ⟨_, second⟩
    · exact ⟨_, logout⟩

theorem Spelled.attached (spelled : Spelled link c vm fresh xs) {us vs : List (Request × Answer)}
    {x : Request × Answer} (split : xs = us ++ x :: vs) (attach : IsAttach x.1) :
    vs = [] ∧ Asks link c vm .attach x.1 := by
  cases spelled with
  | word first asking =>
    subst split
    obtain ⟨ks, k, ks', rfl, asks, last⟩ := asking.split
    obtain rfl := asks.isAttach.mp attach
    exact ⟨last (attach_last first), asks⟩
  | @released a b d _ login _ second _ logout =>
    have mem : x ∈ [a, b, d] := split ▸ List.mem_append_right _ List.mem_cons_self
    simp only [List.mem_cons, List.not_mem_nil, or_false] at mem
    rcases mem with rfl | rfl | rfl
    · exact absurd (login.isAttach.mp attach) (by decide)
    · exact absurd (second.isAttach.mp attach) (by decide)
    · exact absurd (logout.isAttach.mp attach) (by decide)

theorem Completed.exists_mem {K : Endpoint → Request → Prop} {kinds : List Endpoint}
    (completed : Completed K kinds xs) {k : Endpoint} (mem : k ∈ kinds) :
    ∃ x ∈ xs, K k x.1 ∧ Succeeds k x.2 := by
  induction completed with
  | nil => cases mem
  | cons first _ ih =>
    rcases List.mem_cons.mp mem with rfl | mem
    · exact ⟨_, List.mem_cons_self, first⟩
    · obtain ⟨x, mem, asks⟩ := ih mem
      exact ⟨x, List.mem_cons_of_mem _ mem, asks⟩

theorem Attaches.tagged_iff {m n : Nat} (attaches : Attaches link c vm (runWord fresh m n) xs x) :
    Tagged x ↔ ∃ y ∈ xs, IsAttach y.1 ∧ Succeeds .attach y.2 := by
  refine ⟨fun tagged => ?_, attaches.granted⟩
  have within : Endpoint.attach ∈ runWord fresh m n := by simp [runWord, fetchWord, resolveWord]
  obtain ⟨y, mem, asks, succeeds⟩ := (attaches.goes.whole tagged).exists_mem within
  exact ⟨y, mem, asks.isAttach.mpr rfl, succeeds⟩

theorem Attaches.spelled {m n : Nat} (attaches : Attaches link c vm (runWord fresh m n) xs x) :
    Spelled link c vm fresh xs := by
  obtain ⟨kinds, first, asking⟩ := attaches.goes.asking
  exact .word first asking

section
variable {payload : Bytes} {alarm : Alarm}

/-- The course of a run whose requests are known. -/
theorem Course.of_spelled (read : Alarm.ofEvent payload = .ok alarm)
    (target : Tagging.target? alarm ≠ none) (loaded : source.load = .ok c)
    (linked : Linked site s c xs link) (spelled : Spelled link c alarm.vm s.installed.isNone xs)
    (ended : s.installed = none → ∀ x y zs t, xs = x :: y :: zs → ¬Succeeds .login y.2 →
      token? x.2 = some t → Request.isHeaderValue t →
        ∃ z c, zs = [z] ∧ source.load = .ok c ∧ logoutRequest (site.baseFor c) t = .ok z.1)
    (tagged : Tagged x ↔ ∃ y ∈ xs, IsAttach y.1 ∧ Succeeds .attach y.2) :
    Course site source s payload xs x := by
  refine ⟨.inr ⟨alarm, c, link, read, target, loaded, linked, spelled⟩, ended, ?_, ?_, tagged⟩
  · intro x mem bare
    obtain ⟨k, asks⟩ := spelled.exists_kind x mem
    obtain ⟨method, credentials⟩ := asks.credentials_of_bare bare
    exact ⟨method, c, loaded, credentials⟩
  · intro us x vs split attach
    obtain ⟨last, asks⟩ := spelled.attached split attach
    obtain ⟨body, sent, decoded⟩ := asks.attach_body
    exact ⟨last, alarm, body, read, sent, decoded⟩

theorem succeeds_login {r : Request} {a : Answer} :
    Succeeds .login a ↔ ∃ t, tokenIn (heard r a) = .ok t := by
  simp only [tokenIn, readOf_eq_ok]
  constructor
  · rintro ⟨status, body, same, low, high, t, decoded⟩
    exact ⟨t, status, body, same, low, high, decoded⟩
  · rintro ⟨t, status, body, same, low, high, decoded⟩
    exact ⟨status, body, same, low, high, t, decoded⟩

theorem fails_login {r : Request} {a : Answer} {e : Failure} (fails : tokenIn (heard r a) = .error e) :
    ¬Succeeds .login a ∧ ∀ t, token? a ≠ some t := by
  constructor
  · intro succeeds
    obtain ⟨t, token⟩ := succeeds_login.mp succeeds
    rw [fails] at token
    cases token
  · intro t token
    rw [tokenIn_eq_ok.mpr token] at fails
    cases fails

/-- A run whose connection fails. -/
theorem Connects.course {e : Directory.Error} (connects : Connects site c xs (.error e))
    (fresh : s.installed = none) (read : Alarm.ofEvent payload = .ok alarm)
    (target : Tagging.target? alarm ≠ none) (loaded : source.load = .ok c) :
    Course site source s payload xs (.error (.connect e)) := by
  have untagged : ¬Tagged (.error (.connect e)) := by simp [Tagged]
  have prefixed (m n : Nat) : [.login, .login] <+: runWord s.installed.isNone m n := by
    simp [runWord, fresh]
  cases connects with
  | unmade e => exact .of_nil untagged
  | @refused r a e ready fails =>
    have login : Asks ⟨site.baseFor c, "", ""⟩ c alarm.vm .login r := ready.request
    refine .of_spelled read target loaded ⟨by simp [fresh], fun _ => rfl, ?_, by simp⟩
      (.word (m := 0) (n := 0) (List.IsPrefix.trans ⟨[.login], rfl⟩ (prefixed 0 0)) (.last login))
      (by simp) ?_
    · rintro - x t ⟨⟩ token
      exact absurd token ((fails_login fails).2 t)
    · simp [untagged, login.isAttach]
  | @released r r' a a' b t e ready first fails legal ends =>
    have login : Asks ⟨site.baseFor c, t, ""⟩ c alarm.vm .login r := ready.request
    have logout : Asks ⟨site.baseFor c, t, ""⟩ c alarm.vm .logout r' := ends
    refine .of_spelled read target loaded ⟨by simp [fresh], fun _ => rfl, ?_, ?_⟩
      (.released (by simp [fresh]) login (succeeds_login.mpr ⟨t, first⟩) login (fails_login fails).1
        logout) ?_ ?_
    · rintro - x t' ⟨⟩ token
      rw [tokenIn_eq_ok.mp first] at token
      exact Option.some.inj token
    · rintro - x t' ⟨⟩ token
      exact absurd token ((fails_login fails).2 t')
    · rintro - x y zs t' ⟨⟩ - token -
      rw [tokenIn_eq_ok.mp first] at token
      cases token
      exact ⟨(r', b), c, rfl, loaded, ends⟩
    · simp [untagged, login.isAttach, logout.isAttach]
  | @stuck r a a' t e ready first fails illegal =>
    have login : Asks ⟨site.baseFor c, t, ""⟩ c alarm.vm .login r := ready.request
    refine .of_spelled read target loaded ⟨by simp [fresh], fun _ => rfl, ?_, ?_⟩
      (.word (prefixed 0 0) (.next login (succeeds_login.mpr ⟨t, first⟩) (.last login))) ?_ ?_
    · rintro - x t' ⟨⟩ token
      rw [tokenIn_eq_ok.mp first] at token
      exact Option.some.inj token
    · rintro - x t' ⟨⟩ token
      exact absurd token ((fails_login fails).2 t')
    · rintro - x y zs t' ⟨⟩ - token legal
      rw [tokenIn_eq_ok.mp first] at token
      cases token
      exact absurd legal illegal
    · simp [untagged, login.isAttach]

/-- A run whose connection is made. -/
theorem Connects.course_of_attaches {m n : Nat} (connects : Connects site c xs (.ok link))
    (fresh : s.installed = none) (read : Alarm.ofEvent payload = .ok alarm)
    (target : Tagging.target? alarm ≠ none) (loaded : source.load = .ok c)
    (attaches : Attaches link c alarm.vm (fetchWord m n) ys x) :
    Course site source s payload (xs ++ ys) x := by
  cases connects with
  | @connected r a a' t t' ready first second =>
    have login : Asks ⟨site.baseFor c, t, t'⟩ c alarm.vm .login r := ready.request
    have succeeds := succeeds_login.mpr ⟨t, first⟩
    have succeeds' := succeeds_login.mpr ⟨t', second⟩
    have logins : Completed (Asks ⟨site.baseFor c, t, t'⟩ c alarm.vm) [.login, .login] [(r, a), (r, a')] :=
      .cons ⟨login, succeeds⟩ (.cons ⟨login, succeeds'⟩ .nil)
    have goes : Goes (Asks ⟨site.baseFor c, t, t'⟩ c alarm.vm) [.login, .login] [(r, a), (r, a')] True :=
      ⟨⟨_, List.prefix_rfl, logins.asking⟩, fun _ => logins⟩
    have whole := Attaches.after goes trivial (by decide) attaches
    replace whole : Attaches ⟨site.baseFor c, t, t'⟩ c alarm.vm (runWord s.installed.isNone m n)
        ([(r, a), (r, a')] ++ ys) x := by
      simpa [runWord, fresh] using whole
    refine .of_spelled read target loaded ⟨by simp [fresh], fun _ => rfl, ?_, ?_⟩ whole.spelled ?_
      whole.tagged_iff
    · rintro - x t ⟨⟩ token
      rw [tokenIn_eq_ok.mp first] at token
      exact Option.some.inj token
    · rintro - x t ⟨⟩ token
      rw [tokenIn_eq_ok.mp second] at token
      exact Option.some.inj token
    · rintro - x y zs t ⟨⟩ fails
      exact absurd succeeds' fails

/-- The course of a run that settles a target. -/
theorem told_settle {t : Target} (read : Alarm.ofEvent payload = .ok alarm)
    (target : Tagging.target? alarm = some t)
    (told : Told ((hold (exchange site source) (Tagging.settle t).run).run s) xs (x, s')) :
    Course site source s payload xs x := by
  have asks : Tagging.target? alarm ≠ none := by simp [target]
  have vm : t.vm = alarm.vm := by
    obtain ⟨-, category, -, rfl⟩ := Tagging.target?_eq_some.mp target
    rfl
  rw [Tagging.settle_run] at told
  obtain ⟨us, vs, loaded, rfl, load, rest⟩ := told_call_bind.mp told
  obtain ⟨rfl, source_eq⟩ := told_done.mp load
  rw [List.nil_append]
  cases loaded with
  | error e =>
    obtain ⟨rfl, same⟩ := told_hold_done.mp rest
    cases same
    exact .of_nil (by simp [Tagged])
  | ok c =>
    have loaded : source.load = .ok c := source_eq.symm
    simp only [Sessions.hold_bind] at rest
    obtain ⟨us, vs, ⟨session, s₁⟩, rfl, ensured, rest⟩ := told_bind.mp rest
    rw [Sessions.hold_ensure] at ensured
    cases installed : s.installed with
    | some session' =>
      rw [installed] at ensured
      obtain ⟨rfl, same⟩ := told_done.mp ensured
      cases same
      obtain ⟨m, n, attaches⟩ := told_fromFetch (c := c) rest
      rw [vm] at attaches
      replace attaches : Attaches session'.directory c alarm.vm (runWord s.installed.isNone m n) vs x := by
        simpa [runWord, installed] using attaches
      rw [List.nil_append]
      exact .of_spelled read asks loaded ⟨by simp [installed], by simp [installed], by simp [installed],
        by simp [installed]⟩ attaches.spelled (by simp [installed]) attaches.tagged_iff
    | none =>
      rw [installed] at ensured
      obtain ⟨us, ws, connection, rfl, connected, last⟩ := told_bind.mp ensured
      have connects := told_connect connected
      cases connection with
      | error e =>
        obtain ⟨rfl, same⟩ := told_done.mp last
        cases same
        obtain ⟨rfl, same⟩ := told_hold_done.mp rest
        cases same
        simpa using connects.course installed read asks loaded
      | ok link =>
        obtain ⟨rfl, same⟩ := told_done.mp last
        cases same
        obtain ⟨m, n, attaches⟩ := told_fromFetch (c := c) rest
        rw [vm] at attaches
        rw [List.append_nil]
        exact connects.course_of_attaches installed read asks loaded attaches

theorem told_run (told : Told ((hold (exchange site source) (Tagging.run payload)).run s) xs (x, s')) :
    Course site source s payload xs x := by
  unfold Tagging.run at told
  cases read : Alarm.ofEvent payload with
  | error e =>
    rw [read] at told
    obtain ⟨rfl, same⟩ := told_hold_done.mp told
    cases same
    exact .of_nil (by simp [Tagged])
  | ok alarm =>
    rw [read] at told
    simp only at told
    cases target : Tagging.target? alarm with
    | none =>
      rw [target] at told
      obtain ⟨rfl, same⟩ := told_hold_done.mp told
      cases same
      exact .of_nil (by simp [Tagged])
    | some t =>
      rw [target] at told
      exact told_settle read target told

end

/-- **The requests of a run form a prefix of one word**, whatever the server answers. -/
theorem run_spelled (site : Site) (source : Configuration.Source) (network : Http.Network)
    (before : List Request) (s : Sessions Link) (payload : Bytes) :
    ∃ xs x s', ((hold (respond site source network) (Tagging.run payload)).run s).run before =
        ((x, s'), before ++ xs.map (·.1)) ∧
      Answered network before xs ∧ Course site source s payload xs x := by
  rw [hold_respond]
  obtain ⟨xs, told, answered, sent⟩ := Dialogue.exists_told network before
    ((hold (exchange site source) (Tagging.run payload)).run s)
  exact ⟨xs, _, _, Prod.ext rfl sent, answered, told_run told⟩

end TierTagger.VCenter
