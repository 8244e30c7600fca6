import TierTagger.Proofs.Inventory.Content
import TierTagger.Proofs.VCenter.Server

/-!
# Operations on a server with content

What the operations of a vCenter directory come to when the server has the content of an inventory:
just what the inventory says.

- **Computations with a server** (`Yields`): a computation comes to a result, ends no session, and makes
  attachments. A bind goes on after the requests of its first part (`Yields.bind`).
- **Links** (`Good`): the tokens of a link were handed out, and stay good (`Good.later`).
- `yields_connect`, `returns_hardware`, `returns_tags`, `yields_attach`: the operations.
-/

namespace TierTagger.VCenter

open Directory (Endpoint Failure)
open Http (Answer Exchange Request)
open Url (IsSegment segmentText)

/-! ## Computations with a server -/

/-- Requests were made since, and none of them ended a session. -/
def Later (before after : List Request) : Prop :=
  ∃ sent, after = before ++ sent ∧ ∀ r ∈ sent, r.method ≠ .delete

section
variable (server : Server) (network : Http.Network) {α β ε : Type}

/-- After the requests `before` the computation ends no session, and `Q` holds of its result, of the
attachments it makes, and of the requests after it. -/
def Yields (before : List Request) (d : Exchange α)
    (Q : α → List (String × ObjectRef) → List Request → Prop) : Prop :=
  ∃ v sent, (d.run (Dialogue.replying network)).run before = (v, before ++ sent) ∧
    (∀ r ∈ sent, r.method ≠ .delete) ∧ Q v (server.accepted network before sent) (before ++ sent)

/-- The computation comes to a result and makes no attachment. -/
def Returns (before : List Request) (d : Exchange α) (a : α) : Prop :=
  Yields server network before d fun v gained _ => v = a ∧ gained = []

variable {server network} {before : List Request} {d : Exchange α}
variable {Q : α → List (String × ObjectRef) → List Request → Prop}
variable {R : β → List (String × ObjectRef) → List Request → Prop}

theorem yields_done {a : α} (holds : Q a [] before) : Yields server network before (.done a) Q :=
  ⟨a, [], by simp [Dialogue.run_done]; rfl, by simp, by simpa [Server.accepted] using holds⟩

theorem Yields.mono {Q' : α → List (String × ObjectRef) → List Request → Prop}
    (yields : Yields server network before d Q)
    (weaker : ∀ v gained after, Later before after → Q v gained after → Q' v gained after) :
    Yields server network before d Q' := by
  obtain ⟨v, sent, run, kept, holds⟩ := yields
  exact ⟨v, sent, run, kept, weaker v _ _ ⟨sent, rfl, kept⟩ holds⟩

/-- What follows goes on after the requests of the first part. -/
theorem Yields.bind {next : α → Exchange β} (first : Yields server network before d Q)
    (rest : ∀ v gained after, Later before after → Q v gained after →
      Yields server network after (next v) fun w gained' last => R w (gained ++ gained') last) :
    Yields server network before (d >>= next) R := by
  obtain ⟨v, sent, run, kept, holds⟩ := first
  obtain ⟨w, sent', run', kept', holds'⟩ := rest v _ _ ⟨sent, rfl, kept⟩ holds
  refine ⟨w, sent ++ sent', ?_, List.forall_mem_append.mpr ⟨kept, kept'⟩, ?_⟩
  · rw [Dialogue.run_bind, StateT.run_bind, run, ← List.append_assoc]
    exact run'
  · rw [Server.accepted_append, ← List.append_assoc]
    exact holds'

/-- One exchange. -/
theorem yields_once {r : Request} {judge : Except Failure (Nat × Bytes) → α} (clear : fault? r = none)
    (kept : r.method ≠ .delete) (holds : Q (judge (heard r (network before r)))
      (server.attachment? r (network before r)).toList (before ++ [r])) :
    Yields server network before (once r judge) Q := by
  refine ⟨_, [r], ?_, by simpa using kept, by simpa [Server.accepted] using holds⟩
  rw [once, clear]
  rfl

/-- An attempt whose first part succeeds. -/
theorem Returns.attempt {x : Attempt ε α} {next : α → Attempt ε β} {a : α}
    {R : Except ε β → List (String × ObjectRef) → List Request → Prop}
    (first : Returns server network before x.run (.ok a))
    (rest : ∀ after, Later before after → Yields server network after (next a).run R) :
    Yields server network before (x >>= next).run R := by
  rw [ExceptT.run_bind]
  refine Yields.bind first ?_
  rintro _ _ after later ⟨rfl, rfl⟩
  exact rest after later

/-- An attempt whose first part fails. -/
theorem Returns.attempt_error {x : Attempt ε α} {next : α → Attempt ε β} {e : ε}
    (first : Returns server network before x.run (.error e)) :
    Returns server network before (x >>= next).run (.error e) := by
  rw [ExceptT.run_bind]
  refine Yields.bind first ?_
  rintro _ _ after - ⟨rfl, rfl⟩
  exact yields_done ⟨rfl, rfl⟩

theorem returns_pure (a : α) : Returns server network before (pure a : Attempt ε α).run (.ok a) :=
  yields_done ⟨rfl, rfl⟩

theorem returns_throw (e : ε) : Returns server network before (throw e : Attempt ε α).run (.error e) :=
  yields_done ⟨rfl, rfl⟩

end

/-! ## Links -/

variable {server : Server} {network : Http.Network} {i : Inventory} {accounts : String → Prop}
variable {before after : List Request} {link : Link} {token : String}

theorem Server.Issued.later (issued : server.Issued network before token) (later : Later before after) :
    server.Issued network after token := by
  obtain ⟨us, r, vs, rfl, login, bare, tells, kept⟩ := issued
  obtain ⟨sent, rfl, kept'⟩ := later
  exact ⟨us, r, vs ++ sent, by simp, login, bare, tells, List.forall_mem_append.mpr ⟨kept, kept'⟩⟩

/-- A token that was handed out and can be sent. -/
def Usable (server : Server) (network : Http.Network) (before : List Request) (token : String) : Prop :=
  server.Issued network before token ∧ Request.isHeaderValue token

/-- The link is to the server, and both of its tokens are good. -/
structure Good (server : Server) (network : Http.Network) (before : List Request) (link : Link) : Prop where
  base : link.base = server.base
  inventory : Usable server network before link.inventory
  tagging : Usable server network before link.tagging

theorem Good.later (good : Good server network before link) (later : Later before after) :
    Good server network after link :=
  ⟨good.base, ⟨good.inventory.1.later later, good.inventory.2⟩,
    ⟨good.tagging.1.later later, good.tagging.2⟩⟩

/-! ## Requests -/

/-- The URL of a request is not too long. -/
def Server.Fits (server : Server) (segments : List String) (query : Option String) : Prop :=
  (server.url (segments.map segmentText) query).render.utf8ByteSize ≤ Request.maxUrlSize

instance (segments : List String) (query : Option String) : Decidable (server.Fits segments query) :=
  inferInstanceAs (Decidable (_ ≤ _))

theorem isSupported_url {segments : List String} {query : Option String} (server : Server)
    (fits : server.Fits segments query) :
    Request.isSupported (server.url (segments.map segmentText) query) = true := by
  have sent := server.sent
  have small : (server.url (segments.map segmentText) query).render.utf8ByteSize ≤ Request.maxUrlSize := fits
  unfold Request.isSupported
  simp only [small, decide_true, Bool.and_true]
  simpa [Server.url, Server.authority, Url.authorityOf] using sent

theorem request_server (token : String) (method : Http.Method) {segments : List String}
    (query body : Option String) (base : link.base = server.base) (ids : ∀ s ∈ segments, IsSegment s) (some_ : segments ≠ []) :
    request link token method segments query body =
      .ok (server.request method segments query token body) := by
  rw [request, base, server.address_base ids some_]
  simp only [server.ofUrl_url]
  rfl

theorem fault?_request {method : Http.Method} {segments : List String} {query body : Option String}
    (legal : Request.isHeaderValue token) (fits : server.Fits segments query) :
    fault? (server.request method segments query token body) = none :=
  fault?_eq_none.mpr ⟨fun t same => by cases same; exact legal, isSupported_url server fits⟩

/-- A request whose URL is too long is not made. -/
theorem fault?_request_long (method : Http.Method) {segments : List String} {query : Option String}
    (body : Option String) (legal : Request.isHeaderValue token) (long : ¬server.Fits segments query) :
    fault? (server.request method segments query token body) =
      some (.unsupported (server.url (segments.map segmentText) query)) := by
  have large : ¬(server.url (segments.map segmentText) query).render.utf8ByteSize ≤ Request.maxUrlSize := long
  have refused : Request.isSupported (server.url (segments.map segmentText) query) = false := by
    simp [Request.isSupported, large]
  simp [fault?, Server.request, legal, refused]

theorem readOf_tells {α : Type} {k : Endpoint} {d : Json.Decoder α} {r : Request} {a : Answer} {v : α}
    (tells : Tells d v a) : readOf k d (heard r a) = .ok v := readOf_eq_ok.mpr tells

theorem attachment?_none {r : Request} {a : Answer} {q : Asked} (asks : server.asked? r = some q)
    (other : q.isAttach = false) : server.attachment? r a = none := by
  unfold Server.attachment?
  rw [asks]
  cases q with
  | attach id vm => cases other
  | login | machine | categories | category | tagsOf | tag => cases a <;> rfl

/-! ## Connections -/

/-- Everything in the taxonomy can be asked for: no URL is too long. -/
structure Server.Reaches (server : Server) (i : Inventory) : Prop where
  session : server.Fits ["api", "session"] none
  categories : server.Fits (taggingPath ["category"]) none
  category : ∀ x ∈ i.categories, server.Fits (taggingPath ["category", x.1]) none
  tags : server.Fits (taggingPath ["tag"]) (some "action=list-tags-for-category")
  tag : ∀ t ∈ i.tags, server.Fits (taggingPath ["tag", t.id]) none
  attach : ∀ t ∈ i.tags, server.Fits (taggingPath ["tag-association", t.id]) (some "action=attach")

section
variable (serves : server.Serves i accounts network) (reaches : server.Reaches i)
include serves reaches

theorem yields_login {c : Connection} (account : accounts (Http.basic c.user c.password)) :
    Yields server network before (login server.base c).run fun v gained after =>
      ∃ t, v = .ok t ∧ gained = [] ∧ Usable server network after t := by
  have asks := asked?_login server c
  obtain ⟨t, tells, legal⟩ := serves.login before (server.login c) _ asks rfl rfl account
  have supported := isSupported_url server reaches.session
  rw [session_segments] at supported
  have clear : fault? (server.login c) = none :=
    fault?_eq_none.mpr ⟨by simp [Server.login], supported⟩
  rw [login_run, loginRequest_base]
  refine yields_once clear (by simp [Server.login]) ⟨t, readOf_tells tells, ?_, ?_, legal⟩
  · rw [attachment?_none asks rfl]
    rfl
  · exact ⟨before, server.login c, [], rfl, asks, rfl, tells, by simp⟩

/-- A connection is made, with good tokens. -/
theorem yields_connect {c : Connection} (account : accounts (Http.basic c.user c.password)) :
    Yields server network before (connect ⟨some server.base⟩ c) fun v gained after =>
      ∃ link, v = .ok link ∧ gained = [] ∧ Good server network after link := by
  unfold connect
  simp only [server.baseFor_base]
  refine (yields_login serves reaches account).bind ?_
  rintro _ _ middle - ⟨t, rfl, rfl, usable⟩
  refine (yields_login serves reaches account).bind ?_
  rintro _ _ after later ⟨t', rfl, rfl, usable'⟩
  exact yields_done ⟨⟨server.base, t, t'⟩, rfl, rfl, rfl, ⟨usable.1.later later, usable.2⟩, usable'⟩

end

/-! ## Paths -/

theorem isSegment_machinePath {id : String} (isSegment : IsSegment id) :
    ∀ s ∈ machinePath id, IsSegment s := by
  have fixed : ∀ s ∈ ["api", "vcenter", "vm"], IsSegment s := by decide
  intro s mem
  rcases List.mem_append.mp (show s ∈ ["api", "vcenter", "vm"] ++ [id] from mem) with mem | mem
  · exact fixed s mem
  · rw [List.mem_singleton.mp mem]
    exact isSegment

theorem isSegment_taggingPath {rest : List String} (ids : ∀ s ∈ rest, IsSegment s) :
    ∀ s ∈ taggingPath rest, IsSegment s := by
  have fixed : ∀ s ∈ ["api", "cis", "tagging"], IsSegment s := by decide
  intro s mem
  rcases List.mem_append.mp mem with mem | mem
  · exact fixed s mem
  · exact ids s mem

theorem objectId_eq {id : String} (isSegment : IsSegment id) : objectId id = .ok id := by
  simp [objectId, isSegment.ne_empty, isSegment.ne_dot, isSegment.ne_dots]

/-! ## Operations -/

section
variable (serves : server.Serves i accounts network)
include serves

/-- A request in a session is answered with the content. -/
theorem documented_request {method : Http.Method} {segments : List String} {query body : Option String}
    {q : Asked} (asks : server.asked? (server.request method segments query token body) = some q)
    (usable : Usable server network before token) :
    Documented i q (network before (server.request method segments query token body)) :=
  serves.content before _ q token asks rfl usable.1

omit serves in
theorem machineOf_tells {h : Option Hardware} {r : Request} {a : Answer} (tells : TellsHardware h a) :
    machineOf (heard r a) = .ok h := by
  cases h with
  | none =>
    obtain ⟨body, rfl⟩ := tells
    rfl
  | some h =>
    obtain ⟨m, ⟨status, body, rfl, low, high, decoded⟩, hardware⟩ := tells
    have known : status ≠ 404 := by omega
    have value : valueOf .machine Machine.decoder (heard r (.response status body)) = .ok m :=
      valueOf_eq_ok.mpr ⟨status, body, rfl, low, high, decoded⟩
    show (if status = 404 then .ok none else
      (valueOf .machine Machine.decoder (heard r (.response status body))).map Machine.hardware?) = _
    rw [if_neg known, value]
    exact congrArg Except.ok hardware

/-- The hardware of a machine is the registered one. -/
theorem returns_hardware {vm : ObjectRef} (good : Good server network before link)
    (isSegment : IsSegment vm.value) (fits : server.Fits (machinePath vm.value) none) :
    Returns server network before (hardware link vm).run (.ok (i.machines.lookup vm.value)) := by
  have made := request_server link.inventory .get none none good.base (isSegment_machinePath isSegment)
    (by simp [machinePath])
  have asks := asked?_machine server link.inventory vm.value
  rw [hardware_run, objectId_eq isSegment]
  simp only [made]
  refine yields_once (fault?_request good.inventory.2 fits) (by simp [Server.request]) ⟨?_, ?_⟩
  · exact machineOf_tells (documented_request serves asks good.inventory)
  · rw [attachment?_none asks rfl]
    rfl

omit serves in
/-- The hardware of a machine whose URL is too long is not known, registered or not. -/
theorem returns_hardware_long {vm : ObjectRef} (good : Good server network before link)
    (isSegment : IsSegment vm.value) (long : ¬server.Fits (machinePath vm.value) none) :
    Returns server network before (hardware link vm).run (.error (.failed (.http
      (.unsupported (server.url ((machinePath vm.value).map segmentText) none))))) := by
  have made := request_server link.inventory .get none none good.base (isSegment_machinePath isSegment)
    (by simp [machinePath])
  have fault := fault?_request_long .get none good.inventory.2 long
  rw [hardware_run, objectId_eq isSegment]
  simp only [made]
  unfold once
  rw [fault]
  exact yields_done ⟨rfl, rfl⟩

omit serves in
/-- A request in the tagging session that is answered with a value. -/
theorem returns_asked {α : Type} {k : Endpoint} {d : Json.Decoder α} {method : Http.Method}
    {rest : List String} {query body : Option String} {q : Asked} {v : α}
    (good : Good server network before link) (ids : ∀ s ∈ rest, IsSegment s)
    (fits : server.Fits (taggingPath rest) query) (kept : method ≠ .delete)
    (asks : server.asked? (server.request method (taggingPath rest) query link.tagging body) = some q)
    (other : q.isAttach = false)
    (tells : Tells d v (network before
      (server.request method (taggingPath rest) query link.tagging body))) :
    Returns server network before (asked link k d method rest query body).run (.ok v) := by
  have made := request_server link.tagging method query body good.base (isSegment_taggingPath ids)
    (by simp [taggingPath])
  unfold asked taggingRequest
  rw [run_lift_bind, made]
  simp only [part_fetch_run]
  refine yields_once (fault?_request good.tagging.2 fits) (by simpa [Server.request] using kept) ⟨?_, ?_⟩
  · exact valueOf_eq_ok.mpr tells
  · rw [attachment?_none asks other]
    rfl

/-! ### Categories -/

section
variable (consistent : i.Consistent) (reaches : server.Reaches i)
include consistent reaches

theorem returns_category {id name : String} (good : Good server network before link)
    (mem : (id, name) ∈ i.categories) : Returns server network before
      (asked link .category Category.decoder .get ["category", id] none none).run (.ok ⟨id, name⟩) := by
  have asks := asked?_category server link.tagging id
  have answer := documented_request serves asks good.tagging
  have ids : ∀ s ∈ ["category", id], IsSegment s :=
    List.forall_mem_cons.mpr ⟨by decide, by simpa using consistent.categorySegments _ mem⟩
  exact returns_asked good ids (reaches.category (id, name) mem) (by simp) asks rfl (answer name mem)

/-- Looking for a name among ids finds it if it is the name of one of them. -/
theorem returns_categoryNamed {category : String} {ids : List String}
    (foreign : ∀ x ∈ i.categories, x.1 ≠ category)
    (good : Good server network before link)
    (known : ∀ id ∈ ids, ∃ name, (id, name) ∈ i.categories)
    (all : ∀ id, (id, category) ∈ i.categories → id ∈ ids) :
    Returns server network before (categoryNamed link category ids).run (i.foundId category) := by
  induction ids generalizing before with
  | nil =>
    have unnamed : ∀ x ∈ i.categories, x.2 ≠ category := by
      rintro ⟨id, name⟩ mem rfl
      exact absurd (all id mem) List.not_mem_nil
    rw [Inventory.foundId_eq_error foreign unnamed]
    exact returns_throw _
  | cons id ids ih =>
    obtain ⟨⟨name, mem⟩, known⟩ := List.forall_mem_cons.mp known
    unfold categoryNamed
    rw [← bind_assoc]
    refine (returns_category serves consistent reaches good mem).attempt fun after later => ?_
    by_cases same : name = category
    · have found := (consistent.unambiguous category).categoryId?_eq mem (.inr same)
      rw [if_pos same, Inventory.foundId, found]
      exact returns_pure id
    · rw [if_neg same]
      refine ih (good.later later) known fun id' mem' => ?_
      rcases List.mem_cons.mp (all id' mem') with rfl | within
      · exact absurd (consistent.name_eq mem mem') same
      · exact within

/-- A category is found by its id or its name, in whatever order the ids are listed. -/
theorem returns_categoryId (category : String) (good : Good server network before link) :
    Returns server network before (categoryId link category).run (i.foundId category) := by
  have asks := asked?_categories server link.tagging
  obtain ⟨ids, tells, same⟩ := documented_request serves asks good.tagging
  unfold categoryId
  rw [← bind_assoc]
  refine Returns.attempt (returns_asked good (by decide) reaches.categories (by simp) asks rfl tells)
    fun after later => ?_
  by_cases listed : category ∈ ids
  · obtain ⟨⟨id, name⟩, mem, rfl⟩ := List.mem_map.mp (same.mem_iff.mp listed)
    have found := (consistent.unambiguous id).categoryId?_eq mem (.inl rfl)
    rw [if_pos (List.contains_iff_mem.mpr listed), Inventory.foundId, found]
    exact returns_pure id
  · rw [if_neg (by simpa using listed)]
    refine returns_categoryNamed serves consistent reaches ?_ (good.later later) ?_ ?_
    · rintro x mem rfl
      exact listed (same.mem_iff.mpr (List.mem_map_of_mem mem))
    · intro id mem
      obtain ⟨⟨id, name⟩, mem', rfl⟩ := List.mem_map.mp (same.mem_iff.mp mem)
      exact ⟨name, mem'⟩
    · intro id mem
      exact same.mem_iff.mpr (List.mem_map.mpr ⟨_, mem, rfl⟩)

/-! ### Tags -/

theorem returns_tag {t : Tag} (good : Good server network before link) (mem : t ∈ i.tags) :
    Returns server network before (tag link t.id).run (.ok t) := by
  have asks := asked?_tag server link.tagging t.id
  have answer := documented_request serves asks good.tagging
  have ids : ∀ s ∈ ["tag", t.id], IsSegment s :=
    List.forall_mem_cons.mpr ⟨by decide, by simpa using consistent.tagSegments t mem⟩
  exact returns_asked good ids (reaches.tag t mem) (by simp) asks rfl (answer t mem rfl)

/-- The tags with some ids are read in order. -/
theorem returns_mapM_tag {tags : List Tag} (good : Good server network before link)
    (known : ∀ t ∈ tags, t ∈ i.tags) :
    Returns server network before ((tags.map (·.id)).mapM (tag link)).run (.ok tags) := by
  induction tags generalizing before with
  | nil => exact returns_pure []
  | cons t tags ih =>
    obtain ⟨mem, known⟩ := List.forall_mem_cons.mp known
    rw [List.map_cons, List.mapM_cons]
    refine (returns_tag serves consistent reaches good mem).attempt fun after later => ?_
    refine (ih (good.later later) known).attempt fun last _ => ?_
    exact returns_pure (t :: tags)

/-- The tags of a category are the registered ones, in the order in which they were registered. -/
theorem returns_tags {category : String} (good : Good server network before link) :
    Returns server network before (tags link category).run (i.listed category) := by
  unfold tags Inventory.listed
  have first := returns_categoryId serves consistent reaches category good
  cases found : i.foundId category with
  | error e =>
    rw [found] at first
    exact first.attempt_error
  | ok id =>
    rw [found] at first
    refine first.attempt fun after later => ?_
    have asks := asked?_tagsOf server link.tagging id
    have answer := documented_request serves asks (good.later later).tagging
    rw [← bind_assoc]
    refine Returns.attempt (returns_asked (good.later later) (by decide) reaches.tags (by simp) asks rfl
      (answer (Inventory.foundId_mem found))) fun last later' => ?_
    exact returns_mapM_tag serves consistent reaches ((good.later later).later later')
      fun t mem => (List.mem_filter.mp mem).1

end

/-! ### Attachments -/

/-- A registered tag is attached. -/
theorem yields_attach {t : Tag} {vm : ObjectRef} (good : Good server network before link)
    (mem : t ∈ i.tags) (isSegment : IsSegment t.id)
    (fits : server.Fits (taggingPath ["tag-association", t.id]) (some "action=attach")) :
    Yields server network before (attach link t.id vm).run fun v gained _ =>
      v = .ok () ∧ gained = [(t.id, vm)] := by
  have ids : ∀ s ∈ ["tag-association", t.id], IsSegment s :=
    List.forall_mem_cons.mpr ⟨by decide, by simpa using isSegment⟩
  have made : taggingRequest link .post ["tag-association", t.id] (some "action=attach")
      (some (objectBody vm)) = .ok _ :=
    request_server link.tagging .post _ _ good.base (isSegment_taggingPath ids) (by simp [taggingPath])
  have asks := asked?_attach server link.tagging t.id vm
  have answer := documented_request serves asks good.tagging
  obtain ⟨status, body, granted, low, high⟩ := answer (List.mem_map_of_mem mem)
  rw [attach_run, objectId_eq isSegment]
  simp only [made]
  refine yields_once (fault?_request good.tagging.2 fits) (by simp [Server.request]) ⟨?_, ?_⟩
  · rw [granted, bodyOf_eq_ok.mpr ⟨status, rfl, low, high⟩]
    rfl
  · have success : isSuccess status = true := by simp [isSuccess, low, high]
    simp [Server.attachment?, asks, granted, success]

end

end TierTagger.VCenter
