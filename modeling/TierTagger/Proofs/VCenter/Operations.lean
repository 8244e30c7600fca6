import Mathlib.Data.List.Forall2
import TierTagger.Proofs.VCenter.Logins

/-!
# Transcripts of the operations

Which requests the operations of a vCenter directory send, whatever the server answers.

- **Requests** (`Made`, `Asks`): what a request to each endpoint looks like, in the sessions of a link.
- **Answers** (`Grants`, `Succeeds`): what an endpoint has to answer for the operation to go on.
- **Words** (`Goes`): the exchanges of a computation ask for a prefix of a word of endpoints; all but
  the last succeed, and a computation that succeeds spells the whole word.
- `goes_hardware`, `goes_tags`, `goes_attach`: the words of the operations.
-/

namespace TierTagger.VCenter

open Dialogue (Told told_done told_run_bind told_run_pure told_run_throw)
open Directory (Endpoint Failure)
open Http (Answer Request)

/-! ## Requests -/

/-- A request to segments behind a base address. -/
structure Made (base token : String) (method : Http.Method) (segments : List String)
    (query body : Option String) (r : Request) : Prop where
  method_eq : r.method = method
  url_eq : ∃ url, address base segments query = .ok url ∧ r.url = (Request.ofUrl method url).url
  token_eq : r.token = some token
  body_eq : r.body = body

/-- A request to an endpoint: machines are asked for in the inventory session, everything else in the
tagging session. Logins and logouts are at the address of the sessions. -/
def Asks (link : Link) (c : Connection) (vm : ObjectRef) : Endpoint → Request → Prop
  | .login => fun r => loginRequest link.base c = .ok r
  | .logout => fun r => logoutRequest link.base link.inventory = .ok r
  | .machine => Made link.base link.inventory .get ["api", "vcenter", "vm", vm.value] none none
  | .categories => Made link.base link.tagging .get ["api", "cis", "tagging", "category"] none none
  | .category => fun r => ∃ id,
    Made link.base link.tagging .get ["api", "cis", "tagging", "category", id] none none r
  | .tagsOfCategory => fun r => ∃ id,
    Made link.base link.tagging .post ["api", "cis", "tagging", "tag"]
      (some "action=list-tags-for-category") (some (categoryBody id)) r
  | .tag => fun r => ∃ id,
    Made link.base link.tagging .get ["api", "cis", "tagging", "tag", id] none none r
  | .attach => fun r => ∃ id,
    Made link.base link.tagging .post ["api", "cis", "tagging", "tag-association", id]
      (some "action=attach") (some (objectBody vm)) r

theorem made_request {link : Link} {token : String} {method : Http.Method} {segments : List String}
    {query body : Option String} {r : Request}
    (made : request link token method segments query body = .ok r) :
    Made link.base token method segments query body r := by
  unfold request at made
  split at made
  · next url at_url =>
    cases made
    exact ⟨ofUrl_method method url, ⟨url, at_url, rfl⟩, rfl, rfl⟩
  · cases made

/-! ## Answers -/

/-- A body that can be read as what an endpoint answers. -/
def Readable : Endpoint → Bytes → Prop
  | .login => fun b => ∃ t, Json.Decoder.text.decode b = .ok t
  | .machine => fun b => ∃ m, Machine.decoder.decode b = .ok m
  | .categories | .tagsOfCategory => fun b => ∃ ids, idsDecoder.decode b = .ok ids
  | .category => fun b => ∃ c, Category.decoder.decode b = .ok c
  | .tag => fun b => ∃ t, tagDecoder.decode b = .ok t
  | .logout | .attach => fun _ => True

/-- The answer is a success with a body. -/
def Grants (a : Answer) (body : Bytes) : Prop := ∃ status, a = .response status body ∧ 200 ≤ status ∧ status < 300

/-- The exchange did not fail: it was granted, with a body that can be read. -/
def Succeeds (k : Endpoint) (a : Answer) : Prop :=
  ∃ status body, a = .response status body ∧ 200 ≤ status ∧ status < 300 ∧ Readable k body

/-! ## Words -/

variable {K : Endpoint → Request → Prop} {word word' kinds kinds' : List Endpoint}
variable {xs ys : List (Request × Answer)} {ok : Prop}

/-- The exchanges ask for `kinds`, in order, and all succeed. -/
def Completed (K : Endpoint → Request → Prop) : List Endpoint → List (Request × Answer) → Prop :=
  List.Forall₂ fun k x => K k x.1 ∧ Succeeds k x.2

/-- The exchanges ask for `kinds`, in order, and all but the last succeed. -/
inductive Asking (K : Endpoint → Request → Prop) : List Endpoint → List (Request × Answer) → Prop where
  | none : Asking K [] []
  | last {k x} (asks : K k x.1) : Asking K [k] [x]
  | next {k kinds x xs} (asks : K k x.1) (succeeds : Succeeds k x.2) (rest : Asking K kinds xs) :
    Asking K (k :: kinds) (x :: xs)

theorem Completed.asking (completed : Completed K kinds xs) : Asking K kinds xs := by
  induction completed with
  | nil => exact .none
  | cons first _ ih => exact .next first.1 first.2 ih

theorem Completed.append_asking (completed : Completed K kinds xs) (asking : Asking K kinds' ys) :
    Asking K (kinds ++ kinds') (xs ++ ys) := by
  induction completed with
  | nil => exact asking
  | cons first _ ih => exact .next first.1 first.2 ih

/-- The exchanges ask for a prefix of a word. If the computation succeeds, it is the whole word and
all of them succeed. -/
structure Goes (K : Endpoint → Request → Prop) (word : List Endpoint)
    (xs : List (Request × Answer)) (ok : Prop) : Prop where
  asking : ∃ kinds, kinds <+: word ∧ Asking K kinds xs
  whole : ok → Completed K word xs

theorem goes_nil : Goes K [] [] ok := ⟨⟨[], List.prefix_rfl, .none⟩, fun _ => .nil⟩

/-- A computation that fails before any exchange. -/
theorem goes_unsent (fails : ¬ok) : Goes K word [] ok :=
  ⟨⟨[], List.nil_prefix, .none⟩, fun ok => absurd ok fails⟩

/-- A computation that fails goes some way in every longer word. -/
theorem Goes.fails (goes : Goes K word xs ok) (rest : List Endpoint) {ok' : Prop} (fails : ¬ok') :
    Goes K (word ++ rest) xs ok' := by
  obtain ⟨⟨kinds, first, asking⟩, -⟩ := goes
  exact ⟨⟨kinds, first.trans (List.prefix_append ..), asking⟩, fun ok => absurd ok fails⟩

/-- A computation that succeeds, and what follows. -/
theorem Goes.andThen (goes : Goes K word xs ok) (succeeds : ok) {ok' : Prop}
    (rest : Goes K word' ys ok') : Goes K (word ++ word') (xs ++ ys) ok' := by
  obtain ⟨⟨kinds, first, asking⟩, whole⟩ := rest
  refine ⟨⟨word ++ kinds, (List.prefix_append_right_inj _).mpr first,
    (goes.whole succeeds).append_asking asking⟩, fun ok => ?_⟩
  exact List.rel_append (goes.whole succeeds) (whole ok)

/-! ## One exchange -/

section
variable {k : Endpoint} {r : Request} {α ε ρ : Type} {a : Answer}

/-- One exchange, which has to succeed for a good end. -/
theorem goes_once (good : ρ → Prop) {judge : Except Failure (Nat × Bytes) → ρ} {x : ρ} (asks : K k r)
    (told : Told (once r judge) xs x) (unheard : ∀ e, ¬good (judge (.error e)))
    (read : ∀ a, good (judge (heard r a)) → Succeeds k a) : Goes K [k] xs (good x) := by
  rcases told_once.mp told with ⟨e, -, rfl, rfl⟩ | ⟨-, a, rfl, rfl⟩
  · exact ⟨⟨[], List.nil_prefix, .none⟩, fun good => absurd good (unheard _)⟩
  · exact ⟨⟨[k], List.prefix_rfl, .last asks⟩, fun good => .cons ⟨asks, read a good⟩ .nil⟩

theorem run_lift_bind (x : Except ε α) (next : α → Attempt ε ρ) :
    ((liftM x : Attempt ε α) >>= next).run =
      match x with
      | .error e => .done (.error e)
      | .ok y => (next y).run := by
  cases x <;> rfl

theorem run_check_bind {ε' : Type} (f : ε' → ε) (x : Except ε' α) (next : α → Attempt ε ρ) :
    (Dialogue.check f x >>= next).run =
      match x with
      | .error e => .done (.error (f e))
      | .ok y => (next y).run := by
  cases x <;> rfl

/-- What comes of an exchange that has to be granted. -/
def bodyOf (k : Endpoint) (h : Except Failure (Nat × Bytes)) : Except Directory.Error Bytes :=
  (h >>= granted k).mapError .failed

/-- What comes of an exchange whose body has to be read. -/
def valueOf (k : Endpoint) (d : Json.Decoder α) (h : Except Failure (Nat × Bytes)) :
    Except Directory.Error α :=
  (readOf k d h).mapError .failed

theorem attempt_once {judge : Except Failure (Nat × Bytes) → Except Failure α}
    {x : Attempt Failure α} (first : x.run = once r judge) :
    (part x).run = once r fun h => (judge h).mapError .failed := by
  unfold part Dialogue.attempt
  rw [ExceptT.run_mk, first]
  exact once_bind (Except.mapError Directory.Error.failed)

theorem part_grant_run : (part (grant k r)).run = once r (bodyOf k) := attempt_once (grant_run k r)

theorem part_fetch_run (d : Json.Decoder α) : (part (fetch k d r)).run = once r (valueOf k d) :=
  attempt_once (fetch_run k d r)

theorem bodyOf_eq_ok {body : Bytes} : bodyOf k (heard r a) = .ok body ↔
    ∃ status, a = .response status body ∧ 200 ≤ status ∧ status < 300 := by
  rw [← heard_granted (k := k) (r := r), bodyOf]
  cases heard r a >>= granted k <;> simp [Except.mapError]

theorem valueOf_eq_ok {d : Json.Decoder α} {y : α} : valueOf k d (heard r a) = .ok y ↔
    ∃ status body, a = .response status body ∧ 200 ≤ status ∧ status < 300 ∧
      d.decode body = .ok y := by
  rw [← readOf_eq_ok (k := k) (r := r), valueOf]
  cases readOf k d (heard r a) <;> simp [Except.mapError]

end

/-! ## Operations -/

section
variable {link : Link} {c : Connection} {vm : ObjectRef}

/-- What comes of asking for a machine. -/
def machineOf (h : Except Failure (Nat × Bytes)) : Except Directory.Error (Option Hardware) :=
  h.mapError .failed >>= fun response =>
    if response.1 = 404 then .ok none
    else (valueOf .machine Machine.decoder (.ok response)).map Machine.hardware?

theorem hardware_run : (hardware link vm).run =
    match objectId vm.value with
    | .error e => .done (.error (.rejected e))
    | .ok id =>
      match request link link.inventory .get (machinePath id) none none with
      | .error e => .done (.error e)
      | .ok r => once r machineOf := by
  unfold hardware
  rw [run_check_bind]
  cases objectId vm.value with
  | error e => rfl
  | ok id =>
    refine (run_lift_bind _ _).trans ?_
    simp only
    cases request link link.inventory .get (machinePath id) none none with
    | error e => rfl
    | ok r =>
      refine run_bind_of_once (attempt_once (send_run r)) fun response => ?_
      by_cases missing : response.1 = 404
      · simp only [missing, if_true]
        rfl
      · simp only [missing, if_false, run_check_bind, valueOf]
        change _ = Dialogue.done (((granted .machine response >>= decoded Machine.decoder).mapError
          Directory.Error.failed).map Machine.hardware?)
        cases granted .machine response with
        | error e => rfl
        | ok body =>
          change _ = Dialogue.done (((decoded Machine.decoder body).mapError
            Directory.Error.failed).map Machine.hardware?)
          simp only
          cases decoded Machine.decoder body <;> rfl

theorem not_grants_missing {body body' : Bytes} : ¬Grants (.response 404 body) body' := by
  rintro ⟨status, same, low, high⟩
  cases same
  omega

/-- An answer says something of the hardware if there is no machine, or if it is the record of one. -/
theorem machineOf_eq_ok {r : Request} {a : Answer} {o : Option Hardware} : machineOf (heard r a) = .ok o ↔
    (∃ body, a = .response 404 body ∧ o = none) ∨
      ∃ body m, Grants a body ∧ Machine.decoder.decode body = .ok m ∧ m.hardware? = o := by
  by_cases missing : ∃ body, a = .response 404 body
  · obtain ⟨body, rfl⟩ := missing
    have none : machineOf (heard r (.response 404 body)) = .ok none := rfl
    simp [none, not_grants_missing, eq_comm]
  · have value : machineOf (heard r a) =
        (valueOf .machine Machine.decoder (heard r a)).map Machine.hardware? := by
      cases a with
      | lost => rfl
      | response status body =>
        have other : status ≠ 404 := fun same => missing ⟨body, same ▸ rfl⟩
        show (if status = 404 then _ else _) = _
        rw [if_neg other]
        rfl
    rw [value]
    constructor
    · intro read
      cases got : valueOf .machine Machine.decoder (heard r a) with
      | error e =>
        rw [got] at read
        cases read
      | ok m =>
        rw [got] at read
        cases read
        obtain ⟨status, body, rfl, low, high, decoded⟩ := valueOf_eq_ok.mp got
        exact .inr ⟨body, m, ⟨status, rfl, low, high⟩, decoded, rfl⟩
    · rintro (⟨body, same, -⟩ | ⟨body, m, ⟨status, rfl, low, high⟩, decoded, rfl⟩)
      · exact absurd ⟨body, same⟩ missing
      · rw [valueOf_eq_ok.mpr ⟨status, body, rfl, low, high, decoded⟩]
        rfl

theorem machineOf_eq_some {r : Request} {a : Answer} {h : Hardware}
    (read : machineOf (heard r a) = .ok (some h)) : Succeeds .machine a := by
  rcases machineOf_eq_ok.mp read with ⟨body, -, absurd⟩ | ⟨body, m, ⟨status, rfl, low, high⟩, decoded, -⟩
  · cases absurd
  · exact ⟨status, body, rfl, low, high, m, decoded⟩

/-- The word of asking for the hardware of a machine. -/
theorem goes_hardware {x : Except Directory.Error (Option Hardware)}
    (told : Told (hardware link vm).run xs x) :
    Goes (Asks link c vm) [.machine] xs (∃ h, x = .ok (some h)) := by
  rw [hardware_run] at told
  cases valid : objectId vm.value with
  | error e =>
    rw [valid] at told
    obtain ⟨rfl, rfl⟩ := told_done.mp told
    exact goes_unsent (by simp)
  | ok id =>
    obtain rfl : vm.value = id := by
      unfold objectId at valid
      split at valid
      · cases valid
      · exact Except.ok.inj valid
    rw [valid] at told
    simp only at told
    cases made : request link link.inventory .get (machinePath vm.value) none none with
    | error e =>
      rw [made] at told
      obtain ⟨rfl, rfl⟩ := told_done.mp told
      exact goes_unsent (by simp)
    | ok r =>
      rw [made] at told
      exact goes_once (fun x => ∃ h, x = .ok (some h)) (made_request made) told
        (fun e ⟨h, absurd⟩ => by cases absurd) fun a ⟨h, read⟩ => machineOf_eq_some read

/-- A request in the tagging session, and what is read in its answer. -/
def asked {α : Type} (link : Link) (k : Endpoint) (d : Json.Decoder α) (method : Http.Method)
    (rest : List String) (query body : Option String) : Attempt Directory.Error α := do
  let r ← taggingRequest link method rest query body
  part (fetch k d r)

theorem goes_asked {k : Endpoint} {method : Http.Method} {rest : List String}
    {query body : Option String} {α : Type} {d : Json.Decoder α} {x : Except Directory.Error α}
    (asks : ∀ r, Made link.base link.tagging method (taggingPath rest) query body r →
      Asks link c vm k r)
    (readable : ∀ b y, d.decode b = .ok y → Readable k b)
    (told : Told (asked link k d method rest query body).run xs x) :
    Goes (Asks link c vm) [k] xs (∃ y, x = .ok y) := by
  unfold asked at told
  rw [run_lift_bind] at told
  cases made : taggingRequest link method rest query body with
  | error e =>
    rw [made] at told
    obtain ⟨rfl, rfl⟩ := told_done.mp told
    exact goes_unsent (by simp)
  | ok r =>
    rw [made] at told
    simp only [part_fetch_run] at told
    refine goes_once (fun x => ∃ y, x = .ok y) (asks r (made_request made)) told
      (fun e ⟨y, absurd⟩ => by cases absurd) fun a ⟨y, read⟩ => ?_
    obtain ⟨status, b, rfl, low, high, decoded⟩ := valueOf_eq_ok.mp read
    exact ⟨status, b, rfl, low, high, readable b y decoded⟩

theorem goes_category {id : String} {x : Except Directory.Error Category} (told : Told
      (asked link .category Category.decoder .get ["category", id] none none).run xs x) :
    Goes (Asks link c vm) [.category] xs (∃ y, x = .ok y) :=
  goes_asked (fun _ made => ⟨id, made⟩) (fun _ y read => ⟨y, read⟩) told

theorem goes_categories {x : Except Directory.Error (List String)} (told : Told
      (asked link .categories idsDecoder .get ["category"] none none).run xs x) :
    Goes (Asks link c vm) [.categories] xs (∃ y, x = .ok y) :=
  goes_asked (fun _ made => made) (fun _ y read => ⟨y, read⟩) told

theorem goes_tagsOfCategory {id : String} {x : Except Directory.Error (List String)} (told : Told
      (asked link .tagsOfCategory idsDecoder .post ["tag"] (some "action=list-tags-for-category")
        (some (categoryBody id))).run xs x) :
    Goes (Asks link c vm) [.tagsOfCategory] xs (∃ y, x = .ok y) :=
  goes_asked (fun _ made => ⟨id, made⟩) (fun _ y read => ⟨y, read⟩) told

theorem goes_tag {id : String} {x : Except Directory.Error Tag} (told : Told (tag link id).run xs x) :
    Goes (Asks link c vm) [.tag] xs (∃ y, x = .ok y) :=
  goes_asked (fun _ made => ⟨id, made⟩) (fun _ y read => ⟨y, read⟩) told

/-- Looking for a category with a name asks for some categories. -/
theorem goes_categoryNamed {name : String} {ids : List String} {x : Except Directory.Error String}
    (told : Told (categoryNamed link name ids).run xs x) :
    ∃ m, Goes (Asks link c vm) (List.replicate m .category) xs (∃ id, x = .ok id) := by
  induction ids generalizing xs with
  | nil =>
    obtain ⟨rfl, rfl⟩ := told_run_throw.mp told
    exact ⟨0, goes_unsent (by simp)⟩
  | cons id ids ih =>
    unfold categoryNamed at told
    rw [← bind_assoc] at told
    rcases told_run_bind.mp told with ⟨e, failed, rfl⟩ | ⟨ys, zs, category, rfl, got, rest⟩
    · exact ⟨1, (goes_category failed).fails [] (by simp)⟩
    · by_cases same : category.name = name
      · rw [if_pos same] at rest
        obtain ⟨rfl, rfl⟩ := told_run_pure.mp rest
        exact ⟨1, (goes_category got).andThen ⟨category, rfl⟩ goes_nil⟩
      · rw [if_neg same] at rest
        obtain ⟨m, goes⟩ := ih rest
        exact ⟨m + 1, (goes_category got).andThen ⟨category, rfl⟩ goes⟩

/-- Finding a category asks for the list of all, and then for some of them. -/
theorem goes_categoryId {category : String} {x : Except Directory.Error String}
    (told : Told (categoryId link category).run xs x) :
    ∃ m, Goes (Asks link c vm) (.categories :: List.replicate m .category) xs (∃ id, x = .ok id) := by
  unfold categoryId at told
  rw [← bind_assoc] at told
  rcases told_run_bind.mp told with ⟨e, failed, rfl⟩ | ⟨ys, zs, ids, rfl, got, rest⟩
  · exact ⟨0, (goes_categories failed).fails [] (by simp)⟩
  · by_cases listed : ids.contains category
    · rw [if_pos listed] at rest
      obtain ⟨rfl, rfl⟩ := told_run_pure.mp rest
      exact ⟨0, (goes_categories got).andThen ⟨ids, rfl⟩ goes_nil⟩
    · rw [if_neg listed] at rest
      obtain ⟨m, goes⟩ := goes_categoryNamed rest
      exact ⟨m, (goes_categories got).andThen ⟨ids, rfl⟩ goes⟩

/-- Reading tags asks for one after the other. -/
theorem goes_mapM_tag {ids : List String} {x : Except Directory.Error (List Tag)}
    (told : Told (ids.mapM (tag link)).run xs x) :
    ∃ n, Goes (Asks link c vm) (List.replicate n .tag) xs (∃ tags, x = .ok tags) := by
  induction ids generalizing xs x with
  | nil =>
    rw [List.mapM_nil] at told
    obtain ⟨rfl, rfl⟩ := told_run_pure.mp told
    exact ⟨0, goes_nil⟩
  | cons id ids ih =>
    rw [List.mapM_cons] at told
    rcases told_run_bind.mp told with ⟨e, failed, rfl⟩ | ⟨ys, zs, t, rfl, got, rest⟩
    · exact ⟨1, (goes_tag failed).fails [] (by simp)⟩
    · rcases told_run_bind.mp rest with ⟨e, failed, rfl⟩ | ⟨us, vs, tags, rfl, gots, last⟩
      · obtain ⟨n, goes⟩ := ih failed
        exact ⟨n + 1, (goes_tag got).andThen ⟨t, rfl⟩ (by simpa using goes)⟩
      · obtain ⟨rfl, rfl⟩ := told_run_pure.mp last
        obtain ⟨n, goes⟩ := ih gots
        rw [List.append_nil]
        exact ⟨n + 1, (goes_tag got).andThen ⟨t, rfl⟩ (by simpa using goes)⟩

/-- The word of listing the tags of a category. -/
theorem goes_tags {category : String} {x : Except Directory.Error (List Tag)}
    (told : Told (tags link category).run xs x) :
    ∃ m n, Goes (Asks link c vm) (.categories :: List.replicate m .category ++
      .tagsOfCategory :: List.replicate n .tag) xs (∃ tags, x = .ok tags) := by
  unfold tags at told
  rcases told_run_bind.mp told with ⟨e, failed, rfl⟩ | ⟨ys, zs, id, rfl, got, rest⟩
  · obtain ⟨m, goes⟩ := @goes_categoryId _ link c vm _ _ failed
    exact ⟨m, 0, goes.fails _ (by simp)⟩
  · obtain ⟨m, goes⟩ := @goes_categoryId _ link c vm _ _ got
    rw [← bind_assoc] at rest
    rcases told_run_bind.mp rest with ⟨e, failed, rfl⟩ | ⟨us, vs, ids, rfl, listed, last⟩
    · exact ⟨m, 0, goes.andThen ⟨id, rfl⟩ ((goes_tagsOfCategory failed).fails _ (by simp))⟩
    · obtain ⟨n, goes'⟩ := @goes_mapM_tag _ link c vm _ _ last
      exact ⟨m, n, goes.andThen ⟨id, rfl⟩ ((goes_tagsOfCategory listed).andThen ⟨ids, rfl⟩ goes')⟩

theorem attach_run {tagId : String} : (attach link tagId vm).run =
    match objectId tagId with
    | .error e => .done (.error (.rejected e))
    | .ok id =>
      match taggingRequest link .post ["tag-association", id] (some "action=attach")
        (some (objectBody vm)) with
      | .error e => .done (.error e)
      | .ok r => once r fun h => bodyOf .attach h >>= fun _ => .ok () := by
  unfold attach
  rw [run_check_bind]
  cases objectId tagId with
  | error e => rfl
  | ok id =>
    refine (run_lift_bind _ _).trans ?_
    simp only
    cases taggingRequest link .post ["tag-association", id] (some "action=attach")
      (some (objectBody vm)) with
    | error e => rfl
    | ok r => exact run_bind_of_once part_grant_run fun _ => rfl

/-- The word of attaching a tag. It is attached if and only if that was granted. -/
theorem goes_attach {tagId : String} {x : Except Directory.Error Unit}
    (told : Told (attach link tagId vm).run xs x) :
    Goes (Asks link c vm) [.attach] xs (x = .ok ()) ∧
      (x = .ok () ↔ ∃ y ∈ xs, Succeeds .attach y.2) := by
  rw [attach_run] at told
  cases valid : objectId tagId with
  | error e =>
    rw [valid] at told
    obtain ⟨rfl, rfl⟩ := told_done.mp told
    exact ⟨goes_unsent (by simp), by simp⟩
  | ok id =>
    rw [valid] at told
    simp only at told
    cases made : taggingRequest link .post ["tag-association", id] (some "action=attach")
      (some (objectBody vm)) with
    | error e =>
      rw [made] at told
      obtain ⟨rfl, rfl⟩ := told_done.mp told
      exact ⟨goes_unsent (by simp), by simp⟩
    | ok r =>
      rw [made] at told
      have read (a : Answer) : (bodyOf .attach (heard r a) >>= fun _ => .ok ()) = .ok () ↔
          Succeeds .attach a := by
        constructor
        · intro granted
          cases body : bodyOf .attach (heard r a) with
          | error e => rw [body] at granted; cases granted
          | ok b =>
            obtain ⟨status, rfl, low, high⟩ := bodyOf_eq_ok.mp body
            exact ⟨status, b, rfl, low, high, trivial⟩
        · rintro ⟨status, b, rfl, low, high, -⟩
          rw [bodyOf_eq_ok.mpr ⟨status, rfl, low, high⟩]
          rfl
      refine ⟨goes_once (fun x => x = .ok ()) ⟨id, made_request made⟩ told nofun
        fun a => (read a).mp, ?_⟩
      rcases told_once.mp told with ⟨e, -, rfl, rfl⟩ | ⟨-, a, rfl, rfl⟩
      · exact ⟨nofun, by simp⟩
      · rw [read]
        simp

end

end TierTagger.VCenter
