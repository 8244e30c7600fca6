import TierTagger.Proofs.VCenter.Agreement

/-!
# Listing the tags of a category

Which tags a server is understood to list, as a function of what it answers, and not of how it is asked.

- **Queries** (`Query`): a request in the tagging session with the way its answer is read
  (`Query.outcome`). Of queries that are made one after the other each comes after a history that is
  known beforehand, so their outcomes are a list of their own (`outcomes`).
- **The reference** (`Reference.category`, `Reference.tags`): the category is the listed id or the first
  category with the name, and its tags are read in the order of their ids. A list of queries ends with
  the first outcome at which there is no going on.
- **Catalogues** (`Catalogue`, `Catalogue.ShownBy`): a server whose answers come from fixed content.
- `tags_listed`: listing the tags equals the reference, whatever the server answers, and with a catalogue
  it is the same by the name of a category as by its id.
-/

namespace TierTagger.VCenter

open Directory (Endpoint Failure)
open Http (Answer Exchange Request)

/-! ## Queries -/

/-- A request in the tagging session and how its answer is read. -/
structure Query (α : Type) where
  endpoint : Endpoint
  decoder : Json.Decoder α
  method : Http.Method
  path : List String
  parameters : Option String
  body : Option String

variable {α β : Type}

namespace Query

/-- Which categories there are. -/
def categories : Query (List String) := ⟨.categories, idsDecoder, .get, ["category"], none, none⟩

/-- What the category with an id is. -/
def category (id : String) : Query Category :=
  ⟨.category, Category.decoder, .get, ["category", id], none, none⟩

/-- Which tags a category has. -/
def tagsOf (id : String) : Query (List String) :=
  ⟨.tagsOfCategory, idsDecoder, .post, ["tag"], some "action=list-tags-for-category", some (categoryBody id)⟩

/-- What the tag with an id is. -/
def tag (id : String) : Query Tag := ⟨.tag, tagDecoder, .get, ["tag", id], none, none⟩

/-- What an answer says. It says something if it is a success with a body that can be read. -/
def read (q : Query α) (r : Request) : Answer → Except Directory.Error α
  | .lost => .error (.failed (.http (.lost r.url)))
  | .response status body =>
    if 200 ≤ status ∧ status < 300 then
      match q.decoder.decode body with
      | .ok v => .ok v
      | .error _ => .error (.failed (.http .undecodable))
    else .error (.failed (.status q.endpoint status))

section
variable (link : Link)

/-- The request of a query, or why none is sent. -/
def request (q : Query α) : Except Directory.Error Request :=
  match taggingRequest link q.method q.path q.parameters q.body with
  | .error e => .error e
  | .ok r =>
    match fault? r with
    | some e => .error (.failed (.http e))
    | none => .ok r

/-- The requests that a query sends: one or none. -/
def sent (q : Query α) : List Request := (q.request link).toOption.toList

/-- Makes a query. -/
def make (q : Query α) : Attempt Directory.Error α :=
  asked link q.endpoint q.decoder q.method q.path q.parameters q.body

/-- What comes of a query after the requests `before`. -/
def outcome (network : Http.Network) (before : List Request) (q : Query α) : Except Directory.Error α :=
  match q.request link with
  | .error e => .error e
  | .ok r => q.read r (network before r)

end
end Query

section
variable (link : Link) (network : Http.Network)

/-- The requests of queries that are made one after the other. -/
def requests (qs : List (Query α)) : List Request := qs.flatMap (Query.sent link)

/-- What comes of queries that are made one after the other. -/
def outcomes (before : List Request) (qs : List (Query α)) : List (Except Directory.Error α) :=
  qs.mapIdx fun i q => q.outcome link network (before ++ requests link (qs.take i))

/-- Queries that are made up to and including the first one whose outcome ends them. -/
def upTo (ends : Except Directory.Error α → Bool) (before : List Request) (qs : List (Query α)) :
    List Request :=
  before ++ requests link (qs.take ((outcomes link network before qs).findIdx ends + 1))

end

/-! ## The reference -/

/-- Whether there is nothing to go on with. -/
def isFailure : Except Directory.Error α → Bool
  | .error _ => true
  | .ok _ => false

/-- Whether the search for a name is over: a category has it, or could not be read. -/
def settles (name : String) : Except Directory.Error Category → Bool
  | .error _ => true
  | .ok c => c.name = name

namespace Reference

variable (link : Link) (network : Http.Network) (before : List Request)

/-- The id of the category that a text stands for, and the requests after which it is known. A text that
is listed as an id stands for itself, any other text for the first category with that name. -/
def category (text : String) : Except Directory.Error String × List Request :=
  let after := before ++ Query.categories.sent link
  match Query.categories.outcome link network before with
  | .error e => (.error e, after)
  | .ok ids =>
    if text ∈ ids then (.ok text, after)
    else
      let queries := ids.map Query.category
      (match (outcomes link network after queries).find? (settles text) with
        | some c => c.map Category.id
        | none => .error (.categoryNotFound text),
        upTo link network (settles text) after queries)

/-- The tags of the category that a text stands for, one for each id that is listed, and the requests
after which they are known. -/
def tags (text : String) : Except Directory.Error (List Tag) × List Request :=
  match category link network before text with
  | (.error e, after) => (.error e, after)
  | (.ok id, found) =>
    let after := found ++ (Query.tagsOf id).sent link
    match (Query.tagsOf id).outcome link network found with
    | .error e => (.error e, after)
    | .ok ids =>
      let queries := ids.map Query.tag
      ((outcomes link network after queries).mapM fun t => t, upTo link network isFailure after queries)

end Reference

/-! ## Queries that are made -/

section
variable {link : Link} {network : Http.Network} {before : List Request}

/-- The result of an exchange after the requests `before`, and the requests after it. -/
def held (network : Http.Network) (before : List Request) (x : Exchange α) : α × List Request :=
  (x.run (Dialogue.replying network)).run before

/-- A computation goes on only after a success. -/
theorem held_bind {ε : Type} (x : Attempt ε α) (next : α → Attempt ε β) :
    held network before (x >>= next).run =
      match held network before x.run with
      | (.error e, after) => (.error e, after)
      | (.ok a, after) => held network after (next a).run := by
  unfold held
  rw [ExceptT.run_bind, Dialogue.run_bind, StateT.run_bind]
  obtain ⟨a, after⟩ := (x.run.run (Dialogue.replying network)).run before
  cases a <;> rfl

theorem read_eq (q : Query α) (r : Request) (a : Answer) :
    valueOf q.endpoint q.decoder (heard r a) = q.read r a := by
  cases a with
  | lost => rfl
  | response status body =>
    change ((granted q.endpoint (status, body) >>= decoded q.decoder).mapError Directory.Error.failed) = _
    unfold Query.read
    simp only
    by_cases success : 200 ≤ status ∧ status < 300
    · have given : granted q.endpoint (status, body) = .ok body := by simp [granted, isSuccess, success]
      rw [given, if_pos success]
      change (decoded q.decoder body).mapError Directory.Error.failed = _
      unfold decoded
      cases q.decoder.decode body <;> rfl
    · have refused : granted q.endpoint (status, body) = .error (.status q.endpoint status) := by
        simp [granted, isSuccess, success]
      rw [refused, if_neg success]
      rfl

/-- A query that is made comes to its outcome. -/
theorem held_make (q : Query α) : held network before (q.make link).run =
    (q.outcome link network before, before ++ q.sent link) := by
  unfold Query.make asked Query.outcome Query.sent Query.request
  rw [run_lift_bind]
  cases taggingRequest link q.method q.path q.parameters q.body with
  | error e => exact congrArg (Except.error e, ·) (List.append_nil before).symm
  | ok r =>
    simp only [part_fetch_run]
    unfold once
    cases fault? r with
    | some e => exact congrArg (Except.error (Directory.Error.failed (.http e)), ·) (List.append_nil before).symm
    | none => exact congrArg (·, before ++ [r]) (read_eq q r (network before r))

/-- What follows a query is told its outcome, if it is a success. -/
theorem held_make_bind (q : Query α) (next : α → Attempt Directory.Error β) :
    held network before (q.make link >>= next).run =
      match q.outcome link network before with
      | .error e => (.error e, before ++ q.sent link)
      | .ok a => held network (before ++ q.sent link) (next a).run := by
  rw [held_bind, held_make]
  cases q.outcome link network before <;> rfl

/-- The first of some queries is made at once, the others after it. -/
theorem outcomes_cons (q : Query α) (qs : List (Query α)) :
    outcomes link network before (q :: qs) =
      q.outcome link network before :: outcomes link network (before ++ q.sent link) qs := by
  simp [outcomes, List.mapIdx_cons, requests, List.append_assoc]

section
variable {ends : Except Directory.Error α → Bool} {q : Query α} {qs : List (Query α)}

/-- The first outcome ends the queries. -/
theorem upTo_ended (ended : ends (q.outcome link network before)) :
    upTo link network ends before (q :: qs) = before ++ q.sent link := by
  simp [upTo, outcomes_cons, List.findIdx_cons, ended, requests]

/-- The queries go on after the first outcome. -/
theorem upTo_open (open_ : ends (q.outcome link network before) = false) :
    upTo link network ends before (q :: qs) = upTo link network ends (before ++ q.sent link) qs := by
  simp [upTo, outcomes_cons, List.findIdx_cons, open_, requests, List.append_assoc]

end

/-! ## The operations -/

theorem categoryNamed_cons (name id : String) (ids : List String) :
    categoryNamed link name (id :: ids) = ((Query.category id).make link >>= fun c =>
      if c.name = name then pure c.id else categoryNamed link name ids) :=
  (bind_assoc _ _ _).symm

theorem categoryId_eq (text : String) :
    categoryId link text = (Query.categories.make link >>= fun ids =>
      if ids.contains text then pure text else categoryNamed link text ids) :=
  (bind_assoc _ _ _).symm

theorem tags_eq (text : String) :
    tags link text = (categoryId link text >>= fun id =>
      (Query.tagsOf id).make link >>= fun ids => ids.mapM (tag link)) :=
  bind_congr fun _ => (bind_assoc _ _ _).symm

/-- The search for a name ends with the first category that settles it. -/
theorem held_categoryNamed (name : String) (ids : List String) :
    held network before (categoryNamed link name ids).run =
      (match (outcomes link network before (ids.map Query.category)).find? (settles name) with
        | some c => c.map Category.id
        | none => .error (.categoryNotFound name),
        upTo link network (settles name) before (ids.map Query.category)) := by
  induction ids generalizing before with
  | nil => exact congrArg (Except.error (Directory.Error.categoryNotFound name), ·) (List.append_nil before).symm
  | cons id ids ih =>
    rw [categoryNamed_cons, held_make_bind, List.map_cons, outcomes_cons]
    cases first : (Query.category id).outcome link network before with
    | error e =>
      rw [upTo_ended (by rw [first]; rfl)]
      rfl
    | ok c =>
      by_cases same : c.name = name
      · have ended : settles name (.ok c) := by simpa [settles] using same
        rw [upTo_ended (by rw [first]; exact ended), List.find?_cons_of_pos ended]
        simp only [if_pos same]
        rfl
      · have goes_on : settles name (.ok c) = false := by simpa [settles] using same
        rw [upTo_open (by rw [first]; exact goes_on), List.find?_cons_of_neg (by simp [goes_on])]
        simp only [if_neg same]
        exact ih

/-- Reading tags ends with the first that cannot be read. -/
theorem held_mapM_tag (ids : List String) :
    held network before (ids.mapM (tag link)).run =
      ((outcomes link network before (ids.map Query.tag)).mapM fun t => t,
        upTo link network isFailure before (ids.map Query.tag)) := by
  induction ids generalizing before with
  | nil => exact congrArg (Except.ok [], ·) (List.append_nil before).symm
  | cons id ids ih =>
    have first_made : tag link id = (Query.tag id).make link := rfl
    rw [List.mapM_cons, first_made, held_make_bind, List.map_cons, outcomes_cons, List.mapM_cons]
    cases first : (Query.tag id).outcome link network before with
    | error e =>
      rw [upTo_ended (by rw [first]; rfl)]
      rfl
    | ok t =>
      rw [upTo_open (by rw [first]; rfl)]
      simp only
      rw [held_bind, ih]
      cases (outcomes link network (before ++ (Query.tag id).sent link) (ids.map Query.tag)).mapM fun t => t <;>
        rfl

theorem held_categoryId (text : String) :
    held network before (categoryId link text).run = Reference.category link network before text := by
  rw [categoryId_eq, held_make_bind]
  unfold Reference.category
  cases Query.categories.outcome link network before with
  | error e => rfl
  | ok ids =>
    by_cases listed : text ∈ ids
    · simp only [List.contains_iff_mem.mpr listed, listed, if_true]
      rfl
    · have absent : ids.contains text = false := by simpa using listed
      simp only [absent, listed, if_false]
      exact held_categoryNamed text ids

/-- Listing the tags of a category comes to what the reference says, with its requests. -/
theorem held_tags (text : String) :
    held network before (tags link text).run = Reference.tags link network before text := by
  rw [tags_eq, held_bind, held_categoryId]
  unfold Reference.tags
  obtain ⟨found, after⟩ := Reference.category link network before text
  cases found with
  | error e => rfl
  | ok id =>
    simp only
    rw [held_make_bind]
    cases (Query.tagsOf id).outcome link network after with
    | error e => rfl
    | ok ids => exact held_mapM_tag ids

/-! ## Outcomes -/

/-- The outcome of a query is a success if it can be sent and is answered with one. -/
theorem outcome_eq_ok {q : Query α} {v : α} : q.outcome link network before = .ok v ↔
    ∃ r status body, q.request link = .ok r ∧ network before r = .response status body ∧
      200 ≤ status ∧ status < 300 ∧ q.decoder.decode body = .ok v := by
  unfold Query.outcome
  cases made : q.request link with
  | error e =>
    constructor
    · intro read
      cases read
    · rintro ⟨r, status, body, unsent, -⟩
      cases unsent
  | ok r =>
    simp only [← read_eq]
    rw [valueOf_eq_ok]
    constructor
    · rintro ⟨status, body, answer, success⟩
      exact ⟨r, status, body, rfl, answer, success⟩
    · rintro ⟨r, status, body, ⟨⟩, answer, success⟩
      exact ⟨status, body, answer, success⟩

/-- Outcomes that do not depend on what was asked before. -/
theorem outcomes_eq_map {qs : List (Query α)} {value : Query α → Except Directory.Error α}
    (constant : ∀ before, ∀ q ∈ qs, q.outcome link network before = value q) :
    outcomes link network before qs = qs.map value := by
  induction qs generalizing before with
  | nil => rfl
  | cons q qs ih =>
    rw [outcomes_cons, constant before q List.mem_cons_self, List.map_cons,
      ih fun before q mem => constant before q (List.mem_cons_of_mem _ mem)]

/-- Outcomes come to values if they are those values, one for each. -/
theorem mapM_eq_ok {rs : List (Except Directory.Error α)} {vs : List α} :
    (rs.mapM fun r => r) = .ok vs ↔ rs = vs.map .ok := by
  induction rs generalizing vs with
  | nil => cases vs <;> simp [pure, Except.pure]
  | cons r rs ih =>
    rw [List.mapM_cons]
    cases r with
    | error e => cases vs <;> simp [bind, Except.bind]
    | ok v =>
      cases rest : rs.mapM fun r => r with
      | error e => cases vs <;> simp [bind, Except.bind, ← ih, rest]
      | ok ws => cases vs <;> simp [bind, Except.bind, pure, Except.pure, ← ih, rest]

/-- Outcomes that come to an error come to the first error among them. -/
theorem mapM_eq_error {rs : List (Except Directory.Error α)} {e : Directory.Error}
    (failed : (rs.mapM fun r => r) = .error e) : rs.find? isFailure = some (.error e) := by
  induction rs with
  | nil => cases failed
  | cons r rs ih =>
    rw [List.mapM_cons] at failed
    cases r with
    | error e' =>
      cases failed
      rfl
    | ok v =>
      rw [List.find?_cons_of_neg (by simp [isFailure])]
      cases rest : rs.mapM fun r => r with
      | error e' =>
        rw [rest] at failed
        cases failed
        exact ih rest
      | ok vs =>
        rw [rest] at failed
        cases failed

/-- The last request of `after` is that of a query that comes to the error, or the query is not sent. -/
def StopsAt (link : Link) (network : Http.Network) (e : Directory.Error) (after : List Request) : Prop :=
  ∃ (α : Type) (q : Query α) (earlier : List Request),
    after = earlier ++ q.sent link ∧ q.outcome link network earlier = .error e

/-- Queries that end with an error end with the query that comes to it. -/
theorem stopsAt_upTo {ends : Except Directory.Error α → Bool} {qs : List (Query α)} {e : Directory.Error}
    (found : (outcomes link network before qs).find? ends = some (.error e)) :
    StopsAt link network e (upTo link network ends before qs) := by
  induction qs generalizing before with
  | nil => cases found
  | cons q qs ih =>
    rw [outcomes_cons] at found
    cases ended : ends (q.outcome link network before) with
    | true =>
      rw [List.find?_cons_of_pos ended] at found
      exact ⟨α, q, before, upTo_ended ended, Option.some.inj found⟩
    | false =>
      rw [List.find?_cons_of_neg (by simp [ended])] at found
      rw [upTo_open ended]
      exact ih found

/-- The category is not known as soon as a query comes to an error, or if no category has the name. -/
theorem category_eq_error {text : String} {e : Directory.Error} {after : List Request}
    (failed : Reference.category link network before text = (.error e, after)) :
    e = .categoryNotFound text ∨ StopsAt link network e after := by
  unfold Reference.category at failed
  cases listed : Query.categories.outcome link network before with
  | error e' =>
    rw [listed] at failed
    cases failed
    exact .inr ⟨_, .categories, before, rfl, listed⟩
  | ok ids =>
    simp only [listed] at failed
    split at failed
    case isTrue => cases failed
    case isFalse =>
      obtain ⟨result, rfl⟩ := Prod.mk.inj failed
      split at result
      case h_1 c found =>
        cases c with
        | error e' =>
          cases result
          exact .inr (stopsAt_upTo found)
        | ok c => cases result
      case h_2 =>
        cases result
        exact .inl rfl

/-- Listing fails with the first query that comes to an error, or because no category has the name. -/
theorem tags_eq_error {text : String} {e : Directory.Error} {after : List Request}
    (failed : Reference.tags link network before text = (.error e, after)) :
    e = .categoryNotFound text ∨ StopsAt link network e after := by
  unfold Reference.tags at failed
  rcases known : Reference.category link network before text with ⟨_ | id, found⟩
  all_goals simp only [known] at failed
  case error =>
    cases failed
    exact category_eq_error known
  case ok =>
    cases ids : (Query.tagsOf id).outcome link network found with
    | error e' =>
      rw [ids] at failed
      cases failed
      exact .inr ⟨_, .tagsOf id, found, rfl, ids⟩
    | ok ids' =>
      simp only [ids] at failed
      obtain ⟨result, rfl⟩ := Prod.mk.inj failed
      exact .inr (stopsAt_upTo (mapM_eq_error result))

/-- The tags that are listed are read in the order of their ids, one for each. -/
theorem tags_eq_ok {text : String} {ts : List Tag}
    (listed : (Reference.tags link network before text).1 = .ok ts) :
    ∃ id found ids, Reference.category link network before text = (.ok id, found) ∧
      (Query.tagsOf id).outcome link network found = .ok ids ∧
      outcomes link network (found ++ (Query.tagsOf id).sent link) (ids.map Query.tag) = ts.map .ok := by
  unfold Reference.tags at listed
  rcases known : Reference.category link network before text with ⟨_ | id, found⟩
  all_goals simp only [known] at listed
  case error => cases listed
  case ok =>
    cases ids : (Query.tagsOf id).outcome link network found with
    | error e =>
      rw [ids] at listed
      cases listed
    | ok ids' =>
      rw [ids] at listed
      exact ⟨id, found, ids', rfl, ids, mapM_eq_ok.mp listed⟩

end

/-! ## Catalogues -/

/-- What there is in a tagging service. -/
structure Catalogue where
  /-- The ids of the categories in the order in which they are listed. -/
  ids : List String
  /-- The name of the category with an id. -/
  name : String → String
  /-- The ids of the tags of a category in the order in which they are listed. -/
  tagIds : String → List String
  /-- The tag with an id. -/
  tag : String → Tag

namespace Catalogue

/-- The tags of the category with an id. -/
def tags (c : Catalogue) (id : String) : List Tag := (c.tagIds id).map c.tag

/-- Every query about the content is answered with it, whatever was asked before. -/
structure ShownBy (c : Catalogue) (link : Link) (network : Http.Network) : Prop where
  categories : ∀ before, Query.categories.outcome link network before = .ok c.ids
  category : ∀ before, ∀ id ∈ c.ids,
    (Query.category id).outcome link network before = .ok ⟨id, c.name id⟩
  tagsOf : ∀ before, ∀ id ∈ c.ids, (Query.tagsOf id).outcome link network before = .ok (c.tagIds id)
  tag : ∀ before, ∀ id ∈ c.ids, ∀ t ∈ c.tagIds id,
    (Query.tag t).outcome link network before = .ok (c.tag t)

/-- A category that is known by its name: no other has it, and it is no id. -/
structure Named (c : Catalogue) (id : String) : Prop where
  listed : id ∈ c.ids
  alone : ∀ other ∈ c.ids, c.name other = c.name id → other = id
  no_id : c.name id ∉ c.ids

end Catalogue

section
variable {link : Link} {network : Http.Network} {before : List Request} {c : Catalogue} {id : String}

theorem Catalogue.ShownBy.category_outcomes (shown : c.ShownBy link network) :
    outcomes link network before (c.ids.map Query.category) =
      c.ids.map fun id => .ok ⟨id, c.name id⟩ := by
  have constant (before : List Request) (q : Query Category) (mem : q ∈ c.ids.map Query.category) :
      q.outcome link network before = .ok ⟨q.path.getLastD "", c.name (q.path.getLastD "")⟩ := by
    obtain ⟨id, listed, rfl⟩ := List.mem_map.mp mem
    exact shown.category before id listed
  rw [outcomes_eq_map constant, List.map_map]
  rfl

theorem Catalogue.ShownBy.tag_outcomes (shown : c.ShownBy link network) (listed : id ∈ c.ids) :
    outcomes link network before ((c.tagIds id).map Query.tag) = (c.tags id).map .ok := by
  have constant (before : List Request) (q : Query Tag) (mem : q ∈ (c.tagIds id).map Query.tag) :
      q.outcome link network before = .ok (c.tag (q.path.getLastD "")) := by
    obtain ⟨t, within, rfl⟩ := List.mem_map.mp mem
    exact shown.tag before id listed t within
  rw [outcomes_eq_map constant, Catalogue.tags, List.map_map, List.map_map]
  rfl

/-- A category is found by its id. -/
theorem Catalogue.ShownBy.category_of_id (shown : c.ShownBy link network) (listed : id ∈ c.ids) :
    (Reference.category link network before id).1 = .ok id := by
  unfold Reference.category
  rw [shown.categories]
  simp only [if_pos listed]

/-- A category is found by its name. -/
theorem Catalogue.ShownBy.category_of_name (shown : c.ShownBy link network) (named : c.Named id) :
    (Reference.category link network before (c.name id)).1 = .ok id := by
  unfold Reference.category
  rw [shown.categories]
  simp only [if_neg named.no_id, shown.category_outcomes]
  cases found : (c.ids.map fun id => Except.ok ⟨id, c.name id⟩).find? (settles (c.name id)) with
  | none =>
    have missed := List.find?_eq_none.mp found _ (List.mem_map_of_mem named.listed)
    exact absurd (by simp [settles]) missed
  | some r =>
    obtain ⟨other, mem, rfl⟩ := List.mem_map.mp (List.mem_of_find?_eq_some found)
    have same : c.name other = c.name id := by simpa [settles] using List.find?_some found
    rw [named.alone other mem same]
    rfl

/-- With a category at hand its tags are listed. -/
theorem Catalogue.ShownBy.tags_of_category (shown : c.ShownBy link network) (listed : id ∈ c.ids) {text : String}
    (found : (Reference.category link network before text).1 = .ok id) :
    (Reference.tags link network before text).1 = .ok (c.tags id) := by
  unfold Reference.tags
  rcases known : Reference.category link network before text with ⟨r, after⟩
  obtain rfl : r = .ok id := by rw [known] at found; exact found
  simp only [shown.tagsOf after id listed, shown.tag_outcomes listed]
  exact mapM_eq_ok.mpr rfl

end

/-! ## Listing -/

/-- What listing the tags of a category comes to with a server. -/
structure Lists (link : Link) (network : Http.Network) : Prop where
  /-- It is what the reference says, after the same requests. -/
  reference : ∀ before text,
    held network before (tags link text).run = Reference.tags link network before text
  /-- The outcome of a query is a value if it is sent and granted with a body that is read as the value. -/
  granted : ∀ {α : Type} (q : Query α) before v, q.outcome link network before = .ok v ↔
    ∃ r status body, q.request link = .ok r ∧ network before r = .response status body ∧
      200 ≤ status ∧ status < 300 ∧ q.decoder.decode body = .ok v
  /-- There is one tag for each id that is listed for the category, as it was answered. -/
  each : ∀ before text ts, (held network before (tags link text).run).1 = .ok ts →
    ∃ id found ids, Reference.category link network before text = (.ok id, found) ∧
      (Query.tagsOf id).outcome link network found = .ok ids ∧
      outcomes link network (found ++ (Query.tagsOf id).sent link) (ids.map Query.tag) = ts.map .ok
  /-- An error is that of the last query, after which there is no request, or no category has the name. -/
  stops : ∀ before text e after, held network before (tags link text).run = (.error e, after) →
    e = .categoryNotFound text ∨ StopsAt link network e after
  /-- By the name of a category its tags are listed as they are by its id. -/
  either : ∀ c : Catalogue, c.ShownBy link network → ∀ id, c.Named id → ∀ before before',
    (held network before (tags link (c.name id)).run).1 = .ok (c.tags id) ∧
    (held network before' (tags link id).run).1 = .ok (c.tags id)

/-- **Listing the tags of a category equals the reference**, whatever the server answers. -/
theorem tags_listed (link : Link) (network : Http.Network) : Lists link network := by
  constructor
  case reference => exact fun before text => held_tags text
  case granted => exact fun q before v => outcome_eq_ok
  case each =>
    intro before text ts listed
    rw [held_tags] at listed
    exact tags_eq_ok listed
  case stops =>
    intro before text e after failed
    rw [held_tags] at failed
    exact tags_eq_error failed
  case either =>
    intro c shown id named before before'
    rw [held_tags, held_tags]
    exact ⟨shown.tags_of_category named.listed (shown.category_of_name named),
      shown.tags_of_category named.listed (shown.category_of_id named.listed)⟩

/-- The categories and tags of the test server. -/
def stockedCatalogue : Catalogue where
  ids := ["c1", "c2"]
  name id := (stocked.categories.lookup id).getD ""
  tagIds id := (stocked.tags.filter (·.categoryId = id)).map (·.id)
  tag id := (stocked.tags.find? (·.id = id)).getD default

/-- Where the test server is. -/
def stockedLink : Link := ⟨testServer.base, "token", "token"⟩

/-- The tags of the CPU category are listed by its name and by its id. -/
theorem tags_listed_stocked :
    stockedCatalogue.ShownBy stockedLink (testServer.answering stocked) ∧ stockedCatalogue.Named "c2" ∧
    (held (testServer.answering stocked) [] (tags stockedLink "config.hardware.numCPU").run).1 =
      .ok [⟨"t2", "2", "c2"⟩, ⟨"t3", "3", "c2"⟩] ∧
    (held (testServer.answering stocked) [] (tags stockedLink "c2").run).1 =
      .ok [⟨"t2", "2", "c2"⟩, ⟨"t3", "3", "c2"⟩] := by
  have shown : stockedCatalogue.ShownBy stockedLink (testServer.answering stocked) := by
    constructor
    case categories =>
      intro before
      change Query.categories.outcome stockedLink (testServer.answering stocked) [] = _
      decide +kernel
    case category =>
      intro before
      change ∀ id ∈ stockedCatalogue.ids,
        (Query.category id).outcome stockedLink (testServer.answering stocked) [] = _
      decide +kernel
    case tagsOf =>
      intro before
      change ∀ id ∈ stockedCatalogue.ids,
        (Query.tagsOf id).outcome stockedLink (testServer.answering stocked) [] = _
      decide +kernel
    case tag =>
      intro before
      change ∀ id ∈ stockedCatalogue.ids, ∀ t ∈ stockedCatalogue.tagIds id,
        (Query.tag t).outcome stockedLink (testServer.answering stocked) [] = _
      decide +kernel
  have named : stockedCatalogue.Named "c2" := by constructor <;> decide +kernel
  have called : stockedCatalogue.name "c2" = "config.hardware.numCPU" := by decide +kernel
  have stock : stockedCatalogue.tags "c2" = [⟨"t2", "2", "c2"⟩, ⟨"t3", "3", "c2"⟩] := by decide +kernel
  obtain ⟨by_name, by_id⟩ := (tags_listed _ _).either stockedCatalogue shown "c2" named [] []
  rw [called, stock] at by_name
  rw [stock] at by_id
  exact ⟨shown, named, by_name, by_id⟩

end TierTagger.VCenter
