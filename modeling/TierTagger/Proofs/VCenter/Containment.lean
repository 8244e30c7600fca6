import TierTagger.Proofs.Url.Segments
import TierTagger.Proofs.VCenter.Operations

/-!
# Objects and their addresses

A machine that is asked for and a tag that is attached are addressed by their ids, which come from
outside.

- **Addresses** (`Object.url`, `Object.place`): the URL of an object and that of its place, which is built
  from the fixed segments alone.
- **Names** (`Names`): the path of the URL is that of the place and one segment that stands for the id.
- `objects_contained`: that is so for the ids without tabs and line ends, and for no others that are
  accepted. Objects with such ids have different paths.
- `breaks_collide`: other ids share the URL of an object, or that of the place above.
-/

namespace TierTagger.VCenter

open Directory (Refusal)
open Http (Answer Request)
open Url (IsSegment Unbroken appendSegment segmentText withoutBreaks)

/-! ## Addresses -/

/-- What is addressed by an id from outside. -/
inductive Object where
  | machine (id : String)
  | tag (id : String)
  deriving DecidableEq, Repr

namespace Object

/-- The id of an object. -/
def id : Object → String
  | machine id => id
  | tag id => id

/-- The segments in front of the id. -/
def segments : Object → List String
  | machine _ => ["api", "vcenter", "vm"]
  | tag _ => taggingPath ["tag-association"]

/-- The query of the requests about an object. -/
def query : Object → Option String
  | machine _ => none
  | tag _ => some "action=attach"

/-- Where all objects of its kind are. -/
def place (base : String) (o : Object) : Except Refusal Url := address base o.segments none

/-- Where requests about an object are sent. -/
def url (base : String) (o : Object) : Except Refusal Url :=
  (address base (o.segments ++ [o.id]) o.query).map fun u => (Request.ofUrl .get u).url

end Object

/-- An id that is not refused. -/
def Accepted (id : String) : Prop := objectId id = .ok id

instance (id : String) : Decidable (Accepted id) :=
  inferInstanceAs (Decidable (objectId id = .ok id))

/-- The path of a URL is that of a place and one more segment, which stands for the id. -/
def Names (place : Url) (id : String) (url : Url) : Prop :=
  ∃ segment, url.path.render = place.path.render ++ "/" ++ segment ∧ '/' ∉ segment.toList ∧
    Request.decoded? segment = some id

theorem accepted_iff {id : String} : Accepted id ↔ id ≠ "" ∧ id ≠ "." ∧ id ≠ ".." := by
  unfold Accepted objectId
  by_cases refused : id = "" ∨ id = "." ∨ id = ".."
  · rw [if_pos refused]
    simp only [reduceCtorEq, false_iff]
    tauto
  · rw [if_neg refused]
    simpa only [not_or, true_iff] using refused

/-! ## Paths -/

/-- A base address with a path: the segments in front of all others. -/
structure Based (base : String) (root : Url) (front : List String) : Prop where
  parsed : Url.parse base = .ok root
  special : Url.isSpecial root.scheme
  path : ∃ segments, root.path = .rooted segments ∧
    front = if Url.dropEmptyEnd segments = [""] then [] else Url.dropEmptyEnd segments

theorem exists_based {base : String} {root : Url} (parsed : Url.parse base = .ok root)
    (web : root.scheme = "http" ∨ root.scheme = "https") : ∃ front, Based base root front := by
  have special : Url.isSpecial root.scheme := by
    rcases web with same | same <;> rw [same] <;> decide
  obtain ⟨segments, path⟩ := Url.parse_rooted parsed special
  exact ⟨_, parsed, special, segments, path, rfl⟩

/-- A segment that is written as it is. -/
def Plain (s : String) : Prop := IsSegment s ∧ segmentText s = s

instance (s : String) : Decidable (Plain s) :=
  inferInstanceAs (Decidable (IsSegment s ∧ segmentText s = s))

/-- The fixed segments of an address are written as they are. -/
theorem foldl_plain {first : String} {rest : List String} (plain : ∀ s ∈ first :: rest, Plain s)
    (segments : List String) : (first :: rest).foldl (appendSegment true) segments =
      (if segments = [""] then [] else segments) ++ first :: rest := by
  obtain ⟨⟨is_segment, written⟩, others⟩ := List.forall_mem_cons.mp plain
  have more : (if segments = [""] then [] else segments) ++ [first] ≠ [""] := by
    intro slash
    have last := congrArg List.getLast? slash
    simp only [List.getLast?_concat, List.getLast?_singleton, Option.some.injEq] at last
    exact is_segment.ne_empty last
  have same : rest.map segmentText = rest :=
    (List.map_congr_left fun s mem => (others s mem).2).trans (List.map_id rest)
  rw [List.foldl_cons, Url.appendSegment_eq is_segment, written,
    Url.foldl_appendSegment (fun s mem => (others s mem).1) more, same]
  simp

theorem Object.segments_plain (o : Object) : ∃ first rest, o.segments = first :: rest ∧
    ∀ s ∈ first :: rest, Plain s := by
  cases o with
  | machine id => exact ⟨"api", ["vcenter", "vm"], rfl, by decide⟩
  | tag id => exact ⟨"api", ["cis", "tagging", "tag-association"], rfl, by decide⟩

section
variable {base : String} {root : Url} {front : List String} (based : Based base root front)
include based

/-- An address of fixed segments. -/
theorem Based.address_plain {segments : List String} (query : Option String)
    (plain : ∃ first rest, segments = first :: rest ∧ ∀ s ∈ first :: rest, Plain s) :
    address base segments query =
      .ok { root with path := .rooted (front ++ segments), query := query } := by
  obtain ⟨first, rest, rfl, written⟩ := plain
  obtain ⟨path, at_path, rfl⟩ := based.path
  have special : Url.isSpecial root.scheme = true := based.special
  simp only [address, based.parsed, Url.extend, at_path, special, foldl_plain written]

/-- An address of fixed segments and one more. -/
theorem Based.address_concat {segments : List String} (id : String) (query : Option String)
    (plain : ∃ first rest, segments = first :: rest ∧ ∀ s ∈ first :: rest, Plain s) :
    address base (segments ++ [id]) query =
      .ok { root with
        path := .rooted (appendSegment true (front ++ segments) id)
        query := query } := by
  obtain ⟨first, rest, rfl, written⟩ := plain
  obtain ⟨path, at_path, rfl⟩ := based.path
  have special : Url.isSpecial root.scheme = true := based.special
  simp only [address, based.parsed, Url.extend, at_path, special, List.foldl_append,
    foldl_plain written, List.foldl_cons, List.foldl_nil]

theorem Based.place_eq (o : Object) : o.place base =
    .ok { root with path := .rooted (front ++ o.segments), query := none } :=
  based.address_plain none o.segments_plain

theorem Based.address_eq (o : Object) : address base (o.segments ++ [o.id]) o.query =
    .ok { root with
      path := .rooted (appendSegment true (front ++ o.segments) o.id)
      query := o.query } :=
  based.address_concat o.id o.query o.segments_plain

omit based in
theorem ofUrl_path (method : Http.Method) (u : Url) : (Request.ofUrl method u).url.path = u.path := by
  unfold Request.ofUrl
  split <;> (try split) <;> rfl

theorem Based.exists_url (o : Object) : ∃ url, o.url base = .ok url ∧
    url.path = .rooted (appendSegment true (front ++ o.segments) o.id) := by
  unfold Object.url
  rw [based.address_eq o]
  exact ⟨_, rfl, ofUrl_path .get _⟩

end

/-! ## Names -/

section
variable {front : List String} {o : Object} {place url : Url}

theorem front_ne_slash (front : List String) (o : Object) : front ++ o.segments ≠ [""] := by
  intro slash
  have last := congrArg List.getLast? slash
  cases o <;> simp [Object.segments, taggingPath] at last

/-- The place has a name of its own at its end. -/
theorem exists_last (front : List String) (o : Object) : ∃ outer last,
    front ++ o.segments = outer ++ [last] ∧ last ≠ "" := by
  cases o with
  | machine id => exact ⟨front ++ ["api", "vcenter"], "vm", by simp [Object.segments], by decide⟩
  | tag id =>
    exact ⟨front ++ ["api", "cis", "tagging"], "tag-association", by simp [Object.segments, taggingPath],
      by decide⟩

/-- An accepted id names its object just if nothing of it is left out. -/
theorem names_iff (accepted : Accepted o.id) (at_place : place.path = .rooted (front ++ o.segments))
    (at_url : url.path = .rooted (appendSegment true (front ++ o.segments) o.id)) :
    Names place o.id url ↔ Unbroken o.id := by
  obtain ⟨not_empty, not_dot, not_dots⟩ := accepted_iff.mp accepted
  rw [Url.appendSegment_kept not_dot not_dots (front_ne_slash front o)] at at_url
  rw [← Url.withoutBreaks_eq_self]
  unfold Names
  rw [at_place, at_url]
  constructor
  · rintro ⟨segment, same, -, stands⟩
    split_ifs at same with dots dot
    · -- The path ends where the one of the place has its last segment.
      obtain ⟨outer, last, ends, named⟩ := exists_last front o
      rw [ends, List.dropLast_concat, Url.render_concat, Url.render_concat] at same
      have size := congrArg String.length same
      have some_size : last.length ≠ 0 := by simpa using named
      simp only [String.length_append, String.length_empty] at size
      omega
    · rw [Url.render_concat, String.append_assoc, String.append_assoc] at same
      have nothing : segment = "" := by simpa using same.symm
      have empty : Request.decoded? "" = some "" := Url.decoded?_segmentText ""
      rw [nothing, empty] at stands
      exact absurd (Option.some.inj stands).symm not_empty
    · rw [Url.render_concat] at same
      have written : segmentText (withoutBreaks o.id) = segment := by simpa using same
      rw [← written, Url.decoded?_segmentText] at stands
      exact Option.some.inj stands
  · intro unbroken
    rw [unbroken, if_neg not_dots, if_neg not_dot]
    exact ⟨segmentText o.id, Url.render_concat _ _, Url.slash_notMem_segmentText _,
      Url.decoded?_segmentText _⟩

/-- A path that names objects names only one. -/
theorem names_unique {o' : Object} {place' url' : Url} (at_place : place.path = .rooted (front ++ o.segments))
    (at_place' : place'.path = .rooted (front ++ o'.segments)) (names : Names place o.id url)
    (names' : Names place' o'.id url') (same : url.path.render = url'.path.render) : o = o' := by
  obtain ⟨segment, path, -, stands⟩ := names
  obtain ⟨segment', path', -, stands'⟩ := names'
  have split (o : Object) : (Url.Path.rooted (front ++ o.segments)).render =
      (Url.Path.rooted front).render ++ (Url.Path.rooted o.segments).render := by
    simp [Url.Path.render, String.join_append]
  rw [path, path', at_place, at_place', split, split] at same
  simp only [String.append_assoc, String.append_right_inj] at same
  have machines (id : String) : (Url.Path.rooted (Object.machine id).segments).render = "/api/vcenter/vm" :=
    rfl
  have tags (id : String) : (Url.Path.rooted (Object.tag id).segments).render =
      "/api/cis/tagging/tag-association" := rfl
  have equal (ended : segment = segment') : o.id = o'.id := by
    rw [ended, stands'] at stands
    exact (Option.some.inj stands).symm
  cases o with
  | machine id =>
    cases o' with
    | machine id' =>
      rw [machines, machines] at same
      exact congrArg Object.machine (equal (by simpa using same))
    | tag id' =>
      rw [machines, tags] at same
      have chars := congrArg String.toList same
      simp at chars
  | tag id =>
    cases o' with
    | machine id' =>
      rw [machines, tags] at same
      have chars := congrArg String.toList same
      simp at chars
    | tag id' =>
      rw [tags, tags] at same
      exact congrArg Object.tag (equal (by simpa using same))

end

/-! ## Requests -/

/-- Where the objects behind a link are. -/
structure Contained (link : Link) : Prop where
  /-- A machine is asked for with one request, to its address. -/
  machine : ∀ vm : ObjectRef, Accepted vm.value → ∃ r, (hardware link vm).run = once r machineOf ∧
    (Object.machine vm.value).url link.base = .ok r.url
  /-- A tag is attached with one request, to its address. -/
  tag : ∀ (id : String) (vm : ObjectRef), Accepted id → ∃ r,
    (attach link id vm).run = (once r fun h => bodyOf .attach h >>= fun _ => .ok ()) ∧
      (Object.tag id).url link.base = .ok r.url
  /-- The address is one segment behind the place, and the segment stands for the id, just if the id has
  no tab and no end of line. -/
  names : ∀ o : Object, Accepted o.id → ∃ place url, o.place link.base = .ok place ∧
    o.url link.base = .ok url ∧ (Names place o.id url ↔ Unbroken o.id)
  /-- Different objects with such ids have different paths. -/
  apart : ∀ (o o' : Object) (url url' : Url), Accepted o.id → Accepted o'.id → Unbroken o.id →
    Unbroken o'.id → o.url link.base = .ok url → o'.url link.base = .ok url' →
    url.path.render = url'.path.render → o = o'

/-- **No id leads away from its place**, whatever the base address, if nothing of it is left out. -/
theorem objects_contained {link : Link} {root : Url} (parsed : Url.parse link.base = .ok root)
    (web : root.scheme = "http" ∨ root.scheme = "https") : Contained link := by
  obtain ⟨front, based⟩ := exists_based parsed web
  have made (o : Object) (token : String) (method : Http.Method) (body : Option String) :
      ∃ r, request link token method (o.segments ++ [o.id]) o.query body = .ok r ∧
        o.url link.base = .ok r.url := by
    unfold request Object.url
    rw [based.address_eq o]
    exact ⟨_, rfl, congrArg Except.ok ((ofUrl_url .get _).trans (ofUrl_url method _).symm)⟩
  constructor
  case machine =>
    intro vm accepted
    obtain ⟨r, asks, at_url⟩ := made (.machine vm.value) link.inventory .get none
    have valid : objectId vm.value = .ok vm.value := accepted
    have asks' : request link link.inventory .get (machinePath vm.value) none none = .ok r := asks
    refine ⟨r, ?_, at_url⟩
    rw [hardware_run, valid]
    simp only [asks']
  case tag =>
    intro id vm accepted
    obtain ⟨r, asks, at_url⟩ := made (.tag id) link.tagging .post (some (objectBody vm))
    have valid : objectId id = .ok id := accepted
    have asks' : taggingRequest link .post ["tag-association", id] (some "action=attach")
      (some (objectBody vm)) = .ok r := asks
    refine ⟨r, ?_, at_url⟩
    rw [attach_run, valid]
    simp only [asks']
  case names =>
    intro o accepted
    obtain ⟨url, at_url, path⟩ := based.exists_url o
    exact ⟨_, url, based.place_eq o, at_url, names_iff accepted rfl path⟩
  case apart =>
    intro o o' url url' accepted accepted' unbroken unbroken' at_url at_url' same
    have names {o : Object} {url : Url} (accepted : Accepted o.id) (unbroken : Unbroken o.id)
        (at_url : o.url link.base = .ok url) :
        ∃ place : Url, place.path = .rooted (front ++ o.segments) ∧ Names place o.id url := by
      obtain ⟨u, at_u, path⟩ := based.exists_url o
      cases at_url.symm.trans at_u
      exact ⟨{ root with path := .rooted (front ++ o.segments) }, rfl,
        (names_iff accepted rfl path).mpr unbroken⟩
    obtain ⟨place, at_place, names_o⟩ := names accepted unbroken at_url
    obtain ⟨place', at_place', names_o'⟩ := names accepted' unbroken' at_url'
    exact names_unique at_place at_place' names_o names_o' same

/-- Where a test server is. -/
def testLink : Link := ⟨"http://vc/sdk/?old#top", "inventory", "tagging"⟩

/-- Slashes, dots and signs of an id stay in its segment. -/
theorem objects_contained_sdk : (∃ root, Url.parse testLink.base = .ok root ∧ root.scheme = "http") ∧
    Accepted "../vm-4 2?x=1%" ∧ Unbroken "../vm-4 2?x=1%" ∧ Contained testLink ∧
    ((Object.machine "../vm-4 2?x=1%").url testLink.base).map Url.render =
      .ok "http://vc/sdk/api/vcenter/vm/..%2Fvm-4%202%3Fx=1%25#top" := by
  have parsed : ∃ root, Url.parse testLink.base = .ok root ∧ root.scheme = "http" :=
    ⟨⟨"http", some ⟨"", "", .domain "vc", none⟩, .rooted ["sdk", ""], some "old", some "top"⟩,
      by decide +kernel, rfl⟩
  obtain ⟨root, at_root, web⟩ := parsed
  exact ⟨⟨root, at_root, web⟩, by decide, by decide, objects_contained at_root (.inl web), by decide +kernel⟩

/-- An id with a tab shares the URL of another machine, and one with a tab between two points reaches
the place above. -/
theorem breaks_collide : Accepted "vm-4\t2" ∧ Accepted "vm-42" ∧
    (Object.machine "vm-4\t2").url testLink.base = (Object.machine "vm-42").url testLink.base ∧
    Accepted ".\t." ∧ ((Object.machine ".\t.").url testLink.base).map (·.path.render) =
      .ok "/sdk/api/vcenter/" := by
  decide +kernel

end TierTagger.VCenter
