import TierTagger.Proofs.VCenter.Containment

/-!
# No id leads away

All that is asked of a directory is below one of two places of the base address: the inventory and the
tagging service. The ids in the addresses come from alarms and from the server, and those of categories
and tags are used as they come.

- **Items** (`Item`): what the requests of a directory are about, with the fixed segments and the query
  of its address.
- **Confinement** (`Confined`): the URL of an item differs from the base address in its path and its
  query only. The query is the fixed one, the path begins with that of the service, and the id adds no
  slash to it.
- `ids_confined`: that is so for all ids, and all requests of the operations are about items.

A dot segment is the reason why the fixed segments end with one that belongs to no service: the place
above it is still the one of the service.
-/

namespace TierTagger.VCenter

open Dialogue (Told)
open Directory (Endpoint Refusal)
open Http (Answer Request)
open Url (appendSegment segmentText withoutBreaks)

/-! ## Items -/

/-- What a request of a directory is about. -/
inductive Item where
  | machine (id : String)
  | categories
  | category (id : String)
  | tagsOfCategory
  | tag (id : String)
  | association (id : String)
  deriving DecidableEq, Repr

namespace Item

/-- The service it belongs to. -/
def service : Item → List String
  | machine _ => ["api", "vcenter"]
  | categories | category _ | tagsOfCategory | tag _ | association _ => taggingPath []

/-- The name of its kind in the service. -/
def kind : Item → String
  | machine _ => "vm"
  | categories | category _ => "category"
  | tagsOfCategory | tag _ => "tag"
  | association _ => "tag-association"

/-- The id in its address. -/
def id? : Item → Option String
  | machine id | category id | tag id | association id => some id
  | categories | tagsOfCategory => none

/-- The query of its address. -/
def query : Item → Option String
  | tagsOfCategory => some "action=list-tags-for-category"
  | association _ => some "action=attach"
  | machine _ | categories | category _ | tag _ => none

/-- The fixed segments of its address. -/
def place (i : Item) : List String := i.service ++ [i.kind]

/-- The segments of its address. -/
def segments (i : Item) : List String := i.place ++ i.id?.toList

/-- A request that is sent to its address. -/
def Asked (base : String) (i : Item) (r : Request) : Prop :=
  ∃ url, address base i.segments i.query = .ok url ∧ r.url = (Request.ofUrl r.method url).url

theorem service_plain (i : Item) : ∃ first rest, i.service = first :: rest ∧
    ∀ s ∈ first :: rest, Plain s := by
  cases i with
  | machine id => exact ⟨"api", ["vcenter"], rfl, by decide⟩
  | categories | category | tagsOfCategory | tag | association =>
    exact ⟨"api", ["cis", "tagging"], rfl, by decide⟩

theorem kind_plain (i : Item) : Plain i.kind := by
  have all : ∀ kind ∈ ["vm", "category", "tag", "tag-association"], Plain kind := by decide
  exact all i.kind (by cases i <;> simp [kind])

theorem place_plain (i : Item) : ∃ first rest, i.place = first :: rest ∧
    ∀ s ∈ first :: rest, Plain s := by
  obtain ⟨first, rest, same, plain⟩ := i.service_plain
  refine ⟨first, rest ++ [i.kind], by rw [place, same, List.cons_append], ?_⟩
  rw [← List.cons_append]
  exact List.forall_mem_append.mpr ⟨plain, by simpa using i.kind_plain⟩

end Item

/-! ## Confinement -/

/-- A URL that differs from the base address only as it has to: `service` is the URL of the service and
`place` the one of the fixed segments. -/
structure Confined (root service place url : Url) (i : Item) : Prop where
  scheme_eq : url.scheme = root.scheme
  authority_eq : url.authority = root.authority
  query_eq : url.query = i.query
  fragment_eq : url.fragment = root.fragment
  /-- The path begins with that of the service. -/
  below : service.path.render.toList <+: url.path.render.toList
  /-- The path is the fixed one, or it ends with what the id comes to, in the service or in the place. -/
  ends : url.path.render = place.path.render ∨ ∃ piece, '/' ∉ piece.toList ∧
    (url.path.render = place.path.render ++ "/" ++ piece ∨
      url.path.render = service.path.render ++ "/" ++ piece)
  /-- Apart from the slash in front of it, an id adds none. -/
  slashes : url.path.render.toList.count '/' ≤
    place.path.render.toList.count '/' + i.id?.toList.length

variable {front : List String} {i : Item}

/-- What an id does to the path of its place: nothing, or it puts a piece behind it, or behind the place
above. -/
theorem appendSegment_place (front : List String) (i : Item) (id : String) :
    appendSegment true (front ++ i.place) id = front ++ i.place ∨
      ∃ piece, '/' ∉ piece.toList ∧
        (appendSegment true (front ++ i.place) id = front ++ i.place ++ [piece] ∨
          appendSegment true (front ++ i.place) id = front ++ i.service ++ [piece]) := by
  by_cases dot : id = "." ∨ id = ".."
  · left
    unfold appendSegment
    rw [if_pos dot]
  right
  obtain ⟨not_dot, not_dots⟩ := not_or.mp dot
  have more : front ++ i.place ≠ [""] := by
    intro slash
    have last := congrArg List.getLast? slash
    rw [Item.place, ← List.append_assoc, List.getLast?_concat] at last
    exact i.kind_plain.1.ne_empty (Option.some.inj last)
  have above : (front ++ i.place).dropLast = front ++ i.service := by
    rw [Item.place, ← List.append_assoc, List.dropLast_concat]
  rw [Url.appendSegment_kept not_dot not_dots more, above]
  split_ifs
  · exact ⟨"", by decide, .inr rfl⟩
  · exact ⟨"", by decide, .inl rfl⟩
  · exact ⟨segmentText (withoutBreaks id), Url.slash_notMem_segmentText _, .inl rfl⟩

/-- The slashes of a path with one more segment. -/
theorem count_slash_concat {segments : List String} {piece : String} (single : '/' ∉ piece.toList) :
    (Url.Path.rooted (segments ++ [piece])).render.toList.count '/' =
      (Url.Path.rooted segments).render.toList.count '/' + 1 := by
  rw [Url.render_concat, String.toList_append, String.toList_append, List.count_append,
    List.count_append, List.count_eq_zero.mpr single]
  rfl

theorem prefix_concat (segments : List String) (piece : String) :
    (Url.Path.rooted segments).render.toList <+:
      (Url.Path.rooted (segments ++ [piece])).render.toList := by
  rw [Url.render_concat, String.append_assoc, String.toList_append]
  exact List.prefix_append _ _

/-- The URL of an item is confined if its path is that of the place, or of the place and an id. -/
theorem confined_of_path (root : Url) {segments : List String}
    (path : segments = front ++ i.place ∧ i.id? = none ∨
      ∃ id, segments = appendSegment true (front ++ i.place) id ∧ i.id? = some id) :
    Confined root { root with path := .rooted (front ++ i.service), query := none }
      { root with path := .rooted (front ++ i.place), query := none }
      { root with path := .rooted segments, query := i.query } i := by
  have kind : '/' ∉ i.kind.toList := i.kind_plain.2 ▸ Url.slash_notMem_segmentText i.kind
  have whole : front ++ i.place = front ++ i.service ++ [i.kind] := by
    rw [Item.place, List.append_assoc]
  have at_place : (Url.Path.rooted (front ++ i.service)).render.toList <+:
      (Url.Path.rooted (front ++ i.place)).render.toList := whole ▸ prefix_concat _ _
  have more : (Url.Path.rooted (front ++ i.place)).render.toList.count '/' =
      (Url.Path.rooted (front ++ i.service)).render.toList.count '/' + 1 :=
    whole ▸ count_slash_concat kind
  have shape : segments = front ++ i.place ∨ i.id?.toList.length = 1 ∧
      ∃ piece, '/' ∉ piece.toList ∧
        (segments = front ++ i.place ++ [piece] ∨ segments = front ++ i.service ++ [piece]) := by
    rcases path with ⟨path, -⟩ | ⟨id, rfl, named⟩
    · exact .inl path
    · rw [named]
      rcases appendSegment_place front i id with nothing | ⟨piece, single, behind⟩
      · exact .inl nothing
      · exact .inr ⟨rfl, piece, single, behind⟩
  refine ⟨rfl, rfl, rfl, rfl, ?below, ?ends, ?slashes⟩
  case below =>
    rcases shape with rfl | ⟨-, piece, -, rfl | rfl⟩
    · exact at_place
    · exact at_place.trans (prefix_concat _ _)
    · exact prefix_concat _ _
  case ends =>
    rcases shape with rfl | ⟨-, piece, single, rfl | rfl⟩
    · exact .inl rfl
    · exact .inr ⟨piece, single, .inl (Url.render_concat _ _)⟩
    · exact .inr ⟨piece, single, .inr (Url.render_concat _ _)⟩
  case slashes =>
    rcases shape with rfl | ⟨one, piece, single, rfl | rfl⟩ <;> simp only
    · exact Nat.le_add_right _ _
    · exact Nat.le_of_eq (by rw [count_slash_concat single, one])
    · rw [count_slash_concat single, one, more]
      omega

/-! ## Requests -/

section
variable {link : Link} {c : Connection} {vm : ObjectRef} {xs : List (Request × Answer)}

/-- All requests of a directory but logins and logouts are about items. -/
theorem asked_of_asks {k : Endpoint} {r : Request} (asks : Asks link c vm k r)
    (inside : k ≠ .login ∧ k ≠ .logout) : ∃ i : Item, i.Asked link.base r := by
  have of_made {token : String} {method : Http.Method} {body : Option String} (i : Item)
      (made : Made link.base token method i.segments i.query body r) : i.Asked link.base r := by
    obtain ⟨rfl, url, -, -⟩ := made
    exact url
  cases k with
  | login => exact absurd rfl inside.1
  | logout => exact absurd rfl inside.2
  | machine => exact ⟨.machine vm.value, of_made (.machine vm.value) asks⟩
  | categories => exact ⟨.categories, of_made .categories asks⟩
  | category =>
    obtain ⟨id, made⟩ := asks
    exact ⟨.category id, of_made (.category id) made⟩
  | tagsOfCategory =>
    obtain ⟨id, made⟩ := asks
    exact ⟨.tagsOfCategory, of_made .tagsOfCategory made⟩
  | tag =>
    obtain ⟨id, made⟩ := asks
    exact ⟨.tag id, of_made (.tag id) made⟩
  | attach =>
    obtain ⟨id, made⟩ := asks
    exact ⟨.association id, of_made (.association id) made⟩

theorem Asking.exists_asked {kinds : List Endpoint} (asking : Asking (Asks link c vm) kinds xs)
    (inside : ∀ k ∈ kinds, k ≠ .login ∧ k ≠ .logout) :
    ∀ x ∈ xs, ∃ i : Item, i.Asked link.base x.1 := by
  induction asking with
  | none => simp
  | last asks => simpa using asked_of_asks asks (inside _ List.mem_cons_self)
  | next asks _ _ ih =>
    obtain ⟨first, inside⟩ := List.forall_mem_cons.mp inside
    exact List.forall_mem_cons.mpr ⟨asked_of_asks asks first, ih inside⟩

theorem Goes.exists_asked {word : List Endpoint} {ok : Prop} (goes : Goes (Asks link c vm) word xs ok)
    (inside : ∀ k ∈ word, k ≠ .login ∧ k ≠ .logout) :
    ∀ x ∈ xs, ∃ i : Item, i.Asked link.base x.1 := by
  obtain ⟨kinds, first, asking⟩ := goes.asking
  exact asking.exists_asked fun k mem => inside k (first.subset mem)

end

/-- The requests behind a link and their addresses. -/
structure Confining (link : Link) (root : Url) : Prop where
  /-- Whatever its id, an item has a URL, and the URL is confined. -/
  item : ∀ i : Item, ∃ service place url, address link.base i.service none = .ok service ∧
    address link.base i.place none = .ok place ∧ address link.base i.segments i.query = .ok url ∧
    Confined root service place url i
  /-- All requests for the hardware of a machine are about items. -/
  hardware : ∀ vm xs r, Told (hardware link vm).run xs r → ∀ x ∈ xs, ∃ i : Item, i.Asked link.base x.1
  /-- All requests for the tags of a category are about items. -/
  tags : ∀ category xs r, Told (tags link category).run xs r →
    ∀ x ∈ xs, ∃ i : Item, i.Asked link.base x.1
  /-- All requests to attach a tag are about items. -/
  attach : ∀ tagId vm xs r, Told (attach link tagId vm).run xs r →
    ∀ x ∈ xs, ∃ i : Item, i.Asked link.base x.1

/-- **No id leads away from the base address**, whatever the id is and wherever it comes from. -/
theorem ids_confined {link : Link} {root : Url} (parsed : Url.parse link.base = .ok root)
    (web : root.scheme = "http" ∨ root.scheme = "https") : Confining link root := by
  obtain ⟨front, based⟩ := exists_based parsed web
  constructor
  case item =>
    intro i
    have at_service := based.address_plain none i.service_plain
    have at_place := based.address_plain none i.place_plain
    cases named : i.id? with
    | none =>
      have at_url := based.address_plain i.query i.place_plain
      rw [show i.segments = i.place by rw [Item.segments, named, Option.toList_none, List.append_nil]]
      exact ⟨_, _, _, at_service, at_place, at_url, confined_of_path root (.inl ⟨rfl, named⟩)⟩
    | some id =>
      have at_url := based.address_concat id i.query i.place_plain
      rw [show i.segments = i.place ++ [id] by rw [Item.segments, named, Option.toList_some]]
      exact ⟨_, _, _, at_service, at_place, at_url, confined_of_path root (.inr ⟨id, rfl, named⟩)⟩
  case hardware =>
    intro vm xs r told
    exact (goes_hardware (c := default) told).exists_asked (by simp)
  case tags =>
    intro category xs r told
    obtain ⟨m, n, goes⟩ := @goes_tags _ link default ⟨"", ""⟩ _ _ told
    refine goes.exists_asked fun k mem => ?_
    simp only [List.cons_append, List.mem_cons, List.mem_append, List.mem_replicate] at mem
    rcases mem with rfl | ⟨-, rfl⟩ | rfl | ⟨-, rfl⟩ <;> exact ⟨nofun, nofun⟩
  case attach =>
    intro tagId vm xs r told
    exact (goes_attach (c := default) told).1.exists_asked (by simp)

/-- A category whose id has dots, a slash, an at sign and a line end among them. -/
theorem ids_confined_sdk : (∃ root, Url.parse testLink.base = .ok root ∧ root.scheme = "http" ∧
      Confining testLink root) ∧
    (address testLink.base (Item.category "../\n@vc\\?#").segments none).map Url.render =
      .ok "http://vc/sdk/api/cis/tagging/category/..%2F@vc%5C%3F%23#top" ∧
    (address testLink.base (Item.category ".\n.").segments none).map Url.render =
      .ok "http://vc/sdk/api/cis/tagging/#top" := by
  have parsed : ∃ root, Url.parse testLink.base = .ok root ∧ root.scheme = "http" :=
    ⟨⟨"http", some ⟨"", "", .domain "vc", none⟩, .rooted ["sdk", ""], some "old", some "top"⟩,
      by decide +kernel, rfl⟩
  obtain ⟨root, at_root, web⟩ := parsed
  exact ⟨⟨root, at_root, web, ids_confined at_root (.inl web)⟩, by decide +kernel, by decide +kernel⟩

end TierTagger.VCenter
