import TierTagger.Proofs.Url.Paths
import TierTagger.Proofs.VCenter.Confinement

/-!
# The root of the API

Logins and logouts are at the base address with a text behind it, everything else at segments behind its
path. Both are meant to be below one root.

- `Joinable`: a base address without query and fragment that ends with a segment or a host.
- **Roots** (`Roots`): the sessions are where the segments of their path are if and only if the base
  address is joinable. Scheme, host and port are never others.
- `roots_of_web`: that is so for all base addresses with sessions at an `http` or `https` URL.
- `sessions_apart`: a slash at the end of the server of the parameters is enough to part the two.
-/

namespace TierTagger.VCenter

open Http (Request)
open Url (Outside Reading blanksAtEnd isBreak isPathEnd isSlash stem)

/-- A base address behind which a text and segments come to the same. -/
structure Joinable (base : String) : Prop where
  /-- It is a URL, and its path is not two slashes, which count as one in front of segments. -/
  parsed : ∃ root, Url.parse base = .ok root ∧ root.path ≠ .rooted ["", ""]
  /-- There is no query and no fragment. -/
  bare : ∀ c ∈ base.toList, isPathEnd c = false
  /-- What it ends with, but for tabs and line ends, is no blank and no slash. -/
  ends : ∀ c ∈ (base.toList.filter (!isBreak ·)).getLast?, ' ' < c ∧ isSlash true c = false

/-- Two URLs that lead to the same place of the same server. -/
structure SamePlace (u v : Url) : Prop where
  scheme_eq : u.scheme = v.scheme
  host_eq : u.authority.map (·.host) = v.authority.map (·.host)
  port_eq : u.authority.map (·.port) = v.authority.map (·.port)
  path_eq : u.path = v.path
  query_eq : u.query = v.query

/-- Where the sessions are, as to a base address with sessions at `u`. -/
structure Roots (base : String) (u : Url) : Prop where
  /-- Logins and logouts are requests to `u`. -/
  sessions : ∀ method, sessionRequest method base = .ok (.ofUrl method u)
  /-- The server is the one of the base address. -/
  server : ∀ root, Url.parse base = .ok root → u.scheme = root.scheme ∧ u.authority = root.authority
  /-- The place is the one of the segments if the base address is joinable, and only then. -/
  agree : (∃ v, address base ["api", "session"] none = .ok v ∧ SamePlace u v) ↔ Joinable base
  /-- Then there is one root above the sessions and all items. -/
  root : Joinable base → ∃ front, u.path = .rooted (front ++ ["api", "session"]) ∧
    ∀ i : Item, ∃ v, address base i.segments i.query = .ok v ∧ v.scheme = u.scheme ∧
      v.authority = u.authority ∧ (Url.Path.rooted (front ++ ["api"])).render.toList <+: v.path.render.toList

variable {base : String} {u : Url}

/-- The base address with the sessions behind it, as it is read. -/
theorem reading_of_sessions (read : sessionAddress base = .ok u) (web : u.scheme = "http" ∨ u.scheme = "https")
    {root : Url} (parsed : Url.parse base = .ok root) :
    ∃ a front path, Reading base "/api/session".toList u a front path :=
  Url.exists_reading (by decide) (by decide) read web parsed

theorem visible_of_pathEnd {c : Char} (ends : isPathEnd c = true) : ' ' < c ∧ isBreak c = false := by
  rcases Url.isPathEnd_iff.mp ends with rfl | rfl <;> decide

section
variable {more : List Char} {a : Url.Authority} {front path : List Char} (reading : Reading base more u a front path)
include reading

/-- What is not ignored of a text and is no blank. -/
theorem mem_filter_iff {c : Char} (visible : ' ' < c) :
    c ∈ base.toList.filter (!isBreak ·) ↔ c ∈ front ++ path := by
  obtain ⟨blank_front, blanks, whole⟩ := Url.exists_filter_eq base.toList
  rw [whole, reading.clean_eq, List.mem_append, List.mem_append]
  constructor
  · rintro ((mem | mem) | mem)
    · exact absurd visible (Char.not_lt.mpr (blanks c mem))
    · exact mem
    · exact absurd visible (Char.not_lt.mpr (Url.blank_of_mem mem))
  · exact fun mem => .inl (.inr mem)

/-- There is no query and no fragment if none begins behind the authority. -/
theorem bare_iff : (∀ c ∈ base.toList, isPathEnd c = false) ↔ ∀ c ∈ path, isPathEnd c = false := by
  have mem_iff {c : Char} (ends : isPathEnd c = true) : c ∈ base.toList ↔ c ∈ path := by
    obtain ⟨visible, solid⟩ := visible_of_pathEnd ends
    have kept : c ∈ base.toList ↔ c ∈ base.toList.filter (!isBreak ·) := by simp [solid]
    have outside : c ∉ front := fun mem => absurd ends (by simp [reading.front_plain c mem])
    rw [kept, mem_filter_iff reading visible, List.mem_append, or_iff_right outside]
  constructor <;> intro bare c mem <;> by_contra ends
  · exact ends (bare c ((mem_iff (by simpa using ends)).mpr mem))
  · exact ends (bare c ((mem_iff (by simpa using ends)).mp mem))

/-- The end of a text that is a URL. -/
theorem ends_iff : (∀ c ∈ (base.toList.filter (!isBreak ·)).getLast?, ' ' < c ∧ isSlash true c = false) ↔
    blanksAtEnd base.toList = [] ∧ ∀ c ∈ path.getLast?, isSlash true c = false := by
  obtain ⟨blank_front, -, whole⟩ := Url.exists_filter_eq base.toList
  rw [whole]
  rcases List.eq_nil_or_concat' (blanksAtEnd base.toList) with none | ⟨others, c, last⟩
  · obtain ⟨before, c, last⟩ := (List.eq_nil_or_concat' (Url.clean base.toList)).resolve_left
      (by simp [reading.clean_eq, reading.front_ne_nil])
    have visible : ' ' < c := Url.clean_last (by rw [last]; exact List.getLast?_concat)
    have same : (front ++ path).getLast? = some c := by rw [← reading.clean_eq, last, List.getLast?_concat]
    rw [none, List.append_nil, last, ← List.append_assoc, List.getLast?_concat]
    rw [List.getLast?_append] at same
    cases at_end : path.getLast? with
    | none =>
      rw [at_end, Option.none_or] at same
      simp [visible, reading.front_last c same]
    | some d =>
      rw [at_end, Option.some_or] at same
      obtain rfl := Option.some.inj same
      simp [visible]
  · have blank : c ≤ ' ' := Url.blank_of_mem (last ▸ List.mem_append_right _ List.mem_cons_self)
    rw [last, ← List.append_assoc, List.getLast?_concat]
    have above : ¬(' ' < c) := Char.not_lt.mpr blank
    simp [above]

end

/-! ## Roots -/

theorem bare_joined {path : List Char} (bare : ∀ c ∈ path, isPathEnd c = false) :
    ∀ c ∈ path ++ (blanksAtEnd base.toList ++ "/api/session".toList), isPathEnd c = false := by
  refine List.forall_mem_append.mpr ⟨bare, List.forall_mem_append.mpr
    ⟨fun c mem => ?_, Url.forall_of_all (by decide)⟩⟩
  exact (Url.plain_of_blank (Url.blank_of_mem mem)).2

section
variable {a : Url.Authority} {front path : List Char} {segments : List String}
  (reading : Reading base "/api/session".toList u a front path)
include reading

/-- The address of segments behind the base address. -/
theorem based_of_reading (web : u.scheme = "http" ∨ u.scheme = "https")
    (at_path : Url.pathAfterHost true path = .rooted segments) :
    Based base (Url.withRest u.scheme (some a) (.rooted segments) path) (stem segments) := by
  refine ⟨at_path ▸ reading.alone, Url.isSpecial_web web, segments, rfl, rfl⟩

theorem path_eq_joined : u.path =
    Url.pathAfterHost true (path ++ (blanksAtEnd base.toList ++ "/api/session".toList)) :=
  congrArg Url.path reading.joined

/-- When the path of the sessions is that of the segments. -/
theorem path_eq_iff (at_path : Url.pathAfterHost true path = .rooted segments) :
    u.path = .rooted (stem segments ++ ["api", "session"]) ↔ Joinable base := by
  have joinable_iff : Joinable base ↔ (∀ c ∈ path, isPathEnd c = false) ∧ blanksAtEnd base.toList = [] ∧
      (∀ c ∈ path.getLast?, isSlash true c = false) ∧ segments ≠ ["", ""] := by
    rw [← bare_iff reading, ← and_assoc (a := blanksAtEnd base.toList = []), ← ends_iff reading]
    have same (other : segments ≠ ["", ""]) : Url.Path.rooted segments ≠ .rooted ["", ""] :=
      fun same => other (Url.Path.rooted.inj same)
    constructor
    · rintro ⟨⟨root, parsed, other⟩, bare, ends⟩
      rw [reading.alone] at parsed
      cases parsed
      exact ⟨bare, ends, fun same => other (at_path.trans (congrArg _ same))⟩
    · rintro ⟨bare, ends, other⟩
      exact ⟨⟨_, reading.alone, fun two => same other (at_path.symm.trans two)⟩, bare, ends⟩
  rw [joinable_iff, path_eq_joined reading]
  by_cases bare : ∀ c ∈ path, isPathEnd c = false
  · obtain ⟨segments', before, alone, joined, agree⟩ := Url.pathAfterHost_append reading.outside bare
      (fun c mem => Url.blank_of_mem mem) reading.no_blanks
    obtain rfl : segments = segments' := Url.Path.rooted.inj (at_path.symm.trans alone)
    rw [joined, ← agree, Url.Path.rooted.injEq, List.append_cancel_right_eq]
    exact ⟨fun same => ⟨bare, same⟩, And.right⟩
  · rw [Url.pathAfterHost_of_end true bare, at_path]
    have other : segments ≠ stem segments ++ ["api", "session"] := Url.ne_stem_concat segments (by decide)
    exact iff_of_false (fun same => other (Url.Path.rooted.inj same)) fun joinable => bare joinable.1

/-- When the text comes to the segments. -/
theorem agree_iff (web : u.scheme = "http" ∨ u.scheme = "https") :
    (∃ v, address base ["api", "session"] none = .ok v ∧ SamePlace u v) ↔ Joinable base := by
  obtain ⟨segments, at_path⟩ := Url.exists_segments true path
  have at_segments := (based_of_reading reading web at_path).address_plain none ⟨"api", ["session"], rfl, by decide⟩
  rw [← path_eq_iff reading at_path]
  constructor
  · rintro ⟨v, at_v, same⟩
    rw [at_segments] at at_v
    cases at_v
    exact same.path_eq
  · intro same
    have bare := (bare_iff reading).mp ((path_eq_iff reading at_path).mp same).bare
    have authority_eq : u.authority = some a := congrArg Url.authority reading.joined
    refine ⟨_, at_segments, rfl, congrArg _ authority_eq, congrArg _ authority_eq, same, ?_⟩
    rw [reading.joined]
    exact Url.withRest_query (bare_joined bare)

end

theorem render_prefix (front : List String) {first : String} {rest : List String} :
    (Url.Path.rooted (front ++ [first])).render.toList <+: (Url.Path.rooted (front ++ first :: rest)).render.toList := by
  rw [show front ++ first :: rest = front ++ [first] ++ rest by simp]
  generalize front ++ [first] = before
  simp [Url.Path.render, String.join_append]

/-- Every service is below the root. -/
theorem Item.service_below (front : List String) (i : Item) :
    (Url.Path.rooted (front ++ ["api"])).render.toList <+:
      (Url.Path.rooted (front ++ i.service)).render.toList := by
  cases i <;> exact render_prefix front

/-- All items of a base address are below the root of its segments. -/
theorem Based.items_below {root : Url} {front : List String} (based : Based base root front)
    (web : root.scheme = "http" ∨ root.scheme = "https") (i : Item) :
    ∃ v, address base i.segments i.query = .ok v ∧ v.scheme = root.scheme ∧ v.authority = root.authority ∧
      (Url.Path.rooted (front ++ ["api"])).render.toList <+: v.path.render.toList := by
  have confining : Confining ⟨base, "", ""⟩ root := ids_confined based.parsed web
  obtain ⟨service, place, v, at_service, -, at_v, confined⟩ := confining.item i
  rw [based.address_plain none i.service_plain] at at_service
  cases at_service
  exact ⟨v, at_v, confined.scheme_eq, confined.authority_eq, (i.service_below front).trans confined.below⟩

/-- **Sessions and segments have one root exactly if the base address is joinable**, whatever the
parameters and the address of the site are. -/
theorem roots_of_web (site : Site) (c : Connection) {u : Url}
    (read : sessionAddress (site.baseFor c) = .ok u) (web : u.scheme = "http" ∨ u.scheme = "https") :
    Roots (site.baseFor c) u := by
  generalize site.baseFor c = base at read
  constructor
  case sessions =>
    intro method
    rw [sessionRequest, read]
  case server =>
    intro root parsed
    obtain ⟨a, front, path, reading⟩ := reading_of_sessions read web parsed
    rw [reading.alone] at parsed
    cases parsed
    have authority_eq : u.authority = some a := congrArg Url.authority reading.joined
    exact ⟨rfl, authority_eq⟩
  case agree =>
    cases parsed : Url.parse base with
    | error e =>
      refine iff_of_false ?_ fun joinable => ?_
      · rintro ⟨v, at_v, -⟩
        simp only [address, parsed] at at_v
        cases at_v
      · obtain ⟨root, is_url, -⟩ := joinable.parsed
        rw [parsed] at is_url
        cases is_url
    | ok root =>
      obtain ⟨a, front, path, reading⟩ := reading_of_sessions read web parsed
      exact agree_iff reading web
  case root =>
    intro joinable
    obtain ⟨root, parsed, -⟩ := joinable.parsed
    obtain ⟨a, front, path, reading⟩ := reading_of_sessions read web parsed
    obtain ⟨segments, at_path⟩ := Url.exists_segments true path
    have authority_eq : u.authority = some a := congrArg Url.authority reading.joined
    refine ⟨stem segments, (path_eq_iff reading at_path).mpr joinable, fun i => ?_⟩
    obtain ⟨v, at_v, scheme, authority, below⟩ := (based_of_reading reading web at_path).items_below web i
    exact ⟨v, at_v, scheme, authority.trans authority_eq.symm, below⟩

/-- A site whose address has a path and a slash at its end, which is not part of the base address. -/
theorem roots_of_web_sdk : ∃ u v, sessionAddress (Site.baseFor ⟨some "http://vc.test:8080/sdk/"⟩ default) = .ok u ∧
    u.scheme = "http" ∧ Joinable (Site.baseFor ⟨some "http://vc.test:8080/sdk/"⟩ default) ∧
    address (Site.baseFor ⟨some "http://vc.test:8080/sdk/"⟩ default) ["api", "session"] none = .ok v ∧
    SamePlace u v ∧ v.render = "http://vc.test:8080/sdk/api/session" := by
  have read : sessionAddress (Site.baseFor ⟨some "http://vc.test:8080/sdk/"⟩ default) =
      .ok ⟨"http", some ⟨"", "", .domain "vc.test", some 8080⟩, .rooted ["sdk", "api", "session"], none, none⟩ := by
    decide +kernel
  have joinable : Joinable (Site.baseFor ⟨some "http://vc.test:8080/sdk/"⟩ default) := by
    have last : ((Site.baseFor ⟨some "http://vc.test:8080/sdk/"⟩ default).toList.filter (!isBreak ·)).getLast? =
        some 'k' := by decide +kernel
    refine ⟨⟨⟨"http", some ⟨"", "", .domain "vc.test", some 8080⟩, .rooted ["sdk"], none, none⟩, ?_, by decide⟩,
      Url.forall_of_all ?_, ?_⟩
    · decide +kernel
    · decide +kernel
    · rw [last]
      rintro c ⟨⟩
      decide
  obtain ⟨v, at_v, same⟩ := (roots_of_web _ _ read (.inl rfl)).agree.mpr joinable
  have written : (address (Site.baseFor ⟨some "http://vc.test:8080/sdk/"⟩ default) ["api", "session"] none).map
      Url.render = .ok "http://vc.test:8080/sdk/api/session" := by decide +kernel
  rw [at_v] at written
  exact ⟨_, v, read, rfl, joinable, at_v, same, Except.ok.inj written⟩

/-- With a slash at the end of the server the sessions are not where the segments are. -/
theorem sessions_apart : ¬∀ (site : Site) (c : Connection) (u : Url), c.missing? = none →
    sessionAddress (site.baseFor c) = .ok u → (u.scheme = "http" ∨ u.scheme = "https") →
    ∃ v, address (site.baseFor c) ["api", "session"] none = .ok v ∧ SamePlace u v := by
  intro same
  have complete : Connection.missing? ⟨"vc.test/", "user", "password", false⟩ = none := by decide
  have read : sessionAddress (Site.baseFor ⟨none⟩ ⟨"vc.test/", "user", "password", false⟩) =
      .ok ⟨"https", some ⟨"", "", .domain "vc.test", none⟩, .rooted ["", "api", "session"], none, none⟩ := by
    decide +kernel
  have segments : address (Site.baseFor ⟨none⟩ ⟨"vc.test/", "user", "password", false⟩) ["api", "session"] none =
      .ok ⟨"https", some ⟨"", "", .domain "vc.test", none⟩, .rooted ["api", "session"], none, none⟩ := by
    decide +kernel
  obtain ⟨v, at_v, place⟩ := same ⟨none⟩ _ _ complete read (.inr rfl)
  rw [segments] at at_v
  cases at_v
  exact absurd place.path_eq (by decide)

end TierTagger.VCenter
