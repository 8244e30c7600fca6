import TierTagger.Directory.Inventory
import TierTagger.Proofs.Url.Address
import TierTagger.Proofs.VCenter.Bodies
import TierTagger.Proofs.VCenter.Operations

/-!
# A vCenter server

What a server answers that is reached at a host and a port and has the content of an inventory.

- **Addresses** (`Server`): where requests to it are sent.
- **What is asked** (`Asked`, `Server.asked?`): a request as the server reads it.
- **What is answered** (`Documented`, `Serves`): the content is told to whoever has a session.
-/

namespace TierTagger.VCenter

open Directory (Endpoint Failure)
open Http (Answer Request)
open Url (Authority IsSegment segmentText)

/-! ## Addresses -/

/-- A server that is reached at a host and a port. -/
structure Server where
  hostText : String
  port : Nat
  host : Url.Host
  isHost : Url.IsHost hostText.toList
  named : Url.Host.ofName hostText.toList = .ok host
  small : port ≤ 65535
  /-- Requests can be sent to the host. -/
  sent : host.render.toList.any Request.isUnsent = false

namespace Server

variable (server : Server)

/-- The base address. -/
def base : String := Url.baseText server.hostText server.port

/-- Who is asked. -/
def authority : Authority := Url.authorityOf server.host server.port

/-- A URL of the server. -/
def url (segments : List String) (query : Option String) : Url :=
  ⟨"http", some server.authority, .rooted segments, query, none⟩

theorem host_ne_empty : server.host ≠ .domain "" := by
  intro empty
  have named := server.named
  rw [empty] at named
  unfold Url.Host.ofName at named
  split at named
  · next inner _ =>
    unfold Url.Host.bracketed at named
    split at named
    · split at named <;> cases named
    · cases named
  · split at named
    · cases named
    · next name _ =>
      split at named
      · cases named
      · next not_empty =>
        split at named
        · split at named <;> cases named
        · cases named
          exact not_empty rfl

theorem parse_base_append {tail : String} (isTail : Url.IsTail tail.toList) :
    Url.parse (server.base ++ tail) =
      .ok (Url.withRest "http" (some server.authority) (Url.pathAfterHost true tail.toList) tail.toList) :=
  Url.parse_baseText server.isHost server.named server.host_ne_empty server.small isTail

theorem parse_base : Url.parse server.base = .ok (server.url [""] none) := by
  have isTail : Url.IsTail "".toList := ⟨by simp, by simp, by simp⟩
  have parsed := server.parse_base_append isTail
  rw [String.append_empty] at parsed
  exact parsed

theorem sessionAddress_base : sessionAddress server.base = .ok (server.url ["api", "session"] none) := by
  have isTail : Url.IsTail "/api/session".toList := ⟨by simp, by simp, Url.forall_of_all (by decide)⟩
  have path : Url.pathAfterHost true "/api/session".toList = .rooted ["api", "session"] := by decide
  rw [sessionAddress, server.parse_base_append isTail, path]
  rfl

theorem baseFor_base (c : Connection) : (Site.mk (some server.base)).baseFor c = server.base := by
  obtain ⟨front, digit, is_digit, chars⟩ : ∃ front digit, Char.isDigit digit ∧
      server.base.toList = front ++ [digit] := by
    have ne_nil : Nat.toDigits 10 server.port ≠ [] := Nat.toDigits_ne_nil
    have chars : server.base.toList =
        ("http://" ++ server.hostText ++ ":").toList ++ Nat.toDigits 10 server.port := by
      simp [base, Url.baseText]
    refine ⟨("http://" ++ server.hostText ++ ":").toList ++ (Nat.toDigits 10 server.port).dropLast,
      (Nat.toDigits 10 server.port).getLast ne_nil,
      Nat.isDigit_of_mem_toDigits (by decide) (by decide) (List.getLast_mem ne_nil), ?_⟩
    rw [chars, List.append_assoc, List.dropLast_append_getLast ne_nil]
  have other : digit ≠ '/' := by
    rintro rfl
    exact absurd is_digit (by decide)
  show trimSlashes server.base = server.base
  rw [trimSlashes, chars, List.reverse_append, List.reverse_singleton, List.singleton_append,
    List.dropWhile_cons_of_neg (by simpa using other), List.reverse_cons, List.reverse_reverse, ← chars,
    String.ofList_toList]

theorem address_base {segments : List String} (ids : ∀ s ∈ segments, IsSegment s) (some_ : segments ≠ [])
    (query : Option String) :
    address server.base segments query = .ok (server.url (segments.map segmentText) query) := by
  have special : Url.isSpecial "http" = true := by decide
  cases segments with
  | nil => exact absurd rfl some_
  | cons s segments =>
    obtain ⟨first, ids⟩ := List.forall_mem_cons.mp ids
    have next : [segmentText s] ≠ [""] := by simpa using Url.segmentText_ne_empty first
    have path : (s :: segments).foldl (Url.appendSegment true) [""] =
        (s :: segments).map segmentText := by
      rw [List.foldl_cons, Url.appendSegment_eq first, if_pos rfl, List.nil_append,
        Url.foldl_appendSegment ids next]
      rfl
    simp only [address, server.parse_base, Url.extend, url, special]
    rw [show Url.dropEmptyEnd [""] = [""] by decide, path]

theorem ofUrl_url (method : Http.Method) (segments : List String) (query : Option String) :
    Request.ofUrl method (server.url segments query) = ⟨method, server.url segments query, [], none, none⟩ := by
  have nobody : Request.decoded? "" = some "" := Url.decoded?_segmentText ""
  simp [Request.ofUrl, url, authority, Url.authorityOf, Request.credentialsOf, nobody]

end Server

/-! ## What is asked -/

/-- What a request asks a server for. -/
inductive Asked where
  | login
  | machine (id : String)
  | categories
  | category (id : String)
  | tagsOf (category : String)
  | tag (id : String)
  | attach (tag : String) (object : ObjectRef)
  deriving DecidableEq, Repr

/-- An attachment is asked for. -/
def Asked.isAttach : Asked → Bool
  | .attach _ _ => true
  | _ => false

/-- The segments of the path of a request. -/
def segments? (r : Request) : Option (List String) :=
  match r.url.path with
  | .rooted segments => segments.mapM Request.decoded?
  | .flat _ => none

/-- The value in the body of a request. -/
def bodyValue? {α : Type} (d : Json.Decoder α) (r : Request) : Option α :=
  r.body.bind fun text => (d.decode (Utf8.encode text)).toOption

/-- A request as the server reads it, if it is one that it knows. -/
def Server.asked? (server : Server) (r : Request) : Option Asked :=
  if r.url.scheme = "http" ∧ r.url.authority = some server.authority then
    match r.method, r.url.query, segments? r with
    | .post, none, some ["api", "session"] => some .login
    | .get, none, some ["api", "vcenter", "vm", id] => some (.machine id)
    | .get, none, some ["api", "cis", "tagging", "category"] => some .categories
    | .get, none, some ["api", "cis", "tagging", "category", id] => some (.category id)
    | .post, some "action=list-tags-for-category", some ["api", "cis", "tagging", "tag"] =>
      (bodyValue? listRecord.decoder r).map .tagsOf
    | .get, none, some ["api", "cis", "tagging", "tag", id] => some (.tag id)
    | .post, some "action=attach", some ["api", "cis", "tagging", "tag-association", id] =>
      (bodyValue? attachRecord.decoder r).map (.attach id)
    | _, _, _ => none
  else none

/-- A request that the client makes with a token. -/
def Server.request (server : Server) (method : Http.Method) (segments : List String)
    (query : Option String) (token : String) (body : Option String) : Request :=
  ⟨method, server.url (segments.map segmentText) query, [], some token, body⟩

section
variable (server : Server) (token : String)

theorem segments?_request {method : Http.Method} {segments : List String} {query body : Option String} :
    segments? (server.request method segments query token body) = some segments :=
  Url.mapM_decoded? segments

theorem asked?_machine (id : String) :
    server.asked? (server.request .get (machinePath id) none token none) = some (.machine id) := by
  simp only [Server.asked?, segments?_request]
  simp [Server.request, Server.url, machinePath]

theorem asked?_categories :
    server.asked? (server.request .get (taggingPath ["category"]) none token none) = some .categories := by
  simp only [Server.asked?, segments?_request]
  simp [Server.request, Server.url, taggingPath]

theorem asked?_category (id : String) :
    server.asked? (server.request .get (taggingPath ["category", id]) none token none) =
      some (.category id) := by
  simp only [Server.asked?, segments?_request]
  simp [Server.request, Server.url, taggingPath]

theorem asked?_tagsOf (category : String) : server.asked? (server.request .post (taggingPath ["tag"])
      (some "action=list-tags-for-category") token (some (categoryBody category))) =
    some (.tagsOf category) := by
  have body : listRecord.decoder.decode (Utf8.encode (categoryBody category)) = .ok category :=
    (spells_categoryBody category).decode
  simp only [Server.asked?, segments?_request]
  simp [Server.request, Server.url, taggingPath, bodyValue?, body, Except.toOption]

theorem asked?_tag (id : String) :
    server.asked? (server.request .get (taggingPath ["tag", id]) none token none) = some (.tag id) := by
  simp only [Server.asked?, segments?_request]
  simp [Server.request, Server.url, taggingPath]

theorem asked?_attach (id : String) (vm : ObjectRef) : server.asked? (server.request .post
      (taggingPath ["tag-association", id]) (some "action=attach") token (some (objectBody vm))) =
    some (.attach id vm) := by
  have body : attachRecord.decoder.decode (Utf8.encode (objectBody vm)) = .ok vm :=
    (spells_objectBody vm).decode
  simp only [Server.asked?, segments?_request]
  simp [Server.request, Server.url, taggingPath, bodyValue?, body, Except.toOption]

/-- The request of a login. -/
def Server.login (c : Connection) : Request :=
  ⟨.post, server.url ["api", "session"] none, [Http.basic c.user c.password], none, none⟩

theorem loginRequest_base (c : Connection) : loginRequest server.base c = .ok (server.login c) := by
  refine loginRequest_eq_ok.mpr ⟨_, server.sessionAddress_base, ?_⟩
  rw [server.ofUrl_url]
  rfl

theorem session_segments : ["api", "session"].map segmentText = ["api", "session"] := by decide +kernel

theorem asked?_login (c : Connection) : server.asked? (server.login c) = some .login := by
  have segments : segments? (server.login c) = some ["api", "session"] := by
    show ["api", "session"].mapM Request.decoded? = _
    rw [← session_segments]
    exact Url.mapM_decoded? ["api", "session"]
  simp only [Server.asked?, segments]
  simp [Server.login, Server.url]

end

/-! ## What is answered -/

/-- A request was granted, with a value in the body of the answer. -/
def Tells {α : Type} (d : Json.Decoder α) (v : α) (a : Answer) : Prop :=
  ∃ status body, a = .response status body ∧ 200 ≤ status ∧ status < 300 ∧ d.decode body = .ok v

/-- What is answered about a machine with this hardware. One without any is not known. -/
def TellsHardware : Option Hardware → Answer → Prop
  | some h, a => ∃ m, Tells Machine.decoder m a ∧ m.hardware? = some h
  | none, a => ∃ body, a = .response 404 body

/-- An answer to a request that tells the content of an inventory. What is not registered there may be
answered in any way, unless it is a machine. -/
def Documented (i : Inventory) : Asked → Answer → Prop
  | .login => fun _ => True
  | .machine id => TellsHardware (i.machines.lookup id)
  | .categories => fun a => ∃ ids, Tells idsDecoder ids a ∧ ids.Perm (i.categories.map (·.1))
  | .category id => fun a => ∀ name, (id, name) ∈ i.categories → Tells Category.decoder ⟨id, name⟩ a
  | .tagsOf category => fun a => category ∈ i.categories.map (·.1) →
    Tells idsDecoder ((i.tags.filter (·.categoryId = category)).map (·.id)) a
  | .tag id => fun a => ∀ t ∈ i.tags, t.id = id → Tells tagDecoder t a
  | .attach id _ => fun a => id ∈ i.tags.map (·.id) →
    ∃ status body, a = .response status body ∧ 200 ≤ status ∧ status < 300

/-- A token that was handed out in a session that was not ended since. -/
def Server.Issued (server : Server) (network : Http.Network) (before : List Request) (t : String) : Prop :=
  ∃ us r vs, before = us ++ r :: vs ∧ server.asked? r = some .login ∧ r.token = none ∧
    Tells .text t (network us r) ∧ ∀ x ∈ vs, x.method ≠ .delete

/-- The server has the content of an inventory, and the accounts with these credentials. -/
structure Server.Serves (server : Server) (i : Inventory) (accounts : String → Prop)
    (network : Http.Network) : Prop where
  /-- Whoever has an account gets a token, which can be the value of a header. -/
  login : ∀ before r account, server.asked? r = some .login → r.token = none →
    r.credentials = [account] → accounts account →
      ∃ t, Tells .text t (network before r) ∧ Request.isHeaderValue t
  /-- Whoever has a token is told the content. -/
  content : ∀ before r q t, server.asked? r = some q → r.token = some t →
    server.Issued network before t → Documented i q (network before r)

/-- The attachment that an exchange makes, if it makes one. -/
def Server.attachment? (server : Server) (r : Request) (a : Answer) : Option (String × ObjectRef) :=
  match server.asked? r, a with
  | some (.attach id vm), .response status _ => if isSuccess status then some (id, vm) else none
  | _, _ => none

/-- The attachments that a server accepts after the requests `before`. -/
def Server.accepted (server : Server) (network : Http.Network) :
    (before : List Request) → List Request → List (String × ObjectRef)
  | _, [] => []
  | before, r :: rs =>
    (server.attachment? r (network before r)).toList ++ server.accepted network (before ++ [r]) rs

theorem Server.accepted_append (server : Server) (network : Http.Network) (before rs ts : List Request) :
    server.accepted network before (rs ++ ts) =
      server.accepted network before rs ++ server.accepted network (before ++ rs) ts := by
  induction rs generalizing before with
  | nil => simp [accepted]
  | cons r rs ih => simp [accepted, ih]

end TierTagger.VCenter
