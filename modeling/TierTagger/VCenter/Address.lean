import TierTagger.Connection
import TierTagger.Directory.Error
import TierTagger.Url.Segments

/-!
# Addresses of vCenter

A base address is a text: the one given for the site, or the server of the parameters behind `https://`.

* `sessionAddress`: sessions are at the base address with a fixed text behind it.
* `address`: everything else is at segments behind the path of the base address; an id is one of them.
-/

namespace TierTagger.VCenter

open Directory (Refusal)

/-- Where the server is: the base address, if it is not the one of the parameters. -/
structure Site where
  base : Option String
  deriving DecidableEq, Repr

/-- A text without the slashes at its end. -/
def trimSlashes (s : String) : String :=
  String.ofList (s.toList.reverse.dropWhile (· = '/')).reverse

/-- The base address for a connection. -/
def Site.baseFor (site : Site) (c : Connection) : String :=
  match site.base with
  | some b => trimSlashes b
  | none => "https://" ++ c.server

/-- The URL of the sessions of a server. -/
def sessionAddress (base : String) : Except Url.Error Url := Url.parse (base ++ "/api/session")

/-- An id that can be a segment of a path. -/
def objectId (id : String) : Except Refusal String :=
  if id = "" ∨ id = "." ∨ id = ".." then .error (.invalidId id) else .ok id

/-- The URL with segments behind a base address. -/
def address (base : String) (segments : List String) (query : Option String) : Except Refusal Url :=
  match Url.parse base with
  | .error e => .error (.invalidBase base e)
  | .ok url =>
    match url.extend segments query with
    | some u => .ok u
    | none => .error (.baseWithoutPath base)

/-- The path of the machine with an id. -/
def machinePath (id : String) : List String := ["api", "vcenter", "vm", id]

/-- A path of the tagging service. -/
def taggingPath (rest : List String) : List String := ["api", "cis", "tagging"] ++ rest

end TierTagger.VCenter
