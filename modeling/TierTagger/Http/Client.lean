import TierTagger.Dialogue
import TierTagger.Http.Base64
import TierTagger.Url.Parse

/-!
# Requests

What a client asks a server over HTTP and what it gets back. A request that cannot be stated fails before
anything is sent; one that is sent is answered with a response or is lost.

* `Request.ofUrl`: a request to a URL. A user name in the URL turns into credentials.
* `Request.send`: the exchange.
* `Network`: who answers, as a function of all requests so far.
-/

namespace TierTagger.Http

/-- The methods in use. -/
inductive Method where
  | get
  | post
  | delete
  deriving DecidableEq, Repr

/-- The name of a method. -/
def Method.name : Method → String
  | get => "GET"
  | post => "POST"
  | delete => "DELETE"

/-- A request. -/
structure Request where
  method : Method
  /-- Where it is sent; user name and password are not part of it. -/
  url : Url
  /-- The values of the header `authorization`, in order. -/
  credentials : List String
  /-- The session it is made in. -/
  token : Option String
  /-- A body in JSON. -/
  body : Option String
  deriving DecidableEq, Repr

/-- How a request ends. -/
inductive Answer where
  | response (status : Nat) (body : Bytes)
  | lost
  deriving DecidableEq, Repr

/-- Why an exchange has no result. -/
inductive Error where
  /-- The request cannot be stated: its URL or a header is not well-formed. -/
  | unstated
  /-- Nothing can be asked at the URL. -/
  | unsupported (url : Url)
  /-- There is no response. -/
  | lost (url : Url)
  /-- The body of the response is not what was asked for. -/
  | undecodable
  deriving DecidableEq, Repr

/-- The wording of an error. -/
def Error.message : Error → String
  | unstated => "builder error"
  | unsupported url => "builder error for url (" ++ url.render ++ ")"
  | lost url => "error sending request for url (" ++ url.render ++ ")"
  | undecodable => "error decoding response body"

/-- A computation that makes requests. -/
abbrev Exchange := Dialogue (fun _ : Request => Answer)

/-- How the client names itself. -/
def agent : String := "vmtier/0.1.0"

/-- The name of the header with the session. -/
def sessionHeader : String := "vmware-api-session-id"

/-- The credentials of a user. -/
def basic (user password : String) : String :=
  "Basic " ++ Base64.encode (Utf8.encode (user ++ ":" ++ password))

namespace Request

/-- The text that an encoded part of a URL stands for, if it is one. -/
def decoded? (part : String) : Option String := Utf8.decode? (Url.Percent.decode (Utf8.encode part))

/-- The credentials in a URL. A user name that is no text hides them. -/
def credentialsOf (a : Url.Authority) : Option String :=
  match decoded? a.username with
  | none => none
  | some user =>
    let password := if a.password = "" then none else decoded? a.password
    if user = "" ∧ password = none then none else some (basic user (password.getD ""))

/-- A request to a URL. -/
def ofUrl (method : Method) (url : Url) : Request :=
  match url.authority with
  | none => ⟨method, url, [], none, none⟩
  | some a =>
    match credentialsOf a with
    | none => ⟨method, url, [], none, none⟩
    | some c =>
      ⟨method, { url with authority := some { a with username := "", password := "" } }, [c], none, none⟩

/-- Whether a text can be the value of a header. -/
def isHeaderValue (s : String) : Bool := s.toList.all fun c => c = '\t' || (' ' ≤ c && c ≠ '\x7f')

/-- The characters that a host name in a request cannot have. -/
def isUnsent (c : Char) : Bool := ['"', '`', '\x7b', '\x7d'].contains c

/-- The most bytes that a URL of a request has. -/
def maxUrlSize : Nat := 65534

/-- Whether the URL of a request can be asked. -/
def isSupported (url : Url) : Bool :=
  (url.scheme = "http" || url.scheme = "https") && url.render.utf8ByteSize ≤ maxUrlSize &&
    !(url.authority.map fun a => a.host.render.toList.any isUnsent).getD true

/-- Makes a request. -/
def send (r : Request) : Exchange (Except Error (Nat × Bytes)) :=
  if !(r.token.map isHeaderValue).getD true then pure (.error .unstated)
  else if !isSupported r.url then pure (.error (.unsupported r.url))
  else do
    match ← Dialogue.question r with
    | .response status body => return .ok (status, body)
    | .lost => return .error (.lost r.url)

/-- The headers of a request. -/
def headers (r : Request) : List (String × String) :=
  ("user-agent", agent) :: r.credentials.map ("authorization", ·) ++
    (r.token.map (sessionHeader, ·)).toList ++
    (r.body.map fun _ => ("content-type", "application/json")).toList

end Request

/-- Who answers requests: a function of the requests before and the one that is made. -/
abbrev Network := List Request → Request → Answer

/-- The network in which every request is lost. -/
def Network.unreachable : Network := fun _ _ => .lost

end TierTagger.Http
