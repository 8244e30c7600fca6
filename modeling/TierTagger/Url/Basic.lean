import TierTagger.Url.Host

/-!
# URLs

A URL that was read: its scheme, the authority with host and port, the path, query and fragment, each
as it is written. `Url.render` writes the URL.
-/

namespace TierTagger

namespace Url

/-- Who is asked: user name and password, each empty if there is none, host, and the port if it is not
the one of the scheme. -/
structure Authority where
  username : String
  password : String
  host : Host
  port : Option Nat
  deriving DecidableEq, Repr

/-- The path of a URL: segments behind slashes, or a text that starts with no slash. -/
inductive Path where
  | rooted (segments : List String)
  | flat (text : String)
  deriving DecidableEq, Repr

end Url

/-- A URL in parts. -/
structure Url where
  scheme : String
  authority : Option Url.Authority
  path : Url.Path
  query : Option String
  fragment : Option String
  deriving DecidableEq, Repr

namespace Url

/-- The schemes whose URLs always have a host and a path, and their ports. -/
def ports : List (String × Option Nat) :=
  [("http", some 80), ("https", some 443), ("ws", some 80), ("wss", some 443), ("ftp", some 21),
    ("file", none)]

/-- Whether a scheme is one of those. -/
def isSpecial (scheme : String) : Bool := (ports.lookup scheme).isSome

/-- The port of a scheme. -/
def defaultPort? (scheme : String) : Option Nat := (ports.lookup scheme).join

namespace Authority

/-- User name and password with the sign that ends them. -/
def renderUserinfo (a : Authority) : String :=
  if a.username = "" ∧ a.password = "" then ""
  else a.username ++ (if a.password = "" then "" else ":" ++ a.password) ++ "@"

/-- Host and port. -/
def renderHost (a : Authority) : String :=
  a.host.render ++ (match a.port with
    | some p => ":" ++ toString p
    | none => "")

/-- The text of an authority. -/
def render (a : Authority) : String := a.renderUserinfo ++ a.renderHost

end Authority

/-- The text of a path. -/
def Path.render : Path → String
  | rooted segments => String.join (segments.map ("/" ++ ·))
  | flat text => text

/-- A text behind a sign, if there is one. -/
def behind (sign : String) : Option String → String
  | some s => sign ++ s
  | none => ""

/-- The dot that keeps a path without authority from reading as one. -/
def guard (u : Url) : String :=
  match u.authority, u.path with
  | none, .rooted ("" :: _ :: _) => "/."
  | _, _ => ""

/-- Path and query. -/
def target (u : Url) : String := u.path.render ++ behind "?" u.query

/-- The text of a URL. -/
def render (u : Url) : String :=
  u.scheme ++ ":" ++ behind "//" (u.authority.map Authority.render) ++ u.guard ++ u.target ++
    behind "#" u.fragment

end Url
end TierTagger
