import TierTagger.Text.Quoted

/-!
# Connection parameters

Where the directory is and who logs in. Server, user and password have to be given;
`Connection.missing?` finds the first that is not. The password never shows in a diagnosis.
-/

namespace TierTagger

/-- The address of the directory and the credentials for it. -/
structure Connection where
  server : String
  user : String
  password : String
  /-- Skip the verification of certificates. -/
  insecure : Bool
  deriving DecidableEq, Repr, Inhabited

namespace Connection

/-- The parameters that have to be given. -/
inductive Parameter where
  | server
  | user
  | password
  deriving DecidableEq, Repr

/-- The name of a parameter in a diagnosis. -/
def Parameter.title : Parameter → String
  | server => "vcenter server"
  | user => "vcenter user"
  | password => "vcenter password"

/-- The first parameter that is empty, in the order server, user, password. -/
def missing? (c : Connection) : Option Parameter :=
  if c.server = "" then some .server
  else if c.user = "" then some .user
  else if c.password = "" then some .password
  else none

/-- The parameters for a diagnosis, without the password. -/
def debug (c : Connection) : String :=
  "ConnectionParams \x7b server: " ++ Text.Quoted.render c.server ++
    ", user: " ++ Text.Quoted.render c.user ++
    ", password: \"<redacted>\", insecure: " ++ toString c.insecure ++ " \x7d"

end Connection
end TierTagger
