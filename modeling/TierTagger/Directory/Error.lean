import TierTagger.Http.Client
import TierTagger.Text.Quoted

/-!
# Errors of the directory

Why an operation of the directory fails. An exchange with a server fails without a usable response or
with a status that is no success; a directory in memory fails where a fault was injected.
-/

namespace TierTagger.Directory

/-- What is asked of a server. -/
inductive Endpoint where
  | login
  | logout
  | machine
  | categories
  | category
  | tagsOfCategory
  | tag
  | attach
  deriving DecidableEq, Repr

/-- The name of an endpoint in a diagnosis. -/
def Endpoint.name : Endpoint → String
  | login => "POST /api/session"
  | logout => "DELETE /api/session"
  | machine => "get vm"
  | categories => "list categories"
  | category => "get category"
  | tagsOfCategory => "list tags for category"
  | tag => "get tag"
  | attach => "attach tag"

/-- Why an exchange fails. -/
inductive Failure where
  | http (reason : Http.Error)
  | status (endpoint : Endpoint) (code : Nat)
  deriving DecidableEq, Repr

/-- The wording of a failure. -/
def Failure.message : Failure → String
  | http reason => "http request failed: " ++ reason.message
  | status endpoint code => endpoint.name ++ " returned status " ++ toString code

/-- The operations that can be made to fail. -/
inductive Fault where
  | inventoryLogin
  | taggingLogin
  | retrieve
  | listTags
  | attach
  | logout
  deriving DecidableEq, Repr

/-- The name of a fault. -/
def Fault.name : Fault → String
  | inventoryLogin => "InventoryLogin"
  | taggingLogin => "TaggingLogin"
  | retrieve => "Retrieve"
  | listTags => "ListTags"
  | attach => "Attach"
  | logout => "Logout"

/-- The wording of a failure that was injected. -/
def Fault.message (f : Fault) : String := "injected " ++ f.name ++ " failure"

/-- Why nobody was logged in. -/
inductive LoginFailure where
  | exchange (reason : Failure)
  | injected (fault : Fault)
  deriving DecidableEq, Repr

/-- The wording of a login failure. -/
def LoginFailure.message : LoginFailure → String
  | exchange reason => reason.message
  | injected fault => fault.message

/-- Why a request is not made. -/
inductive Refusal where
  | invalidId (id : String)
  | invalidBase (base : String) (reason : Url.Error)
  | baseWithoutPath (base : String)
  | unknownTag (id : String)
  | injected (fault : Fault)
  deriving DecidableEq, Repr

/-- The wording of a refusal. -/
def Refusal.message : Refusal → String
  | invalidId id => "invalid object id " ++ Text.Quoted.render id
  | invalidBase base reason => "invalid base url " ++ base ++ ": " ++ reason.message
  | baseWithoutPath base => "base url " ++ base ++ " has no path"
  | unknownTag id => "tag " ++ id ++ " does not exist"
  | injected fault => fault.message

/-- Why a logout was not clean. -/
inductive LogoutFailure where
  /-- What went wrong with the inventory session and with the tagging session. -/
  | sessions (inventory tagging : Option Failure)
  | injected (fault : Fault)
  deriving DecidableEq, Repr

/-- The wording of a logout failure. -/
def LogoutFailure.message : LogoutFailure → String
  | sessions inventory tagging =>
    "; ".intercalate ((inventory.map fun f => "inventory: " ++ f.message).toList ++
      (tagging.map fun f => "tagging: " ++ f.message).toList)
  | injected fault => fault.message

/-- Why an operation of the directory fails. -/
inductive Error where
  | inventoryLogin (reason : LoginFailure)
  | taggingLogin (reason : LoginFailure)
  | failed (reason : Failure)
  | categoryNotFound (category : String)
  | rejected (reason : Refusal)
  | logout (reason : LogoutFailure)
  deriving DecidableEq, Repr

/-- The wording of an error. -/
def Error.message : Error → String
  | inventoryLogin reason => "log in to inventory api failed: " ++ reason.message
  | taggingLogin reason => "log in to tagging api failed: " ++ reason.message
  | failed reason => reason.message
  | categoryNotFound category => "category not found: " ++ category
  | rejected reason => "request rejected: " ++ reason.message
  | logout reason => "logout failed: " ++ reason.message

end TierTagger.Directory
