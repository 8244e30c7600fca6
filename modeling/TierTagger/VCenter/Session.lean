import TierTagger.Json.Decoder
import TierTagger.VCenter.Address

/-!
# Sessions with vCenter

A connection is two logins with the same credentials, one for the inventory and one for tagging. If the
second one fails, the first session is given up. A logout ends both, whatever becomes of the first.
-/

namespace TierTagger.VCenter

open Directory (Endpoint Failure)
open Http (Exchange Request)

/-- What a connection consists of: the base address and the tokens of its sessions. -/
structure Link where
  base : String
  inventory : String
  tagging : String
  deriving DecidableEq, Repr

/-! ## Exchanges -/

/-- An exchange that may fail. -/
abbrev Attempt (ε α : Type) := Dialogue.Attempt (fun _ : Request => Http.Answer) ε α

/-- Makes a request and takes the status and the body of the response. -/
def send (r : Request) : Attempt Failure (Nat × Bytes) :=
  Dialogue.attempt .http r.send

/-- Whether a status says that the request was granted. -/
def isSuccess (status : Nat) : Bool := 200 ≤ status && status < 300

/-- The body of a response whose status is a success. -/
def granted (endpoint : Endpoint) (response : Nat × Bytes) : Except Failure Bytes :=
  if isSuccess response.1 then .ok response.2 else .error (.status endpoint response.1)

/-- The value in a body. -/
def decoded {α : Type} (d : Json.Decoder α) (body : Bytes) : Except Failure α :=
  match d.decode body with
  | .ok a => .ok a
  | .error _ => .error (.http .undecodable)

/-- Makes a request that has to be granted and takes the body of the response. -/
def grant (endpoint : Endpoint) (r : Request) : Attempt Failure Bytes := do
  granted endpoint (← send r)

/-- Makes a request that has to be granted and reads the value in the response. -/
def fetch {α : Type} (endpoint : Endpoint) (d : Json.Decoder α) (r : Request) : Attempt Failure α := do
  decoded d (← grant endpoint r)

/-! ## Logins -/

/-- A request to the sessions of a server. -/
def sessionRequest (method : Http.Method) (base : String) : Except Failure Request :=
  match sessionAddress base with
  | .ok url => .ok (.ofUrl method url)
  | .error _ => .error (.http .unstated)

/-- Logs in and takes the token of the session. -/
def login (base : String) (c : Connection) : Attempt Failure String := do
  let r ← sessionRequest .post base
  fetch .login .text { r with credentials := r.credentials ++ [Http.basic c.user c.password] }

/-- Ends a session. -/
def endSession (base token : String) : Attempt Failure Unit := do
  let r ← sessionRequest .delete base
  let _ ← grant .logout { r with token := some token }

/-- Logs in twice. -/
def connect (site : Site) (c : Connection) : Exchange (Except Directory.Error Link) := do
  let base := site.baseFor c
  match ← (login base c).run with
  | .error e => return .error (.inventoryLogin (.exchange e))
  | .ok inventory =>
    match ← (login base c).run with
    | .ok tagging => return .ok ⟨base, inventory, tagging⟩
    | .error e =>
      let _ ← (endSession base inventory).run
      return .error (.taggingLogin (.exchange e))

/-- Ends both sessions, the second one whatever becomes of the first. -/
def logout (link : Link) : Exchange (Except Directory.Error Unit) := do
  let failure (r : Except Failure Unit) : Option Failure :=
    match r with
    | .ok _ => none
    | .error e => some e
  let inventory := failure (← (endSession link.base link.inventory).run)
  let tagging := failure (← (endSession link.base link.tagging).run)
  if inventory.isNone ∧ tagging.isNone then return .ok ()
  else return .error (.logout (.sessions inventory tagging))

end TierTagger.VCenter
