import TierTagger.Dialogue
import TierTagger.Reply
import TierTagger.Trigger.Body

/-!
# The trigger

A server that hands the body of each request to a handler and writes the reply back as plain text,
whatever the method and the target of the request are.

* `serve`: the response to what arrives on a connection; the handler is asked at most once.
* `Response.bytes`: the response as it is sent.
-/

namespace TierTagger.Trigger

/-- The most bytes that a body may have, unless another limit is given. -/
def defaultLimit : Nat := 1024 * 1024

/-- A response. -/
structure Response where
  status : Nat
  contentType : Option String
  body : Bytes
  deriving DecidableEq, Repr

/-- The content type of replies. -/
def plainText : String := "text/plain; charset=utf-8"

/-- A reply as a response. A status that does not exist becomes 500. -/
def Response.ofReply (r : Reply) : Response :=
  ⟨if 100 ≤ r.status ∧ r.status < 1000 then r.status else 500, some plainText, r.body⟩

/-- The response to what is no request. -/
def Response.badRequest : Response := ⟨400, none, []⟩

/-- A computation that asks the handler, which gets a body and gives a reply. -/
abbrev Handling := Dialogue (fun _ : Bytes => Reply)

/-- The reply to a request. The handler is asked about a body that is taken. -/
def invoke : Verdict → Handling Reply
  | .taken body => Dialogue.question body
  | .tooLarge limit =>
    pure (.internalError ("request body exceeds " ++ toString limit ++ " bytes"))
  | .brokenOff =>
    pure (.internalError "reading request body: error reading a body from connection")

/-- The response to a request of whose body this arrives. -/
def respond (limit : Nat) (a : Arrival) : Handling Response := do
  return .ofReply (← invoke (a.verdict limit))

/-- The response to what arrives on a connection; a head that is cut short gets none. -/
def serve (limit : Nat) (input : Bytes) : Handling (Option Response) :=
  match Head.read input with
  | .error .cutShort => pure none
  | .error .malformed => pure (some .badRequest)
  | .ok (head, rest) =>
    match head.framing with
    | none => pure (some .badRequest)
    | some f => return some (← respond limit (f.read rest))

/-- Whether a response to the method has a body. -/
def Response.hasBody (method : Bytes) (r : Response) : Bool :=
  method ≠ Head.ascii "HEAD" && r.status ≠ 204 && r.status ≠ 304

/-- The response as it is sent, on a connection that is closed after it. -/
def Response.bytes (method : Bytes) (r : Response) : Bytes :=
  let line (s : String) : Bytes := Utf8.encode s ++ [Ascii.return_, Ascii.lineFeed]
  line ("HTTP/1.1 " ++ toString r.status ++ " ") ++
    (r.contentType.map fun t => line ("content-type: " ++ t)).getD [] ++
    line ("content-length: " ++ toString r.body.length) ++ line "connection: close" ++ line "" ++
    (if r.hasBody method then r.body else [])

end TierTagger.Trigger
