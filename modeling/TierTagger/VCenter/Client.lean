import TierTagger.Session
import TierTagger.VCenter.Models
import TierTagger.VCenter.Session

/-!
# The vCenter client

How calls to a directory turn into requests to a vCenter server. Requests about machines are made in the
inventory session, all others in the tagging session.

* `hardware`, `tags`, `attach`: the operations of a directory.
* `serve`: all calls, worked out as exchanges.
-/

namespace TierTagger.VCenter

open Directory (Failure)
open Http (Exchange Request)

/-! ## Requests -/

/-- A request in a session. -/
def request (link : Link) (token : String) (method : Http.Method) (segments : List String)
    (query body : Option String) : Except Directory.Error Request :=
  match address link.base segments query with
  | .ok url => .ok { Request.ofUrl method url with token := some token, body }
  | .error e => .error (.rejected e)

/-- A request in the tagging session. -/
def taggingRequest (link : Link) (method : Http.Method) (rest : List String) (query : Option String)
    (body : Option String) : Except Directory.Error Request :=
  request link link.tagging method (taggingPath rest) query body

/-- An exchange as part of a call. -/
def part {α : Type} (x : Attempt Failure α) : Attempt Directory.Error α :=
  Dialogue.attempt .failed x.run

/-! ## Calls -/

/-- The hardware of a machine. An unknown machine has none. -/
def hardware (link : Link) (vm : ObjectRef) : Attempt Directory.Error (Option Hardware) := do
  let id ← Dialogue.check .rejected (objectId vm.value)
  let r ← request link link.inventory .get (machinePath id) none none
  let response ← part (send r)
  if response.1 = 404 then return none
  let body ← Dialogue.check .failed (granted .machine response)
  let machine ← Dialogue.check .failed (decoded Machine.decoder body)
  return machine.hardware?

/-- The id of the first category with a name, of those with the given ids. -/
def categoryNamed (link : Link) (name : String) : List String → Attempt Directory.Error String
  | [] => throw (.categoryNotFound name)
  | id :: rest => do
    let r ← taggingRequest link .get ["category", id] none none
    let category ← part (fetch .category Category.decoder r)
    if category.name = name then return category.id
    categoryNamed link name rest

/-- The id of a category that is given by its name or id. -/
def categoryId (link : Link) (category : String) : Attempt Directory.Error String := do
  let r ← taggingRequest link .get ["category"] none none
  let ids ← part (fetch .categories idsDecoder r)
  if ids.contains category then return category
  categoryNamed link category ids

/-- The tag with an id. -/
def tag (link : Link) (id : String) : Attempt Directory.Error Tag := do
  let r ← taggingRequest link .get ["tag", id] none none
  part (fetch .tag tagDecoder r)

/-- The tags of a category, in the order in which the server lists them. -/
def tags (link : Link) (category : String) : Attempt Directory.Error (List Tag) := do
  let id ← categoryId link category
  let r ← taggingRequest link .post ["tag"] (some "action=list-tags-for-category")
    (some (categoryBody id))
  let ids ← part (fetch .tagsOfCategory idsDecoder r)
  ids.mapM (tag link)

/-- Attaches a tag. -/
def attach (link : Link) (tagId : String) (vm : ObjectRef) : Attempt Directory.Error Unit := do
  let id ← Dialogue.check .rejected (objectId tagId)
  let r ← taggingRequest link .post ["tag-association", id] (some "action=attach")
    (some (objectBody vm))
  let _ ← part (grant .attach r)

/-! ## Service -/

/-- A request, or an access to the source of parameters. -/
inductive Step where
  | load
  | request (r : Request)

/-- What a step answers. -/
@[reducible] def Step.Answer : Step → Type
  | load => Except Configuration.Error Connection
  | request _ => Http.Answer

/-- An exchange in steps. -/
def steps {α : Type} (x : Exchange α) : Dialogue Step.Answer α :=
  x.run fun r => Dialogue.question (A := Step.Answer) (.request r)

/-- Works out a call. -/
def serve (site : Site) : (c : Call Link) → Dialogue Step.Answer c.Answer
  | .load => Dialogue.question (A := Step.Answer) .load
  | .connect c => steps (connect site c)
  | .hardware link vm => steps (hardware link vm)
  | .tags link category => steps (tags link category)
  | .attach link tagId vm => steps (attach link tagId vm)
  | .logout link => steps (logout link)

/-- Answers a step from a source and a network; the state holds the requests so far. -/
def perform (source : Configuration.Source) (network : Http.Network) :
    (s : Step) → StateM (List Request) s.Answer
  | .load => pure source.load
  | .request r => Dialogue.replying network r

/-- Answers a call at once. -/
def respond (site : Site) (source : Configuration.Source) (network : Http.Network) (c : Call Link) :
    StateM (List Request) c.Answer :=
  (serve site c).run (perform source network)

end TierTagger.VCenter
