import TierTagger.Session

/-!
# A directory in memory

Machines, a taxonomy of tags and a log of attachments, with counters of what was asked and faults that
make operations fail. `Inventory.serve` answers calls from it.

An operation is one access to the inventory, except that of a connection the beginning and the end are
two: others may come in between.
-/

namespace TierTagger

open Directory (Fault Refusal)

/-- A directory in memory. -/
structure Inventory where
  /-- The hardware of machines by id. -/
  machines : List (String × Hardware)
  /-- The names of categories by id. -/
  categories : List (String × String)
  tags : List Tag
  /-- Tag ids and the objects they were attached to, in order. -/
  attachments : List (String × ObjectRef)
  faults : List Fault
  connects : Nat
  hardwareLookups : Nat
  categoryLookups : Nat
  logouts : Nat
  deriving DecidableEq, Repr

namespace Inventory

/-- A directory without content. -/
def empty : Inventory := ⟨[], [], [], [], [], 0, 0, 0, 0⟩

/-! ## Content -/

/-- Sets what a key stands for. -/
def insert {α : Type} (key : String) (a : α) (entries : List (String × α)) : List (String × α) :=
  entries.filter (·.1 ≠ key) ++ [(key, a)]

/-- Registers a machine. -/
def addMachine (id : String) (h : Hardware) (i : Inventory) : Inventory :=
  { i with machines := insert id h i.machines }

/-- Registers a category. -/
def addCategory (id name : String) (i : Inventory) : Inventory :=
  { i with categories := insert id name i.categories }

/-- Registers a tag behind those there are. -/
def addTag (t : Tag) (i : Inventory) : Inventory := { i with tags := i.tags ++ [t] }

/-- Makes an operation fail. -/
def addFault (f : Fault) (i : Inventory) : Inventory :=
  if i.faults.contains f then i else { i with faults := i.faults ++ [f] }

/-- Lets an operation succeed again. -/
def clearFault (f : Fault) (i : Inventory) : Inventory :=
  { i with faults := i.faults.filter (· ≠ f) }

/-! ## Operations -/

/-- The error of a fault. -/
def faultError : Fault → Directory.Error
  | .inventoryLogin => .inventoryLogin (.injected .inventoryLogin)
  | .taggingLogin => .taggingLogin (.injected .taggingLogin)
  | .logout => .logout (.injected .logout)
  | f => .rejected (.injected f)

/-- Goes on unless an operation was made to fail. -/
def orFault {α : Type} (i : Inventory) (f : Fault) (r : Except Directory.Error α) :
    Except Directory.Error α :=
  if i.faults.contains f then .error (faultError f) else r

/-- The id of a category with this name or id. -/
def categoryId? (i : Inventory) (category : String) : Option String :=
  (i.categories.find? fun (id, name) => id = category || name = category).map (·.1)

/-- Begins a connection. -/
def beginConnect (i : Inventory) : Inventory := { i with connects := i.connects + 1 }

/-- Ends a connection. The first login is given up if the second one fails. -/
def endConnect (i : Inventory) : Except Directory.Error Unit × Inventory :=
  if i.faults.contains .inventoryLogin then (.error (faultError .inventoryLogin), i)
  else if i.faults.contains .taggingLogin then
    (.error (faultError .taggingLogin), { i with logouts := i.logouts + 1 })
  else (.ok (), i)

/-- The hardware of a machine. One that is not registered has none. -/
def hardware (vm : ObjectRef) (i : Inventory) :
    Except Directory.Error (Option Hardware) × Inventory :=
  (i.orFault .retrieve (.ok (i.machines.lookup vm.value)),
    { i with hardwareLookups := i.hardwareLookups + 1 })

/-- The tags of a category in the order in which they were registered. -/
def tagsOf (category : String) (i : Inventory) : Except Directory.Error (List Tag) × Inventory :=
  (i.orFault .listTags <|
    match i.categoryId? category with
    | some id => .ok (i.tags.filter (·.categoryId = id))
    | none => .error (.categoryNotFound category),
    { i with categoryLookups := i.categoryLookups + 1 })

/-- Attaches a tag that is registered. -/
def attach (tagId : String) (vm : ObjectRef) (i : Inventory) :
    Except Directory.Error Unit × Inventory :=
  if i.faults.contains .attach then (.error (faultError .attach), i)
  else if i.tags.any (·.id = tagId) then
    (.ok (), { i with attachments := i.attachments ++ [(tagId, vm)] })
  else (.error (.rejected (.unknownTag tagId)), i)

/-- Ends a connection. -/
def logout (i : Inventory) : Except Directory.Error Unit × Inventory :=
  (i.orFault .logout (.ok ()), { i with logouts := i.logouts + 1 })

/-! ## Service -/

/-- An access to the inventory, or to the source of parameters. -/
inductive Access where
  | load
  | beginConnect
  | endConnect
  | hardware (vm : ObjectRef)
  | tagsOf (category : String)
  | attach (tagId : String) (vm : ObjectRef)
  | logout
  deriving DecidableEq, Repr

/-- What an access answers. -/
@[reducible] def Access.Answer : Access → Type
  | load => Except Configuration.Error Connection
  | beginConnect => Unit
  | endConnect => Except Directory.Error Unit
  | hardware _ => Except Directory.Error (Option Hardware)
  | tagsOf _ => Except Directory.Error (List Tag)
  | attach _ _ => Except Directory.Error Unit
  | logout => Except Directory.Error Unit

/-- Does one access. -/
def access (source : Configuration.Source) : (a : Access) → StateM Inventory a.Answer
  | .load => pure source.load
  | .beginConnect => fun i => ((), i.beginConnect)
  | .endConnect => endConnect
  | .hardware vm => Inventory.hardware vm
  | .tagsOf category => Inventory.tagsOf category
  | .attach tagId vm => Inventory.attach tagId vm
  | .logout => Inventory.logout

/-- Makes an access. -/
def ask (a : Access) : Dialogue Access.Answer a.Answer := Dialogue.question a

/-- Answers a call. The inventory hands out nothing for a connection. -/
def serve : (c : Call Unit) → Dialogue Access.Answer c.Answer
  | .load => ask .load
  | .connect _ => do
    let _ ← ask .beginConnect
    ask .endConnect
  | .hardware _ vm => ask (.hardware vm)
  | .tags _ category => ask (.tagsOf category)
  | .attach _ tagId vm => ask (.attach tagId vm)
  | .logout _ => ask .logout

/-- Answers a call at once. -/
def respond (source : Configuration.Source) (c : Call Unit) : StateM Inventory c.Answer :=
  (serve c).run (access source)

end Inventory
end TierTagger
