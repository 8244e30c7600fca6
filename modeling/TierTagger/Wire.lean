import TierTagger.Alarm.Event
import TierTagger.Connection
import TierTagger.Directory.Tag
import TierTagger.Json.Writer

/-!
# JSON forms

How the values that are exchanged are written in JSON, and their decoders. A reference is decoded as
in an event.

* `ObjectRef`: `Type`, `Value`. `Hardware`: `num_cpu`, `memory_mb`. `Tag`: `id`, `name`, `category_id`.
* `Resource`: one of three names. `Tier`: its bare name.
* `Connection`: `Server`, `User`, `Password`, `Insecure`, each of them optional, and `Settings`, the
  content of a configuration, with the connection as its only member.
-/

namespace TierTagger

open Json

/-- One more than the largest natural of 32 and of 64 bits. -/
def limit32 : Nat := Nat.pow 2 32
def limit64 : Nat := Nat.pow 2 64

namespace ObjectRef

/-- Writes a reference. -/
def toJson (r : ObjectRef) : String :=
  Writer.object [("Type", Writer.text r.kind), ("Value", Writer.text r.value)]

end ObjectRef

namespace Resource

/-- The names of the resources. -/
def names : List (String × Resource) :=
  [("Cpu", .cpu), ("Memory", .memory), ("Unclassified", .unclassified)]

/-- Reads a resource. -/
def decoder : Decoder Resource := .choice names

/-- Writes a resource. -/
def toJson : Resource → String
  | cpu => Writer.text "Cpu"
  | memory => Writer.text "Memory"
  | unclassified => Writer.text "Unclassified"

end Resource

namespace Hardware

/-- The members of a hardware record. -/
def record : Record Hardware where
  name := "VmHardware"
  blank := ⟨0, 0⟩
  fields := [
    .of "num_cpu" .required (.natural limit32 "u32") fun n h => { h with cpus := .ofNat n },
    .of "memory_mb" .required (.natural limit64 "u64") fun n h => { h with memoryMB := .ofNat n }]

/-- Reads a hardware record. -/
def decoder : Decoder Hardware := record.decoder

/-- Writes a hardware record. -/
def toJson (h : Hardware) : String :=
  Writer.object [("num_cpu", Writer.natural h.cpus.toNat),
    ("memory_mb", Writer.natural h.memoryMB.toNat)]

end Hardware

namespace Tier

/-- Reads a tier. -/
def decoder : Decoder Tier := Decoder.text.map .mk

/-- Writes a tier. -/
def toJson (t : Tier) : String := Writer.text t.name

end Tier

namespace Tag

/-- The members of a tag, in a record of the given name. -/
def record (name : String) : Record Tag where
  name := name
  blank := default
  fields := [
    .of "id" .required .text fun t l => { l with id := t },
    .of "name" .required .text fun t l => { l with name := t },
    .of "category_id" .required .text fun t l => { l with categoryId := t }]

/-- Reads a tag. -/
def decoder : Decoder Tag := (record "Label").decoder

/-- Writes a tag. -/
def toJson (t : Tag) : String :=
  Writer.object [("id", Writer.text t.id), ("name", Writer.text t.name),
    ("category_id", Writer.text t.categoryId)]

end Tag

namespace Connection

/-- The members of connection parameters. -/
def record : Record Connection where
  name := "ConnectionParams"
  blank := default
  fields := [
    .of "Server" .defaulted .text fun t c => { c with server := t },
    .of "User" .defaulted .text fun t c => { c with user := t },
    .of "Password" .defaulted .text fun t c => { c with password := t },
    .of "Insecure" .defaulted .boolean fun b c => { c with insecure := b }]

/-- Reads connection parameters. -/
def decoder : Decoder Connection := record.decoder

/-- Writes connection parameters. -/
def toJson (c : Connection) : String :=
  Writer.object [("Server", Writer.text c.server), ("User", Writer.text c.user),
    ("Password", Writer.text c.password), ("Insecure", Writer.boolean c.insecure)]

end Connection

/-- The content of a configuration. -/
structure Settings where
  connection : Connection
  deriving DecidableEq, Repr

namespace Settings

/-- The members of a configuration. -/
def record : Record Settings where
  name := "VcConfig"
  blank := ⟨default⟩
  fields := [.of "VCenter" .required Connection.decoder fun c _ => ⟨c⟩]

/-- Reads a configuration. -/
def decoder : Decoder Settings := record.decoder

/-- Writes a configuration. -/
def toJson (s : Settings) : String := Writer.object [("VCenter", s.connection.toJson)]

end Settings
end TierTagger
