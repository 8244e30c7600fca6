import TierTagger.Wire

/-!
# Bodies

The JSON bodies of the exchanges with vCenter. In responses unknown members are passed over.
-/

namespace TierTagger.VCenter

open Json

/-! ## Responses -/

/-- A list of ids. -/
def idsDecoder : Decoder (List String) := .list .text

/-- How many CPUs a machine has. -/
def cpuRecord : Record UInt32 where
  name := "CpuInfo"
  blank := 0
  fields := [.of "count" .required (.natural limit32 "u32") fun n _ => .ofNat n]

/-- How much memory a machine has. -/
def memoryRecord : Record UInt64 where
  name := "MemoryInfo"
  blank := 0
  fields := [.of "size_MiB" .required (.natural limit64 "u64") fun n _ => .ofNat n]

/-- What the record of a machine says of its hardware. -/
structure Machine where
  cpu : Option UInt32
  memory : Option UInt64
  deriving DecidableEq, Repr, Inhabited

namespace Machine

/-- The record of a machine. -/
def record : Record Machine where
  name := "VmInfo"
  blank := ⟨none, none⟩
  fields := [
    .of "cpu" .optional cpuRecord.decoder.nullable fun c m => { m with cpu := c },
    .of "memory" .optional memoryRecord.decoder.nullable fun s m => { m with memory := s }]

/-- Reads the record of a machine. -/
def decoder : Decoder Machine := record.decoder

/-- The hardware, if the record has both parts of it. -/
def hardware? (m : Machine) : Option Hardware :=
  match m.cpu, m.memory with
  | some cpus, some memoryMB => some ⟨cpus, memoryMB⟩
  | _, _ => none

end Machine

/-- A category. -/
structure Category where
  id : String
  name : String
  deriving DecidableEq, Repr, Inhabited

namespace Category

/-- The record of a category. -/
def record : Record Category where
  name := "CategoryModel"
  blank := default
  fields := [
    .of "id" .required .text fun t c => { c with id := t },
    .of "name" .required .text fun t c => { c with name := t }]

/-- Reads a category. -/
def decoder : Decoder Category := record.decoder

end Category

/-- Reads a tag. -/
def tagDecoder : Decoder Tag := (Tag.record "TagModel").decoder

/-! ## Requests -/

/-- Asks for the tags of a category. -/
def categoryBody (id : String) : String := Writer.object [("category_id", Writer.text id)]

/-- Names the object that a tag is attached to. -/
def objectBody (vm : ObjectRef) : String :=
  Writer.object [("object_id",
    Writer.object [("id", Writer.text vm.value), ("type", Writer.text vm.kind)])]

end TierTagger.VCenter
