import TierTagger.Proofs.Inventory.Content
import TierTagger.Proofs.VCenter.Server
import TierTagger.Proofs.Wire

/-!
# A server that answers from an inventory

There is a server for every consistent inventory: `answering` looks everything up and writes it in JSON.
What it writes is what an inventory of that content tells (`serves_answering`).
-/

namespace TierTagger.VCenter

open Http (Answer Request)
open Json (Spells Writer.text listText spells_text)

variable {i : Inventory}

/-- A request is granted, with a body. -/
def grants (body : String) : Answer := .response 200 (Utf8.encode body)

/-- Nothing is known of what is asked for. -/
def unknown : Answer := .response 404 []

/-- The token of every session. -/
def sessionToken : String := "token"

/-- The answer to what is asked, looked up in an inventory. -/
def reply (i : Inventory) : Asked → Answer
  | .login => grants (Writer.text sessionToken)
  | .machine id => ((i.machines.lookup id).map fun h => grants (machineText h)).getD unknown
  | .categories => grants (listText ((i.categories.map (·.1)).map Writer.text))
  | .category id => ((i.categories.lookup id).map fun name => grants (categoryText ⟨id, name⟩)).getD unknown
  | .tagsOf category =>
    grants (listText (((i.tags.filter (·.categoryId = category)).map (·.id)).map Writer.text))
  | .tag id => ((i.tags.find? (·.id = id)).map fun t => grants t.toJson).getD unknown
  | .attach id _ => if i.tags.any (·.id = id) then .response 204 [] else unknown

/-- The server answers what is asked of it, whatever was asked before. -/
def Server.answering (server : Server) (i : Inventory) : Http.Network := fun _ r =>
  ((server.asked? r).map (reply i)).getD unknown

theorem tells_grants {α : Type} {d : Json.Decoder α} {w : String} {a : α} (spells : Spells d w a) :
    Tells d a (grants w) :=
  ⟨200, _, rfl, by decide, by decide, spells.decode⟩

/-- What is looked up is what the inventory tells. -/
theorem documented_reply (consistent : i.Consistent) (q : Asked) : Documented i q (reply i q) := by
  cases q with
  | login => trivial
  | machine id =>
    show TellsHardware (i.machines.lookup id) (reply i (.machine id))
    simp only [reply]
    cases i.machines.lookup id with
    | none => exact ⟨[], rfl⟩
    | some h => exact ⟨⟨some h.cpus, some h.memoryMB⟩, tells_grants (spells_machine h), rfl⟩
  | categories => exact ⟨_, tells_grants (spells_ids _), .rfl⟩
  | category id =>
    intro name mem
    simp only [reply, consistent.lookup_eq mem]
    exact tells_grants (spells_category ⟨id, name⟩)
  | tagsOf category =>
    intro _
    exact tells_grants (spells_ids _)
  | tag id =>
    rintro t mem rfl
    simp only [reply, consistent.find?_eq mem]
    exact tells_grants (t.spells "TagModel")
  | attach id vm =>
    intro mem
    obtain ⟨t, within, rfl⟩ := List.mem_map.mp mem
    have there : i.tags.any (·.id = t.id) = true := List.any_eq_true.mpr ⟨t, within, by simp⟩
    exact ⟨204, [], if_pos there, by decide, by decide⟩

/-- A server for every consistent inventory. Everybody has an account. -/
theorem serves_answering (server : Server) (consistent : i.Consistent) :
    server.Serves i (fun _ => True) (server.answering i) := by
  have answer {before : List Request} {r : Request} {q : Asked} (asks : server.asked? r = some q) :
      server.answering i before r = reply i q := by
    simp [Server.answering, asks]
  constructor
  · intro before r account asks _ _ _
    rw [answer asks]
    exact ⟨sessionToken, tells_grants (spells_text sessionToken), by decide⟩
  · intro before r q t asks _ _
    rw [answer asks]
    exact documented_reply consistent q

end TierTagger.VCenter
