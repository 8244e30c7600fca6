import Mathlib.Algebra.Group.Prod
import Mathlib.Algebra.Order.Group.Multiset
import TierTagger.Directory.Inventory

/-!
# What accesses do to an inventory

An access answers by the content of the inventory alone (`told_content`), leaves the content as it
is (`accessed_content`), and adds to the records: the counters and the attachments (`accessed_tally`).
What it adds does not depend on the records either, so accesses can change places.

- `content`: the inventory without records.
- `tally`: the records, with the attachments in no order. Tallies are added.
- `cost`: what an access adds.
-/

namespace TierTagger.Inventory

/-- Counters and attachments: of attachments, connections, lookups of hardware and of categories,
and logouts. -/
abbrev Tally := Multiset (String × ObjectRef) × ℕ × ℕ × ℕ × ℕ

/-- The records of an inventory. -/
def tally (i : Inventory) : Tally :=
  (i.attachments, i.connects, i.hardwareLookups, i.categoryLookups, i.logouts)

/-- What an inventory answers by: all of it but the records. -/
def content (i : Inventory) : Inventory :=
  { i with
    attachments := []
    connects := 0
    hardwareLookups := 0
    categoryLookups := 0
    logouts := 0 }

variable (source : Configuration.Source) (i : Inventory)

/-- The answer to an access. -/
def told (a : Access) : a.Answer := ((access source a).run i).1

/-- The inventory after an access. -/
def accessed (a : Access) : Inventory := ((access source a).run i).2

/-- What both logins answer. -/
def login : Except Directory.Error Unit :=
  i.orFault .inventoryLogin (i.orFault .taggingLogin (.ok ()))

/-- The second login fails while the first one does not. -/
def halfLogin : Bool := !i.faults.contains .inventoryLogin && i.faults.contains .taggingLogin

theorem told_endConnect : told source i .endConnect = i.login := by
  show (endConnect i).1 = _
  unfold endConnect login orFault
  cases i.faults.contains .inventoryLogin <;> cases i.faults.contains .taggingLogin <;> rfl

theorem accessed_endConnect : accessed source i .endConnect =
    if i.halfLogin then { i with logouts := i.logouts + 1 } else i := by
  show (endConnect i).2 = _
  unfold endConnect halfLogin
  cases i.faults.contains .inventoryLogin <;> cases i.faults.contains .taggingLogin <;> rfl

/-- Nothing makes the attachment fail, and there is such a tag. -/
def attachable (tagId : String) : Bool :=
  !i.faults.contains .attach && i.tags.any (·.id = tagId)

theorem told_attach (tagId : String) (vm : ObjectRef) : told source i (.attach tagId vm) =
    i.orFault .attach (if i.tags.any (·.id = tagId) then .ok ()
      else .error (.rejected (.unknownTag tagId))) := by
  show (attach tagId vm i).1 = _
  unfold attach orFault
  cases i.faults.contains .attach <;> cases i.tags.any (·.id = tagId) <;> rfl

theorem accessed_attach (tagId : String) (vm : ObjectRef) : accessed source i (.attach tagId vm) =
    if i.attachable tagId then { i with attachments := i.attachments ++ [(tagId, vm)] } else i := by
  show (attach tagId vm i).2 = _
  unfold attach attachable
  cases i.faults.contains .attach <;> cases i.tags.any (·.id = tagId) <;> rfl

theorem orFault_eq_ok {α : Type} {f : Directory.Fault} {r : Except Directory.Error α} {a : α} :
    i.orFault f r = .ok a ↔ f ∉ i.faults ∧ r = .ok a := by
  unfold orFault
  split <;> simp_all

theorem halfLogin_of_login {i : Inventory} (ok : i.login = .ok ()) : i.halfLogin = false := by
  obtain ⟨-, tagging⟩ := (i.orFault_eq_ok).mp ok
  obtain ⟨none, -⟩ := (i.orFault_eq_ok).mp tagging
  simp [halfLogin, none]

theorem told_attach_eq_ok {tagId : String} {vm : ObjectRef} :
    told source i (.attach tagId vm) = .ok () ↔ i.attachable tagId = true := by
  rw [told_attach, orFault_eq_ok, attachable]
  cases i.tags.any (·.id = tagId) <;> simp

/-- The answer depends on the content alone. -/
theorem told_content (a : Access) : told source i.content a = told source i a := by
  cases a with
  | endConnect => rw [told_endConnect, told_endConnect]; rfl
  | attach tagId vm => rw [told_attach, told_attach]; rfl
  | _ => rfl

/-- The content stays. -/
@[simp] theorem accessed_content (a : Access) : (accessed source i a).content = i.content := by
  cases a with
  | endConnect => rw [accessed_endConnect]; cases i.halfLogin <;> rfl
  | attach tagId vm => rw [accessed_attach]; cases i.attachable tagId <;> rfl
  | _ => rfl

/-- What an access adds to the records. -/
def cost (a : Access) : Tally := (accessed source i.content a).tally

@[simp] theorem cost_content (a : Access) : cost source i.content a = cost source i a := rfl

theorem accessed_tally (a : Access) :
    (accessed source i a).tally = i.tally + cost source i a := by
  cases a with
  | endConnect =>
    rw [cost, accessed_endConnect, accessed_endConnect,
      show i.content.halfLogin = i.halfLogin from rfl]
    cases i.halfLogin
    · exact (add_zero _).symm
    · exact Prod.ext (add_zero _).symm rfl
  | attach tagId vm =>
    rw [cost, accessed_attach, accessed_attach,
      show i.content.attachable tagId = i.attachable tagId from rfl]
    cases i.attachable tagId
    · exact (add_zero _).symm
    · exact Prod.ext (Multiset.coe_add ..).symm rfl
  | load => exact (add_zero _).symm
  | _ => exact Prod.ext (add_zero _).symm rfl

/-- Attachments are added behind those there are. -/
theorem prefix_accessed (a : Access) : i.attachments <+: (accessed source i a).attachments := by
  cases a with
  | endConnect => rw [accessed_endConnect]; cases i.halfLogin <;> exact List.prefix_rfl
  | attach tagId vm =>
    rw [accessed_attach]
    cases i.attachable tagId
    · exact List.prefix_rfl
    · exact List.prefix_append ..
  | _ => exact List.prefix_rfl

end TierTagger.Inventory
