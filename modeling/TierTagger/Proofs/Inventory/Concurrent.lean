import TierTagger.Proofs.Inventory.Effect
import TierTagger.Proofs.Inventory.Forecast
import TierTagger.Proofs.Session.Serial

/-!
# Payloads beside each other

Any number of payloads that are handled beside each other on one inventory, in any order of their
steps, come to the same as one after the other, in any order.

- **One after the other** (`inOrder`): it is one of the interleavings (`exists_trace_inOrder`), so
  the forecast holds of it, too.
- **The same records** (`SameRecords`): inventories that differ by the order of new attachments
  only.
- `steps_serial`: replies, counters, attachments and the session do not depend on the interleaving.
-/

namespace TierTagger.Inventory

open Sessions (Log Pool hold hold_refine refine refine_mapM)
open Tagging (handle)

variable (source : Configuration.Source) (s : Sessions Unit) (i : Inventory)

/-! ## One after the other -/

/-- The reply to a payload that is handled without others. -/
def aloneReply (payload : Bytes) : Reply :=
  (((hold (respond source) (handle payload)).run s).run i).1.1

/-- The replies, the shared state and the inventory after payloads that are handled one after the
other. -/
def inOrder (payloads : List Bytes) : (List Reply × Sessions Unit) × Inventory :=
  ((hold (respond source) (payloads.mapM handle)).run s).run i

theorem ofPayload_outside (payloads : List Bytes) :
    ∀ stage ∈ payloads.map Stage.ofPayload, ¬Stage.protocol.Holds stage := by
  intro stage mem
  obtain ⟨payload, -, rfl⟩ := List.mem_map.mp mem
  exact Stage.ofPayload_outside payload

/-- The pool of payloads before the first step. -/
theorem start_eq (payloads : List Bytes) :
    Pool.start s i (payloads.map fun payload => refine serve (handle payload)) =
      .start s i ((payloads.map Stage.ofPayload).map Stage.protocol.rest) := by
  rw [List.map_map]
  exact congrArg (Pool.start s i) (List.map_congr_left fun payload _ => refine_handle payload)

/-- To handle payloads one after the other is one of the interleavings. -/
theorem exists_trace_inOrder (payloads : List Bytes) : ∃ h p stages,
    Trace source s i (payloads.map Stage.ofPayload) h p stages ∧
      p.results? = some (inOrder source s i payloads).1.1 ∧
      p.sessions = (inOrder source s i payloads).1.2 ∧
      p.world = (inOrder source s i payloads).2 := by
  have code : (hold (respond source) (payloads.mapM handle)).run s =
      (hold (access source) ((payloads.map Stage.ofPayload).mapM Stage.protocol.rest)).run s := by
    rw [List.mapM_map, show respond source = fun c => (serve c).run (access source) from rfl,
      ← hold_refine, refine_mapM]
    simp only [refine_handle]
    rfl
  obtain ⟨rs, s', i', run, steps⟩ :=
    Stage.protocol.steps_mapM (access source) s i [] (ofPayload_outside payloads)
  obtain ⟨h, stages, trace⟩ := steps.traced (ofPayload_outside payloads)
  have same : inOrder source s i payloads = ((rs, s'), i') := by
    rw [inOrder, code, run]
  rw [same]
  exact ⟨h, _, stages, trace, Pool.results?_eq_some.mpr rfl, rfl, rfl⟩

/-- A payload that is handled without others gets the reply that was forecast. -/
theorem aloneReply_eq (payload : Bytes) : aloneReply source s i payload =
    (Stage.ofPayload payload).reply source i (refusal? i s.installed) := by
  have single : (inOrder source s i [payload]).1.1 = [aloneReply source s i payload] := by
    rw [inOrder, List.mapM_cons, Sessions.hold_bind]
    rfl
  obtain ⟨h, p, stages, trace, ended, -⟩ := exists_trace_inOrder source s i [payload]
  rw [single] at ended
  exact (List.singleton_inj.mp (congrArg Forecast.replies (trace.forecast_over ended))).symm

/-! ## The same records -/

/-- Two inventories that come from `i` have the same content and the same records, with the new
attachments in any order. -/
structure SameRecords (i a b : Inventory) : Prop where
  content : a.content = b.content
  attachments : ∃ new new', a.attachments = i.attachments ++ new ∧
    b.attachments = i.attachments ++ new' ∧ new.Perm new'
  connects : a.connects = b.connects
  hardwareLookups : a.hardwareLookups = b.hardwareLookups
  categoryLookups : a.categoryLookups = b.categoryLookups
  logouts : a.logouts = b.logouts

variable {i} {a b : Inventory}

theorem sameRecords_of_tally (content : a.content = b.content) (tally : a.tally = b.tally)
    (more : i.attachments <+: a.attachments) (more' : i.attachments <+: b.attachments) :
    SameRecords i a b := by
  obtain ⟨new, added⟩ := more
  obtain ⟨new', added'⟩ := more'
  have all : a.attachments.Perm b.attachments := Multiset.coe_eq_coe.mp (congrArg Prod.fst tally)
  have counters := congrArg Prod.snd tally
  refine ⟨content, ⟨new, new', added.symm, added'.symm, ?_⟩, congrArg (·.1) counters,
    congrArg (·.2.1) counters, congrArg (·.2.2.1) counters, congrArg (·.2.2.2) counters⟩
  rw [← added, ← added'] at all
  exact (List.perm_append_left_iff _).mp all

/-! ## Any interleaving -/

variable (i) in
/-- The forecast does not depend on the order of payloads. -/
theorem forecast_perm (refusal : Option Directory.Error) {stages stages' : List Stage}
    (perm : stages.Perm stages') :
    (forecast source i refusal (.start s i []) stages).tally =
        (forecast source i refusal (.start s i []) stages').tally ∧
      (forecast source i refusal (.start s i []) stages).sessions =
        (forecast source i refusal (.start s i []) stages').sessions := by
  have same : session source i refusal (.start s i []) stages =
      session source i refusal (.start s i []) stages' := by
    unfold session
    rw [perm.any_eq]
    rfl
  unfold forecast
  rw [same, (perm.map _).sum_eq]
  exact ⟨rfl, rfl⟩

/-- What holds at a state `p` to which `payloads` came from the shared state `s` and the inventory
`i`. -/
structure Serial (source : Configuration.Source) (s : Sessions Unit) (i : Inventory)
    (payloads : List Bytes) (p : Pool Unit Inventory Access.Answer Reply) : Prop where
  /-- Somebody can do a step, unless all are over. -/
  progress : (∃ k, p.advance (access source) k ≠ none) ∨ ∃ rs, p.results? = some rs
  /-- All can come to an end. -/
  ends : ∃ q rs, Pool.Steps (access source) p q ∧ q.results? = some rs
  /-- Each reply is the one that the payload gets without the others. -/
  replies : ∀ (k : Nat) r, p.threads[k]? = some (.done r) →
    ∃ payload, payloads[k]? = some payload ∧ r = aloneReply source s i payload
  /-- When all are over, the session and the records are those of the payloads one after the other,
  in any order. -/
  records : ∀ rs, p.results? = some rs → ∀ order, order.Perm payloads →
    p.sessions = (inOrder source s i order).1.2 ∧ SameRecords i p.world (inOrder source s i order).2

variable {source s} {payloads : List Bytes} {p : Pool Unit Inventory Access.Answer Reply}

/-- **Payloads beside each other are payloads one after the other.** However the handling of
payloads is interleaved, from any shared state and on any inventory. -/
theorem steps_serial (run : Pool.Steps (access source)
    (.start s i (payloads.map fun payload => refine serve (handle payload))) p) :
    Serial source s i payloads p := by
  rw [start_eq] at run
  obtain ⟨h, stages, trace⟩ :
      ∃ h stages, Trace source s i (payloads.map Stage.ofPayload) h p stages :=
    run.traced (ofPayload_outside payloads)
  refine ⟨trace.advance_or_over _, trace.can_end rfl, fun k r done => ?_,
    fun rs ended order perm => ?_⟩
  · have said := trace.reply_eq done
    simp only [List.map_map, List.getElem?_map, Option.map_eq_some_iff] at said
    obtain ⟨payload, at_k, rfl⟩ := said
    exact ⟨payload, at_k, (aloneReply_eq source s i payload).symm⟩
  · obtain ⟨h', p', stages', trace', ended', sessions', world'⟩ :=
      exists_trace_inOrder source s i order
    obtain ⟨tally, sessions⟩ :=
      forecast_perm source s i (refusal? i s.installed) (perm.map Stage.ofPayload)
    rw [trace.forecast_over ended, trace'.forecast_over ended'] at tally sessions
    rw [← sessions', ← world']
    refine ⟨sessions.symm, sameRecords_of_tally ?_ tally.symm trace.attachments trace'.attachments⟩
    exact trace.foreseen.1.content.trans trace'.foreseen.1.content.symm

/-- Two payloads that take turns: one of them connects, and both tag the machine. -/
theorem steps_serial_crowded : ∃ p : Pool Unit Inventory Access.Answer Reply,
    Pool.Steps (access (.fixed ⟨"server", "user", "password", false⟩))
      (.start .initial crowded
        ([redAlarm, redAlarm].map fun payload => refine serve (handle payload))) p ∧
    p.results? = some [.ok "vm-1 was tagged with t3, c2", .ok "vm-1 was tagged with t3, c2"] ∧
    p.world.attachments = [("t2", ⟨"VM", "vm-2"⟩), ("t3", ⟨"VM", "vm-1"⟩), ("t3", ⟨"VM", "vm-1"⟩)] ∧
    p.world.connects = 1 ∧ p.sessions.installed = some ⟨1, ()⟩ ∧
    Serial (.fixed ⟨"server", "user", "password", false⟩) .initial crowded
      [redAlarm, redAlarm] p := by
  have run := Pool.steps_rounds (access (.fixed ⟨"server", "user", "password", false⟩)) 12
    (.start .initial crowded ([redAlarm, redAlarm].map fun payload => refine serve (handle payload)))
  refine ⟨_, run, ?_, ?_, ?_, ?_, steps_serial run⟩
  all_goals
    simp only [List.map_cons, List.map_nil, refine_handle, Stage.ofPayload, ofEvent_redAlarm]
    rfl

end TierTagger.Inventory
