import TierTagger.Proofs.Inventory.Replay

/-!
# What one payload leaves behind

The handling of a payload on an inventory, from any shared state: which entry is added to the
attachments, and what else changes.

- **The choice** (`Chosen`): what is attached follows from the content and the alarm.
- **The effect** (`Effect`): attachments, counters and sessions after a payload, by its result. The
  content stays.
- `run_effect`: every payload has this effect, if not more than one category is meant.
-/

namespace TierTagger.Inventory

open Sessions
open Tagging (Course Exchange Opening Outcome Replies Target afterwards afterwards_append calls run
  settle target?)

variable {source : Configuration.Source} {i : Inventory} {s : Sessions Unit}

/-! ## Exchanges with an inventory -/

/-- All exchanges are answered by the inventory. -/
def Answers (source : Configuration.Source) (i : Inventory) (xs : List (Exchange Unit)) : Prop :=
  ∀ x ∈ xs, x.2 = answered source i x.1

theorem answers_of_replies {before : List (Call Unit)} {xs : List (Exchange Unit)}
    (replies : Replies (fun _ => answered source i) before xs) : Answers source i xs := by
  induction xs generalizing before with
  | nil => exact fun x mem => nomatch mem
  | cons x xs ih =>
    obtain ⟨now, later⟩ := replies
    refine List.forall_mem_cons.mpr ⟨now.symm, ih later⟩

/-- The inventory after exchanges. -/
abbrev replayed (source : Configuration.Source) (i : Inventory) (xs : List (Exchange Unit)) :
    Inventory :=
  replay source ((calls xs).flatMap accesses) i

/-- What can happen to the shared state: nothing, or a session is installed for a new connection,
the last of `connects`. -/
def Gains (s : Sessions Unit) (i : Inventory) (s' : Sessions Unit) (connects : Nat) : Prop :=
  s' = s ∨ (s.installed = none ∧ s' = s.install () ∧ connects = i.connects + 1)

/-- To get a session takes at most a connection. -/
theorem replayed_opening {xs : List (Exchange Unit)} {x : Session Unit} (opening : Opening s xs x)
    (answers : Answers source i xs) : ∃ n,
      replayed source i xs = { i with connects := n } ∧ Gains s i (afterwards s xs) n := by
  cases opening with
  | reused installed => exact ⟨i.connects, rfl, .inl rfl⟩
  | @connected p d installed =>
    have login : i.login = .ok d := by
      rw [← told_endConnect source i]
      exact (answers ⟨.connect p, .ok d⟩ (by simp)).symm
    have half : halfLogin { i with connects := i.connects + 1 } = false :=
      halfLogin_of_login (i := i) login
    refine ⟨i.connects + 1, ?_, .inr ⟨installed, rfl, rfl⟩⟩
    show accessed source { i with connects := i.connects + 1 } .endConnect = _
    rw [accessed_endConnect, half]
    rfl

/-! ## What is found -/

/-- At most one category has this name or id. -/
def Unambiguous (i : Inventory) (category : String) : Prop :=
  ∀ x ∈ i.categories, ∀ y ∈ i.categories, (x.1 = category ∨ x.2 = category) →
    (y.1 = category ∨ y.2 = category) → x = y

theorem categoryId?_eq_some {category id : String} (found : i.categoryId? category = some id) :
    ∃ name, (id, name) ∈ i.categories ∧ (id = category ∨ name = category) := by
  obtain ⟨⟨id, name⟩, first, rfl⟩ := Option.map_eq_some_iff.mp found
  exact ⟨name, List.mem_of_find?_eq_some first, by simpa using List.find?_some first⟩

theorem answered_hardware {vm : ObjectRef} {h : Hardware}
    (answer : answered source i (.hardware () vm) = .ok (some h)) :
    i.machines.lookup vm.value = some h := by
  obtain ⟨-, found⟩ := i.orFault_eq_ok.mp (show i.orFault .retrieve _ = _ from answer)
  exact Except.ok.inj found

theorem answered_tags {category : String} {tags : List Tag}
    (answer : answered source i (.tags () category) = .ok tags) :
    ∃ id, i.categoryId? category = some id ∧ tags = i.tags.filter (·.categoryId = id) := by
  obtain ⟨-, found⟩ := i.orFault_eq_ok.mp (show i.orFault .listTags _ = _ from answer)
  cases h : i.categoryId? category with
  | none => simp [h] at found
  | some id => exact ⟨id, rfl, by simpa [h, eq_comm] using found⟩

/-- What is attached for an alarm: the first tag, in the order in which they were registered, that
is in the one category of the resource and named like the next tier of the hardware. -/
def Chosen (i : Inventory) (a : Alarm) (tagId categoryId : String) : Prop :=
  ∃ category h tier tag, a.resource.tagCategory? = some category ∧
    (∃ name, (categoryId, name) ∈ i.categories ∧ (categoryId = category ∨ name = category)) ∧
    (∀ x ∈ i.categories, x.1 = category ∨ x.2 = category → x.1 = categoryId) ∧
    i.machines.lookup a.vm.value = some h ∧ Tier.next? a.resource h = some tier ∧
    i.tags.find? (fun tag => tag.categoryId = categoryId ∧ tag.name = tier.name) = some tag ∧
    tag.id = tagId

/-! ## The effect -/

/-- A result tells that the tags of a category were looked up. -/
def resolved : Except Tagging.Error Outcome → Bool
  | .error (.resolve _) | .error (.apply _) | .ok (.noMatchingTag ..) | .ok (.tagged ..) => true
  | _ => false

/-- A result tells that the hardware of a machine was looked up. -/
def fetched : Except Tagging.Error Outcome → Bool
  | .error (.fetch _) => true
  | r => resolved r

/-- What a payload with this result does to the shared state `s` and the inventory `i`. -/
structure Effect (payload : Bytes) (s : Sessions Unit) (i : Inventory)
    (result : Except Tagging.Error Outcome) (s' : Sessions Unit) (i' : Inventory) : Prop where
  /-- One attachment is added if the machine was tagged, … -/
  tagged : ∀ vm tagId categoryId, result = .ok (.tagged vm tagId categoryId) →
    i'.attachments = i.attachments ++ [(tagId, vm)] ∧
    ∃ a, Alarm.ofEvent payload = .ok a ∧ vm = a.vm ∧ Chosen i a tagId categoryId
  /-- … and else none. -/
  untagged : (∀ vm tagId categoryId, result ≠ .ok (.tagged vm tagId categoryId)) →
    i'.attachments = i.attachments
  machines : i'.machines = i.machines
  categories : i'.categories = i.categories
  tags : i'.tags = i.tags
  faults : i'.faults = i.faults
  hardwareLookups : i'.hardwareLookups = i.hardwareLookups + (fetched result).toNat
  categoryLookups : i'.categoryLookups = i.categoryLookups + (resolved result).toNat
  /-- A session is installed only if there was none, for a connection that was made now. -/
  sessions : Gains s i s' i'.connects

/-- Without an attachment there are only counters, and maybe a new session. -/
theorem Effect.of_untagged {payload : Bytes} {s' : Sessions Unit} {connects logouts : Nat}
    (r : Except Tagging.Error Outcome)
    (untagged : ∀ vm tagId categoryId, r ≠ .ok (.tagged vm tagId categoryId))
    (sessions : Gains s i s' connects) :
    Effect payload s i r s' { i with
      connects, logouts
      hardwareLookups := i.hardwareLookups + (fetched r).toNat
      categoryLookups := i.categoryLookups + (resolved r).toNat } where
  tagged vm tagId categoryId h := absurd h (untagged vm tagId categoryId)
  untagged _ := rfl
  machines := rfl
  categories := rfl
  tags := rfl
  faults := rfl
  hardwareLookups := rfl
  categoryLookups := rfl
  sessions := sessions

variable {t : Target} {xs : List (Exchange Unit)} {payload : Bytes} {a : Alarm}
variable {r : Except Tagging.Error Outcome}

/-- What is attached was chosen. -/
theorem chosen_of_answers {x : Session Unit} {h : Hardware} {tier : Tier} {tags : List Tag}
    {tag : Tag}
    (target : target? a = some t) (one : i.Unambiguous t.category)
    (hardware : .ok (some h) = answered source i (.hardware x.directory t.vm))
    (looked : .ok tags = answered source i (.tags x.directory t.category))
    (next : Tier.next? t.resource h = some tier)
    (first : tags.find? (·.name = tier.name) = some tag) : Chosen i a tag.id tag.categoryId := by
  obtain ⟨-, category, at_category, rfl⟩ := Tagging.target?_eq_some.mp target
  obtain ⟨id, found, rfl⟩ := answered_tags looked.symm
  obtain ⟨name, mem, meant⟩ := categoryId?_eq_some found
  have within : tag.categoryId = id := by
    simpa using (List.mem_filter.mp (List.mem_of_find?_eq_some first)).2
  rw [List.find?_filter] at first
  subst within
  refine ⟨category, h, tier, tag, at_category, ⟨name, mem, meant⟩, fun y there meant' => ?_,
    answered_hardware hardware.symm, next, by simpa using first, rfl⟩
  exact congrArg Prod.fst (one y there _ mem meant' meant)

/-- The effect of what follows the session: it goes on with a connection more, at most. -/
theorem Effect.after_opening {ys : List (Exchange Unit)} {x : Session Unit}
    (opening : Opening s xs x) (answers : Answers source i (xs ++ ys))
    (plain : ∀ s', afterwards s' ys = s')
    (later : ∀ n s', Gains s i s' n →
      Effect payload s i r s' (replayed source { i with connects := n } ys)) :
    Effect payload s i r (afterwards s (xs ++ ys)) (replayed source i (xs ++ ys)) := by
  obtain ⟨before, -⟩ := List.forall_mem_append.mp answers
  obtain ⟨n, same, gains⟩ := replayed_opening opening before
  rw [afterwards_append, plain, replayed, calls, List.map_append, List.flatMap_append, replay_append]
  rw [replayed, calls] at same
  rw [same]
  exact later n _ gains

/-- The inventory after a connection or none and both lookups. -/
def searched (i : Inventory) (connects : Nat) : Inventory :=
  { i with
    connects
    hardwareLookups := i.hardwareLookups + 1
    categoryLookups := i.categoryLookups + 1 }

theorem effect_of_course (event : Alarm.ofEvent payload = .ok a) (target : target? a = some t)
    (one : i.Unambiguous t.category) (course : Course s t xs r) (answers : Answers source i xs) :
    Effect payload s i r (afterwards s xs) (replayed source i xs) := by
  cases course with
  | unloaded e => exact .of_untagged (.error (.configuration e)) nofun (.inl rfl)
  | unconnected installed p e =>
    show Effect _ _ _ _ s (accessed source { i with connects := i.connects + 1 } .endConnect)
    rw [accessed_endConnect]
    cases halfLogin { i with connects := i.connects + 1 }
    · exact .of_untagged (.error (.connect e)) nofun (.inl rfl)
    · exact .of_untagged (.error (.connect e)) nofun (.inl rfl)
  | unfetched opening e =>
    exact .after_opening opening answers (fun _ => rfl) fun n s' gains =>
      .of_untagged (.error (.fetch (.directory e))) nofun gains
  | unavailable opening =>
    exact .after_opening opening answers (fun _ => rfl) fun n s' gains =>
      .of_untagged (.error (.fetch (.unavailable t.vm.value))) nofun gains
  | unresolved opening next e =>
    exact .after_opening opening answers (fun _ => rfl) fun n s' gains =>
      .of_untagged (.error (.resolve e)) nofun gains
  | @unmatched _ _ _ tier _ opening next none =>
    exact .after_opening opening answers (fun _ => rfl) fun n s' gains =>
      .of_untagged (.ok (.noMatchingTag t.vm t.category tier)) nofun gains
  | @unapplied open_ x _ _ _ tag opening next first e =>
    have answer := answers ⟨.attach x.directory tag.id t.vm, .error e⟩ (by simp)
    have refused : i.attachable tag.id = false := by
      rw [Bool.eq_false_iff]
      intro can
      have ok : told source i (.attach tag.id t.vm) = .ok () := (told_attach_eq_ok source i).mpr can
      exact nomatch (show Except.error e = .ok () from answer.trans ok)
    refine .after_opening opening answers (fun _ => rfl) fun n s' gains => ?_
    show Effect _ _ _ _ _ (accessed source (i.searched n) (.attach tag.id t.vm))
    rw [accessed_attach, show (i.searched n).attachable tag.id = false from refused]
    exact .of_untagged (.error (.apply e)) nofun gains
  | @applied open_ x h tier tags tag opening next first =>
    have answer := answers ⟨.attach x.directory tag.id t.vm, .ok ()⟩ (by simp)
    have can : i.attachable tag.id = true := (told_attach_eq_ok source i).mp answer.symm
    have chosen : Chosen i a tag.id tag.categoryId := chosen_of_answers (x := x) target one
      (answers ⟨.hardware x.directory t.vm, .ok (some h)⟩ (by simp))
      (answers ⟨.tags x.directory t.category, .ok tags⟩ (by simp)) next first
    obtain ⟨-, category, -, rfl⟩ := Tagging.target?_eq_some.mp target
    refine .after_opening opening answers (fun _ => rfl) fun n s' gains => ?_
    show Effect _ _ _ _ _ (accessed source (i.searched n) (.attach tag.id a.vm))
    rw [accessed_attach, show (i.searched n).attachable tag.id = true from can]
    refine ⟨?_, fun none => absurd rfl (none _ _ _), rfl, rfl, rfl, rfl, rfl, rfl, gains⟩
    rintro vm tagId categoryId ⟨rfl⟩
    exact ⟨rfl, a, event, rfl, chosen⟩

/-- **What a payload leaves behind.** Held alone, from any shared state and on any inventory, the
handling comes to a result, with the effect that goes with it. It is only assumed that not more than
one category is meant by the alarm. -/
theorem run_effect (source : Configuration.Source) (s : Sessions Unit) (i : Inventory)
    (payload : Bytes)
    (one : ∀ a category, Alarm.ofEvent payload = .ok a → a.resource.tagCategory? = some category →
      i.Unambiguous category) :
    ∃ result s' i', ((hold (respond source) (run payload)).run s).run i = ((result, s'), i') ∧
      Effect payload s i result s' i' := by
  cases event : Alarm.ofEvent payload with
  | error e =>
    refine ⟨.error (.event e), s, i, ?_, .of_untagged (.error (.event e)) (by simp) (.inl rfl)⟩
    simp only [run, event]
    rfl
  | ok a =>
    cases target : target? a with
    | none =>
      refine ⟨.ok .notActionable, s, i, ?_, .of_untagged (.ok .notActionable) (by simp) (.inl rfl)⟩
      simp only [run, event, target]
      rfl
    | some t =>
      have ends : Tagging.Ends (fun _ => answered source i) [] s t [] (settle t).run :=
        Tagging.ends_settle target
      obtain ⟨xs, r, told, replies, course⟩ := ends trivial
      obtain ⟨x, cs, told', done⟩ := hold_respond source i (settle t).run s []
      obtain ⟨rfl, rfl⟩ : x = (r, afterwards s xs) ∧ cs = calls xs := by
        simpa using told'.symm.trans told
      obtain ⟨-, category, at_category, same⟩ := Tagging.target?_eq_some.mp target
      have meant : i.Unambiguous t.category := by
        rw [same]
        exact one a category event at_category
      refine ⟨r, afterwards s xs, replayed source i xs, ?_, ?_⟩
      · simpa only [run, event, target] using done
      · exact effect_of_course event target meant course (answers_of_replies replies)

/-! ### A machine that is tagged -/

/-- An alarm of the machine `vm-1` about its processors. -/
def redAlarm : Bytes :=
  ("\x7b\"Data\":\x7b\"Vm\":\x7b\"Vm\":\x7b\"Type\":\"VM\",\"Value\":\"vm-1\"\x7d\x7d," ++
    "\"Alarm\":\x7b\"Name\":\"VM CPU Usage\"\x7d,\"To\":\"red\"\x7d\x7d").toUTF8.toList

/-- An inventory in which a tag with the right name is in the wrong category and two are in the
right one. -/
def crowded : Inventory where
  machines := [("vm-1", ⟨2, 4096⟩)]
  categories := [("c1", "config.hardware.memoryMB"), ("c2", "config.hardware.numCPU")]
  tags := [⟨"t1", "3", "c1"⟩, ⟨"t2", "2", "c2"⟩, ⟨"t3", "3", "c2"⟩, ⟨"t4", "3", "c2"⟩]
  attachments := [("t2", ⟨"VM", "vm-2"⟩)]
  faults := [.logout]
  connects := 0
  hardwareLookups := 5
  categoryLookups := 4
  logouts := 0

theorem ofEvent_redAlarm : Alarm.ofEvent redAlarm = .ok ⟨⟨"VM", "vm-1"⟩, "VM CPU Usage", "red"⟩ := by
  decide +kernel

theorem run_effect_crowded :
    (∀ a category, Alarm.ofEvent redAlarm = .ok a → a.resource.tagCategory? = some category →
      crowded.Unambiguous category) ∧
    ∃ s' i', ((hold (respond (.fixed ⟨"server", "user", "password", false⟩)) (run redAlarm)).run
        .initial).run crowded = ((.ok (.tagged ⟨"VM", "vm-1"⟩ "t3" "c2"), s'), i') ∧
      Effect redAlarm .initial crowded (.ok (.tagged ⟨"VM", "vm-1"⟩ "t3" "c2")) s' i' := by
  have one : ∀ a category, Alarm.ofEvent redAlarm = .ok a → a.resource.tagCategory? = some category →
      crowded.Unambiguous category := by
    intro a category at_a at_category
    rw [ofEvent_redAlarm] at at_a
    cases at_a
    cases at_category
    unfold Unambiguous
    decide
  obtain ⟨result, s', i', done, effect⟩ :=
    run_effect (.fixed ⟨"server", "user", "password", false⟩) .initial crowded redAlarm one
  have same : result = .ok (.tagged ⟨"VM", "vm-1"⟩ "t3" "c2") := by
    simp only [run, ofEvent_redAlarm] at done
    exact (congrArg (·.1.1) done).symm
  subst same
  exact ⟨one, s', i', done, effect⟩

end TierTagger.Inventory
