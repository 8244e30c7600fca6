import TierTagger.Proofs.Alarm.Event
import TierTagger.Proofs.Tagging.Pipeline
import TierTagger.Proofs.Url.Length
import TierTagger.Proofs.VCenter.Replies
import TierTagger.Proofs.VCenter.Service

/-!
# A server and an inventory with the same content

The handling of alarms comes to the same on both: same results, same attachments.

- **Jobs side by side** (`Matches`, `Agrees`): one is held with the server, the other one with the
  inventory. What follows two jobs that agree agrees with what follows (`Agrees.bind`).
- `agrees_call`: calls that are answered alike agree.
- `agrees_run`: so does the handling of a payload, stage by stage; `runs_agree` is about many.
- `agrees_fromFetch_long`: a machine that is not known and whose id does not fit in a URL is told of
  differently.
-/

namespace TierTagger.VCenter

open Directory (Failure)
open Http (Request)
open Sessions (Job hold)
open Tagging (Outcome Target)
open Url (IsSegment segmentText)

/-! ## Jobs side by side -/

section
variable (server : Server) (network : Http.Network) (source : Configuration.Source) (i : Inventory)

/-- There is a session with the server if and only if there is one with the inventory `j`, which has
the content of `i`. -/
structure Matches (before : List Request) (s : Sessions Link) (s' : Sessions Unit) (j : Inventory) :
    Prop where
  content : j.content = i.content
  sessions : Option.Rel (fun x _ => Good server network before x.directory) s.installed s'.installed

/-- Held with the server and with an inventory, the jobs come to results of which `R` holds after the
requests, if `P` holds before. The server accepts what is added to the attachments. -/
def Agrees {α β : Type} (P : List Request → Prop) (job : Job Link α) (job' : Job Unit β)
    (R : List Request → α → β → Prop) : Prop :=
  ∀ before s s' j, Matches server network i before s s' j → P before →
    Yields server network before ((hold (exchange ⟨some server.base⟩ source) job).run s)
      fun x gained after => ∃ y t' j', ((hold (Inventory.respond source) job').run s').run j =
        ((y, t'), j') ∧ Matches server network i after x.2 t' j' ∧
          j'.attachments = j.attachments ++ gained ∧ R after x.1 y

end

variable {server : Server} {network : Http.Network} {source : Configuration.Source} {i : Inventory}
variable {accounts : String → Prop} {α β α' β' : Type} {P : List Request → Prop}

theorem Matches.later {before after : List Request} {s : Sessions Link} {s' : Sessions Unit}
    {j j' : Inventory} (same : Matches server network i before s s' j) (later : Later before after)
    (content : j'.content = j.content) : Matches server network i after s s' j' := by
  refine ⟨content.trans same.content, ?_⟩
  have sessions := same.sessions
  generalize s.installed = x at sessions
  generalize s'.installed = y at sessions
  cases sessions with
  | none => exact .none
  | some good => exact .some (good.later later)

theorem agrees_done {R : List Request → α → β → Prop} {a : α} {b : β} (holds : ∀ before, P before → R before a b) :
    Agrees server network source i P (.done a) (.done b) R := by
  intro before s s' j same pre
  exact yields_done ⟨b, s', j, rfl, same, by simp, holds before pre⟩

theorem Agrees.bind {R : List Request → α → β → Prop} {R' : List Request → α' → β' → Prop}
    {job : Job Link α} {job' : Job Unit β} {next : α → Job Link α'} {next' : β → Job Unit β'}
    (first : Agrees server network source i P job job' R)
    (rest : ∀ a b, Agrees server network source i (R · a b) (next a) (next' b) R') :
    Agrees server network source i P (job >>= next) (job' >>= next') R' := by
  intro before s s' j same pre
  rw [Sessions.hold_bind]
  refine (first before s s' j same pre).bind ?_
  rintro ⟨a, t⟩ gained after - ⟨b, t', j', run', same', attached, holds⟩
  refine (rest a b after t t' j' same' holds).mono ?_
  rintro ⟨a', u⟩ gained' last - ⟨b', u', k, run'', same'', attached', holds'⟩
  refine ⟨b', u', k, ?_, same'', ?_, holds'⟩
  · rw [Sessions.hold_bind, StateT.run_bind, run']
    exact run''
  · rw [attached', attached, List.append_assoc]

/-- What is known before the jobs is used to show that they agree. -/
theorem agrees_of_pre {P' : List Request → Prop} {p : Prop} {R : List Request → α → β → Prop}
    {job : Job Link α} {job' : Job Unit β} (known : ∀ before, P before → p ∧ P' before)
    (agrees : p → Agrees server network source i P' job job' R) :
    Agrees server network source i P job job' R := by
  intro before s s' j same pre
  obtain ⟨fact, pre'⟩ := known before pre
  exact agrees fact before s s' j same pre'

/-- Calls that are answered alike agree. -/
theorem agrees_call {c : Call Link} {c' : Call Unit} {R : List Request → c.Answer → c'.Answer → Prop}
    (answers : ∀ before, P before → Yields server network before (exchange ⟨some server.base⟩ source c)
      fun a gained after => ∀ j : Inventory, j.content = i.content → ∃ b j',
        (Inventory.respond source c').run j = (b, j') ∧ j'.content = j.content ∧
          j'.attachments = j.attachments ++ gained ∧ R after a b) :
    Agrees server network source i P (Sessions.call c) (Sessions.call c') R := by
  intro before s s' j same pre
  have held : (hold (exchange ⟨some server.base⟩ source) (Sessions.call c)).run s =
      exchange ⟨some server.base⟩ source c >>= fun a => .done (a, s) :=
    Sessions.hold_ask_call ..
  have held' : (hold (Inventory.respond source) (Sessions.call c')).run s' =
      Inventory.respond source c' >>= fun a => pure (a, s') :=
    Sessions.hold_ask_call ..
  rw [held]
  refine Yields.bind (answers before pre) ?_
  intro a gained after later answer
  obtain ⟨b, j', run, content, attached, holds⟩ := answer j same.content
  refine yields_done ⟨b, s', j', ?_, same.later later content, by rw [attached, List.append_nil], holds⟩
  rw [held', StateT.run_bind, run]
  rfl

/-! ## Calls -/

/-- What an inventory answers by, if nothing makes its operations fail. -/
theorem of_content {j : Inventory} (content : j.content = i.content) (faultless : i.faults = []) :
    j.machines = i.machines ∧ j.categories = i.categories ∧ j.tags = i.tags ∧ j.faults = [] := by
  have machines : j.content.machines = i.content.machines := by rw [content]
  have categories : j.content.categories = i.content.categories := by rw [content]
  have tags : j.content.tags = i.content.tags := by rw [content]
  have faults : j.content.faults = i.content.faults := by rw [content]
  exact ⟨machines, categories, tags, faults.trans faultless⟩

theorem agrees_load : Agrees server network source i (fun _ => True) (Sessions.call .load)
    (Sessions.call .load) fun _ a b => a = source.load ∧ b = source.load := by
  refine agrees_call fun before _ => yields_done fun j _ => ?_
  exact ⟨source.load, j, rfl, rfl, by simp, rfl, rfl⟩

section
variable (serves : server.Serves i accounts network) (faultless : i.faults = [])
include serves faultless

theorem agrees_hardware {link : Link} {vm : ObjectRef} (isSegment : IsSegment vm.value)
    (fits : server.Fits (machinePath vm.value) none) :
    Agrees server network source i (Good server network · link) (Sessions.call (.hardware link vm))
      (Sessions.call (.hardware () vm)) fun after a b => a = b ∧ Good server network after link := by
  refine agrees_call fun before good => ?_
  refine (returns_hardware serves good isSegment fits).mono ?_
  rintro _ _ after later ⟨rfl, rfl⟩ j content
  obtain ⟨machines, -, -, none⟩ := of_content content faultless
  refine ⟨_, _, rfl, rfl, (List.append_nil _).symm, ?_, good.later later⟩
  show _ = j.orFault .retrieve (.ok (j.machines.lookup vm.value))
  simp [Inventory.orFault, none, machines]

theorem agrees_tags {link : Link} {category : String} (consistent : i.Consistent)
    (reaches : server.Reaches i) :
    Agrees server network source i (Good server network · link) (Sessions.call (.tags link category))
      (Sessions.call (.tags () category)) fun after a b =>
        a = b ∧ a = i.listed category ∧ Good server network after link := by
  refine agrees_call fun before good => ?_
  refine (returns_tags serves consistent reaches good).mono ?_
  rintro _ _ after later ⟨rfl, rfl⟩ j content
  obtain ⟨-, categories, tags, none⟩ := of_content content faultless
  refine ⟨_, _, rfl, rfl, (List.append_nil _).symm, ?_, rfl, good.later later⟩
  have same : j.categoryId? category = i.categoryId? category := by
    rw [Inventory.categoryId?, Inventory.categoryId?, categories]
  show i.listed category = (Inventory.tagsOf category j).1
  unfold Inventory.tagsOf Inventory.orFault Inventory.listed Inventory.foundId
  rw [none, tags, same]
  cases i.categoryId? category <;> rfl

theorem agrees_attach {link : Link} {t : Tag} {vm : ObjectRef} (consistent : i.Consistent)
    (reaches : server.Reaches i) (mem : t ∈ i.tags) :
    Agrees server network source i (Good server network · link) (Sessions.call (.attach link t.id vm))
      (Sessions.call (.attach () t.id vm)) fun _ a b => a = .ok () ∧ b = .ok () := by
  refine agrees_call fun before good => ?_
  refine (yields_attach serves good mem (consistent.tagSegments t mem) (reaches.attach t mem)).mono ?_
  rintro _ _ after later ⟨rfl, rfl⟩ j content
  obtain ⟨-, -, tags, none⟩ := of_content content faultless
  refine ⟨.ok (), { j with attachments := j.attachments ++ [(t.id, vm)] }, ?_, rfl, rfl, rfl, rfl⟩
  have there : j.tags.any (·.id = t.id) = true := by
    rw [tags]
    exact List.any_eq_true.mpr ⟨t, mem, by simp⟩
  show Inventory.attach t.id vm j = _
  rw [Inventory.attach, none, there]
  rfl

end

/-- There is a session on both sides, or a connection is made on both. -/
theorem agrees_ensure (serves : server.Serves i accounts network) (faultless : i.faults = [])
    (reaches : server.Reaches i) {c : Connection} (account : accounts (Http.basic c.user c.password)) :
    Agrees server network source i (fun _ => True) (Sessions.ensure c) (Sessions.ensure c)
      fun after a b => ∃ x y, a = .ok x ∧ b = .ok y ∧ Good server network after x.directory := by
  intro before s s' j same _
  have sessions := same.sessions
  rw [Sessions.hold_ensure]
  generalize installed : s.installed = o at sessions
  generalize installed' : s'.installed = o' at sessions
  cases sessions with
  | some good =>
    next x y =>
    refine yields_done ⟨.ok y, s', j, ?_, same, by simp, x, y, rfl, rfl, good⟩
    rw [Sessions.hold_ensure, installed']
    rfl
  | none =>
    refine (yields_connect serves reaches account).bind ?_
    rintro _ _ after later ⟨link, rfl, rfl, good⟩
    obtain ⟨-, -, -, none⟩ := of_content same.content faultless
    refine yields_done ⟨.ok ⟨s'.nextId, ()⟩, s'.install (), { j with connects := j.connects + 1 }, ?_,
      ⟨same.content, .some good⟩, by simp, _, _, rfl, rfl, good⟩
    have connected : (Inventory.respond source (.connect c)).run j =
        (.ok (), { j with connects := j.connects + 1 }) := by
      show Inventory.endConnect { j with connects := j.connects + 1 } = _
      simp [Inventory.endConnect, none]
    rw [Sessions.hold_ensure, installed']
    show (Inventory.respond source (.connect c) >>= _).run j = _
    rw [StateT.run_bind, connected]
    rfl

/-! ## Stages -/

/-- A machine can be asked for: its id can be a segment, and the URL is not too long. -/
structure Server.Knows (server : Server) (vm : ObjectRef) : Prop where
  isSegment : IsSegment vm.value
  fits : server.Fits (machinePath vm.value) none

section
variable (serves : server.Serves i accounts network) (faultless : i.faults = [])
variable (consistent : i.Consistent) (reaches : server.Reaches i)
variable {x : Session Link} {y : Session Unit} {t : Target}
include serves faultless consistent reaches

theorem agrees_fromApply {tag : Tag} (mem : tag ∈ i.tags) :
    Agrees server network source i (Good server network · x.directory) (Tagging.fromApply x t tag)
      (Tagging.fromApply y t tag) fun _ => Eq := by
  refine (agrees_attach serves faultless consistent reaches mem).bind fun a b => ?_
  refine agrees_of_pre (fun before attached => ⟨attached, attached⟩) ?_
  rintro ⟨rfl, rfl⟩
  exact agrees_done fun _ _ => rfl

theorem agrees_fromResolve {tier : Tier} :
    Agrees server network source i (Good server network · x.directory) (Tagging.fromResolve x t tier)
      (Tagging.fromResolve y t tier) fun _ => Eq := by
  refine (agrees_tags serves faultless consistent reaches).bind fun a b => ?_
  refine agrees_of_pre (fun before ⟨same, listed, good⟩ => ⟨And.intro same listed, good⟩) ?_
  rintro ⟨rfl, listed⟩
  cases a with
  | error e => exact agrees_done fun _ _ => rfl
  | ok tags =>
    cases first : Tag.forTier? tags tier with
    | none =>
      simp only [first]
      exact agrees_done fun _ _ => rfl
    | some tag =>
      have mem : tag ∈ i.tags := Inventory.mem_of_listed listed.symm tag (List.mem_of_find?_eq_some first)
      simp only [first]
      exact agrees_fromApply serves faultless consistent reaches mem

theorem agrees_fromFetch (knows : server.Knows t.vm) :
    Agrees server network source i (Good server network · x.directory) (Tagging.fromFetch x t)
      (Tagging.fromFetch y t) fun _ => Eq := by
  refine (agrees_hardware serves faultless knows.isSegment knows.fits).bind fun a b => ?_
  refine agrees_of_pre (fun before known => known) ?_
  rintro rfl
  rcases a with e | _ | h
  · exact agrees_done fun _ _ => rfl
  · exact agrees_done fun _ _ => rfl
  · cases next : Tier.next? t.resource h with
    | none =>
      simp only [next]
      exact agrees_done fun _ _ => rfl
    | some tier =>
      simp only [next]
      exact agrees_fromResolve serves faultless consistent reaches

end

/-- Settling a target comes to what follows once the session is there. -/
theorem agrees_settle {t : Target} {R : List Request → Except Tagging.Error Outcome →
      Except Tagging.Error Outcome → Prop}
    (serves : server.Serves i accounts network) (faultless : i.faults = []) (reaches : server.Reaches i)
    (account : ∀ c, source.load = .ok c → accounts (Http.basic c.user c.password))
    (unloaded : ∀ e, source.load = .error e → ∀ after,
      R after (.error (.configuration e)) (.error (.configuration e)))
    (fetched : ∀ x y, Agrees server network source i (Good server network · x.directory)
      (Tagging.fromFetch x t) (Tagging.fromFetch y t) R) :
    Agrees server network source i (fun _ => True) (Tagging.settle t).run (Tagging.settle t).run R := by
  rw [Tagging.settle_run, Tagging.settle_run]
  refine agrees_load.bind fun a b => ?_
  refine agrees_of_pre (fun before loaded => ⟨loaded, trivial⟩) ?_
  rintro ⟨rfl, rfl⟩
  cases loaded : source.load with
  | error e => exact agrees_done fun after _ => unloaded e loaded after
  | ok c =>
    refine (agrees_ensure serves faultless reaches (account c loaded)).bind fun a b => ?_
    intro before s s' j same
    rintro ⟨x, y, rfl, rfl, good⟩
    exact fetched x y before s s' j same good

section
variable (serves : server.Serves i accounts network) (faultless : i.faults = [])
variable (consistent : i.Consistent) (reaches : server.Reaches i)
variable (account : ∀ c, source.load = .ok c → accounts (Http.basic c.user c.password))
include serves faultless consistent reaches account

/-- The handling of a payload agrees. -/
theorem agrees_run {payload : Bytes}
    (knows : ∀ a, Alarm.ofEvent payload = .ok a → server.Knows a.vm) :
    Agrees server network source i (fun _ => True) (Tagging.run payload) (Tagging.run payload)
      fun _ => Eq := by
  unfold Tagging.run
  cases read : Alarm.ofEvent payload with
  | error e => exact agrees_done fun _ _ => rfl
  | ok a =>
    cases target : Tagging.target? a with
    | none =>
      simp only [target]
      exact agrees_done fun _ _ => rfl
    | some t =>
      obtain ⟨-, category, -, rfl⟩ := Tagging.target?_eq_some.mp target
      simp only [target]
      refine agrees_settle serves faultless reaches account (fun _ _ _ => rfl) fun x y => ?_
      exact agrees_fromFetch serves faultless consistent reaches (knows a read)

/-- So does the handling of one payload after the other. -/
theorem agrees_runs {payloads : List Bytes}
    (knows : ∀ p ∈ payloads, ∀ a, Alarm.ofEvent p = .ok a → server.Knows a.vm) :
    Agrees server network source i (fun _ => True) (payloads.mapM Tagging.run)
      (payloads.mapM Tagging.run) fun _ => Eq := by
  induction payloads with
  | nil => exact agrees_done fun _ _ => rfl
  | cons p payloads ih =>
    obtain ⟨first, others⟩ := List.forall_mem_cons.mp knows
    rw [List.mapM_cons, List.mapM_cons]
    refine (agrees_run serves faultless consistent reaches account first).bind fun a b => ?_
    refine agrees_of_pre (fun before same => ⟨same, trivial⟩) ?_
    rintro rfl
    refine (ih others).bind fun as bs => ?_
    refine agrees_of_pre (fun before same => ⟨same, trivial⟩) ?_
    rintro rfl
    exact agrees_done fun _ _ => rfl

end

/-! ## Agreement -/

/-- **A server and an inventory with the same content agree.** Payloads that are handled one after the
other come to the same results with both, and the server accepts just what is added to the attachments. -/
theorem runs_agree (server : Server) (network : Http.Network) (source : Configuration.Source)
    (i : Inventory) (accounts : String → Prop) (payloads : List Bytes)
    (consistent : i.Consistent) (faultless : i.faults = [])
    (serves : server.Serves i accounts network)
    (account : ∀ c, source.load = .ok c → accounts (Http.basic c.user c.password))
    (reaches : server.Reaches i)
    (knows : ∀ p ∈ payloads, ∀ a, Alarm.ofEvent p = .ok a → server.Knows a.vm) :
    ∃ results s s' sent j,
      ((hold (respond ⟨some server.base⟩ source network) (payloads.mapM Tagging.run)).run
        .initial).run [] = ((results, s), sent) ∧
      ((hold (Inventory.respond source) (payloads.mapM Tagging.run)).run .initial).run i =
        ((results, s'), j) ∧
      j.attachments = i.attachments ++ server.accepted network [] sent := by
  have agrees := agrees_runs serves faultless consistent reaches account knows
  obtain ⟨⟨results, s⟩, sent, run, -, results', s', j, run', -, attached, same⟩ :=
    agrees [] .initial .initial i ⟨rfl, .none⟩ trivial
  obtain rfl : results = results' := same
  refine ⟨results, s, s', sent, j, ?_, run', attached⟩
  rw [hold_respond]
  exact run

/-! ### A server whose machine is tagged -/

/-- A server at `http://vc.test:8080`. -/
def testServer : Server where
  hostText := "vc.test"
  port := 8080
  host := .domain "vc.test"
  isHost := ⟨by decide, Url.forall_of_all (by decide), .inl (Url.forall_of_all (by decide))⟩
  named := by decide +kernel
  small := by decide
  sent := by decide +kernel

/-- An inventory with a machine and tags in two categories. -/
def stocked : Inventory where
  machines := [("vm-1", ⟨2, 4096⟩)]
  categories := [("c1", "config.hardware.memoryMB"), ("c2", "config.hardware.numCPU")]
  tags := [⟨"t1", "3", "c1"⟩, ⟨"t2", "2", "c2"⟩, ⟨"t3", "3", "c2"⟩]
  attachments := [("t2", ⟨"VM", "vm-2"⟩)]
  faults := []
  connects := 0
  hardwareLookups := 5
  categoryLookups := 4
  logouts := 0

theorem stocked_consistent : stocked.Consistent := by
  constructor <;> decide +kernel

theorem testServer_reaches : testServer.Reaches stocked := by
  constructor <;> decide +kernel

/-- The machine of the alarm can be asked for. -/
theorem knows_redAlarm : ∀ p ∈ [Inventory.redAlarm], ∀ a, Alarm.ofEvent p = .ok a → testServer.Knows a.vm := by
  intro p mem a read
  rw [List.mem_singleton.mp mem, Inventory.ofEvent_redAlarm] at read
  cases read
  constructor <;> decide +kernel

theorem runs_agree_stocked :
    stocked.Consistent ∧ stocked.faults = [] ∧
    testServer.Serves stocked (fun _ => True) (testServer.answering stocked) ∧
    testServer.Reaches stocked ∧
    (∀ p ∈ [Inventory.redAlarm], ∀ a, Alarm.ofEvent p = .ok a → testServer.Knows a.vm) ∧
    ∃ s s' sent j,
      ((hold (respond ⟨some testServer.base⟩ (.fixed ⟨"server", "user", "password", false⟩)
        (testServer.answering stocked)) ([Inventory.redAlarm].mapM Tagging.run)).run .initial).run [] =
          (([.ok (.tagged ⟨"VM", "vm-1"⟩ "t3" "c2")], s), sent) ∧
      ((hold (Inventory.respond (.fixed ⟨"server", "user", "password", false⟩))
        ([Inventory.redAlarm].mapM Tagging.run)).run .initial).run stocked =
          (([.ok (.tagged ⟨"VM", "vm-1"⟩ "t3" "c2")], s'), j) ∧
      testServer.accepted (testServer.answering stocked) [] sent = [("t3", ⟨"VM", "vm-1"⟩)] := by
  have serves := serves_answering testServer stocked_consistent
  obtain ⟨results, s, s', sent, j, run, run', attached⟩ :=
    runs_agree testServer (testServer.answering stocked) (.fixed ⟨"server", "user", "password", false⟩) stocked
      (fun _ => True) [Inventory.redAlarm] stocked_consistent rfl serves (fun _ _ => trivial)
      testServer_reaches knows_redAlarm
  have evaluated : ((hold (Inventory.respond (.fixed ⟨"server", "user", "password", false⟩))
      ([Inventory.redAlarm].mapM Tagging.run)).run .initial).run stocked =
        (([.ok (.tagged ⟨"VM", "vm-1"⟩ "t3" "c2")], ⟨some ⟨1, ()⟩, 2, false⟩),
          { stocked with
            attachments := stocked.attachments ++ [("t3", ⟨"VM", "vm-1"⟩)]
            connects := 1
            hardwareLookups := 6
            categoryLookups := 5 }) := by
    simp only [List.mapM_cons, List.mapM_nil, Tagging.run, Inventory.ofEvent_redAlarm]
    rfl
  cases run'.symm.trans evaluated
  have accepted := (List.append_cancel_left attached).symm
  exact ⟨stocked_consistent, rfl, serves, testServer_reaches, knows_redAlarm, s, _, sent, _, run, run', accepted⟩

/-! ### Where they do not agree -/

/-- A machine that is not known and whose URL is too long: the server is not asked. -/
theorem agrees_fromFetch_long {t : Target} {x : Session Link} {y : Session Unit} (faultless : i.faults = [])
    (isSegment : IsSegment t.vm.value) (long : ¬server.Fits (machinePath t.vm.value) none)
    (absent : i.machines.lookup t.vm.value = none) :
    Agrees server network source i (Good server network · x.directory) (Tagging.fromFetch x t)
      (Tagging.fromFetch y t) fun _ a b =>
        a = .error (.fetch (.directory (.failed (.http
          (.unsupported (server.url ((machinePath t.vm.value).map segmentText) none)))))) ∧
        b = .error (.fetch (.unavailable t.vm.value)) := by
  have asked : Agrees server network source i (Good server network · x.directory)
      (Sessions.call (.hardware x.directory t.vm)) (Sessions.call (.hardware () t.vm)) fun _ a b =>
        a = .error (.failed (.http (.unsupported (server.url ((machinePath t.vm.value).map segmentText) none)))) ∧
        b = .ok none := by
    refine agrees_call fun before good => ?_
    refine (returns_hardware_long good isSegment long).mono ?_
    rintro _ _ after - ⟨rfl, rfl⟩ j content
    obtain ⟨machines, -, -, none⟩ := of_content content faultless
    refine ⟨_, _, rfl, rfl, (List.append_nil _).symm, rfl, ?_⟩
    show j.orFault .retrieve (.ok (j.machines.lookup t.vm.value)) = _
    rw [Inventory.orFault, none, machines, absent]
    rfl
  refine asked.bind fun a b => ?_
  refine agrees_of_pre (fun before known => ⟨known, trivial⟩) ?_
  rintro ⟨rfl, rfl⟩
  exact agrees_done fun _ _ => ⟨rfl, rfl⟩

/-- An id of many letters. -/
def letters (n : Nat) : String := String.ofList (List.replicate n 'a')

theorem letters_length (n : Nat) : (letters n).length = n := by
  rw [letters, String.length_ofList, List.length_replicate]

theorem isSegment_letters {n : Nat} (many : 2 < n) : IsSegment (letters n) := by
  have other {s : String} (short : s.length ≤ 2) : letters n ≠ s := by
    intro same
    have length := letters_length n
    rw [same] at length
    omega
  refine ⟨other (by decide), other (by decide), other (by decide), ?_⟩
  intro c mem
  rw [letters, String.toList_ofList] at mem
  rw [List.eq_of_mem_replicate mem]
  decide

theorem not_fits_letters (server : Server) {n : Nat} (many : Request.maxUrlSize < n) :
    ¬server.Fits (machinePath (letters n)) none := by
  have segment : segmentText (letters n) ∈ (machinePath (letters n)).map segmentText :=
    List.mem_map_of_mem (by simp [machinePath])
  have inside := Url.size_le_render (u := server.url ((machinePath (letters n)).map segmentText) none) rfl segment
  have bytes := Url.length_le_size (segmentText (letters n))
  have characters := Url.length_le_segmentText (letters n)
  rw [letters_length] at characters
  unfold Server.Fits
  omega

/-- An alarm of a machine with an id of many letters. -/
def longAlarm (n : Nat) : Alarm := ⟨⟨"VirtualMachine", letters n⟩, "VM CPU Usage", "red"⟩

theorem ofEvent_longAlarm {n : Nat} (many : 2 < n) :
    Alarm.ofEvent (Utf8.encode (longAlarm n).eventText) = .ok (longAlarm n) := by
  have name : "VM CPU Usage" ≠ "" := by decide
  have level : "red" ≠ "" := by decide
  exact Alarm.ofEvent_eventText (isSegment_letters many).ne_empty name level

theorem target?_longAlarm (n : Nat) :
    Tagging.target? (longAlarm n) = some ⟨(longAlarm n).vm, .cpu, "config.hardware.numCPU"⟩ := rfl

theorem empty_reaches : testServer.Reaches .empty := by
  constructor <;> decide +kernel

theorem empty_consistent : Inventory.empty.Consistent := by
  constructor <;> decide

/-- Where the URL is refused. -/
def longUrl (n : Nat) : Url := testServer.url ((machinePath (letters n)).map segmentText) none

theorem agrees_longAlarm {n : Nat} {c : Connection} (many : Request.maxUrlSize < n)
    (loaded : source.load = .ok c) :
    Agrees testServer (testServer.answering .empty) source .empty (fun _ => True)
      (Tagging.run (Utf8.encode (longAlarm n).eventText)) (Tagging.run (Utf8.encode (longAlarm n).eventText))
      fun _ a b => a = .error (.fetch (.directory (.failed (.http (.unsupported (longUrl n)))))) ∧
        b = .error (.fetch (.unavailable (letters n))) := by
  have longer : 2 < n := Nat.lt_trans (by decide) many
  unfold Tagging.run
  rw [ofEvent_longAlarm longer]
  simp only [target?_longAlarm]
  refine agrees_settle (serves_answering testServer empty_consistent) rfl empty_reaches (fun _ _ => trivial)
    (fun e failed => nomatch loaded.symm.trans failed) fun x y => ?_
  exact agrees_fromFetch_long rfl (isSegment_letters longer) (not_fits_letters testServer many) rfl

/-- An id that is too long for a URL is an error of the client with a server, where the inventory only says
that there is no such machine. -/
theorem runs_disagree_long :
    Inventory.empty.Consistent ∧ Inventory.empty.faults = [] ∧
    testServer.Serves .empty (fun _ => True) (testServer.answering .empty) ∧
    (∀ a, Alarm.ofEvent (Utf8.encode (longAlarm 65536).eventText) = .ok a → IsSegment a.vm.value) ∧
    ∃ s s' sent j,
      ((hold (respond ⟨some testServer.base⟩ (.fixed ⟨"server", "user", "password", false⟩)
        (testServer.answering .empty)) (Tagging.run (Utf8.encode (longAlarm 65536).eventText))).run
          .initial).run [] =
        ((.error (.fetch (.directory (.failed (.http (.unsupported (longUrl 65536)))))), s), sent) ∧
      ((hold (Inventory.respond (.fixed ⟨"server", "user", "password", false⟩))
        (Tagging.run (Utf8.encode (longAlarm 65536).eventText))).run .initial).run .empty =
          ((.error (.fetch (.unavailable (letters 65536))), s'), j) := by
  have many : Request.maxUrlSize < 65536 := by decide
  refine ⟨empty_consistent, rfl, serves_answering testServer empty_consistent, ?_, ?_⟩
  · intro a read
    rw [ofEvent_longAlarm (by decide)] at read
    cases read
    exact isSegment_letters (by decide)
  · have loaded : (Configuration.Source.fixed ⟨"server", "user", "password", false⟩).load = .ok _ := rfl
    obtain ⟨⟨a, s⟩, sent, run, -, b, s', j, run', -, -, failed, absent⟩ :=
      agrees_longAlarm many loaded [] .initial .initial .empty ⟨rfl, .none⟩ trivial
    obtain rfl : a = _ := failed
    obtain rfl : b = _ := absent
    refine ⟨s, s', sent, j, ?_, run'⟩
    rw [hold_respond]
    exact run

end TierTagger.VCenter
