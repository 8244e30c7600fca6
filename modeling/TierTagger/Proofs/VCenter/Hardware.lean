import TierTagger.Proofs.Json.Entries
import TierTagger.Proofs.Json.Number
import TierTagger.Proofs.Tagging.Pipeline
import TierTagger.Proofs.VCenter.Operations

/-!
# The hardware of a machine

What is understood of the answer to the request for a machine, said of its status and its body.

- **Records** (`IsSize`, `IsPart`, `IsMachine`): the record of a machine and its two parts, each of which may be
  missing or `null`. A part that is there has its number, below the limit.
- **Broken records** (`Broken`): a part twice, or one without its number. No record is read off them
  (`Broken.not_isMachine`).
- **Answers** (`Understood`): the hardware, its absence or a failure, each exactly where it belongs.
- `fetch_understood`: fetching the hardware asks for the machine once and understands the answer so.
-/

namespace TierTagger.VCenter

open Json Ascii
open Http (Answer Request)

variable {v w : Bytes} {name : String} {limit n : Nat}

/-! ## Records -/

/-- A record of one number. -/
def IsSize (name : String) (n : Nat) (w : Bytes) : Prop :=
  ∃ entries, IsRecord [(name, .required)] entries w ∧ Stated IsNatural n (entries.lookup name)

/-- A part of a record: nothing, `null`, or a record of a number. -/
inductive IsPart (name : String) (limit : Nat) : Option Nat → Option Bytes → Prop where
  | absent : IsPart name limit none none
  | null : IsPart name limit none (some (ofChar 'n' :: nullTail))
  | stated {n : Nat} {w : Bytes} (size : IsSize name n w) (fits : n < limit) : IsPart name limit (some n) (some w)

/-- The record of a machine: how many CPUs and how much memory it has. -/
def IsMachine (cpu memory : Option Nat) (w : Bytes) : Prop :=
  ∃ entries, IsRecord [("cpu", .optional), ("memory", .optional)] entries w ∧
    IsPart "count" limit32 cpu (entries.lookup "cpu") ∧ IsPart "size_MiB" limit64 memory (entries.lookup "memory")

/-- The body is the record of a machine, blanks around it aside. -/
def Records (cpu memory : Option Nat) (body : Bytes) : Prop :=
  ∃ before w after, body = before ++ (w ++ after) ∧ Blanks before ∧ IsMachine cpu memory w ∧ Blanks after

section
variable {α : Type} {value : α → Nat}

/-- A record of one number is read as that number. -/
theorem means_size {k : Record α} {expected : String} (of : Nat → α) (small : limit ≤ Nat.pow 2 64)
    (below : ∀ a, value a < limit) (back : ∀ a, of (value a) = a) (into : ∀ n < limit, value (of n) = n)
    (single : k.fields = [.of name .required (.natural limit expected) fun n _ => of n]) :
    Means k.decoder fun a => IsSize name (value a) := by
  refine (Record.means_single (means_natural small) of single).congr fun a w =>
    exists_congr fun entries => and_congr_right fun record => ?_
  have present : name ∈ entries.map (·.1) := (record.fits (by simp) _ (.head _)).2 rfl
  cases found : entries.lookup name with
  | none => exact absurd present (lookup_eq_none.mp found)
  | some v =>
    simp only [part_some, Stated, Option.some.injEq, exists_eq_left']
    constructor
    · rintro ⟨n, ⟨natural, fits⟩, rfl⟩
      rwa [into n fits]
    · exact fun natural => ⟨value a, ⟨natural, below a⟩, back a⟩

/-- A part is read as what it says. -/
theorem part_iff_isPart (below : ∀ a, value a < limit) {o : Option α} {part : Option Bytes} :
    Part (OrNull (Held fun a => IsSize name (value a)) none) none o part ↔ IsPart name limit (o.map value) part := by
  constructor
  · intro told
    cases told with
    | absent => exact .absent
    | written told =>
      cases told with
      | null => exact .null
      | stated told =>
        obtain ⟨a, rfl, size⟩ := told
        exact .stated size (below a)
  · intro isPart
    cases o with
    | none =>
      cases isPart with
      | absent => exact .absent
      | null => exact .written .null
    | some a =>
      cases isPart with
      | stated size fits => exact .written (.stated ⟨a, rfl, size⟩)

/-- The number of a part fits its type. -/
theorem IsPart.map_map {of : Nat → α} {o : Option Nat} {part : Option Bytes} (isPart : IsPart name limit o part)
    (into : ∀ n < limit, value (of n) = n) : (o.map of).map value = o := by
  cases isPart with
  | absent | null => rfl
  | stated size fits => exact congrArg some (into _ fits)

end

theorem not_isSize_null : ¬IsSize name n (ofChar 'n' :: nullTail) := by
  rintro ⟨entries, record, -⟩
  exact not_isRecord_null record

theorem means_cpu : Means cpuRecord.decoder.nullable
    (OrNull (Held fun n : UInt32 => IsSize "count" n.toNat) none) :=
  (means_size UInt32.ofNat (by decide) UInt32.toNat_lt (fun _ => UInt32.ofNat_toNat)
    (fun _ fits => UInt32.toNat_ofNat_of_lt fits) rfl).nullable fun _ => not_isSize_null

theorem means_memory : Means memoryRecord.decoder.nullable
    (OrNull (Held fun n : UInt64 => IsSize "size_MiB" n.toNat) none) :=
  (means_size UInt64.ofNat (Nat.le_refl _) UInt64.toNat_lt (fun _ => UInt64.ofNat_toNat)
    (fun _ fits => UInt64.toNat_ofNat_of_lt fits) rfl).nullable fun _ => not_isSize_null

/-- What the record of a machine says, field by field. -/
def MachineSays (field : String) (o : Option Bytes) (m : Machine) : Prop :=
  (field = "cpu" → Part (OrNull (Held fun n : UInt32 => IsSize "count" n.toNat) none) none m.cpu o) ∧
    (field = "memory" → Part (OrNull (Held fun n : UInt64 => IsSize "size_MiB" n.toNat) none) none m.memory o)

theorem reflects_machine : Machine.record.Reflects MachineSays where
  distinct := by simp [Machine.record, Field.of]
  field := by
    simp only [Machine.record, List.forall_mem_cons, List.not_mem_nil, false_implies, implies_true, and_true]
    constructor
    · refine Record.reflected_of id Machine.cpu means_cpu ?_ (fun _ _ => rfl) ?_
      all_goals simp +contextual [MachineSays]
    · refine Record.reflected_of id Machine.memory means_memory ?_ (fun _ _ => rfl) ?_
      all_goals simp +contextual [MachineSays]
  blank := by simp [Machine.record, Field.of, MachineSays]
  unique := by
    rintro parts ⟨cpu, memory⟩ ⟨cpu', memory'⟩ agrees agrees'
    simp only [Machine.record, Field.of, MachineSays, List.forall_mem_cons, List.not_mem_nil, false_implies,
      implies_true, and_true, true_implies, String.reduceEq, true_and] at agrees agrees'
    rw [means_cpu.part_unique agrees.1 agrees'.1, means_memory.part_unique agrees.2 agrees'.2]

theorem means_machine : Means Machine.decoder fun m =>
    IsMachine (m.cpu.map UInt32.toNat) (m.memory.map UInt64.toNat) :=
  reflects_machine.means.congr fun m w => exists_congr fun entries => by
    simp only [Machine.record, Record.shape, Field.of, MachineSays, List.map_cons, List.map_nil, List.forall_mem_cons,
      List.not_mem_nil, false_implies, implies_true, and_true, true_implies, String.reduceEq, true_and]
    rw [part_iff_isPart UInt32.toNat_lt, part_iff_isPart UInt64.toNat_lt]
    rfl

/-- The numbers of a record are those of a machine. -/
theorem Records.exists_machine {cpu memory : Option Nat} {body : Bytes} (records : Records cpu memory body) :
    ∃ m : Machine, m.cpu.map UInt32.toNat = cpu ∧ m.memory.map UInt64.toNat = memory := by
  obtain ⟨-, w, -, -, -, ⟨entries, -, isCpu, isMemory⟩, -⟩ := records
  exact ⟨⟨cpu.map UInt32.ofNat, memory.map UInt64.ofNat⟩,
    isCpu.map_map fun _ fits => UInt32.toNat_ofNat_of_lt fits,
    isMemory.map_map fun _ fits => UInt64.toNat_ofNat_of_lt fits⟩

theorem decode_machine {m : Machine} {body : Bytes} : Machine.decoder.decode body = .ok m ↔
    Records (m.cpu.map UInt32.toNat) (m.memory.map UInt64.toNat) body :=
  means_machine.decode_eq_ok

/-! ## Broken records -/

/-- No number below a limit: too large, negative, a fraction, or no number. -/
def Unsized (limit : Nat) (w : Bytes) : Prop := ∀ n < limit, ¬IsNatural n w

theorem unsized_large (natural : IsNatural n w) (large : limit ≤ n) : Unsized limit w := by
  intro m fits natural'
  obtain rfl := natural.unique natural'
  exact absurd fits (Nat.not_lt.mpr large)

/-- A sign, a point or the mark of an exponent is enough. -/
theorem unsized_of_mem {b : UInt8} (mem : b ∈ w) (other : isDigit b = false) : Unsized limit w := by
  rintro m - ⟨integer, -⟩
  cases integer with
  | zero =>
    obtain rfl := List.mem_singleton.mp mem
    cases other
  | digits lead _ digits =>
    rcases List.mem_cons.mp mem with rfl | mem
    · rw [lead] at other
      cases other
    · rw [digits b mem] at other
      cases other

/-- A part that is there without its number: the number is missing, or comes twice, or is none. -/
inductive Numberless (name : String) (limit : Nat) : Bytes → Prop where
  | count {entries : List (String × Bytes)} {w : Bytes} (object : IsObject entries w)
    (wrong : (entries.map (·.1)).count name ≠ 1) : Numberless name limit w
  | member {entries : List (String × Bytes)} {v w : Bytes} (object : IsObject entries w) (mem : (name, v) ∈ entries)
    (unsized : Unsized limit v) : Numberless name limit w
  | list {values : List Bytes} {w : Bytes} (list : IsList values w) (unsized : ∀ v, values = [v] → Unsized limit v) :
    Numberless name limit w

/-- The fields of a machine, each with the name and the limit of its number. -/
inductive Sized : String → String → Nat → Prop where
  | cpu : Sized "cpu" "count" limit32
  | memory : Sized "memory" "size_MiB" limit64

/-- A record of a machine with a part twice, or with one that is there without its number. -/
inductive Broken : Bytes → Prop where
  | repeated {entries : List (String × Bytes)} {field name : String} {limit : Nat} {w : Bytes}
    (object : IsObject entries w) (sized : Sized field name limit) (twice : 1 < (entries.map (·.1)).count field) :
    Broken w
  | part {entries : List (String × Bytes)} {field name : String} {limit : Nat} {v w : Bytes}
    (object : IsObject entries w) (sized : Sized field name limit) (mem : (field, v) ∈ entries)
    (numberless : Numberless name limit v) : Broken w
  | list {values : List Bytes} {w : Bytes} (list : IsList values w)
    (numberless : ∀ c m, values = [c, m] → Numberless "count" limit32 c ∨ Numberless "size_MiB" limit64 m) : Broken w

theorem Numberless.not_isSize (numberless : Numberless name limit w) (fits : n < limit) : ¬IsSize name n w := by
  rintro ⟨entries, record, v, found, natural⟩
  cases numberless with
  | count object wrong =>
    obtain ⟨rfl, once⟩ := (isRecord_object object).mp record
    obtain ⟨few, present⟩ := once _ (.head _)
    exact wrong (Nat.le_antisymm few (List.count_pos_iff.mpr (present rfl)))
  | member object mem unsized =>
    obtain ⟨rfl, once⟩ := (isRecord_object object).mp record
    rw [(lookup_eq_some (once _ (.head _)).1).mpr mem] at found
    cases found
    exact unsized n fits natural
  | @list values w list unsized =>
    obtain ⟨rfl, few, rest⟩ := (isRecord_list list).mp record
    match values, few with
    | [], _ => cases found
    | [u], _ =>
      simp only [List.map_cons, List.map_nil, List.zip_cons_cons, List.zip_nil_left, List.lookup_cons_self,
        Option.some.injEq] at found
      subst found
      exact unsized _ rfl n fits natural

theorem Numberless.isValue (numberless : Numberless name limit w) : IsValue .object w ∨ IsValue .list w := by
  cases numberless with
  | count object | member object => exact .inl object.isValue
  | list list => exact .inr list.isValue

theorem Numberless.not_isPart (numberless : Numberless name limit w) {o : Option Nat} :
    ¬IsPart name limit o (some w) := by
  intro isPart
  cases isPart with
  | null =>
    rcases numberless.isValue with value | value
    · exact nomatch kind_unique value .null
    · exact nomatch kind_unique value .null
  | stated size fits => exact numberless.not_isSize fits size

theorem Broken.isValue (broken : Broken w) : IsValue .object w ∨ IsValue .list w := by
  cases broken with
  | repeated object | part object => exact .inl object.isValue
  | list list => exact .inr list.isValue

/-- A broken record is none. -/
theorem Broken.not_isMachine (broken : Broken w) {cpu memory : Option Nat} : ¬IsMachine cpu memory w := by
  rintro ⟨entries, record, isCpu, isMemory⟩
  have read {field name : String} {limit : Nat} (sized : Sized field name limit) :
      (entries.map (·.1)).count field ≤ 1 ∧ ∃ o, IsPart name limit o (entries.lookup field) := by
    cases sized with
    | cpu => exact ⟨(record.fits (by simp) _ (.head _)).1, cpu, isCpu⟩
    | memory => exact ⟨(record.fits (by simp) _ (.tail _ (.head _))).1, memory, isMemory⟩
  cases broken with
  | repeated object sized twice =>
    obtain ⟨rfl, -⟩ := (isRecord_object object).mp record
    exact absurd (read sized).1 (Nat.not_le.mpr twice)
  | part object sized mem numberless =>
    obtain ⟨rfl, -⟩ := (isRecord_object object).mp record
    obtain ⟨once, o, isPart⟩ := read sized
    rw [(lookup_eq_some once).mpr mem] at isPart
    exact numberless.not_isPart isPart
  | @list values w list numberless =>
    obtain ⟨rfl, few, rest⟩ := (isRecord_list list).mp record
    match values, few with
    | [], _ => exact nomatch rest _ (.head _)
    | [c], _ => exact nomatch rest _ (.head _)
    | [c, m], _ =>
      rcases numberless c m rfl with wrong | wrong
      · exact wrong.not_isPart isCpu
      · exact wrong.not_isPart isMemory

/-! ## Answers -/

/-- What is understood of the answer to the request for a machine. -/
structure Understood (vm : ObjectRef) (a : Answer) (x : Except Tagging.FetchError Hardware) : Prop where
  /-- The hardware is known from a record with both numbers, and is these. -/
  stated (h : Hardware) : x = .ok h ↔
    ∃ body, Grants a body ∧ Records (some h.cpus.toNat) (some h.memoryMB.toNat) body
  /-- There is none if there is no machine, or if its record has not both parts. -/
  unavailable (id : String) : x = .error (.unavailable id) ↔ id = vm.value ∧
    ((∃ body, a = .response 404 body) ∨
      ∃ body cpu memory, Grants a body ∧ Records cpu memory body ∧ (cpu = none ∨ memory = none))
  /-- Everything else is a failure. -/
  failed : (∃ e, x = .error (.directory e)) ↔ (∀ body, a ≠ .response 404 body) ∧
    ∀ body cpu memory, Grants a body → ¬Records cpu memory body
  /-- A broken record is. -/
  broken (before w after : Bytes) (grants : Grants a (before ++ (w ++ after))) (blanks : Blanks before)
    (wrong : Broken w) (blanks' : Blanks after) : ∃ e, x = .error (.directory e)

/-- What becomes of the hardware that was found. -/
def fetchOf (vm : ObjectRef) : Except Directory.Error (Option Hardware) → Except Tagging.FetchError Hardware
  | .error e => .error (.directory e)
  | .ok none => .error (.unavailable vm.value)
  | .ok (some h) => .ok h

section
variable {vm : ObjectRef} {a : Answer} {r : Request} {x : Except Directory.Error (Option Hardware)}

theorem fetchOf_eq_ok {h : Hardware} : fetchOf vm x = .ok h ↔ x = .ok (some h) := by
  rcases x with e | _ | h' <;> simp [fetchOf]

theorem fetchOf_eq_unavailable {id : String} :
    fetchOf vm x = .error (.unavailable id) ↔ id = vm.value ∧ x = .ok none := by
  rcases x with e | _ | h' <;> simp [fetchOf, eq_comm]

theorem fetchOf_eq_directory : (∃ e, fetchOf vm x = .error (.directory e)) ↔ ∀ o, x ≠ .ok o := by
  rcases x with e | _ | h' <;> simp [fetchOf]

theorem hardware?_eq_some {m : Machine} {h : Hardware} :
    m.hardware? = some h ↔ m = ⟨some h.cpus, some h.memoryMB⟩ := by
  obtain ⟨cpu, memory⟩ := m
  obtain ⟨cpus, memoryMB⟩ := h
  cases cpu <;> cases memory <;> simp [Machine.hardware?]

theorem hardware?_eq_none {m : Machine} : m.hardware? = none ↔ m.cpu = none ∨ m.memory = none := by
  obtain ⟨cpu, memory⟩ := m
  cases cpu <;> cases memory <;> simp [Machine.hardware?]

/-- The value of a body is the only one. -/
theorem not_records_broken {before after : Bytes} {cpu memory : Option Nat} (blanks : Blanks before)
    (broken : Broken w) (blanks' : Blanks after) : ¬Records cpu memory (before ++ (w ++ after)) := by
  rintro ⟨before', w', after', split, around, machine, around'⟩
  have ends := unnumeric_blanks blanks'
  have ends' := unnumeric_blanks around'
  obtain ⟨entries, record, parts⟩ := machine
  have same : w = w' := by
    rcases broken.isValue with value | value <;> rcases record.isValue with value' | value' <;>
      exact (value_unique_padded blanks around value value' ends ends' split).1
  subst same
  exact broken.not_isMachine ⟨entries, record, parts⟩

theorem fetchOf_machineOf_stated {h : Hardware} : fetchOf vm (machineOf (heard r a)) = .ok h ↔
    ∃ body, Grants a body ∧ Records (some h.cpus.toNat) (some h.memoryMB.toNat) body := by
  simp only [fetchOf_eq_ok, machineOf_eq_ok, reduceCtorEq, and_false, exists_false, false_or, hardware?_eq_some,
    decode_machine]
  constructor
  · rintro ⟨body, m, grants, records, rfl⟩
    exact ⟨body, grants, records⟩
  · rintro ⟨body, grants, records⟩
    exact ⟨body, ⟨some h.cpus, some h.memoryMB⟩, grants, records, rfl⟩

theorem fetchOf_machineOf_unavailable {id : String} :
    fetchOf vm (machineOf (heard r a)) = .error (.unavailable id) ↔ id = vm.value ∧
      ((∃ body, a = .response 404 body) ∨
        ∃ body cpu memory, Grants a body ∧ Records cpu memory body ∧ (cpu = none ∨ memory = none)) := by
  simp only [fetchOf_eq_unavailable, machineOf_eq_ok, and_true, hardware?_eq_none, decode_machine]
  refine and_congr_right fun _ => or_congr_right (exists_congr fun body => ?_)
  constructor
  · rintro ⟨m, grants, records, lacks⟩
    exact ⟨_, _, grants, records, lacks.imp Option.map_eq_none_iff.mpr Option.map_eq_none_iff.mpr⟩
  · rintro ⟨cpu, memory, grants, records, lacks⟩
    obtain ⟨m, rfl, rfl⟩ := records.exists_machine
    exact ⟨m, grants, records, lacks.imp Option.map_eq_none_iff.mp Option.map_eq_none_iff.mp⟩

theorem fetchOf_machineOf_failed : (∃ e, fetchOf vm (machineOf (heard r a)) = .error (.directory e)) ↔
    (∀ body, a ≠ .response 404 body) ∧ ∀ body cpu memory, Grants a body → ¬Records cpu memory body := by
  rw [fetchOf_eq_directory]
  constructor
  · refine fun none => ⟨fun body same => none _ (machineOf_eq_ok.mpr (.inl ⟨body, same, rfl⟩)), ?_⟩
    intro body cpu memory grants records
    obtain ⟨m, rfl, rfl⟩ := records.exists_machine
    exact none _ (machineOf_eq_ok.mpr (.inr ⟨body, m, grants, decode_machine.mpr records, rfl⟩))
  · rintro ⟨other, none⟩ o read
    rcases machineOf_eq_ok.mp read with ⟨body, missing, -⟩ | ⟨body, m, grants, decoded, -⟩
    · exact other body missing
    · exact none body _ _ grants (decode_machine.mp decoded)

theorem fetchOf_machineOf_understood : Understood vm a (fetchOf vm (machineOf (heard r a))) where
  stated _ := fetchOf_machineOf_stated
  unavailable _ := fetchOf_machineOf_unavailable
  failed := fetchOf_machineOf_failed
  broken before w after grants blanks wrong blanks' := by
    refine fetchOf_machineOf_failed.mpr ⟨fun body same => ?_, fun body cpu memory grants' records => ?_⟩
    · exact not_grants_missing (same ▸ grants)
    · obtain ⟨status, answer, -⟩ := grants
      obtain ⟨status', answer', -⟩ := grants'
      cases answer.symm.trans answer'
      exact not_records_broken blanks wrong blanks' records

end

/-! ## Fetching -/

/-- The request for a machine, if it can be made. -/
def IsAsked (link : Link) (vm : ObjectRef) (r : Request) : Prop :=
  request link link.inventory .get (machinePath vm.value) none none = .ok r ∧ Request.isSupported r.url

section
variable {network : Http.Network} {before : List Request} {link : Link} {vm : ObjectRef} {r : Request}

theorem hold_fetch {m : Type → Type} [Monad m] [LawfulMonad m] {δ : Type} (serve : (c : Call δ) → m c.Answer)
    (session : Session δ) (s : Sessions δ) :
    (Sessions.hold serve (Tagging.fetch session vm).run).run s =
      serve (.hardware session.directory vm) >>= fun x => pure (fetchOf vm x, s) := by
  have questions : (Tagging.fetch session vm).run =
      .ask (.call (.hardware session.directory vm)) fun x => .done (fetchOf vm x) := by
    refine (Tagging.run_attempt_bind _ _ _).trans (Dialogue.ask_congr (Sessions.Question.call _) fun x => ?_)
    rcases x with e | _ | h <;> rfl
  rw [questions, Sessions.hold_ask_call]
  exact bind_congr fun x => Sessions.hold_done serve s _

/-- A request is answered by the network, if it can be made. -/
theorem once_run {ρ : Type} {judge : Except Directory.Failure (Nat × Bytes) → ρ} :
    ((once r judge).run (Dialogue.replying network)).run before =
      match fault? r with
      | some e => (judge (.error (.http e)), before)
      | none => (judge (heard r (network before r)), before ++ [r]) := by
  unfold once
  cases fault? r <;> rfl

/-- Fetching the hardware of a machine asks for the machine once, where that can be asked, and understands the
answer, whatever it is. -/
theorem fetch_understood (site : Site) (source : Configuration.Source) (network : Http.Network)
    (before : List Request) (s : Sessions Link) (n : Nat) (valid : objectId vm.value = .ok vm.value)
    (legal : Request.isHeaderValue link.inventory) : ∃ x sent,
      ((Sessions.hold (respond site source network) (Tagging.fetch ⟨n, link⟩ vm).run).run s).run before =
        ((x, s), before ++ sent) ∧
      ((∃ r, IsAsked link vm r ∧ sent = [r] ∧ Understood vm (network before r) x) ∨
        (¬∃ r, IsAsked link vm r) ∧ sent = [] ∧ ∃ e, x = .error (.directory e)) := by
  have run : ((Sessions.hold (respond site source network) (Tagging.fetch ⟨n, link⟩ vm).run).run s).run before =
      let answer := (((hardware link vm).run).run (Dialogue.replying network)).run before
      ((fetchOf vm answer.1, s), answer.2) := by
    rw [hold_fetch, respond_eq]
    rfl
  rw [run, hardware_run, valid]
  dsimp only
  cases made : request link link.inventory .get (machinePath vm.value) none none with
  | error e =>
    refine ⟨.error (.directory e), [], ?_, .inr ⟨?_, rfl, e, rfl⟩⟩
    · rw [List.append_nil]
      rfl
    · rintro ⟨r, asked, -⟩
      rw [made] at asked
      cases asked
  | ok r =>
    have token : r.token = some link.inventory := (made_request made).token_eq
    dsimp only
    rw [once_run]
    cases fault : fault? r with
    | none =>
      have supported := (fault?_eq_none.mp fault).2
      exact ⟨_, [r], rfl, .inl ⟨r, ⟨made, supported⟩, rfl, fetchOf_machineOf_understood⟩⟩
    | some e =>
      refine ⟨.error (.directory (.failed (.http e))), [], ?_, .inr ⟨?_, rfl, _, rfl⟩⟩
      · rw [List.append_nil]
        rfl
      · rintro ⟨r', asked, supported⟩
        cases made.symm.trans asked
        rw [fault?_eq_none.mpr ⟨fun t same => ?_, supported⟩] at fault
        · cases fault
        · rw [token] at same
          cases same
          exact legal

end

/-- A connection with `http://vc`. -/
def plainLink : Link := ⟨"http://vc", "token", "other"⟩

/-- A machine, by its id. -/
def plainMachine : ObjectRef := ⟨"VirtualMachine", "vm-42"⟩

/-- What is fetched from a server that gives all requests the same answer. -/
def fetchedFrom (a : Answer) : (Except Tagging.FetchError Hardware × Sessions Link) × List Request :=
  ((Sessions.hold (respond ⟨none⟩ (.fixed default) fun _ _ => a)
    (Tagging.fetch ⟨1, plainLink⟩ plainMachine).run).run .initial).run []

/-- A record of a machine, its memory in a list. -/
def mixedBody : Bytes :=
  compactText [("cpu", .object, compactText [("count", .number, Utf8.encode (Writer.natural 2))]),
    ("memory", .list, compactList [(.number, Utf8.encode (Writer.natural 4096))])]

example : mixedBody = Utf8.encode "\x7b\"cpu\":\x7b\"count\":2\x7d,\"memory\":[4096]\x7d" := by decide +kernel

/-- A record of a machine without memory. -/
def cpuBody (number : Bytes) : Bytes :=
  compactText [("cpu", .object, compactText [("count", .number, number)]), ("memory", .null, ofChar 'n' :: nullTail)]

theorem records_mixedBody : Records (some 2) (some 4096) mixedBody := by
  have two := isNatural_written 2
  have memory := isNatural_written 4096
  have size := isObject_compact [("count", .number, Utf8.encode (Writer.natural 2))] (by decide)
    (by simpa using two.isValue)
  have item := isList_compact [(.number, Utf8.encode (Writer.natural 4096))] (by simpa using memory.isValue)
  have names : Simple "cpu" ∧ Simple "memory" := by decide
  have body := isObject_compact [("cpu", .object, _), ("memory", .list, _)] (by simpa using names)
    (by simpa using ⟨size.isValue, item.isValue⟩)
  refine ⟨[], mixedBody, [], by simp, blanks_nil, ⟨_, .object body (by simp [Shape.Fits]), ?_, ?_⟩, blanks_nil⟩
  · exact .stated ⟨_, .object size (by simp [Shape.Fits]), _, rfl, two⟩ (by decide)
  · exact .stated ⟨_, .list item (by simp) (by simp), _, rfl, memory⟩ (by decide)

/-- It is broken if the number is none. -/
theorem broken_cpuBody {number : Bytes} (value : IsValue .number number) (unsized : Unsized limit32 number) :
    Broken (cpuBody number) := by
  have name : Simple "count" := by decide
  have names : Simple "cpu" ∧ Simple "memory" := by decide
  have size := isObject_compact [("count", .number, number)] (by simpa using name) (by simpa using value)
  have body := isObject_compact [("cpu", .object, _), ("memory", .null, ofChar 'n' :: nullTail)]
    (by simpa using names) (by simpa using ⟨size.isValue, IsValue.null⟩)
  exact .part body .cpu (.head _) (.member size (.head _) unsized)

/-- The numbers of a record, no machine, a number that is too large, and a negative one. -/
theorem fetch_understood_plain :
    (objectId plainMachine.value = .ok plainMachine.value ∧ Request.isHeaderValue plainLink.inventory = true) ∧
    (fetchedFrom (.response 200 mixedBody)).1.1 = .ok ⟨2, 4096⟩ ∧
    (fetchedFrom (.response 404 mixedBody)).1.1 = .error (.unavailable "vm-42") ∧
    ∀ number ∈ [Utf8.encode (Writer.natural 4294967296), minus :: Utf8.encode (Writer.natural 2)],
      ∃ e, (fetchedFrom (.response 200 (cpuBody number))).1.1 = .error (.directory e) := by
  have valid : objectId plainMachine.value = .ok plainMachine.value := by decide
  have legal : Request.isHeaderValue plainLink.inventory = true := by decide
  have asked : ∃ r, IsAsked plainLink plainMachine r :=
    ⟨⟨.get, ⟨"http", some ⟨"", "", .domain "vc", none⟩, .rooted ["api", "vcenter", "vm", "vm-42"], none, none⟩,
      [], some "token", none⟩, by decide +kernel, by decide +kernel⟩
  have outcome (a : Answer) : Understood plainMachine a (fetchedFrom a).1.1 := by
    obtain ⟨x, sent, run, ⟨r, -, -, told⟩ | ⟨none, -⟩⟩ :=
      fetch_understood ⟨none⟩ (.fixed default) (fun _ _ => a) [] .initial 1 valid legal
    · rw [fetchedFrom, run]
      exact told
    · exact absurd asked none
  have grants (body : Bytes) : Grants (.response 200 body) body := ⟨200, rfl, by decide, by decide⟩
  refine ⟨⟨valid, legal⟩, ?_, ?_, ?_⟩
  · exact ((outcome _).stated ⟨2, 4096⟩).mpr ⟨mixedBody, grants mixedBody, records_mixedBody⟩
  · exact ((outcome _).unavailable "vm-42").mpr ⟨rfl, .inl ⟨mixedBody, rfl⟩⟩
  · intro number mem
    have wrong : IsValue .number number ∧ Unsized limit32 number := by
      simp only [List.mem_cons, List.not_mem_nil, or_false] at mem
      rcases mem with rfl | rfl
      · exact ⟨(isNatural_written _).isValue, unsized_large (isNatural_written _) (Nat.le_refl _)⟩
      · have magnitude := IsMagnitude.of (isNatural_written 2).integer .absent .absent
        rw [List.append_nil, List.append_nil] at magnitude
        exact ⟨.number (.negative magnitude), unsized_of_mem (.head _) rfl⟩
    have broken := broken_cpuBody wrong.1 wrong.2
    exact (outcome _).broken [] _ [] (by simpa using grants _) blanks_nil broken blanks_nil

end TierTagger.VCenter
