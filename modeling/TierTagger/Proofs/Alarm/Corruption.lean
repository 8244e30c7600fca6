import TierTagger.Proofs.Alarm.Document
import TierTagger.Proofs.Json.Corruption

/-!
# Corrupted events

`malformed_of_accepted`: a payload that is accepted is accepted neither cut off nor followed by anything, and
not with a member it reads from twice or of a wrong kind. All of these are malformed, and none is taken for
an event that says too little.
-/

namespace TierTagger.Alarm

open Json

/-- The payload is no event. -/
def Malformed (p : Bytes) : Prop := ∃ fault, ofEvent p = .error (.malformed p fault)

theorem malformed_iff {p : Bytes} : Malformed p ↔ ∀ c, Change.decoder.decode p ≠ .ok c := by
  unfold Malformed ofEvent
  cases Change.decoder.decode p with
  | error fault => exact ⟨fun _ c => by simp, fun _ => ⟨fault, rfl⟩⟩
  | ok c =>
    refine ⟨?_, fun none => absurd rfl (none c)⟩
    rintro ⟨fault, alarm⟩
    revert alarm
    simp only [Change.alarm]
    grind

theorem not_malformed_iff {p : Bytes} : ¬Malformed p ↔ ∃ c, Change.decoder.decode p = .ok c := by
  simp [malformed_iff]

/-! ## The records of an event -/

theorem regular_reference : ObjectRef.record.Regular where
  exact := by
    simp only [ObjectRef.record, List.forall_mem_cons, List.not_mem_nil, false_implies, implies_true, and_true]
    exact ⟨exact_text.orDefault.field, exact_text.orDefault.field⟩
  distinct := by simp [ObjectRef.record, Field.of]

theorem regular_vm : Change.vmRecord.Regular where
  exact := by
    simp only [Change.vmRecord, List.forall_mem_cons, List.not_mem_nil, false_implies, implies_true, and_true]
    exact (Record.exact_decoder regular_reference.exact).nullable.field
  distinct := by simp [Change.vmRecord]

theorem regular_alarm : Change.alarmRecord.Regular where
  exact := by
    simp only [Change.alarmRecord, List.forall_mem_cons, List.not_mem_nil, false_implies, implies_true,
      and_true]
    exact exact_text.orDefault.field
  distinct := by simp [Change.alarmRecord]

theorem regular_data : Change.record.Regular where
  exact := by
    simp only [Change.record, List.forall_mem_cons, List.not_mem_nil, false_implies, implies_true, and_true]
    exact ⟨(Record.exact_decoder regular_vm.exact).nullable.field,
      (Record.exact_decoder regular_alarm.exact).orDefault.field, exact_text.orDefault.field⟩
  distinct := by simp [Change.record, Field.of]

theorem regular_event : Change.eventRecord.Regular where
  exact := by
    simp only [Change.eventRecord, List.forall_mem_cons, List.not_mem_nil, false_implies, implies_true,
      and_true]
    exact (Record.exact_decoder regular_data.exact).orDefault.field
  distinct := by simp [Change.eventRecord]

theorem exact_event : Exact Change.decoder := (Record.exact_decoder regular_event.exact).orDefault

/-! ## The members that are read -/

/-- The paths to the strings of an event. -/
def textPaths : List (List String) :=
  [["Data", "To"], ["Data", "Vm", "Vm", "Type"], ["Data", "Vm", "Vm", "Value"], ["Data", "Alarm", "Name"]]

/-- The paths to the records of an event. -/
def recordPaths : List (List String) :=
  [["Data"], ["Data", "Vm"], ["Data", "Alarm"], ["Data", "Vm", "Vm"]]

/-- A kind that a string must not have. -/
def NoText (kind : Kind) : Prop := kind = .number ∨ kind = .boolean ∨ kind = .list ∨ kind = .object

/-- A kind that a record must not have. -/
def NoRecord (kind : Kind) : Prop := kind = .text ∨ kind = .number ∨ kind = .boolean

section
variable {path : List String} {name : String} {Wrong : Kind → Prop}

/-! A path is refused by the event if it is by the record it starts from. -/

theorem refusing_data (refusing : Refusing Change.record.decoder Wrong (name :: path)) :
    Refusing Change.decoder Wrong ("Data" :: name :: path) :=
  (Record.refusing_inside regular_event (.head _) (refusing.orDefault.field)).orDefault

theorem refusing_vm (refusing : Refusing Change.vmRecord.decoder Wrong (name :: path)) :
    Refusing Change.decoder Wrong ("Data" :: "Vm" :: name :: path) :=
  refusing_data (Record.refusing_inside regular_data (.head _) (refusing.nullable.field))

theorem refusing_alarm (refusing : Refusing Change.alarmRecord.decoder Wrong (name :: path)) :
    Refusing Change.decoder Wrong ("Data" :: "Alarm" :: name :: path) :=
  refusing_data (Record.refusing_inside regular_data (.tail _ (.head _)) (refusing.orDefault.field))

theorem refusing_reference (refusing : Refusing ObjectRef.record.decoder Wrong (name :: path)) :
    Refusing Change.decoder Wrong ("Data" :: "Vm" :: "Vm" :: name :: path) :=
  refusing_vm (Record.refusing_inside regular_vm (.head _) (refusing.nullable.field))

theorem refuses_noText (kind : Kind) (w : Bytes) (value : IsValue kind w) (wrong : NoText kind) :
    Refuses Decoder.text.orDefault w := by
  have not_text : kind ≠ .text := by rcases wrong with rfl | rfl | rfl | rfl <;> decide
  have not_null : kind ≠ .null := by rcases wrong with rfl | rfl | rfl | rfl <;> decide
  exact (refuses_text value not_text).orDefault value not_null

theorem refusing_text (held : path ∈ textPaths) : Refusing Change.decoder NoText path := by
  simp only [textPaths, List.mem_cons, List.not_mem_nil, or_false] at held
  rcases held with rfl | rfl | rfl | rfl
  · exact refusing_data (Record.refusing_field regular_data (.tail _ (.tail _ (.head _)))
      fun kind w value wrong => (refuses_noText kind w value wrong).field)
  · exact refusing_reference (Record.refusing_field regular_reference (.head _)
      fun kind w value wrong => (refuses_noText kind w value wrong).field)
  · exact refusing_reference (Record.refusing_field regular_reference (.tail _ (.head _))
      fun kind w value wrong => (refuses_noText kind w value wrong).field)
  · exact refusing_alarm (Record.refusing_field regular_alarm (.head _)
      fun kind w value wrong => (refuses_noText kind w value wrong).field)

theorem refuses_noRecord {α : Type} {k : Record α} (kind : Kind) (w : Bytes) (value : IsValue kind w)
    (wrong : NoRecord kind) : Refuses k.decoder.nullable w := by
  have not_list : kind ≠ .list := by rcases wrong with rfl | rfl | rfl <;> decide
  have not_object : kind ≠ .object := by rcases wrong with rfl | rfl | rfl <;> decide
  have not_null : kind ≠ .null := by rcases wrong with rfl | rfl | rfl <;> decide
  exact (refuses_record value not_list not_object).nullable value not_null

theorem refusing_record (held : path ∈ recordPaths) : Refusing Change.decoder NoRecord path := by
  simp only [recordPaths, List.mem_cons, List.not_mem_nil, or_false] at held
  rcases held with rfl | rfl | rfl | rfl
  · exact (Record.refusing_field regular_event (.head _)
      fun kind w value wrong => ((refuses_noRecord kind w value wrong).map _).field).orDefault
  · exact refusing_data (Record.refusing_field regular_data (.head _)
      fun kind w value wrong => (refuses_noRecord kind w value wrong).field)
  · exact refusing_data (Record.refusing_field regular_data (.tail _ (.head _))
      fun kind w value wrong => ((refuses_noRecord kind w value wrong).map _).field)
  · exact refusing_vm (Record.refusing_field regular_vm (.head _)
      fun kind w value wrong => (refuses_noRecord kind w value wrong).field)

end

/-! ## Corrupted payloads -/

variable {d d' p t : Bytes}

/-- A payload with a member it reads from repeated, or with its value exchanged for one of a wrong kind. -/
inductive Corrupts : Bytes → Bytes → Prop where
  | of {before after v v' : Bytes} {path : List String} (blanks : Blanks before) (blanks' : Blanks after)
    (corrupted : path ∈ textPaths ∧ Corrupted NoText path v v' ∨
      path ∈ recordPaths ∧ Corrupted NoRecord path v v') :
    Corrupts (before ++ (v ++ after)) (before ++ (v' ++ after))

theorem malformed_of_refuses {before w after : Bytes} (blanks : Blanks before)
    (refuses : Refuses Change.decoder w) : Malformed (before ++ (w ++ after)) := by
  refine malformed_iff.mpr fun c decoded => ?_
  unfold Decoder.decode at decoded
  split at decoded
  · cases decoded
  · next read => exact refuses before after _ _ blanks read

/-- A payload that is accepted is one well-formed value between blanks. So all its objects, and all that
their members hold, are of the form that `Corrupts` speaks of. -/
theorem isValue_of_accepted (accepted : ¬Malformed d) :
    ∃ before kind w after, d = before ++ (w ++ after) ∧ Blanks before ∧ IsValue kind w ∧ Blanks after := by
  obtain ⟨c, decoded⟩ := not_malformed_iff.mp accepted
  obtain ⟨before, kind, w, after, split, blanks, value, blanks', -⟩ := exact_event.isValue decoded
  exact ⟨before, kind, w, after, split, blanks, value, blanks'⟩

theorem refuses_number {w : Bytes} (value : IsValue .number w) : Refuses Change.decoder w :=
  (refuses_record value (by decide) (by decide)).orDefault value (by decide)

/-- A payload that is accepted is malformed as soon as more than blanks is cut off its end or put after it,
and as soon as a member it reads from comes twice or has a value of a wrong kind. -/
theorem malformed_of_accepted (accepted : ¬Malformed d) :
    (∀ p t, d = p ++ t → (∃ b ∈ t, isBlank b = false) → Malformed p) ∧
    (∀ t, (∃ b ∈ t, isBlank b = false) → Malformed (d ++ t)) ∧
    ∀ d', Corrupts d d' → Malformed d' := by
  have stops {p t : Bytes} {c c' : Change} (visible : ∃ b ∈ t, isBlank b = false)
      (decoded : Change.decoder.decode p = .ok c) (decoded' : Change.decoder.decode (p ++ t) = .ok c') :
      False := by
    obtain ⟨b, mem, visible⟩ := visible
    have blank := decode_append exact_event (fun w value => refuses_number value) decoded decoded' b mem
    rw [visible] at blank
    cases blank
  obtain ⟨c, decoded⟩ := not_malformed_iff.mp accepted
  refine ⟨?_, ?_, ?_⟩
  · rintro p t rfl visible
    exact malformed_iff.mpr fun c' decoded' => stops visible decoded' decoded
  · intro t visible
    exact malformed_iff.mpr fun c' decoded' => stops visible decoded decoded'
  · rintro d' ⟨blanks, _, ⟨held, corrupted⟩ | ⟨held, corrupted⟩⟩
    · exact malformed_of_refuses blanks (refusing_text held _ _ corrupted)
    · exact malformed_of_refuses blanks (refusing_record held _ _ corrupted)

/-- An event whose only member is `To`. -/
def levelEvent (kind : Kind) (value : Bytes) : Bytes :=
  compactText [("Data", .object, compactText [("To", kind, value)])]

theorem tells_levelEvent : Tells (eventContent "" "" "" "red") (levelEvent .text (Utf8.encode "\"red\"")) := by
  have level : Tells (.text "red") (Utf8.encode "\"red\"") := .text (spelledText_encode (by decide))
  have data : Tells (.record (dataEntries "" "" "" "red"))
      (compactText [("To", .text, Utf8.encode "\"red\"")]) :=
    .compact (by decide) (by simpa using level) (by simp [Among]) (by decide) (by simp)
  exact .compact (by decide) (by simpa using data) (by simp [Among]) (by decide) (by simp)

theorem corrupted_levelEvent : Corrupted NoText ["Data", "To"] (levelEvent .text (Utf8.encode "\"red\""))
    (levelEvent .number (Utf8.encode "7")) := by
  have names {x : String} (simple : Simple x) (e : Element) : (Member.mk [] (Utf8.encode x) [] e).Names x :=
    fun r => string_spelled (spelledText_encode simple)
  have proper {x : String} {kind : Kind} {w : Bytes} (simple : Simple x) (value : IsValue kind w) :
      (Member.mk [] (Utf8.encode x) [] ⟨[], kind, w, []⟩).Proper :=
    ⟨⟨blanks_nil, (spelledText_encode simple).isChars, blanks_nil, blanks_nil, blanks_nil⟩, value⟩
  have red : IsValue .text (Utf8.encode "\"red\"") := .text (spelledText_encode (x := "red") (by decide)).isChars
  have digits : Digits [] := by simp [Digits]
  have seven : IsValue .number (Utf8.encode "7") :=
    .number (.positive (.of (.digits rfl (by decide) digits) .absent .absent))
  have level := proper (x := "To") (by decide) red
  have data := isValue_object blanks_nil (List.forall_mem_singleton.mpr level)
  have exchanged : Corrupted NoText ["To"] (compactText [("To", .text, Utf8.encode "\"red\"")])
      (compactText [("To", .number, Utf8.encode "7")]) :=
    @Corrupted.replaced NoText "To" [] [] [] _ ⟨[], .number, Utf8.encode "7", []⟩ blanks_nil
      (List.forall_mem_singleton.mpr level) (names (by decide) _) ⟨blanks_nil, blanks_nil⟩ seven (.inl rfl)
  exact @Corrupted.inside NoText "Data" ["To"] [] [] [] _ _ blanks_nil
    (List.forall_mem_singleton.mpr (proper (x := "Data") (by decide) data)) (names (by decide) _) exchanged

/-- An event with a comma after it, and one whose level is a number. -/
theorem malformed_levelEvent :
    ¬Malformed (levelEvent .text (Utf8.encode "\"red\"")) ∧
    Malformed (levelEvent .text (Utf8.encode "\"red\"") ++ [Ascii.comma]) ∧
    Malformed (levelEvent .number (Utf8.encode "7")) := by
  have accepted : ¬Malformed (levelEvent .text (Utf8.encode "\"red\"")) := by
    obtain ⟨c, decoded, -⟩ := reads_event.decode blanks_nil tells_levelEvent blanks_nil
    rw [List.nil_append, List.append_nil] at decoded
    exact not_malformed_iff.mpr ⟨c, decoded⟩
  obtain ⟨-, added, corrupted⟩ := malformed_of_accepted accepted
  have exchanged := Corrupts.of blanks_nil blanks_nil (.inl ⟨.head _, corrupted_levelEvent⟩)
  rw [List.nil_append, List.append_nil, List.nil_append, List.append_nil] at exchanged
  exact ⟨accepted, added _ ⟨Ascii.comma, .head _, rfl⟩, corrupted _ exchanged⟩

end TierTagger.Alarm
