import TierTagger.Json.Record
import TierTagger.Proofs.Json.Text

/-!
# Written values are read back

- `Spells`: a decoder reads a value off its written form, whatever comes after it.
- `spells_text`, `spells_list`, `spells_object`: strings, lists, and records written as objects, whose
  members fill the record one by one (`Fills`).
-/

namespace TierTagger.Json

open Ascii

variable {α β : Type} {d : Decoder α} {w : String} {a : α} {s r : Bytes}

/-! ## Spelling -/

/-- What comes after a value: nothing, or what goes on or closes a list or an object. -/
def Closed : Bytes → Prop
  | [] => True
  | b :: _ => b = comma ∨ b = closeBracket ∨ b = closeBrace

/-- The decoder reads the value off its written form. -/
def Spells (d : Decoder α) (w : String) (a : α) : Prop :=
  ∀ r, Closed r → d.read (Utf8.encode w ++ r) = .ok (a, r)

/-- The written form is the whole text. -/
theorem Spells.decode (spells : Spells d w a) : d.decode (Utf8.encode w) = .ok a := by
  have read := spells [] trivial
  rw [List.append_nil] at read
  simp only [Decoder.decode, read]
  rfl

theorem Spells.map (spells : Spells d w a) (f : α → β) : Spells (d.map f) w (f a) := by
  intro r closed
  show (d.read _).map _ = _
  rw [spells r closed]
  rfl

theorem skipBlanks_cons {b : UInt8} (visible : isBlank b = false) : skipBlanks (b :: r) = b :: r := by
  rw [skipBlanks, List.dropWhile_cons_of_neg (by simp [visible])]

/-- The first byte of a written value. -/
def Starts (b : UInt8) (w : String) : Prop := ∃ t, Utf8.encode w = b :: t

/-- A value is read where there could be `null`. -/
theorem Spells.nullable {b : UInt8} (spells : Spells d w a) (starts : Starts b w)
    (visible : isBlank b = false) (other : b ≠ ofChar 'n') : Spells d.nullable w (some a) := by
  intro r closed
  obtain ⟨t, bytes⟩ := starts
  have read := spells.map some r closed
  simp only [bytes, List.cons_append] at read ⊢
  simp only [Decoder.nullable, skipBlanks_cons visible, if_neg other]
  exact read

theorem encode_comma : Utf8.encode "," = [comma] := by decide

/-- Written values, separated by commas, after others or as the first ones. -/
def onward (first : Bool) (ws : List String) : String :=
  (if first ∨ ws = [] then "" else ",") ++ ",".intercalate ws

@[simp] theorem onward_nil (first : Bool) : onward first [] = "" := by simp [onward]

theorem onward_cons (first : Bool) (w : String) (ws : List String) :
    onward first (w :: ws) = (if first then "" else ",") ++ (w ++ onward false ws) := by
  cases ws with
  | nil => simp [onward]
  | cons w' ws => simp [onward, String.intercalate_cons_cons, String.append_assoc]

/-! ## Strings -/

theorem spells_text (x : String) : Spells .text (Writer.text x) x := by
  intro r _
  obtain ⟨written, bytes, read⟩ := string_written x
  rw [bytes]
  simp only [Decoder.text, Decoder.ofFirst, List.cons_append, skipBlanks_cons (b := quote) rfl, if_true]
  exact read r

theorem starts_text (x : String) : Starts quote (Writer.text x) := by
  obtain ⟨written, bytes, -⟩ := string_written x
  exact ⟨written, bytes⟩

/-! ## Lists -/

/-- A list of items that are written already. -/
def listText (ws : List String) : String := "[" ++ onward true ws ++ "]"

theorem closeList_closed : Decoder.closeList (closeBracket :: r) = .ok r := by
  simp [Decoder.closeList, skipBlanks_cons (b := closeBracket) rfl]

/-- Items after others, or as the first ones, and the bracket that closes the list. -/
def itemsText (first : Bool) (ws : List String) : Bytes := Utf8.encode (onward first ws) ++ [closeBracket]

theorem closed_itemsText (ws : List String) : Closed (itemsText false ws ++ r) := by
  cases ws with
  | nil => exact .inr (.inl rfl)
  | cons w ws =>
    have bytes : itemsText false (w :: ws) ++ r =
        comma :: (Utf8.encode (w ++ onward false ws) ++ ([closeBracket] ++ r)) := by
      simp [itemsText, onward_cons, encode_comma]
    rw [bytes]
    exact .inl rfl

theorem nextItem_written {b : UInt8} (ws : List String) (first : Bool) (starts : Starts b w)
    (visible : isBlank b = false) (opens : b ≠ closeBracket) : ∃ u,
      Decoder.nextItem first (itemsText first (w :: ws) ++ r) =
        .ok (some (Utf8.encode w ++ (itemsText false ws ++ r)), u) := by
  obtain ⟨t, bytes⟩ := starts
  have written : itemsText first (w :: ws) ++ r =
      (if first then [] else [comma]) ++ b :: (t ++ (itemsText false ws ++ r)) := by
    cases first <;> simp [itemsText, onward_cons, encode_comma, bytes]
  rw [written, bytes]
  cases first with
  | true => simp [Decoder.nextItem, skipBlanks_cons visible, opens]
  | false =>
    simp [Decoder.nextItem, skipBlanks_cons (b := comma) rfl, skipBlanks_cons visible, opens,
      show comma ≠ closeBracket by decide]

theorem items_end {read : List α} {t u : Bytes}
    (last : Decoder.nextItem read.isEmpty s = .ok (none, t)) (closes : Decoder.closeList t = .ok u) :
    Decoder.items d read s = .ok (read.reverse, u) := by
  rw [Decoder.items]
  split
  · simp_all
  · next found =>
    rw [last] at found
    cases found
    rw [closes]
    rfl
  · simp_all

theorem items_item {read : List α} {t u v : Bytes}
    (next : Decoder.nextItem read.isEmpty s = .ok (some t, u)) (value : d.read t = .ok (a, v)) :
    Decoder.items d read s = Decoder.items d (a :: read) v := by
  rw [Decoder.items]
  split
  · simp_all
  · simp_all
  · next found =>
    rw [next] at found
    cases found
    split
    · simp_all
    · next found =>
      rw [value] at found
      cases found
      rfl

section
variable {write : α → String} {b : UInt8} (spells : ∀ a, Spells d (write a) a)
variable (starts : ∀ a, Starts b (write a)) (visible : isBlank b = false) (opens : b ≠ closeBracket)
include spells starts visible opens

theorem items_written (read as : List α) :
    Decoder.items d read (itemsText read.isEmpty (as.map write) ++ r) = .ok (read.reverse ++ as, r) := by
  induction as generalizing read with
  | nil =>
    rw [List.append_nil]
    refine items_end (t := closeBracket :: r) ?_ closeList_closed
    simp [itemsText, Decoder.nextItem, skipBlanks_cons (b := closeBracket) rfl]
  | cons a as ih =>
    obtain ⟨u, next⟩ := nextItem_written (r := r) (as.map write) read.isEmpty (starts a) visible opens
    have value := spells a (itemsText false (as.map write) ++ r) (closed_itemsText _)
    have rest := ih (a :: read)
    rw [List.reverse_cons, List.append_assoc, List.singleton_append] at rest
    exact (items_item next value).trans rest

/-- A list is read back if each of its items is. -/
theorem spells_list (as : List α) : Spells (.list d) (listText (as.map write)) as := by
  intro r _
  have opening : Utf8.encode "[" = [openBracket] := by decide
  have closing : Utf8.encode "]" = [closeBracket] := by decide
  have bytes : Utf8.encode (listText (as.map write)) ++ r =
      openBracket :: (itemsText true (as.map write) ++ r) := by
    simp [listText, itemsText, opening, closing]
  rw [bytes]
  simp only [Decoder.list, Decoder.ofFirst, skipBlanks_cons (b := openBracket) rfl, if_true]
  exact items_written spells starts visible opens [] as

end

/-! ## Objects -/

namespace Record

variable {k : Record α} {seen seen' : List String} {b : α}

/-- The members fill a record, from `a` on, to `b`. -/
inductive Fills (k : Record α) (b : α) : List String → α → List (String × String) → Prop where
  | done {seen : List String} (whole : k.missing? seen = none) : Fills k b seen b []
  | field {seen : List String} {a : α} {β : Type} {name absence w v ms} {d : Decoder β}
    {set : β → α → α} (known : .of name absence d set ∈ k.fields) (new : name ∉ seen)
    (spells : Spells d w v) (rest : Fills k b (name :: seen) (set v a) ms) :
    Fills k b seen a ((name, w) :: ms)

/-- A field is found by its name. -/
theorem find?_name {fields : List (Field α)} (distinct : (fields.map (·.name)).Nodup) {field : Field α}
    (known : field ∈ fields) : fields.find? (·.name = field.name) = some field := by
  induction fields with
  | nil => cases known
  | cons f fields ih =>
    rw [List.map_cons, List.nodup_cons] at distinct
    rcases List.mem_cons.mp known with rfl | known
    · simp
    · have other : f.name ≠ field.name := fun same =>
        distinct.1 (same ▸ List.mem_map_of_mem known)
      rw [List.find?_cons_of_neg (by simpa using other)]
      exact ih distinct.2 known

theorem members_end {first : Bool} (last : nextKey first s = .ok (false, r))
    (whole : k.missing? seen = none) : members k first seen a s = .ok (a, r) := by
  rw [members]
  split
  · simp_all
  · simp_all
  · simp_all

theorem members_member {first : Bool} {key : String} {t u : Bytes}
    (next : nextKey first s = .ok (true, r)) (name : string r = .ok (key, t))
    (value : member k seen a key t = .ok ((seen', b), u)) :
    members k first seen a s = members k false seen' b u := by
  rw [members]
  split
  · simp_all
  · simp_all
  · next r' found =>
    rw [next] at found
    cases found
    split
    · simp_all
    · next key' t' found =>
      rw [name] at found
      cases found
      split
      · simp_all
      · next found =>
        rw [value] at found
        cases found
        rfl

/-- A member that was written: its key, a colon and its value. -/
def memberText (m : String × String) : String := Writer.text m.1 ++ ":" ++ m.2

/-- Members after others, or as the first ones, and the bracket that closes the object. -/
def membersText (first : Bool) (ms : List (String × String)) : Bytes :=
  Utf8.encode (onward first (ms.map memberText)) ++ [closeBrace]

theorem closed_membersText (ms : List (String × String)) : Closed (membersText false ms ++ r) := by
  cases ms with
  | nil => exact .inr (.inr rfl)
  | cons m ms =>
    have bytes : membersText false (m :: ms) ++ r = comma ::
        (Utf8.encode (memberText m ++ onward false (ms.map memberText)) ++ ([closeBrace] ++ r)) := by
      simp [membersText, onward_cons, encode_comma]
    rw [bytes]
    exact .inl rfl

/-- The next key is found and read. -/
theorem nextKey_written (first : Bool) (m : String × String) (ms : List (String × String)) :
    ∃ s, nextKey first (membersText first (m :: ms) ++ r) = .ok (true, s) ∧
      string s = .ok (m.1, colon :: (Utf8.encode m.2 ++ (membersText false ms ++ r))) := by
  obtain ⟨written, key, read⟩ := string_written m.1
  have separator : Utf8.encode ":" = [colon] := by decide
  have bytes : membersText first (m :: ms) ++ r = (if first then [] else [comma]) ++
      quote :: (written ++ colon :: (Utf8.encode m.2 ++ (membersText false ms ++ r))) := by
    cases first <;> simp [membersText, onward_cons, memberText, key, separator, encode_comma]
  refine ⟨_, ?_, read _⟩
  rw [bytes]
  cases first with
  | true => simp [nextKey, skipBlanks_cons (b := quote) rfl, show quote ≠ closeBrace by decide]
  | false =>
    simp [nextKey, skipBlanks_cons (b := comma) rfl, skipBlanks_cons (b := quote) rfl,
      show comma ≠ closeBrace by decide]

theorem members_written {first : Bool} {ms : List (String × String)}
    (distinct : (k.fields.map (·.name)).Nodup) (fills : Fills k b seen a ms) :
    members k first seen a (membersText first ms ++ r) = .ok (b, r) := by
  induction fills generalizing first with
  | done whole =>
    refine members_end ?_ whole
    simp [membersText, nextKey, skipBlanks_cons (b := closeBrace) rfl]
  | @field seen a β name absence w v ms d set known new spells _ ih =>
    obtain ⟨s, next, key⟩ := nextKey_written (r := r) first (name, w) ms
    refine (members_member next key ?_).trans ih
    have read := spells.map set (membersText false ms ++ r) (closed_membersText ms)
    have found : k.fields.find? (·.name = name) = some (.of name absence d set) :=
      find?_name distinct known
    simp [member, found, Field.of, new, readColon, skipBlanks_cons (b := colon) rfl, read, Except.map]

theorem starts_object (ms : List (String × String)) : Starts openBrace (Writer.object ms) := by
  have opening : Utf8.encode "\x7b" = [openBrace] := by decide
  rw [Starts, Writer.object, Utf8.encode_append, Utf8.encode_append, opening, List.append_assoc]
  exact ⟨_, rfl⟩

/-- A record is read back from an object whose members fill it. -/
theorem spells_object {ms : List (String × String)} (distinct : (k.fields.map (·.name)).Nodup)
    (fills : Fills k b [] k.blank ms) : Spells k.decoder (Writer.object ms) b := by
  intro r _
  have opening : Utf8.encode "\x7b" = [openBrace] := by decide
  have closing : Utf8.encode "\x7d" = [closeBrace] := by decide
  have bytes : Utf8.encode (Writer.object ms) ++ r = openBrace :: (membersText true ms ++ r) := by
    simp [Writer.object, membersText, onward, opening, closing]
    rfl
  rw [bytes]
  simp only [decoder, Decoder.ofFirst, skipBlanks_cons (b := openBrace) rfl, if_true]
  exact members_written distinct fills

end Record

end TierTagger.Json
