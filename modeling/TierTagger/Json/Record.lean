import TierTagger.Json.Decoder

/-!
# Decoding records

A record is written as an object with a member per field, in any order, or as a list of its fields in
order. `Record.decoder` reads both. Unknown members are skipped, a member that comes twice is refused.
A field that is not written keeps the value it has in `blank`, if its `Absence` allows that.

A fault of the record itself (a member twice, one missing, a list too short) is placed after the
closing bracket if that is what comes next, blanks aside.
-/

namespace TierTagger.Json

open Ascii

variable {α : Type}

/-- Where a field need not be written. -/
inductive Absence where
  /-- It has to be written. -/
  | required
  /-- It may be left out of an object. -/
  | optional
  /-- It may be left out of an object or from the end of a list. -/
  | defaulted
  deriving DecidableEq, Repr

/-- A field of a record: its name, and how its value is read and put into the record. -/
structure Field (α : Type) where
  name : String
  absence : Absence
  read : Decoder (α → α)

/-- A kind of record: the name diagnoses call it by, its fields, and what it is before any is read. -/
structure Record (α : Type) where
  name : String
  blank : α
  fields : List (Field α)

namespace Field

/-- A field read by a decoder and put into place by `set`. -/
def of {β : Type} (name : String) (absence : Absence) (d : Decoder β) (set : β → α → α) : Field α :=
  ⟨name, absence, d.map set⟩

end Field

namespace Record

/-- How diagnoses name the record. -/
def title (k : Record α) : String := "struct " ++ k.name

/-- How diagnoses name the list form of the record. -/
def listTitle (k : Record α) : String :=
  match k.fields.length with
  | 1 => s!"{k.title} with 1 element"
  | n => s!"{k.title} with {n} elements"

/-- A fault of the record, placed after the closing bracket if that comes next. -/
def refuse {β : Type} (closer : UInt8) (s : Bytes) (cause : Cause) : Except Fault β :=
  match skipBlanks s with
  | [] => Fault.at [] cause
  | b :: r => if b = closer then Fault.at r cause else Fault.at (b :: r) cause

/-- The first field of an object that has to be written and was not. -/
def missing? (k : Record α) (seen : List String) : Option (Field α) :=
  k.fields.find? fun f => f.absence = .required ∧ f.name ∉ seen

/-! ## Objects -/

/-- Whether an object goes on: the bytes after the quote that opens its next key, or `none` with the
bytes after its closing brace. -/
def nextKey (first : Bool) (s : Bytes) : Except Fault (Bool × Bytes) :=
  match skipBlanks s with
  | [] => Fault.peek [] .endInObject
  | b :: r =>
    if b = closeBrace then .ok (false, r)
    else if first then
      if b = quote then .ok (true, r) else Fault.peek (b :: r) .keyNotString
    else if b = comma then
      match skipBlanks r with
      | [] => Fault.peek [] .endInValue
      | c :: t =>
        if c = quote then .ok (true, t)
        else Fault.peek (c :: t) (if c = closeBrace then .trailingComma else .keyNotString)
    else Fault.peek (b :: r) .expectedCommaOrBrace

theorem nextKey_length {first more : Bool} {s r : Bytes} (h : nextKey first s = .ok (more, r)) :
    r.length < s.length := by
  have := skipBlanks_length s
  unfold nextKey at h
  grind [Fault.peek, skipBlanks_length]

/-- Reads the value of a member after its key: into the record if the key is the name of a field. -/
def member (k : Record α) (seen : List String) (a : α) (key : String) (s : Bytes) :
    Reading (List String × α) :=
  match k.fields.find? (·.name = key) with
  | none =>
    match readColon s with
    | .error f => .error f
    | .ok r => (skipValue r).map ((seen, a), ·)
  | some field =>
    if key ∈ seen then refuse closeBrace s (.duplicateField key)
    else
      match readColon s with
      | .error f => .error f
      | .ok r => (field.read.read r).map fun (put, t) => ((key :: seen, put a), t)

theorem refuse_ne_ok {β : Type} (closer : UInt8) (s : Bytes) (cause : Cause) (b : β) :
    refuse closer s cause ≠ .ok b := by
  unfold refuse
  split
  · simp [Fault.at]
  · split <;> simp [Fault.at]

theorem member_length {k : Record α} {seen : List String} {a : α} {key : String} {s r : Bytes}
    {x : List String × α} (h : member k seen a key s = .ok (x, r)) : r.length < s.length := by
  unfold member at h
  split at h
  · split at h
    · simp at h
    · next hc =>
      have h1 := readColon_length hc
      simp only [Except.map] at h
      split at h
      · simp at h
      · next hv =>
        have h2 := skipValue_length hv
        simp only [Except.ok.injEq, Prod.mk.injEq] at h
        rw [← h.2]; omega
  · next field _ =>
    split at h
    · exact (refuse_ne_ok _ _ _ _ h).elim
    · split at h
      · simp at h
      · next hc =>
        have h1 := readColon_length hc
        simp only [Except.map] at h
        split at h
        · simp at h
        · next y hv =>
          have h2 := field.read.read_length (a := y.1) (r := y.2) hv
          simp only [Except.ok.injEq, Prod.mk.injEq] at h
          rw [← h.2]; omega

/-- Reads the members of an object; `seen` holds the names of the fields read. -/
def members (k : Record α) (first : Bool) (seen : List String) (a : α) (s : Bytes) : Reading α :=
  match _hn : nextKey first s with
  | .error f => .error f
  | .ok (false, r) =>
    match k.missing? seen with
    | some f => Fault.at r (.missingField f.name)
    | none => .ok (a, r)
  | .ok (true, r) =>
    match _hk : string r with
    | .error f => .error f
    | .ok (key, t) =>
      match _hm : member k seen a key t with
      | .error f => .error f
      | .ok ((seen, a), u) => members k false seen a u
termination_by s.length
decreasing_by
  have := nextKey_length _hn
  have := string_length _hk
  have := member_length _hm
  omega

theorem members_length {k : Record α} {first : Bool} {seen : List String} {a b : α} {s r : Bytes}
    (h : members k first seen a s = .ok (b, r)) : r.length < s.length := by
  fun_induction members k first seen a s with
  | case1 => simp at h
  | case2 => simp [Fault.at] at h
  | case3 first seen a s r' hn =>
    simp only [Except.ok.injEq, Prod.mk.injEq] at h
    exact h.2 ▸ nextKey_length hn
  | case4 => simp at h
  | case5 => simp at h
  | case6 first seen a s r' hn key t hk seen' a' u hm ih =>
    have := nextKey_length hn
    have := string_length hk
    have := member_length hm
    have := ih h
    omega

/-! ## Lists -/

/-- Reads the fields left to read from a list; `index` counts those before them. -/
def elements (k : Record α) : (left : List (Field α)) → (index : Nat) → (first : Bool) → α → Bytes →
    Reading α
  | [], _, _, a, s => (Decoder.closeList s).map (a, ·)
  | f :: fs, index, first, a, s =>
    match Decoder.nextItem first s with
    | .error e => .error e
    | .ok (none, r) =>
      if f.absence = .defaulted then elements k fs (index + 1) first a r
      else refuse closeBracket r (.wrongLength index k.listTitle)
    | .ok (some t, _) =>
      match f.read.read t with
      | .error e => .error e
      | .ok (put, r) => elements k fs (index + 1) false (put a) r

theorem elements_length {k : Record α} {left : List (Field α)} {index : Nat} {first : Bool} {a b : α}
    {s r : Bytes} (h : elements k left index first a s = .ok (b, r)) : r.length < s.length := by
  induction left generalizing index first a s with
  | nil =>
    simp only [elements, Except.map] at h
    split at h
    · simp at h
    · next hc =>
      simp only [Except.ok.injEq, Prod.mk.injEq] at h
      exact h.2 ▸ Decoder.closeList_length hc
  | cons f fs ih =>
    simp only [elements] at h
    split at h
    · simp at h
    · next hn =>
      have hl := (Decoder.nextItem_length (t := []) hn).1
      split at h
      · have := ih h; omega
      · exact (refuse_ne_ok _ _ _ _ h).elim
    · next hn =>
      have hl := (Decoder.nextItem_length hn).2 rfl
      split at h
      · simp at h
      · next hf =>
        have := f.read.read_length hf
        have := ih h
        omega

/-! ## The decoder -/

/-- Reads a record, as an object or as a list. -/
def decoder (k : Record α) : Decoder α :=
  Decoder.ofFirst (fun b r =>
    if b = openBrace then members k true [] k.blank r
    else if b = openBracket then elements k k.fields 0 true k.blank r
    else mismatch k.title b r) (by
    intro b s a r h
    split at h
    · exact Nat.le_of_lt (members_length h)
    split at h
    · exact Nat.le_of_lt (elements_length h)
    · exact (mismatch_ne_ok _ _ _ _ h).elim)

end Record
end TierTagger.Json
