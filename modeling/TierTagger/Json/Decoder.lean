import TierTagger.Json.Skip

/-!
# Decoders of JSON values

A `Decoder α` reads one value of type `α` off the bytes not read yet and always reads at least one
byte. Of two things wrong with a text, the one that is met first in reading is reported.

* `text`, `boolean`, `natural`: scalars of one kind; anything else is a `wrongType`.
* `nullable`, `orDefault`: `null` is read as nothing, or as the default.
* `list`: a list of values. `choice`: one of a set of names.
* `decode`: one value and nothing but blanks after it.
-/

namespace TierTagger.Json

open Ascii

variable {α β : Type}

/-- A reader of one value. -/
structure Decoder (α : Type) where
  /-- Reads a value, blanks in front of it included. -/
  read : Bytes → Reading α
  /-- At least one byte is read. -/
  read_length : ∀ {s a r}, read s = .ok (a, r) → r.length < s.length

/-- Refuses a value of the wrong type, given its first byte and the rest. A scalar is read and shown,
a bracket is not read. -/
def mismatch (expected : String) (b : UInt8) (r : Bytes) : Except Fault α :=
  let refuse (found : Found) (left : Bytes) : Except Fault α :=
    Fault.at left (.wrongType found expected)
  if b = ofChar 'n' then letters nullTail r >>= refuse .null
  else if b = ofChar 't' then letters trueTail r >>= refuse (.boolean true)
  else if b = ofChar 'f' then letters falseTail r >>= refuse (.boolean false)
  else if b = minus then (number true r).andThen fun n t => refuse n.found t
  else if isDigit b then (number false (b :: r)).andThen fun n t => refuse n.found t
  else if b = quote then (string r).andThen fun x t => refuse (.text x) t
  else if b = openBracket then refuse .sequence (b :: r)
  else if b = openBrace then refuse .map (b :: r)
  else Fault.peek (b :: r) .expectedValue

theorem bind_error_ne_ok (x : Except Fault α) (k : α → Fault) (b : β) :
    (x >>= fun y => .error (k y)) ≠ .ok b := by
  cases x <;> simp [bind, Except.bind]

theorem andThen_error_ne_ok (x : Reading α) (k : α → Bytes → Fault) (b : β) :
    (x.andThen fun y t => .error (k y t)) ≠ .ok b := by
  unfold Reading.andThen
  split <;> simp

theorem mismatch_ne_ok (expected : String) (b : UInt8) (r : Bytes) (a : α) :
    mismatch expected b r ≠ .ok a := by
  unfold mismatch
  dsimp only [Fault.at, Fault.peek]
  repeat' split
  all_goals first
    | exact bind_error_ne_ok _ _ _
    | exact andThen_error_ne_ok _ _ _
    | simp

namespace Decoder

/-- A decoder that looks at the first byte that is not blank. -/
def ofFirst (read : UInt8 → Bytes → Reading α)
    (h : ∀ {b s a r}, read b s = .ok (a, r) → r.length ≤ s.length) : Decoder α where
  read s :=
    match skipBlanks s with
    | [] => Fault.peek [] .endInValue
    | b :: r => read b r
  read_length := by
    intro s a r hr
    have hs := skipBlanks_length s
    split at hr
    · simp [Fault.peek] at hr
    · next he =>
      have := h hr
      simp only [he, List.length_cons] at hs
      omega

/-- A string. -/
def text : Decoder String :=
  ofFirst (fun b r => if b = quote then string r else mismatch "a string" b r) (by
    intro b s a r h
    split at h
    · exact Nat.le_of_lt (string_length h)
    · exact (mismatch_ne_ok _ _ _ _ h).elim)

/-- `true` or `false`. -/
def boolean : Decoder Bool :=
  ofFirst (fun b r =>
    if b = ofChar 't' then (letters trueTail r).map (true, ·)
    else if b = ofChar 'f' then (letters falseTail r).map (false, ·)
    else mismatch "a boolean" b r) (by
    intro b s a r h
    have step {es : List UInt8} {x : Bool} (h : (letters es s).map (x, ·) = .ok (a, r)) :
        r.length ≤ s.length := by
      simp only [Except.map] at h
      split at h
      · simp at h
      · next hl =>
        simp only [Except.ok.injEq, Prod.mk.injEq] at h
        exact h.2 ▸ letters_length hl
    split at h
    · exact step h
    split at h
    · exact step h
    · exact (mismatch_ne_ok _ _ _ _ h).elim)

/-- Accepts a number that is a natural below the limit. -/
def bounded (limit : Nat) (expected : String) (x : Number) (left : Bytes) : Reading Nat :=
  match x with
  | .natural n =>
    if n < limit then .ok (n, left) else Fault.at left (.outOfBounds x.found expected)
  | .negative _ => Fault.at left (.outOfBounds x.found expected)
  | .float _ => Fault.at left (.wrongType x.found expected)

end Decoder

theorem digits_length (s : Bytes) : (digits s).2.length ≤ s.length := by
  exact (List.dropWhile_suffix isDigit).length_le

theorem finishFloat_left {negative : Bool} {n : Nat} {e : Int} {s r : Bytes} {x : Number}
    (h : finishFloat negative n e s = .ok (x, r)) : r = s := by
  unfold finishFloat at h
  split at h
  · simp only [Except.ok.injEq, Prod.mk.injEq] at h; exact h.2.symm
  · simp [Fault.at] at h

theorem exponentPart_length {negative : Bool} {n : Nat} {e : Int} {s r : Bytes} {x : Number}
    (h : exponentPart negative n e s = .ok (x, r)) : r.length ≤ s.length := by
  have hs := exponentSign_length s
  unfold exponentPart at h
  grind [Fault.at, digits_length, → finishFloat_left]

theorem exponentOrEnd_length {negative : Bool} {n : Nat} {e : Int} {s r : Bytes} {x : Number}
    (h : exponentOrEnd negative n e s = .ok (x, r)) : r.length ≤ s.length := by
  unfold exponentOrEnd at h
  grind [→ exponentPart_length, → finishFloat_left]

theorem fractionPart_length {negative : Bool} {n : Nat} {e : Int} {s r : Bytes} {x : Number}
    (h : fractionPart negative n e s = .ok (x, r)) : r.length ≤ s.length := by
  have := digits_length s
  unfold fractionPart at h
  grind [Fault.peek, → exponentOrEnd_length]

theorem afterInteger_length {negative : Bool} {n d : Nat} {s r : Bytes} {x : Number}
    (h : afterInteger negative n d s = .ok (x, r)) : r.length ≤ s.length := by
  unfold afterInteger at h
  grind [afterInteger.ended, → exponentPart_length, → fractionPart_length, → finishFloat_left]

theorem number_length {negative : Bool} {s r : Bytes} {x : Number}
    (h : number negative s = .ok (x, r)) : r.length < s.length := by
  unfold number at h
  grind [Fault.at, Fault.peek, digits_length, → afterInteger_length]

namespace Decoder

theorem bounded_left {limit : Nat} {expected : String} {x : Number} {n : Nat} {s r : Bytes}
    (h : bounded limit expected x s = .ok (n, r)) : r = s := by
  unfold bounded at h
  grind [Fault.at]

/-- A natural number below a limit. -/
def natural (limit : Nat) (expected : String) : Decoder Nat :=
  ofFirst (fun b r =>
    if b = minus then (number true r).andThen (bounded limit expected)
    else if isDigit b then (number false (b :: r)).andThen (bounded limit expected)
    else mismatch expected b r) (by
    intro b s a r h
    have step {negative : Bool} {t : Bytes} (ht : t.length ≤ s.length + 1)
        (h : (number negative t).andThen (bounded limit expected) = .ok (a, r)) :
        r.length ≤ s.length := by
      unfold Reading.andThen at h
      split at h
      · simp at h
      · next hn =>
        have := number_length hn
        rw [bounded_left h]; omega
    split at h
    · exact step (by omega) h
    split at h
    · exact step (by simp) h
    · exact (mismatch_ne_ok _ _ _ _ h).elim)

/-- The value that a decoder reads, changed by a function. -/
def map (f : α → β) (d : Decoder α) : Decoder β where
  read s := (d.read s).map fun (a, r) => (f a, r)
  read_length := by
    intro s b r h
    simp only [Except.map] at h
    split at h
    · simp at h
    · next x hx =>
      simp only [Except.ok.injEq, Prod.mk.injEq] at h
      exact h.2 ▸ d.read_length (a := x.1) hx

/-- A value or `null`. -/
def nullable (d : Decoder α) : Decoder (Option α) where
  read s :=
    match skipBlanks s with
    | [] => (d.map some).read s
    | b :: r => if b = ofChar 'n' then (letters nullTail r).map (none, ·) else (d.map some).read s
  read_length := by
    intro s a r h
    have hs := skipBlanks_length s
    split at h
    · exact (d.map some).read_length h
    · next he =>
      split at h
      · simp only [Except.map] at h
        split at h
        · simp at h
        · next hl =>
          have := letters_length hl
          simp only [Except.ok.injEq, Prod.mk.injEq] at h
          simp only [he, List.length_cons] at hs
          rw [← h.2]; omega
      · exact (d.map some).read_length h

/-- A value, or the default for `null`. -/
def orDefault [Inhabited α] (d : Decoder α) : Decoder α := d.nullable.map (·.getD default)

/-! ## Lists -/

/-- Ends a list after its last item was read: the bracket has to close. -/
def closeList (s : Bytes) : Except Fault Bytes :=
  match skipBlanks s with
  | [] => Fault.peek [] .endInList
  | b :: r =>
    if b = closeBracket then .ok r
    else if b = comma then
      match skipBlanks r with
      | [] => Fault.peek [] .trailingCharacters
      | c :: t => Fault.peek (c :: t) (if c = closeBracket then .trailingComma else .trailingCharacters)
    else Fault.peek (b :: r) .trailingCharacters

theorem closeList_length {s r : Bytes} (h : closeList s = .ok r) : r.length < s.length := by
  have := skipBlanks_length s
  unfold closeList at h
  grind [Fault.peek]

/-- Whether a list goes on: the bytes from its next item, or `none` with the bytes from its closing
bracket. -/
def nextItem (first : Bool) (s : Bytes) : Except Fault (Option Bytes × Bytes) :=
  match skipBlanks s with
  | [] => Fault.peek [] .endInList
  | b :: r =>
    if b = closeBracket then .ok (none, b :: r)
    else if first then .ok (some (b :: r), b :: r)
    else if b = comma then
      match skipBlanks r with
      | [] => Fault.peek [] .endInValue
      | c :: t => if c = closeBracket then Fault.peek (c :: t) .trailingComma
        else .ok (some (c :: t), c :: t)
    else Fault.peek (b :: r) .expectedCommaOrBracket

theorem nextItem_length {first : Bool} {s t u : Bytes} {o : Option Bytes}
    (h : nextItem first s = .ok (o, u)) : u.length ≤ s.length ∧ (o = some t → t.length ≤ s.length) := by
  have := skipBlanks_length s
  unfold nextItem at h
  grind [Fault.peek, skipBlanks_length]

/-- Reads the items of a list after those read so far, the last one first. -/
def items (d : Decoder α) (read : List α) (s : Bytes) : Reading (List α) :=
  match _h : nextItem read.isEmpty s with
  | .error f => .error f
  | .ok (none, r) => (closeList r).map (read.reverse, ·)
  | .ok (some t, _) =>
    match _hd : d.read t with
    | .error f => .error f
    | .ok (a, r) => items d (a :: read) r
termination_by s.length
decreasing_by
  have := (nextItem_length _h).2 rfl
  have := d.read_length _hd
  omega

theorem items_length {d : Decoder α} {read as : List α} {s r : Bytes}
    (h : items d read s = .ok (as, r)) : r.length < s.length := by
  fun_induction items d read s with
  | case1 => simp at h
  | case2 read s u hn =>
    have := (nextItem_length (t := []) hn).1
    simp only [Except.map] at h
    split at h
    · simp at h
    · next hc =>
      have := closeList_length hc
      simp only [Except.ok.injEq, Prod.mk.injEq] at h
      rw [← h.2]; omega
  | case3 => simp at h
  | case4 read s t u hn a r' hd ih =>
    have := (nextItem_length hn).2 rfl
    have := d.read_length hd
    have := ih h
    omega

/-- A list of values. -/
def list (d : Decoder α) : Decoder (List α) :=
  ofFirst (fun b r => if b = openBracket then items d [] r else mismatch "a sequence" b r) (by
    intro b s a r h
    split at h
    · exact Nat.le_of_lt (items_length h)
    · exact (mismatch_ne_ok _ _ _ _ h).elim)

/-! ## Names -/

/-- Reads the name of a choice. -/
def name (known : List (String × α)) : Decoder α :=
  ofFirst (fun b r =>
    if b = quote then
      match string r with
      | .error f => .error f
      | .ok (x, t) =>
        match known.lookup x with
        | some a => .ok (a, t)
        | none => Fault.at t (.unknownVariant x (known.map (·.1)))
    else mismatch "variant identifier" b r) (by
    intro b s a r h
    split at h
    · split at h
      · simp at h
      · next hs =>
        have := string_length hs
        split at h
        · simp only [Except.ok.injEq, Prod.mk.injEq] at h
          rw [← h.2]; omega
        · simp [Fault.at] at h
    · exact (mismatch_ne_ok _ _ _ _ h).elim)

/-- `null` and nothing else. -/
def unit : Decoder Unit :=
  ofFirst (fun b r =>
    if b = ofChar 'n' then (letters nullTail r).map ((), ·) else mismatch "unit" b r) (by
    intro b s a r h
    split at h
    · simp only [Except.map] at h
      split at h
      · simp at h
      · next hl =>
        simp only [Except.ok.injEq, Prod.mk.injEq] at h
        exact h.2 ▸ letters_length hl
    · exact (mismatch_ne_ok _ _ _ _ h).elim)

/-- Reads the only member of an object after its opening brace: the name of a choice with `null`. -/
def taggedName (known : List (String × α)) (s : Bytes) : Reading α :=
  match (name known).read s with
  | .error f => .error f
  | .ok (a, r) =>
    match readColon r with
    | .error f => .error f
    | .ok r =>
      match unit.read r with
      | .error f => .error f
      | .ok ((), r) =>
        match skipBlanks r with
        | [] => Fault.at [] .endInObject
        | b :: t => if b = closeBrace then .ok (a, t) else Fault.at (b :: t) .expectedValue

theorem taggedName_length {known : List (String × α)} {s r : Bytes} {a : α}
    (h : taggedName known s = .ok (a, r)) : r.length < s.length := by
  unfold taggedName at h
  split at h
  · simp at h
  · next hn =>
    have h1 := (name known).read_length hn
    split at h
    · simp at h
    · next hc =>
      have h2 := readColon_length hc
      split at h
      · simp at h
      · next r' hu =>
        have h3 := unit.read_length hu
        have h4 := skipBlanks_length r'
        split at h
        · simp [Fault.at] at h
        · next he =>
          split at h
          · simp only [Except.ok.injEq, Prod.mk.injEq] at h
            simp only [he, List.length_cons] at h4
            rw [← h.2]; omega
          · simp [Fault.at] at h

/-- One of a set of names: as a string, or as the key of an object whose only value is `null`. -/
def choice (known : List (String × α)) : Decoder α where
  read s :=
    match skipBlanks s with
    | [] => Fault.peek [] .endInValue
    | b :: r =>
      if b = openBrace then taggedName known r
      else if b = quote then (name known).read s
      else Fault.peek (b :: r) .expectedValue
  read_length := by
    intro s a r h
    have hs := skipBlanks_length s
    split at h
    · simp [Fault.peek] at h
    · next he =>
      simp only [he, List.length_cons] at hs
      split at h
      · have := taggedName_length h; omega
      · split at h
        · exact (name known).read_length h
        · simp [Fault.peek] at h

/-- The value of a whole text. -/
def decode (d : Decoder α) (s : Bytes) : Except Fault α :=
  match d.read s with
  | .error f => .error f
  | .ok (a, r) =>
    match skipBlanks r with
    | [] => .ok a
    | b :: t => Fault.peek (b :: t) .trailingCharacters

end Decoder
end TierTagger.Json
