import TierTagger.Json.Lexeme

/-!
# Skipping a JSON value

A value nobody asked for is checked for its form only: its strings need not be UTF-8 nor its
surrogates paired, its exponents may have any size, and it may be nested to any depth. `skip` keeps the
open brackets on a list and passes from one stage to the next:

* `value`: a value has to start.
* `member`: a key and its colon have to start.
* `item more`: the innermost bracket may close; if `more`, a comma may lead to the next item.
-/

namespace TierTagger.Json

open Ascii

/-! ## Lexemes that are skipped -/

/-- Skips an escape after its backslash. -/
def skipEscape : Bytes → Except Fault Bytes
  | [] => Fault.at [] .endInString
  | b :: r =>
    match simpleEscape? b with
    | some _ => .ok r
    | none => if b = ofChar 'u' then (hex4 r).map (·.2) else Fault.at r .invalidEscape

theorem skipEscape_length {s r : Bytes} (h : skipEscape s = .ok r) : r.length < s.length := by
  unfold skipEscape at h
  split at h
  · simp [Fault.at] at h
  · split at h
    · simp only [Except.ok.injEq] at h; simp [h]
    · split at h
      · simp only [Except.map] at h
        split at h
        · simp at h
        · next x hx =>
          have := hex4_length (n := x.1) (r := x.2) hx
          simp only [Except.ok.injEq] at h
          simp only [List.length_cons, ← h]; omega
      · simp [Fault.at] at h

/-- Skips a string after its opening quote. -/
def skipString (s : Bytes) : Except Fault Bytes :=
  match s with
  | [] => Fault.at [] .endInString
  | b :: r =>
    if b = quote then .ok r
    else if b = backslash then
      match _h : skipEscape r with
      | .error f => .error f
      | .ok r' => skipString r'
    else if b < 0x20 then Fault.at s .controlCharacter
    else skipString r
termination_by s.length
decreasing_by
  · have := skipEscape_length _h; simp only [List.length_cons]; omega
  · simp

theorem skipString_length {s r : Bytes} (h : skipString s = .ok r) : r.length < s.length := by
  fun_induction skipString s with
  | case1 => simp [Fault.at] at h
  | case2 => simp_all
  | case3 => simp at h
  | case4 r' r'' he hq ih =>
    have := ih h; have := skipEscape_length he; simp only [List.length_cons]; omega
  | case5 => simp [Fault.at] at h
  | case6 b r' hq hb hc ih => have := ih h; simp only [List.length_cons]; omega

/-- Skips digits. -/
def skipDigits (s : Bytes) : Bytes := s.dropWhile isDigit

theorem skipDigits_length (s : Bytes) : (skipDigits s).length ≤ s.length :=
  (List.dropWhile_suffix isDigit).length_le

/-- Skips an exponent after its mark. -/
def skipExponent (s : Bytes) : Except Fault Bytes :=
  match (exponentSign s).2 with
  | [] => Fault.at [] .invalidNumber
  | b :: r => if isDigit b then .ok (skipDigits r) else Fault.at r .invalidNumber

/-- Skips the places after the point and an exponent. -/
def skipFraction (s : Bytes) : Except Fault Bytes :=
  let r := skipDigits s
  match s with
  | [] => Fault.peek [] .invalidNumber
  | b :: _ =>
    if !isDigit b then Fault.peek s .invalidNumber
    else match r with
      | e :: r' => if isExponentMark e then skipExponent r' else .ok r
      | [] => .ok []

/-- Skips what follows the integer digits. -/
def skipAfterInteger : Bytes → Except Fault Bytes
  | [] => .ok []
  | b :: r =>
    if b = point then skipFraction r
    else if isExponentMark b then skipExponent r
    else .ok (b :: r)

/-- Skips a number after its sign. -/
def skipNumber : Bytes → Except Fault Bytes
  | [] => Fault.at [] .invalidNumber
  | b :: r =>
    if b = zero then
      match r with
      | d :: _ => if isDigit d then Fault.peek r .invalidNumber else skipAfterInteger r
      | [] => .ok []
    else if isDigit b then skipAfterInteger (skipDigits r)
    else Fault.at r .invalidNumber

theorem exponentSign_length (s : Bytes) : (exponentSign s).2.length ≤ s.length := by
  unfold exponentSign
  split
  · split
    · simp
    · split <;> simp
  · simp

theorem skipExponent_length {s r : Bytes} (h : skipExponent s = .ok r) : r.length ≤ s.length := by
  have hs := exponentSign_length s
  unfold skipExponent at h
  split at h
  · simp [Fault.at] at h
  · next b r' he =>
    split at h
    · simp only [Except.ok.injEq] at h
      have := skipDigits_length r'
      simp only [he, List.length_cons] at hs
      rw [← h]; omega
    · simp [Fault.at] at h

theorem skipFraction_length {s r : Bytes} (h : skipFraction s = .ok r) : r.length ≤ s.length := by
  have hd := skipDigits_length s
  unfold skipFraction at h
  split at h
  · simp [Fault.peek] at h
  · split at h
    · simp [Fault.peek] at h
    · dsimp only at h
      split at h
      · next he =>
        split at h
        · have := skipExponent_length h
          simp only [he, List.length_cons] at hd ⊢; omega
        · simp only [Except.ok.injEq] at h; rw [← h]; exact hd
      · simp only [Except.ok.injEq] at h; simp [← h]

theorem skipAfterInteger_length {s r : Bytes} (h : skipAfterInteger s = .ok r) :
    r.length ≤ s.length := by
  unfold skipAfterInteger at h
  split at h
  · simp only [Except.ok.injEq] at h; simp [← h]
  · split at h
    · exact Nat.le_succ_of_le (skipFraction_length h)
    · split at h
      · exact Nat.le_succ_of_le (skipExponent_length h)
      · simp only [Except.ok.injEq] at h; simp [← h]

theorem skipNumber_length {s r : Bytes} (h : skipNumber s = .ok r) : r.length < s.length := by
  unfold skipNumber at h
  split at h
  · simp [Fault.at] at h
  · split at h
    · split at h
      · split at h
        · simp [Fault.peek] at h
        · exact Nat.lt_succ_of_le (skipAfterInteger_length h)
      · simp only [Except.ok.injEq] at h; simp [← h]
    · split at h
      · have := skipAfterInteger_length h
        have := skipDigits_length (by assumption : Bytes)
        simp only [List.length_cons]
        rename_i r' _ _ _
        have := skipDigits_length r'
        omega
      · simp [Fault.at] at h

/-! ## Values -/

/-- The two brackets that hold values. -/
inductive Bracket where
  | list
  | object
  deriving DecidableEq, Repr

namespace Bracket

/-- The closing bracket. -/
def closer : Bracket → UInt8
  | list => closeBracket
  | object => closeBrace

/-- The text ends before the bracket closes. -/
def endCause : Bracket → Cause
  | list => .endInList
  | object => .endInObject

/-- Something else stands where a comma or the closing bracket has to be. -/
def commaCause : Bracket → Cause
  | list => .expectedCommaOrBracket
  | object => .expectedCommaOrBrace

end Bracket

/-- What `skip` waits for. -/
inductive Stage where
  | value
  | member
  | item (more : Bool)
  deriving DecidableEq, Repr

/-- The stage that starts an item of a bracket. -/
def Bracket.start : Bracket → Stage
  | list => .value
  | object => .member

/-- Orders the stages that follow each other without reading a byte. -/
def Stage.rank : Stage → Nat
  | value => 0
  | member => 0
  | item _ => 1

/-- Skips a scalar given its first byte and the rest. -/
def skipScalar (b : UInt8) (r : Bytes) : Except Fault Bytes :=
  if b = ofChar 'n' then letters nullTail r
  else if b = ofChar 't' then letters trueTail r
  else if b = ofChar 'f' then letters falseTail r
  else if b = minus then skipNumber r
  else if isDigit b then skipNumber (b :: r)
  else if b = quote then skipString r
  else Fault.peek (b :: r) .expectedValue

theorem skipScalar_length {b : UInt8} {r t : Bytes} (h : skipScalar b r = .ok t) :
    t.length ≤ r.length := by
  unfold skipScalar at h
  split at h
  · exact letters_length h
  split at h
  · exact letters_length h
  split at h
  · exact letters_length h
  split at h
  · exact Nat.le_of_lt (skipNumber_length h)
  split at h
  · exact Nat.le_of_lt_succ (skipNumber_length h)
  split at h
  · exact Nat.le_of_lt (skipString_length h)
  · simp [Fault.peek] at h

/-- Skips a key after its opening quote, and the colon. -/
def skipKey (s : Bytes) : Except Fault Bytes :=
  match skipString s with
  | .error f => .error f
  | .ok r => readColon r

theorem skipKey_length {s r : Bytes} (h : skipKey s = .ok r) : r.length < s.length := by
  unfold skipKey at h
  split at h
  · simp at h
  · next hs => exact Nat.lt_trans (readColon_length h) (skipString_length hs)

/-- Skips from a stage to the end of the outermost value. `open_` holds the brackets not closed yet,
the innermost first. -/
def skip (stage : Stage) (open_ : List Bracket) (s : Bytes) : Except Fault Bytes :=
  match _hs : skipBlanks s with
  | [] =>
    match stage, open_ with
    | .item _, k :: _ => Fault.peek [] k.endCause
    | .member, _ => Fault.peek [] .endInObject
    | _, _ => Fault.peek [] .endInValue
  | b :: r =>
    match stage with
    | .value =>
      if b = openBracket then skip (.item false) (.list :: open_) r
      else if b = openBrace then skip (.item false) (.object :: open_) r
      else
        match _h : skipScalar b r with
        | .error f => .error f
        | .ok t => if open_.isEmpty then .ok t else skip (.item true) open_ t
    | .member =>
      if b = quote then
        match _h : skipKey r with
        | .error f => .error f
        | .ok t => skip .value open_ t
      else Fault.peek (b :: r) .keyNotString
    | .item more =>
      match open_ with
      | [] => .ok (b :: r)
      | k :: outer =>
        if b = comma ∧ more then skip k.start (k :: outer) r
        else if b = k.closer then
          if outer.isEmpty then .ok r else skip (.item true) outer r
        else if more then Fault.peek (b :: r) k.commaCause
        else skip k.start (k :: outer) (b :: r)
termination_by (s.length, stage.rank)
decreasing_by
  all_goals
    have hl := skipBlanks_length s
    simp only [_hs, List.length_cons] at hl
  · exact Prod.Lex.left _ _ (by omega)
  · exact Prod.Lex.left _ _ (by omega)
  · have := skipScalar_length _h
    exact Prod.Lex.left _ _ (by omega)
  · have := skipKey_length _h
    exact Prod.Lex.left _ _ (by omega)
  · exact Prod.Lex.left _ _ (by omega)
  · exact Prod.Lex.left _ _ (by omega)
  · have h' : (b :: r).length < s.length ∨ (b :: r).length = s.length := by
      simp only [List.length_cons]; omega
    rcases h' with h' | h'
    · exact Prod.Lex.left _ _ h'
    · rw [h']; exact Prod.Lex.right _ (by cases k <;> simp [Bracket.start, Stage.rank])

/-- Skips one value. -/
def skipValue (s : Bytes) : Except Fault Bytes := skip .value [] s

theorem skip_length {stage : Stage} {open_ : List Bracket} {s t : Bytes}
    (h : skip stage open_ s = .ok t) :
    t.length ≤ s.length ∧ (stage = .value → t.length < s.length) := by
  fun_induction skip stage open_ s <;>
    grind [skipBlanks_length, → skipScalar_length, → skipKey_length, Fault.peek]

theorem skipValue_length {s t : Bytes} (h : skipValue s = .ok t) : t.length < s.length :=
  (skip_length h).2 rfl

end TierTagger.Json
