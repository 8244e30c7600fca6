import TierTagger.Trigger.Body
import Mathlib.Data.List.Basic
import Mathlib.Data.Nat.Digits.Defs

/-!
# Bodies in chunks

How a body in chunks is written and how one breaks off, said by a grammar and without the reader.

* `Chunked`: a body in chunks that ends properly; `Broken`: one that breaks off.
* `readChunks_chunked`, `readChunks_broken`: what the reader makes of either.
* `chunked_or_broken`: there is nothing else.
* `chunked_writeChunks`: any cut of a body into chunks that are not empty can be sent.
-/

namespace TierTagger.Trigger.Framing

open Ascii

variable {s r line data : Bytes} {chunks : List Bytes} {n : Nat}

/-! ## The line of a size -/

/-- The value of hexadecimal digits behind others with the value `n`. -/
def hexValue (n : Nat) (digits : Bytes) : Nat := digits.foldl (fun n b => n * 16 + (hexValue? b).getD 0) n

/-- What may stand behind a size: an extension that starts with a semicolon. -/
inductive Extension : Bytes → Prop
  | absent : Extension []
  | present {e} (plain : ∀ b ∈ e, b ≠ return_ ∧ b ≠ lineFeed) : Extension (0x3b :: e)

/-- The line that announces a chunk of `n` bytes. -/
inductive SizeLine (n : Nat) : Bytes → Prop
  | of {digits blanks extension} (written : digits ≠ []) (hex : ∀ b ∈ digits, (hexValue? b).isSome)
    (value : hexValue 0 digits = n) (fits : n < 2 ^ 64) (blank : ∀ b ∈ blanks, Head.isBlank b)
    (extended : Extension extension) : SizeLine n (digits ++ (blanks ++ (extension ++ [return_, lineFeed])))

@[simp] theorem afterSize_end (extension : Bool) (r : Bytes) :
    afterSize extension (return_ :: lineFeed :: r) = some r := rfl

@[simp] theorem afterSize_semicolon (r : Bytes) : afterSize false (0x3b :: r) = afterSize true r := rfl

theorem afterSize_extension {e : Bytes} (plain : ∀ b ∈ e, b ≠ return_ ∧ b ≠ lineFeed) :
    afterSize true (e ++ [return_, lineFeed] ++ r) = some r := by
  induction e with
  | nil => simp
  | cons b e ih =>
    obtain ⟨⟨not_return, not_feed⟩, plain⟩ := List.forall_mem_cons.mp plain
    simpa [afterSize, not_return, not_feed] using ih plain

theorem afterSize_blanks {blanks : Bytes} (blank : ∀ b ∈ blanks, Head.isBlank b) :
    afterSize false (blanks ++ s) = afterSize false s := by
  induction blanks with
  | nil => rfl
  | cons b blanks ih =>
    obtain ⟨first, blank⟩ := List.forall_mem_cons.mp blank
    have not_return : b ≠ return_ := fun h => by subst h; exact absurd first (by decide)
    simpa [afterSize, not_return, first] using ih blank

theorem afterSize_written {blanks extension : Bytes} (blank : ∀ b ∈ blanks, Head.isBlank b)
    (extended : Extension extension) :
    afterSize false (blanks ++ (extension ++ [return_, lineFeed]) ++ r) = some r := by
  rw [List.append_assoc, afterSize_blanks blank]
  cases extended with
  | absent => simp
  | present plain => simpa using afterSize_extension (r := r) plain

theorem afterSize_return {extension : Bool} (h : afterSize extension (return_ :: s) = some r) :
    s = lineFeed :: r := by
  unfold afterSize at h
  rw [if_pos rfl] at h
  split at h
  · cases h
    rfl
  · cases h

theorem exists_extension (h : afterSize true s = some r) :
    ∃ e, (∀ b ∈ e, b ≠ return_ ∧ b ≠ lineFeed) ∧ s = e ++ [return_, lineFeed] ++ r := by
  induction s with
  | nil => simp [afterSize] at h
  | cons b t ih =>
    by_cases at_return : b = return_
    · subst at_return
      exact ⟨[], by simp, by rw [afterSize_return h]; rfl⟩
    · by_cases at_feed : b = lineFeed
      · subst at_feed
        cases h
      · obtain ⟨e, plain, rfl⟩ := ih (by simpa [afterSize, at_return, at_feed] using h)
        exact ⟨b :: e, List.forall_mem_cons.mpr ⟨⟨at_return, at_feed⟩, plain⟩, rfl⟩

theorem exists_afterSize (h : afterSize false s = some r) :
    ∃ blanks extension, (∀ b ∈ blanks, Head.isBlank b) ∧ Extension extension ∧
      s = blanks ++ (extension ++ [return_, lineFeed]) ++ r := by
  induction s with
  | nil => simp [afterSize] at h
  | cons b t ih =>
    by_cases at_return : b = return_
    · subst at_return
      exact ⟨[], [], by simp, .absent, by rw [afterSize_return h]; rfl⟩
    · by_cases blank : Head.isBlank b
      · obtain ⟨blanks, extension, blanks_blank, extended, rfl⟩ :=
          ih (by simpa [afterSize, at_return, blank] using h)
        exact ⟨b :: blanks, extension, List.forall_mem_cons.mpr ⟨blank, blanks_blank⟩, extended, rfl⟩
      · by_cases at_semicolon : b = 0x3b
        · subst at_semicolon
          obtain ⟨e, plain, rfl⟩ := exists_extension (s := t) (by simpa using h)
          exact ⟨[], 0x3b :: e, by simp, .present plain, by simp⟩
        · simp [afterSize, at_return, blank, at_semicolon] at h

/-- Digits are read up to what is none. -/
theorem hexadecimal_append {digits : Bytes} (hex : ∀ b ∈ digits, (hexValue? b).isSome)
    (ends : ∀ b ∈ s.head?, hexValue? b = none) : hexadecimal n (digits ++ s) = (hexValue n digits, s) := by
  induction digits generalizing n with
  | nil =>
    cases s with
    | nil => rfl
    | cons b s => simp [hexadecimal, hexValue, ends b (by simp)]
  | cons b digits ih =>
    obtain ⟨first, hex⟩ := List.forall_mem_cons.mp hex
    obtain ⟨d, at_d⟩ := Option.isSome_iff_exists.mp first
    simp [hexadecimal, hexValue, at_d, ih hex]

theorem exists_digits (n : Nat) (s : Bytes) :
    ∃ digits, (∀ b ∈ digits, (hexValue? b).isSome) ∧ s = digits ++ (hexadecimal n s).2 ∧
      (hexadecimal n s).1 = hexValue n digits := by
  induction s generalizing n with
  | nil => exact ⟨[], by simp, rfl, rfl⟩
  | cons b s ih =>
    cases at_b : hexValue? b with
    | none => exact ⟨[], by simp, by simp [hexadecimal, at_b], by simp [hexadecimal, at_b, hexValue]⟩
    | some d =>
      obtain ⟨digits, hex, split, value⟩ := ih (n * 16 + d)
      refine ⟨b :: digits, List.forall_mem_cons.mpr ⟨by simp [at_b], hex⟩, ?_, ?_⟩
      · simp only [hexadecimal, at_b]
        exact congrArg (b :: ·) split
      · simpa [hexadecimal, at_b, hexValue] using value

/-- A size is read off its line and nothing else. -/
theorem size?_eq_some : size? s = some (n, r) ↔ ∃ line, SizeLine n line ∧ s = line ++ r := by
  constructor
  · intro h
    cases s with
    | nil => cases h
    | cons b t =>
      unfold size? at h
      simp only at h
      split at h
      · cases h
      · rename_i is_digit
        split at h
        · rename_i fits
          obtain ⟨r', after, same⟩ := Option.map_eq_some_iff.mp h
          obtain ⟨rfl, rfl⟩ := Prod.mk.inj same
          obtain ⟨blanks, extension, blank, extended, rest⟩ := exists_afterSize after
          obtain ⟨digits, hex, split, value⟩ := exists_digits 0 (b :: t)
          have written : digits ≠ [] := by
            rintro rfl
            obtain ⟨d, at_d⟩ := Option.ne_none_iff_exists'.mp (by simpa using is_digit)
            have shorter := hexadecimal_length (0 * 16 + d) t
            have same := congrArg List.length split
            simp only [List.nil_append, hexadecimal, at_d, List.length_cons] at same
            omega
          refine ⟨_, .of written hex value.symm (by simpa using fits) blank extended, ?_⟩
          rw [List.append_assoc, ← rest, ← split]
        · cases h
  · rintro ⟨_, ⟨written, hex, rfl, fits, blank, extended⟩, rfl⟩
    rename_i digits blanks extension
    obtain ⟨b, t, rfl⟩ := List.exists_cons_of_ne_nil written
    obtain ⟨d, at_d⟩ := Option.isSome_iff_exists.mp (hex b (by simp))
    have ends : ∀ c ∈ (blanks ++ (extension ++ [return_, lineFeed]) ++ r).head?, hexValue? c = none := by
      intro c mem
      cases blanks with
      | cons c' blanks =>
        obtain rfl : c' = c := by simpa using mem
        rcases (by simpa [Head.isBlank] using blank c' (by simp) : c' = space ∨ c' = tab) with rfl | rfl <;>
          rfl
      | nil =>
        cases extended with
        | absent =>
          obtain rfl : return_ = c := by simpa using mem
          rfl
        | present =>
          obtain rfl : 0x3b = c := by simpa using mem
          rfl
    have read := hexadecimal_append (n := 0) hex ends
    rw [List.append_assoc]
    rw [List.cons_append] at read ⊢
    simp only [size?, at_d, Option.isNone_some, Bool.false_eq_true, if_false, read]
    rw [if_pos (by simpa using fits), afterSize_written blank extended]
    rfl

/-! ## The end -/

/-- The end of a body in chunks: headers, and an empty line. -/
inductive Trailer : Bytes → Prop
  | empty : Trailer [return_, lineFeed]
  | header {line t : Bytes} (plain : return_ ∉ line) (read : (Head.header? line).isSome) (rest : Trailer t) :
    Trailer (line ++ return_ :: lineFeed :: t)

theorem endsProperly_line {l : Bytes} (plain : return_ ∉ l) :
    endsProperly line (l ++ return_ :: lineFeed :: r) =
      if line ++ l = [] then true else (Head.header? (line ++ l)).isSome && endsProperly [] r := by
  induction l generalizing line with
  | nil =>
    rw [List.append_nil]
    rfl
  | cons b l ih =>
    obtain ⟨not_return, plain⟩ := not_or.mp (List.mem_cons.not.mp plain)
    have step : endsProperly line (b :: (l ++ return_ :: lineFeed :: r)) =
        endsProperly (line ++ [b]) (l ++ return_ :: lineFeed :: r) := by
      simp [endsProperly, Ne.symm not_return]
    rw [List.cons_append, step, ih plain, List.append_assoc, List.singleton_append]

theorem exists_line (ends : endsProperly line s) :
    ∃ l rest, return_ ∉ l ∧ s = l ++ return_ :: lineFeed :: rest := by
  induction s generalizing line with
  | nil => cases ends
  | cons b s ih =>
    by_cases at_return : b = return_
    · subst at_return
      match s, ends with
      | lineFeed :: rest, _ => exact ⟨[], rest, by simp, rfl⟩
    · have later : endsProperly (line ++ [b]) s := by simpa [endsProperly, at_return] using ends
      obtain ⟨l, rest, plain, rfl⟩ := ih later
      exact ⟨b :: l, rest, by simp [Ne.symm at_return, plain], rfl⟩

theorem exists_trailer {s : Bytes} (ends : endsProperly [] s) : ∃ t rest, Trailer t ∧ s = t ++ rest := by
  obtain ⟨l, rest, plain, split⟩ := exists_line ends
  have shorter : rest.length < s.length := by
    rw [split, List.length_append, List.length_cons, List.length_cons]
    omega
  rw [split, endsProperly_line plain] at ends
  rw [split]
  split at ends
  · rename_i nothing
    obtain rfl : l = [] := by simpa using nothing
    exact ⟨_, rest, .empty, rfl⟩
  · obtain ⟨read, ends⟩ := Bool.and_eq_true_iff.mp ends
    obtain ⟨t, rest', trailer, rfl⟩ := exists_trailer ends
    exact ⟨_, rest', .header plain read trailer, by simp⟩
termination_by s.length

theorem endsProperly_trailer {t : Bytes} (trailer : Trailer t) : endsProperly [] (t ++ r) := by
  induction trailer with
  | empty => rfl
  | header plain read _ ih =>
    rw [List.append_assoc, List.cons_append, List.cons_append, endsProperly_line plain]
    split
    · rfl
    · exact Bool.and_eq_true_iff.mpr ⟨read, ih⟩

/-! ## Bodies -/

/-- A body in chunks that ends properly. -/
inductive Chunked : List Bytes → Bytes → Prop
  | last {line t : Bytes} (size : SizeLine 0 line) (trailer : Trailer t) : Chunked [] (line ++ t)
  | chunk {line data s : Bytes} {chunks : List Bytes} (full : data ≠ []) (size : SizeLine data.length line)
    (rest : Chunked chunks s) : Chunked (data :: chunks) (line ++ (data ++ return_ :: lineFeed :: s))

/-- A body in chunks that breaks off, and the chunks that arrive of it. -/
inductive Broken : List Bytes → Bytes → Prop
  /-- There is no size, or its line ends early. -/
  | size {s : Bytes} (absent : ∀ n line r, SizeLine n line → s ≠ line ++ r) : Broken [] s
  /-- The last chunk is not followed by headers and an empty line. -/
  | trailer {line s : Bytes} (size : SizeLine 0 line) (absent : ∀ t r, Trailer t → s ≠ t ++ r) :
    Broken [] (line ++ s)
  /-- There are fewer bytes than announced, or no line end is behind them. -/
  | data {n : Nat} {line s : Bytes} (full : n ≠ 0) (size : SizeLine n line)
    (absent : ¬[return_, lineFeed] <+: s.drop n) :
    Broken [s.take n] (line ++ s)
  | chunk {line data s : Bytes} {chunks : List Bytes} (full : data ≠ []) (size : SizeLine data.length line)
    (rest : Broken chunks s) : Broken (data :: chunks) (line ++ (data ++ return_ :: lineFeed :: s))

theorem readChunks_none (absent : size? s = none) : readChunks s = ⟨[], false⟩ := by
  rw [readChunks]
  split <;> simp_all

theorem readChunks_last (size : size? s = some (0, r)) : readChunks s = ⟨[], endsProperly [] r⟩ := by
  rw [readChunks]
  split <;> simp_all

theorem readChunks_data (full : n ≠ 0) (size : size? s = some (n, r))
    (absent : ¬[return_, lineFeed] <+: r.drop n) : readChunks s = ⟨[r.take n], false⟩ := by
  obtain ⟨n, rfl⟩ := Nat.exists_eq_succ_of_ne_zero full
  rw [readChunks]
  split
  · simp_all
  · simp_all
  · rename_i m t at_m
    obtain ⟨same, rfl⟩ : n + 1 = m + 1 ∧ r = t := by simpa using size.symm.trans at_m
    obtain rfl : n = m := Nat.succ.inj same
    simp only
    split
    · rename_i rest ended
      exact absurd ⟨rest, ended.symm⟩ absent
    · rfl

theorem readChunks_chunk (full : data ≠ [])
    (size : size? s = some (data.length, data ++ return_ :: lineFeed :: r)) :
    readChunks s = ⟨data :: (readChunks r).frames, (readChunks r).complete⟩ := by
  rw [readChunks]
  split
  · simp_all
  · rename_i t at_zero
    obtain ⟨empty, -⟩ : data.length = 0 ∧ data ++ return_ :: lineFeed :: r = t := by
      simpa using size.symm.trans at_zero
    exact absurd (List.length_eq_zero_iff.mp empty) full
  · rename_i m t at_m
    obtain ⟨long, rfl⟩ : data.length = m + 1 ∧ data ++ return_ :: lineFeed :: r = t := by
      simpa using size.symm.trans at_m
    rw [← long, List.take_left]
    split
    · rename_i rest ended
      obtain rfl : r = rest := by simpa [← long] using ended
      rfl
    · rename_i other
      exact absurd List.drop_left (other r)

theorem readChunks_chunked (body : Chunked chunks s) (r : Bytes) : readChunks (s ++ r) = ⟨chunks, true⟩ := by
  induction body with
  | last size trailer =>
    rw [List.append_assoc, readChunks_last (size?_eq_some.mpr ⟨_, size, rfl⟩), endsProperly_trailer trailer]
  | chunk full size _ ih =>
    rw [List.append_assoc, List.append_assoc, List.cons_append, List.cons_append,
      readChunks_chunk full (size?_eq_some.mpr ⟨_, size, rfl⟩), ih]

theorem readChunks_broken (body : Broken chunks s) : readChunks s = ⟨chunks, false⟩ := by
  induction body with
  | size absent =>
    refine readChunks_none (Option.eq_none_iff_forall_ne_some.mpr fun x found => ?_)
    obtain ⟨line, size, split⟩ := size?_eq_some.mp found
    exact absent _ _ _ size split
  | @trailer line s size absent =>
    have fails : endsProperly [] s = false := by
      refine Bool.eq_false_iff.mpr fun ends => ?_
      obtain ⟨t, r, trailer, split⟩ := exists_trailer ends
      exact absent t r trailer split
    rw [readChunks_last (size?_eq_some.mpr ⟨_, size, rfl⟩), fails]
  | data full size absent => exact readChunks_data full (size?_eq_some.mpr ⟨_, size, rfl⟩) absent
  | chunk full size _ ih => rw [readChunks_chunk full (size?_eq_some.mpr ⟨_, size, rfl⟩), ih]

theorem hexValue_append (n : Nat) (s t : Bytes) : hexValue n (s ++ t) = hexValue (hexValue n s) t :=
  List.foldl_append

theorem toDigits_hex (n : Nat) :
    (∀ b ∈ (Nat.toDigits 16 n).map ofChar, (hexValue? b).isSome) ∧
      hexValue 0 ((Nat.toDigits 16 n).map ofChar) = n := by
  have digit : ∀ d < 16, hexValue? (ofChar (Nat.digitChar d)) = some d := by decide
  induction n using Nat.strongRecOn with
  | ind n ih =>
    by_cases small : n < 16
    · rw [Nat.toDigits_of_lt_base small]
      simp [digit n small, hexValue]
    · have last := digit (n % 16) (by omega)
      obtain ⟨hex, value⟩ := ih (n / 16) (by omega)
      rw [Nat.toDigits_of_base_le (by decide) (by omega), List.map_append]
      constructor
      · refine List.forall_mem_append.mpr ⟨hex, ?_⟩
        simp [last]
      · rw [hexValue_append, value]
        simp only [hexValue, List.map_cons, List.map_nil, List.foldl_cons, List.foldl_nil, last,
          Option.getD_some]
        omega

theorem sizeLine_toDigits (fits : n < 2 ^ 64) :
    SizeLine n ((Nat.toDigits 16 n).map ofChar ++ [return_, lineFeed]) := by
  obtain ⟨hex, value⟩ := toDigits_hex n
  have written : (Nat.toDigits 16 n).map ofChar ≠ [] := fun h => Nat.toDigits_ne_nil (List.map_eq_nil_iff.mp h)
  have blank : ∀ b ∈ ([] : Bytes), Head.isBlank b := nofun
  exact .of written hex value fits blank .absent

/-- Any cut of a body into chunks that are not empty can be sent. -/
theorem chunked_writeChunks (full : ∀ c ∈ chunks, c ≠ [] ∧ c.length < 2 ^ 64) :
    Chunked chunks (writeChunks chunks) := by
  induction chunks with
  | nil =>
    have last : Chunked [] (((Nat.toDigits 16 0).map ofChar ++ [return_, lineFeed]) ++ [return_, lineFeed]) :=
      .last (sizeLine_toDigits (by decide)) .empty
    exact last
  | cons c chunks ih =>
    obtain ⟨⟨full_c, fits⟩, full⟩ := List.forall_mem_cons.mp full
    have parts : writeChunks (c :: chunks) = ((Nat.toDigits 16 c.length).map ofChar ++ [return_, lineFeed]) ++
        (c ++ return_ :: lineFeed :: writeChunks chunks) := by
      simp [writeChunks, writeChunk]
    rw [parts]
    exact .chunk full_c (sizeLine_toDigits fits) (ih full)

end TierTagger.Trigger.Framing
